import WordMachine.Machine.Basic

/-!
# What instructions do

An instruction is executed in two parts. `action` reads the operands and makes all the checks that
can fail without a device; it answers what is to be done and changes nothing. If what is to be done
needs no device, it is an `Effect`, and `apply` does it, which cannot fail. So an instruction that
fails has changed nothing.
-/

namespace WordMachine

/-- A change of the machine's state. -/
inductive Effect
  | next
  | store (dst : Register) (value : Word)
  | write (address : Address) (value : Word)
  | push (value : Word)
  /-- Takes the top of the stack, the given value, into a register. -/
  | pop (dst : Register) (value : Word)
  | jump (target : Address)
  /-- Pushes the address of the next instruction and goes on at another address. -/
  | call (target : Address)
  /-- Takes the top of the stack, the given address, and goes on there. -/
  | ret (target : Address)
  /-- Halts; `emptyReturn` tells whether because of a return with an empty stack. -/
  | halt (emptyReturn : Bool)
  deriving DecidableEq, Repr

/-- What an instruction asks for. -/
inductive Action
  | effect (e : Effect)
  | output (value : Word)
  | input (dst : Register)
  deriving DecidableEq, Repr

/-- The result of a binary operation. -/
def BinaryOp.eval (op : BinaryOp) (a b : Word) : Except Error Word :=
  match op with
  | .eq => .ok (Arith.eq a b)
  | .gt => .ok (Arith.gt a b)
  | .add => .ok (Arith.add a b)
  | .mult => .ok (Arith.mul a b)
  | .mod => match Arith.rem? a b with
    | some r => .ok r
    | none => .error .divideByZero
  | .and => .ok (Arith.and a b)
  | .or => .ok (Arith.or a b)

/-- What the log reports of an effect. -/
def Effect.log : Effect → List Record
  | halt true => [.emptyReturn]
  | _ => []

namespace Machine

/-- The jump to where an operand says. -/
def jump (m : Machine) (target : Operand) : Except Error Action :=
  (.effect <| .jump ·) <$> Address.ofWord (m.value target)

/-- What an instruction asks for in a state of the machine. -/
def action (m : Machine) : Instruction → Except Error Action
  | .halt => .ok (.effect (.halt false))
  | .set dst value => .ok (.effect (.store dst (m.value value)))
  | .push value => .ok (.effect (.push (m.value value)))
  | .pop dst => match m.stack.top? with
    | some w => .ok (.effect (.pop dst w))
    | none => .error .stackUnderflow
  | .binary op dst left right =>
    (.effect <| .store dst ·) <$> op.eval (m.value left) (m.value right)
  | .jmp target => m.jump target
  | .jt test target => if m.value test ≠ 0 then m.jump target else .ok (.effect .next)
  | .jf test target => if m.value test = 0 then m.jump target else .ok (.effect .next)
  | .not dst value => .ok (.effect (.store dst (Arith.not (m.value value))))
  | .rmem dst address => (.effect <| .store dst ·) <$> m.readMemory (m.value address)
  | .wmem address value =>
    (.effect <| .write · (m.value value)) <$> Address.ofWord (m.value address)
  | .call target => (.effect <| .call ·) <$> Address.ofWord (m.value target)
  | .ret => match m.stack.top? with
    | some w => (.effect <| .ret ·) <$> Address.ofWord w
    | none => .ok (.effect (.halt true))
  | .out value => .ok (.output (m.value value))
  | .inp dst => .ok (.input dst)
  | .noop => .ok (.effect .next)

/-- Makes a change of state; the next instruction is at `next`. -/
def apply (m : Machine) (next : Word) : Effect → Machine
  | .next => { m with pc := next }
  | .store dst value => { m.setRegister dst value with pc := next }
  | .write address value => { m.setWord address value with pc := next }
  | .push value => { m with stack := m.stack.push value, pc := next }
  | .pop dst value => { m.setRegister dst value with stack := m.stack.drop, pc := next }
  | .jump target => { m with pc := target.word }
  | .call target => { m with stack := m.stack.push next, pc := target.word }
  | .ret target => { m with stack := m.stack.drop, pc := target.word }
  | .halt _ => { m with pc := haltedPc }

end Machine

end WordMachine
