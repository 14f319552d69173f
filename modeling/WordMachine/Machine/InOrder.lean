import WordMachine.Machine.Step

/-!
# The machine, statement by statement

`Machine.step` tells what a step leads to, and its checks come before its changes. Here the same step
is told as the statements that make it up, one after the other: what they read is as the statements
before have left it, and if one of them fails, what was done up to then stays done. So it can be said
of a step that fails what it has changed by then, and of a program that is refused what is left of
the machine.
-/

namespace WordMachine

/-- What the statements of a step work on. -/
structure Workspace (δ : Type) where
  machine : Machine
  device : δ
  /-- What was reported so far. -/
  log : List Record

/-- Statements that may fail. What was done up to then is in the workspace that they leave. -/
abbrev Statements (ε δ α : Type) := EStateM ε (Workspace δ) α

namespace Statements

variable {ε δ α : Type}

/-- Something of the machine as it is by now. -/
def look (f : Machine → α) : Statements ε δ α := return f (← get).machine

/-- Changes the machine. -/
def change (f : Machine → Machine) : Statements ε δ Unit :=
  modify fun s => { s with machine := f s.machine }

def report (r : Record) : Statements ε δ Unit := modify fun s => { s with log := s.log ++ [r] }

/-- Goes on with a result, or fails with its error. -/
def demand : Except ε α → Statements ε δ α
  | .ok a => return a
  | .error e => throw e

/-- Calls the device. It is changed and reports also if the call fails. -/
def call (f : δ → Reply δ α) : Statements Error δ α := do
  let s ← get
  let reply := f s.device
  set { s with device := reply.device, log := s.log ++ reply.log }
  demand (reply.result.mapError .device)

/-! ### What instructions are made of -/

def value (a : Operand) : Statements Error δ Word := look (·.value a)

def store (dst : Register) (w : Word) : Statements Error δ Unit := change (·.setRegister dst w)

def push (w : Word) : Statements Error δ Unit := change fun m => { m with stack := m.stack.push w }

def pop : Statements Error δ Word := do
  let (w, stack) ← demand (← look (·.stack.pop))
  change fun m => { m with stack }
  return w

def checkAddress (w : Word) : Statements Error δ Unit := do
  let _ ← demand (Address.ofWord w)

def readMemory (address : Word) : Statements Error δ Word := do
  demand (← look (·.readMemory address))

def writeMemory (address w : Word) : Statements Error δ Unit := do
  let m ← demand (← look (·.writeMemory address w))
  change fun _ => m

/-- Where control is transferred to. -/
def target (a : Operand) : Statements Error δ Word := do
  let t ← value a
  checkAddress t
  return t

/-- Computes what always has a result. -/
def compute (f : Word → Word → Word) (dst : Register) (left right : Operand) :
    Statements Error δ Unit := do
  store dst (f (← value left) (← value right))

/-- The statements of a binary operation. -/
def operate (dst : Register) (left right : Operand) : BinaryOp → Statements Error δ Unit
  | .eq => compute Arith.eq dst left right
  | .gt => compute Arith.gt dst left right
  | .add => compute Arith.add dst left right
  | .mult => compute Arith.mul dst left right
  | .and => compute Arith.and dst left right
  | .or => compute Arith.or dst left right
  | .mod => do
    let divisor ← value right
    if divisor = 0 then throw .divideByZero
    else do store dst ((← value left) % divisor)

/-- Returns to what is on top of the stack, which is taken away only if it is an address. -/
def returnTo : Option Word → Statements Error δ Word
  | none => do
    report .emptyReturn
    return Machine.haltedPc
  | some t => do
    checkAddress t
    pop

/-- Stores what the device has given. -/
def receive (dst : Register) : Option Word → Statements Error δ Unit
  | none => throw .inputExhausted
  | some w => store dst w

/-- The statements of an instruction. They answer the address of the next one. -/
def ofInstruction [Device δ] (i : Instruction) : Statements Error δ Word := do
  let next ← look (·.next i)
  match i with
  | .halt => return Machine.haltedPc
  | .set dst source => do
    store dst (← value source)
    return next
  | .push source => do
    let w ← value source
    push w
    return next
  | .pop dst => do
    store dst (← pop)
    return next
  | .binary op dst left right => do
    operate dst left right op
    return next
  | .jmp dst => target dst
  | .jt test dst => do if (← value test) ≠ 0 then target dst else return next
  | .jf test dst => do if (← value test) = 0 then target dst else return next
  | .not dst source => do
    store dst (Arith.not (← value source))
    return next
  | .rmem dst source => do
    let address ← value source
    store dst (← readMemory address)
    return next
  | .wmem dst source => do
    let address ← value dst
    let w ← value source
    writeMemory address w
    return next
  | .call dst => do
    let t ← target dst
    push next
    return t
  | .ret => do returnTo (← look (·.stack.top?))
  | .out source => do
    let w ← value source
    call fun d => Device.output d w
    return next
  | .inp dst => do
    receive dst (← call Device.input)
    return next
  | .noop => return next

/-! ### Steps -/

/-- How the machine stands at the end of a step. -/
def status : Statements Fault δ Status := do
  if ← look (·.isHalted) then
    report .halted
    return .halted
  else return .running

/-- Executes an instruction: the program counter is set last, to what the instruction answers. -/
def execute [Device δ] (i : Instruction) : Statements Fault δ Status := do
  let pc ← look (·.pc)
  report (.trace (← look (·.trace i)))
  let next ← (ofInstruction i).adaptExcept (⟨pc, i.opcode, ·⟩)
  change fun m => { m with pc := next }
  status

/-- The statements of a step of a machine that has not halted. -/
def proceed [Device δ] : Statements Fault δ Status := do
  let pc ← look (·.pc)
  match ← look (·.decode pc), ← look (·.policy) with
  | .ok i, _ => execute i
  | .error (.unknownOpcode w), .skip =>
    report (.unknownOpcode w pc)
    change fun m => { m with skipped := m.skipped + 1 }
    change fun m => { m with pc := pc + 1 }
    status
  | .error e, _ => throw ⟨pc, ← look (·.opcode?), e⟩

/-- The statements of a step. -/
def step [Device δ] : Statements Fault δ Status := do
  if ← look (·.isHalted) then return .halted else proceed

end Statements

/-- What the statements of a step lead to. -/
def Step.ofResult {δ : Type} : EStateM.Result Fault (Workspace δ) Status → Step δ
  | .ok status s => ⟨.ok status, s.machine, s.device, s.log⟩
  | .error f s => ⟨.error f, s.machine, s.device, s.log⟩

/-- Makes a step, statement by statement. -/
def Machine.stepInOrder {δ : Type} [Device δ] (m : Machine) (device : δ) :
    EStateM.Result Fault (Workspace δ) Status :=
  Statements.step.run ⟨m, device, []⟩

/-! ### Loading -/

/-- The statements that load a program: it is checked, copied to the beginning of memory, the rest of
memory is filled with zeros, and then all else starts afresh. -/
def Machine.loading (program : Array Word) : EStateM ImageError Machine Unit := do
  MonadExcept.ofExcept (Image.validate program)
  modify fun m => { m with memory := m.memory.mapIdx fun i w => program.getD i w }
  modify fun m => { m with memory := m.memory.mapIdx fun i w => if i < program.size then w else 0 }
  modify fun m => { m with registers := .replicate registerCount 0 }
  modify fun m => { m with stack := .empty }
  modify fun m => { m with pc := 0 }
  modify fun m => { m with skipped := 0 }

/-- Loads a program, statement by statement. -/
def Machine.loadInOrder (m : Machine) (program : Array Word) :
    EStateM.Result ImageError Machine Unit :=
  (loading program).run m

end WordMachine
