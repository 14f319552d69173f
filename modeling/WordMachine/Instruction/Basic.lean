import WordMachine.Opcode
import WordMachine.Operand

/-!
# Instructions

An `Instruction` carries its operands as what they stand for: destinations are registers, sources
are operands still to be read. `encode` writes an instruction as the words that stand for it, its
opcode's word and then one word for each operand. `text` is its mnemonic and its operands, with one
blank before each operand: `add r0 4 r1`.
-/

namespace WordMachine

/-- The operations that compute a word from two words. -/
inductive BinaryOp
  | eq | gt | add | mult | mod | and | or
  deriving DecidableEq, Repr

/-- The opcode of a binary operation. -/
def BinaryOp.opcode : BinaryOp → Opcode
  | .eq => .eq
  | .gt => .gt
  | .add => .add
  | .mult => .mult
  | .mod => .mod
  | .and => .and
  | .or => .or

/-- An instruction with its operands. -/
inductive Instruction
  | halt
  | set (dst : Register) (value : Operand)
  | push (value : Operand)
  | pop (dst : Register)
  | binary (op : BinaryOp) (dst : Register) (left right : Operand)
  | jmp (target : Operand)
  /-- Jumps if the tested value is nonzero. -/
  | jt (test target : Operand)
  /-- Jumps if the tested value is zero. -/
  | jf (test target : Operand)
  | not (dst : Register) (value : Operand)
  | rmem (dst : Register) (address : Operand)
  | wmem (address value : Operand)
  /-- Pushes the address of the next instruction, then jumps. -/
  | call (target : Operand)
  /-- Pops an address and jumps to it, or stops the machine if the stack is empty. -/
  | ret
  | out (value : Operand)
  | inp (dst : Register)
  | noop
  deriving DecidableEq, Repr

namespace Instruction

/-- The opcode of an instruction. -/
def opcode : Instruction → Opcode
  | halt => .halt
  | set .. => .set
  | push .. => .push
  | pop .. => .pop
  | binary op .. => op.opcode
  | jmp .. => .jmp
  | jt .. => .jt
  | jf .. => .jf
  | not .. => .not
  | rmem .. => .rmem
  | wmem .. => .wmem
  | call .. => .call
  | ret => .ret
  | out .. => .out
  | inp .. => .inp
  | noop => .noop

/-- The operands of an instruction as they are written, from left to right. -/
def operands : Instruction → List Operand
  | halt | ret | noop => []
  | push a | jmp a | call a | out a => [a]
  | pop d | inp d => [.register d]
  | set d a | not d a | rmem d a => [.register d, a]
  | jt a b | jf a b | wmem a b => [a, b]
  | binary _ d a b => [.register d, a, b]

/-- How many words an instruction takes up. -/
def size (i : Instruction) : Nat := 1 + i.opcode.arity

/-- The words that stand for an instruction. -/
def encode (i : Instruction) : List Word := i.opcode.word :: i.operands.map Operand.word

/-- The text of an instruction. -/
def text (i : Instruction) : String :=
  " ".intercalate (i.opcode.mnemonic :: i.operands.map Operand.text)

theorem length_operands (i : Instruction) : i.operands.length = i.opcode.arity := by
  cases i with
  | binary op _ _ _ => cases op <;> rfl
  | _ => rfl

theorem length_encode (i : Instruction) : i.encode.length = i.size := by
  simp [encode, size, length_operands, Nat.add_comm]

end Instruction

end WordMachine
