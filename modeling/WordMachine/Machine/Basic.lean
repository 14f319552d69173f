import WordMachine.Image
import WordMachine.Instruction.Decode
import WordMachine.Log
import WordMachine.Stack

/-!
# The machine

The state of the machine: memory, registers, stack, program counter, what to do about unknown
opcodes, and how many of them were skipped. Memory and registers can be read and written by address
and register, which cannot fail, and by raw words, which fails if a word is no address or names no
register.
-/

namespace WordMachine

/-- What happens when the word at the program counter is no opcode. -/
inductive Policy
  | skip
  | fault
  deriving DecidableEq, Repr, Inhabited

/-- The state of the machine. -/
structure Machine where
  memory : Vector Word memorySize
  registers : Vector Word registerCount
  stack : Stack
  /-- The address of the next instruction; the machine has halted if it is no address. -/
  pc : Word
  policy : Policy
  /-- How many unknown opcodes were skipped since a program was loaded. -/
  skipped : Nat
  deriving DecidableEq, Repr

namespace Machine

/-- The program counter of a machine that has halted. -/
def haltedPc : Word := .ofNat memorySize

/-- The machine with nothing loaded: all words are zero and the stack is empty. -/
def blank (policy : Policy) : Machine where
  memory := .replicate memorySize 0
  registers := .replicate registerCount 0
  stack := .empty
  pc := 0
  policy := policy
  skipped := 0

instance : Inhabited Machine := ⟨blank default⟩

/-- Loads a program at address 0 and starts afresh, unless the program is refused. -/
def load (m : Machine) (program : Array Word) : Except ImageError Machine := do
  Image.validate program
  return { blank m.policy with memory := .ofFn fun i => program.getD i 0 }

/-- Whether the machine has halted: the program counter is past the end of memory. -/
def isHalted (m : Machine) : Bool := memorySize ≤ m.pc.toNat

/-! ### Reading and writing -/

/-- What a register holds. -/
def register (m : Machine) (r : Register) : Word := m.registers[r.index]

/-- Puts a word into a register. -/
def setRegister (m : Machine) (r : Register) (w : Word) : Machine :=
  { m with registers := m.registers.set r.index w }

/-- The word at an address. -/
def word (m : Machine) (a : Address) : Word := m.memory.get ⟨a.word.toNat, a.isLt⟩

/-- Puts a word at an address. -/
def setWord (m : Machine) (a : Address) (w : Word) : Machine :=
  { m with memory := m.memory.set a.word.toNat w a.isLt }

/-- The value of an operand. -/
def value (m : Machine) : Operand → Word
  | .literal value => value.word
  | .register r => m.register r

/-- The value of an operand word. -/
def resolve (m : Machine) (w : Word) : Except Error Word :=
  m.value <$> Operand.ofWord w

/-- Puts a word into the register that a word names. -/
def writeRegister (m : Machine) (dst w : Word) : Except Error Machine :=
  (m.setRegister · w) <$> Register.ofWord dst

/-- The word of memory that a word is the address of. -/
def readMemory (m : Machine) (address : Word) : Except Error Word :=
  m.word <$> Address.ofWord address

/-- Puts a word into memory at the address that a word is. -/
def writeMemory (m : Machine) (address w : Word) : Except Error Machine :=
  (m.setWord · w) <$> Address.ofWord address

/-! ### Instructions -/

/-- The instruction at a word of memory. -/
def decode (m : Machine) (pc : Word) : Except Error Instruction :=
  Instruction.decode m.memory.toArray pc.toNat

/-- The opcode at the program counter. -/
def opcode? (m : Machine) : Option Opcode :=
  m.memory[m.pc.toNat]?.bind Opcode.ofWord?

/-- What the log shows of the machine before an instruction. -/
def trace (m : Machine) (i : Instruction) : Trace where
  pc := m.pc
  instruction := i
  registers := m.registers
  depth := m.stack.depth
  top := m.stack.top?

end Machine

end WordMachine
