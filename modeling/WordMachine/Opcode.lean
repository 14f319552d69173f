import WordMachine.Word

/-!
# The instruction table

The machine has twenty-two opcodes, numbered from 0 on. An `Opcode.Row` of the table gives an opcode's word,
its mnemonic and what its operand words stand for. `Opcode.all` lists the opcodes by their words,
so looking a word up is indexing that list.
-/

namespace WordMachine

/-- The operations of the machine, named by their mnemonics (`inp` is `in`). -/
inductive Opcode
  | halt | set | push | pop | eq | gt | jmp | jt | jf | add | mult | mod | and | or | not
  | rmem | wmem | call | ret | out | inp | noop
  deriving DecidableEq, Repr, Inhabited

/-- What an operand word stands for. -/
inductive Slot
  /-- The register that the result goes to. -/
  | destination
  /-- A value, given as a literal or held by a register. -/
  | source
  deriving DecidableEq, Repr

/-- A row of the instruction table. -/
structure Opcode.Row where
  /-- The word that stands for the opcode in memory. -/
  word : Word
  mnemonic : String
  /-- What the operand words stand for, in order. -/
  slots : List Slot
  deriving DecidableEq, Repr

namespace Opcode

/-- The row of an opcode in the instruction table. -/
def row : Opcode → Row
  | halt => ⟨0, "halt", []⟩
  | set => ⟨1, "set", [.destination, .source]⟩
  | push => ⟨2, "push", [.source]⟩
  | pop => ⟨3, "pop", [.destination]⟩
  | eq => ⟨4, "eq", [.destination, .source, .source]⟩
  | gt => ⟨5, "gt", [.destination, .source, .source]⟩
  | jmp => ⟨6, "jmp", [.source]⟩
  | jt => ⟨7, "jt", [.source, .source]⟩
  | jf => ⟨8, "jf", [.source, .source]⟩
  | add => ⟨9, "add", [.destination, .source, .source]⟩
  | mult => ⟨10, "mult", [.destination, .source, .source]⟩
  | mod => ⟨11, "mod", [.destination, .source, .source]⟩
  | and => ⟨12, "and", [.destination, .source, .source]⟩
  | or => ⟨13, "or", [.destination, .source, .source]⟩
  | not => ⟨14, "not", [.destination, .source]⟩
  | rmem => ⟨15, "rmem", [.destination, .source]⟩
  | wmem => ⟨16, "wmem", [.source, .source]⟩
  | call => ⟨17, "call", [.source]⟩
  | ret => ⟨18, "ret", []⟩
  | out => ⟨19, "out", [.source]⟩
  | inp => ⟨20, "in", [.destination]⟩
  | noop => ⟨21, "noop", []⟩

/-- The word that stands for an opcode. -/
def word (o : Opcode) : Word := o.row.word

/-- The name of an opcode. -/
def mnemonic (o : Opcode) : String := o.row.mnemonic

/-- How many operand words follow an opcode. -/
def arity (o : Opcode) : Nat := o.row.slots.length

/-- Every opcode, in the order of their words. -/
def all : Array Opcode :=
  .mk [halt, set, push, pop, eq, gt, jmp, jt, jf, add, mult, mod, and, or, not, rmem, wmem, call,
    ret, out, inp, noop]

/-- The opcode that a word stands for, if it stands for one. -/
def ofWord? (w : Word) : Option Opcode := all[w.toNat]?

/-- The opcode with a given name, if there is one. -/
def ofMnemonic? (name : String) : Option Opcode := all.find? (·.mnemonic == name)

/-! ### Words and opcodes -/

@[simp] theorem ofWord?_word (o : Opcode) : ofWord? o.word = some o := by
  cases o <;> rfl

theorem arity_le (o : Opcode) : o.arity ≤ 3 := by
  cases o <;> decide

/-- A word stands for at most one opcode, the one that is written as it. -/
theorem ofWord?_eq_some_iff {w : Word} {o : Opcode} : ofWord? w = some o ↔ o.word = w := by
  constructor
  · intro h
    have hw : w.toNat < 22 := (Array.getElem?_eq_some_iff.1 h).1
    have all_words : ∀ n : Fin 22, ∀ o, all[n.val]? = some o → o.word.toNat = n := by decide
    exact UInt16.toNat_inj.1 (all_words ⟨w.toNat, hw⟩ o h)
  · rintro rfl
    exact ofWord?_word o

end Opcode

end WordMachine
