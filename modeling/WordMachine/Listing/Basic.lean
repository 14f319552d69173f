import WordMachine.Opcode

/-!
# Listings

A listing cuts memory into lines, one after the other from a start on. An opcode's line takes the
opcode's operand words with it, as many of them as memory still has, whatever they are; a word that
is no opcode has a line of its own. Operands are not looked at, so a listing never fails.
-/

namespace WordMachine

/-- What stands on a line of a listing. -/
inductive Item
  /-- An opcode and its operand words, fewer than its arity only where memory ends. -/
  | instruction (opcode : Opcode) (operands : List Word)
  /-- A word that is no opcode. -/
  | data (word : Word)
  deriving DecidableEq, Repr

/-- The words that an item is made of. -/
def Item.words : Item → List Word
  | .instruction opcode operands => opcode.word :: operands
  | .data word => [word]

/-- A line of a listing. -/
structure Line where
  /-- The address of the line's first word. -/
  address : Nat
  item : Item
  deriving DecidableEq, Repr

/-- How many words a line covers. -/
def Line.size (l : Line) : Nat :=
  match l.item with
  | .instruction _ operands => 1 + operands.length
  | .data _ => 1

theorem Line.size_pos (l : Line) : 0 < l.size := by
  unfold size
  split <;> omega

namespace Listing

/-- The line at an address of memory. -/
def lineAt (memory : Array Word) (address : Nat) (h : address < memory.size) : Line :=
  match Opcode.ofWord? memory[address] with
  | some o =>
    ⟨address, .instruction o (memory.extract (address + 1) (address + 1 + o.arity)).toList⟩
  | none => ⟨address, .data memory[address]⟩

/-- Adds to `above` the lines from an address to the end of memory. -/
def linesFrom (memory : Array Word) (address : Nat) (above : Array Line) : Array Line :=
  if h : address < memory.size then
    let l := lineAt memory address h
    linesFrom memory (address + l.size) (above.push l)
  else above
termination_by memory.size - address
decreasing_by
  have := (lineAt memory address h).size_pos
  omega

/-- The lines from an address to the end of memory. -/
def lines (memory : Array Word) (start : Nat) : List Line :=
  (linesFrom memory start #[]).toList

/-- The lines gathered so far stay in front of those that follow. -/
theorem linesFrom_eq (memory : Array Word) (address : Nat) (above : Array Line) :
    (linesFrom memory address above).toList = above.toList ++ lines memory address := by
  induction hn : memory.size - address using Nat.strongRecOn generalizing address above with
  | ind n ih =>
    rw [lines, linesFrom, linesFrom]
    split
    · next h =>
      have shorter : memory.size - (address + (lineAt memory address h).size) < n := by
        have := (lineAt memory address h).size_pos
        omega
      simp [ih _ shorter _ _ rfl]
    · simp

/-- Past the end of memory there are no lines. -/
theorem lines_of_le {memory : Array Word} {address : Nat} (h : memory.size ≤ address) :
    lines memory address = [] := by
  rw [lines, linesFrom, dif_neg (by omega)]

/-- Within memory a listing is the line there and the listing from its end on. -/
theorem lines_of_lt {memory : Array Word} {address : Nat} (h : address < memory.size) :
    lines memory address =
      lineAt memory address h :: lines memory (address + (lineAt memory address h).size) := by
  rw [lines, linesFrom, dif_pos h]
  simp [linesFrom_eq]

end Listing

end WordMachine
