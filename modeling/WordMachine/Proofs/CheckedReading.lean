import Mathlib.Data.List.Basic
import WordMachine.Proofs.Checked
import WordMachine.Proofs.Decode
import WordMachine.Proofs.Tiling

/-!
# Decoding and listing need no check

Instructions are decoded and listed from lists of words, at addresses of sixty-four bits. Addresses
behind an instruction are sums, operand words are looked up by their place, and a line of a listing
takes a part of the list with it. Here both are done with checks. What keeps all of them from
failing is established elsewhere:

* an address that is computed with is that of a word of the list, and a list that can be stored is
  far shorter than addresses go (`Storable`);
* operand words are looked up only after as many were found as the opcode has (`ofArgs_eq`), so the
  places that the arms of `ofArgs` ask for must be below the arity in the instruction table.
-/

namespace WordMachine

/-- A list of words that can be stored: its bytes, two for a word, take up less than half of the
addresses of sixty-four bits. -/
def Storable (memory : Array Word) : Prop := 2 * memory.size < 2 ^ 63

instance (memory : Array Word) : Decidable (Storable memory) :=
  inferInstanceAs (Decidable (_ < _))

namespace Storable

variable {memory : Array Word} {address n : Nat}

/-- Behind a word of a list there are addresses for a whole instruction. -/
theorem add_lt (h : Storable memory) (within : address < memory.size) (hn : n ≤ 4) :
    address + n < 2 ^ 64 := by
  unfold Storable at h
  omega

theorem add_one (h : Storable memory) (within : address < memory.size) :
    Checked.add 64 address 1 = .ok (address + 1) :=
  Checked.add_eq_ok_iff.2 ⟨h.add_lt within (by decide), rfl⟩

theorem add_arity (h : Storable memory) (within : address < memory.size) {o : Opcode} :
    Checked.add 64 (address + 1) o.arity = .ok (address + 1 + o.arity) := by
  have harity := o.arity_le
  refine Checked.add_eq_ok_iff.2 ⟨?_, rfl⟩
  rw [Nat.add_assoc]
  exact h.add_lt within (by omega)

end Storable

/-! ### Decoding -/

namespace Instruction

/-- Reads the operand word at a place. -/
def operandAt {α : Type} (read : Word → Except Error α) (args : Array Word) (i : Nat) :
    Guarded α := do
  let w ← Guarded.check (Checked.index args i)
  Guarded.answer (read w)

/-- The instruction with a given opcode, each operand read from its place among the words. -/
def ofArgs (o : Opcode) (args : Array Word) : Guarded Instruction :=
  let dst := operandAt Register.ofWord args
  let src := operandAt Operand.ofWord args
  let binary (op : BinaryOp) : Guarded Instruction := do
    return .binary op (← dst 0) (← src 1) (← src 2)
  match o with
  | .halt => return .halt
  | .set => return .set (← dst 0) (← src 1)
  | .push => return .push (← src 0)
  | .pop => return .pop (← dst 0)
  | .eq => binary .eq
  | .gt => binary .gt
  | .jmp => return .jmp (← src 0)
  | .jt => return .jt (← src 0) (← src 1)
  | .jf => return .jf (← src 0) (← src 1)
  | .add => binary .add
  | .mult => binary .mult
  | .mod => binary .mod
  | .and => binary .and
  | .or => binary .or
  | .not => return .not (← dst 0) (← src 1)
  | .rmem => return .rmem (← dst 0) (← src 1)
  | .wmem => return .wmem (← src 0) (← src 1)
  | .call => return .call (← src 0)
  | .ret => return .ret
  | .out => return .out (← src 0)
  | .inp => return .inp (← dst 0)
  | .noop => return .noop

/-- The instruction at an address, with addresses of sixty-four bits. -/
def decodeChecked (memory : Array Word) (pc : Nat) : Guarded Instruction :=
  match memory[pc]? with
  | none => throw (.addressOutOfRange pc)
  | some w =>
    match Opcode.ofWord? w with
    | none => throw (.unknownOpcode w)
    | some o => do
      let start ← Guarded.check (Checked.add 64 pc 1)
      let stop ← Guarded.check (Checked.add 64 start o.arity)
      if stop ≤ memory.size then ofArgs o (memory.extract start stop) else throw .truncated

section

variable {α β γ : Type} {first : Word → Except Error α} {second : Word → Except Error β}
  {third : Word → Except Error γ} {args : Array Word}

theorem operandAt_eq {i : Nat} (h : i < args.size) :
    operandAt first args i = .answer (first args[i]) := by
  have hindex : Checked.index args i = .ok args[i] :=
    Checked.index_eq_ok_iff.2 (Array.getElem?_eq_getElem h)
  rw [operandAt, hindex]
  rfl

theorem read1_eq {make : α → Instruction} (h : args.size = 1) :
    (do return make (← operandAt first args 0)) =
      Guarded.answer (read1 first make args.toList) := by
  obtain ⟨a, hargs⟩ := List.length_eq_one_iff.1 h
  obtain rfl : args = #[a] := Array.ext' hargs
  rw [operandAt_eq (by simp)]
  simp only [Guarded.pure_eq, Guarded.answer_bind]
  rfl

theorem read2_eq {make : α → β → Instruction} (h : args.size = 2) :
    (do return make (← operandAt first args 0) (← operandAt second args 1)) =
      Guarded.answer (read2 first second make args.toList) := by
  obtain ⟨a, b, hargs⟩ := List.length_eq_two.1 h
  obtain rfl : args = #[a, b] := Array.ext' hargs
  rw [operandAt_eq (by simp), operandAt_eq (by simp)]
  simp only [Guarded.pure_eq, Guarded.answer_bind]
  rfl

theorem read3_eq {make : α → β → γ → Instruction} (h : args.size = 3) :
    (do
      return make (← operandAt first args 0) (← operandAt second args 1)
        (← operandAt third args 2)) =
      Guarded.answer (read3 first second third make args.toList) := by
  obtain ⟨a, b, c, hargs⟩ := List.length_eq_three.1 h
  obtain rfl : args = #[a, b, c] := Array.ext' hargs
  rw [operandAt_eq (by simp), operandAt_eq (by simp), operandAt_eq (by simp)]
  simp only [Guarded.pure_eq, Guarded.answer_bind]
  rfl

end

/-- **Each arm asks for places below the arity of its opcode only**: where there are as many words
as that, all operands are read. -/
theorem ofArgs_eq {o : Opcode} {args : Array Word} (full : args.size = o.arity) :
    ofArgs o args = .answer (ofWords o args.toList) := by
  cases o
  case halt | ret | noop =>
    obtain rfl : args = #[] := Array.eq_empty_of_size_eq_zero full
    rfl
  case push | jmp | call | out | pop | inp => exact read1_eq full
  case set | not | rmem | jt | jf | wmem => exact read2_eq full
  case eq | gt | add | mult | mod | and | or => exact read3_eq full

/-- **Decoding needs no check.** -/
theorem decodeChecked_eq {memory : Array Word} (storable : Storable memory) (pc : Nat) :
    decodeChecked memory pc = .answer (decode memory pc) := by
  cases hw : memory[pc]? with
  | none => simp [decodeChecked, decode, hw]
  | some w =>
    cases ho : Opcode.ofWord? w with
    | none => simp [decodeChecked, decode, hw, ho]
    | some o =>
      have within : pc < memory.size := (Array.getElem?_eq_some_iff.1 hw).1
      have hsize : (memory.extract (pc + 1) (pc + 1 + o.arity)).size = o.arity ↔
          pc + 1 + o.arity ≤ memory.size := by
        rw [Array.size_extract]
        omega
      simp only [decodeChecked, decode, hw, ho, storable.add_one within, storable.add_arity within,
        Guarded.check_ok, Guarded.answer_ok_bind]
      split
      · next hle => exact ofArgs_eq (hsize.2 hle)
      · next hlt =>
        -- with too few words the table knows no instruction either
        have htruncated : ofWords o _ = .error .truncated :=
          ofWords_eq_error_iff.2 (.inl ⟨mt hsize.1 hlt, rfl⟩)
        rw [htruncated]
        rfl

end Instruction

/-! ### Listing -/

/-- How many words a line covers, in sixty-four bits. -/
def Line.sizeChecked (l : Line) : Checked Nat :=
  match l.item with
  | .instruction _ operands => Checked.add 64 1 operands.length
  | .data _ => return 1

theorem Line.sizeChecked_eq {l : Line} (h : l.size ≤ 4) : l.sizeChecked = .ok l.size := by
  obtain ⟨address, item⟩ := l
  cases item with
  | instruction o operands =>
    exact Checked.add_eq_ok_iff.2 ⟨Nat.lt_of_le_of_lt h (by decide), rfl⟩
  | data w => rfl

namespace Listing

/-- The line at an address, of a word that stands there; operand words are cut from the list. -/
def lineChecked (memory : Array Word) (address : Nat) (w : Word) : Checked Line :=
  match Opcode.ofWord? w with
  | some o => do
    let start ← Checked.add 64 address 1
    let stop ← Checked.add 64 start o.arity
    let operands ← Checked.slice memory start (min stop memory.size)
    return ⟨address, .instruction o operands.toList⟩
  | none => return ⟨address, .data w⟩

/-- Gives the line at the position and moves on behind it, with positions of sixty-four bits. -/
def Cursor.nextChecked (c : Cursor) : Checked (Option (Line × Cursor)) :=
  match c.memory[c.position]? with
  | none => return none
  | some w => do
    let l ← lineChecked c.memory c.position w
    let position ← Checked.add 64 c.position (← l.sizeChecked)
    return some (l, { c with position := position })

/-- The lines that a cursor gives one after the other, until it has none to give; no line breaks
off. -/
inductive Cursor.GivesChecked : Cursor → List Line → Prop
  | nothing {c} (ended : c.nextChecked = .ok none) : GivesChecked c []
  | line {c c' l ls} (given : c.nextChecked = .ok (some (l, c'))) (rest : GivesChecked c' ls) :
      GivesChecked c (l :: ls)

variable {memory : Array Word} {address : Nat}

theorem lineChecked_eq (storable : Storable memory) (h : address < memory.size) :
    lineChecked memory address memory[address] = .ok (lineAt memory address h) := by
  cases ho : Opcode.ofWord? memory[address] with
  | none => simp [lineChecked, lineAt, ho, pure, Except.pure]
  | some o =>
    have harity := o.arity_le
    have hslice : Checked.slice memory (address + 1) (min (address + 1 + o.arity) memory.size) =
        .ok (memory.extract (address + 1) (address + 1 + o.arity)) :=
      Checked.slice_eq_ok_iff.2 ⟨by omega, Array.extract_eq_extract_right.2 (by omega)⟩
    simp only [lineChecked, lineAt, ho, storable.add_one h, storable.add_arity h, hslice,
      Except.ok_bind]
    rfl

/-- **The next line needs no check.** -/
theorem Cursor.nextChecked_eq {c : Cursor} (storable : Storable c.memory) :
    c.nextChecked = .ok c.next := by
  unfold nextChecked next
  by_cases h : c.position < c.memory.size
  · have hle := size_lineAt_le h
    have hposition : Checked.add 64 c.position (lineAt c.memory c.position h).size =
        .ok (c.position + (lineAt c.memory c.position h).size) :=
      Checked.add_eq_ok_iff.2 ⟨storable.add_lt h hle, rfl⟩
    simp only [Array.getElem?_eq_getElem h, lineChecked_eq storable h, Line.sizeChecked_eq hle,
      hposition, Except.ok_bind, dif_pos h]
    rfl
  · rw [Array.getElem?_eq_none (Nat.not_lt.1 h), dif_neg h]
    rfl

/-- **A whole listing needs no check**, from whatever start. -/
theorem Cursor.givesChecked_lines (storable : Storable memory) (start : Nat) :
    GivesChecked ⟨memory, start⟩ (lines memory start) := by
  apply lines_induction (P := fun position ls => GivesChecked ⟨memory, position⟩ ls)
  · intro position h
    refine .nothing ?_
    rw [nextChecked_eq storable, next, dif_neg (Nat.not_lt.2 h)]
  · intro position h behind ih
    refine .line ?_ ih
    rw [nextChecked_eq storable, next, dif_pos h]

end Listing

end WordMachine
