import WordMachine.Proofs.Grammar
import WordMachine.Proofs.Tiling

/-!
# What is listed is what is decoded

A listing and the decoder read the same words, each in its own way. A listing takes the operands of
an opcode as they are, as many of them as there are, and never fails. Decoding needs all of them and
looks at each. `Item.Decodes` says which answers of the decoder go with which items, and the answer
at a line's address always goes with what is listed there (`Listing.decodes_of_mem_lines`).

Of the answer, what is listed can be told: a data word is one that is no opcode, an item is
truncated if operands are missing, and an instruction that is decoded is listed with its opcode and
its operand words (`Item.Decodes.unknown_iff`, `truncated_iff`, `item_eq`).
-/

namespace WordMachine

open Instruction (LeftmostBad)

/-- Memory has ended before the last operand of an opcode. -/
def Item.Truncated : Item → Prop
  | .instruction o operands => operands.length < o.arity
  | .data _ => False

theorem Item.truncated_iff {item : Item} :
    item.Truncated ↔ ∃ o ws, item = .instruction o ws ∧ ws.length < o.arity := by
  cases item with
  | instruction o ws =>
    constructor
    · intro short
      exact ⟨o, ws, rfl, short⟩
    · rintro ⟨_, _, hitem, short⟩
      cases hitem
      exact short
  | data w => simp [Truncated]

/-- **What decoding answers where an item is listed.** -/
inductive Item.Decodes : Item → Except Error Instruction → Prop
  | data (w : Word) : Decodes (.data w) (.error (.unknownOpcode w))
  | truncated {o ws} (short : ws.length < o.arity) : Decodes (.instruction o ws) (.error .truncated)
  | read (i : Instruction) : Decodes (.instruction i.opcode (i.operands.map Operand.word)) (.ok i)
  | refused {o ws k slot w} (full : ws.length = o.arity)
      (leftmost : LeftmostBad o.row.slots ws k slot w) :
      Decodes (.instruction o ws) (.error (slot.error w))

namespace Item.Decodes

variable {item : Item} {answer : Except Error Instruction}

theorem unknown_iff (h : item.Decodes answer) {w : Word} :
    answer = .error (.unknownOpcode w) ↔ item = .data w := by
  cases h with
  | data v => simp
  | truncated | read => simp
  | @refused _ _ _ slot => cases slot <;> simp [Slot.error]

theorem truncated_iff (h : item.Decodes answer) : answer = .error .truncated ↔ item.Truncated := by
  cases h with
  | data v => simp [Truncated]
  | truncated short => exact iff_of_true rfl short
  | read i => simp [Truncated, i.length_operands]
  | @refused _ _ _ slot _ full => cases slot <;> simp [Truncated, Slot.error, full]

theorem item_eq {i : Instruction} (h : item.Decodes (.ok i)) :
    item = .instruction i.opcode (i.operands.map Operand.word) := by
  cases h
  rfl

/-- If no operand is missing, the instruction is read, or the leftmost bad operand is refused. -/
theorem of_full {o : Opcode} {ws : List Word} (h : (Item.instruction o ws).Decodes answer)
    (full : ¬ ws.length < o.arity) : ws.length = o.arity ∧
      ((∃ i, answer = .ok i ∧ i.opcode = o ∧ i.operands.map Operand.word = ws) ∨
        ∃ k slot w, LeftmostBad o.row.slots ws k slot w ∧ answer = .error (slot.error w)) := by
  cases h with
  | truncated short => exact absurd short full
  | read i =>
    refine ⟨?_, .inl ⟨i, rfl, rfl, rfl⟩⟩
    rw [List.length_map, i.length_operands]
  | @refused _ _ k slot w length leftmost => exact ⟨length, .inr ⟨k, slot, w, leftmost, rfl⟩⟩

end Item.Decodes

namespace Listing

variable {memory : Array Word} {address start : Nat} {l : Line}

/-- Operand words are read or refused, and they are too few if memory has no more of them. -/
theorem decodes_ofWords {o : Opcode} {ws : List Word} (hle : ws.length ≤ o.arity) :
    (Item.instruction o ws).Decodes (Instruction.ofWords o ws) := by
  cases h : Instruction.ofWords o ws with
  | ok i =>
    obtain ⟨rfl, rfl⟩ := Instruction.ofWords_eq_ok_iff.1 h
    exact .read i
  | error e =>
    rcases Instruction.ofWords_eq_error_iff.1 h with ⟨hne, rfl⟩ | ⟨full, hrefusal⟩
    · exact .truncated (Nat.lt_of_le_of_ne hle hne)
    · obtain ⟨k, slot, w, leftmost, rfl⟩ := Instruction.refusal?_eq_some_iff.1 hrefusal
      exact .refused full leftmost

theorem decodes_lineAt (h : address < memory.size) :
    (lineAt memory address h).item.Decodes (Instruction.decode memory address) := by
  -- both look the word up, and an opcode's operands are the same words for both
  unfold lineAt Instruction.decode
  rw [Array.getElem?_eq_getElem h]
  cases ho : Opcode.ofWord? memory[address] with
  | none =>
    simp only [ho]
    exact .data _
  | some o =>
    simp only [ho]
    apply decodes_ofWords
    rw [Array.length_toList, Array.size_extract]
    omega

/-- Where an operand is missing, memory has ended. -/
theorem end_of_truncated (h : address < memory.size)
    (truncated : (lineAt memory address h).item.Truncated) :
    memory.size ≤ address + (lineAt memory address h).size := by
  revert truncated
  unfold lineAt
  cases Opcode.ofWord? memory[address] with
  | none => exact False.elim
  | some o =>
    intro short
    simp only [Item.Truncated, Array.length_toList, Array.size_extract] at short
    simp only [Line.size, Array.length_toList, Array.size_extract]
    omega

/-- A listing starts with what is listed at its start, and goes on behind the words of that. -/
theorem lines_of_item {item : Item} (h : address < memory.size)
    (hitem : (lineAt memory address h).item = item) :
    lines memory address = ⟨address, item⟩ :: lines memory (address + item.words.length) := by
  have hline : lineAt memory address h = ⟨address, item⟩ :=
    calc lineAt memory address h
      _ = ⟨(lineAt memory address h).address, (lineAt memory address h).item⟩ := rfl
      _ = ⟨address, item⟩ := by rw [address_lineAt, hitem]
  rw [lines_of_lt h, Line.size_eq, hline]

/-- Where an instruction is decoded, a listing has it on a line, and goes on behind it. -/
theorem lines_of_decode {i : Instruction} (decoded : Instruction.decode memory address = .ok i) :
    lines memory address =
      ⟨address, .instruction i.opcode (i.operands.map Operand.word)⟩ ::
        lines memory (address + i.size) := by
  have hpos := i.size_pos
  have hle := Instruction.add_size_le_of_decode decoded
  have h : address < memory.size := by omega
  have hdecodes := decodes_lineAt h
  rw [decoded] at hdecodes
  rw [lines_of_item h hdecodes.item_eq, ← i.length_encode]
  rfl

/-- Where there is no opcode, a listing has the word on a line, and goes on behind it. -/
theorem lines_of_unknown {w : Word}
    (unknown : Instruction.decode memory address = .error (.unknownOpcode w)) :
    lines memory address = ⟨address, .data w⟩ :: lines memory (address + 1) := by
  have hword := (Instruction.decode_eq_unknownOpcode_iff.1 unknown).1
  have h : address < memory.size := (Array.getElem?_eq_some_iff.1 hword).1
  rw [lines_of_item h ((decodes_lineAt h).unknown_iff.1 unknown)]
  rfl

/-- **The answer of the decoder at a line goes with what is listed there.** -/
theorem decodes_of_mem_lines (hl : l ∈ lines memory start) :
    l.item.Decodes (Instruction.decode memory l.address) := by
  obtain ⟨h, hline⟩ := eq_lineAt_of_mem hl
  have hdecodes := decodes_lineAt h
  rwa [← hline] at hdecodes

end Listing

/-- **Listing and decoding agree at every line.** In any memory and from any start on, what stands
on a line is a data word if and only if decoding refuses it as an unknown opcode, and has fewer
operands than its opcode if and only if decoding finds the instruction truncated. Else it has as
many, and decoding gives the instruction with this opcode, these operand words and the line's size,
or refuses the leftmost operand word that is not accepted where it stands. -/
theorem listing_agrees_with_decoding (memory : Array Word) (start : Nat) {l : Line}
    (hl : l ∈ Listing.lines memory start) :
    let answer := Instruction.decode memory l.address
    (∀ w, l.item = .data w ↔ answer = .error (.unknownOpcode w)) ∧
    ((∃ o ws, l.item = .instruction o ws ∧ ws.length < o.arity) ↔ answer = .error .truncated) ∧
    ∀ o ws, l.item = .instruction o ws → ¬ ws.length < o.arity → ws.length = o.arity ∧
      ((∃ i, answer = .ok i ∧ i.opcode = o ∧ i.size = l.size ∧ i.operands.map Operand.word = ws) ∨
        ∃ k slot w, LeftmostBad o.row.slots ws k slot w ∧ answer = .error (slot.error w)) := by
  intro answer
  have h : l.item.Decodes answer := Listing.decodes_of_mem_lines hl
  refine ⟨fun w => h.unknown_iff.symm, ?_, ?_⟩
  · rw [h.truncated_iff, Item.truncated_iff]
  · intro o ws hitem full
    rw [hitem] at h
    obtain ⟨hlength, hanswer⟩ := h.of_full full
    refine ⟨hlength, ?_⟩
    rcases hanswer with ⟨i, hread, hopcode, hwords⟩ | hrefused
    · refine .inl ⟨i, hread, hopcode, ?_, hwords⟩
      simp only [Line.size, hitem]
      rw [Instruction.size, hopcode, hlength]
    · exact .inr hrefused

/-- An output, a data word, a `set` of which both operands are bad, and an addition that memory cuts
off. -/
theorem listing_agrees_with_decoding_cases :
    let memory : Array Word := #[19, 65, 22, 1, 7, 40000, 9, 32768]
    Listing.lines memory 0 = [⟨0, .instruction .out [65]⟩, ⟨2, .data 22⟩,
      ⟨3, .instruction .set [7, 40000]⟩, ⟨6, .instruction .add [32768]⟩] ∧
    Instruction.decode memory 0 = .ok (.out (.literal ⟨65, by decide⟩)) ∧
    Instruction.decode memory 2 = .error (.unknownOpcode 22) ∧
    Instruction.decode memory 3 = .error (.notARegister 7) ∧
    Instruction.decode memory 6 = .error .truncated := by
  intro memory
  have hlines : Listing.lines memory 0 = [⟨0, .instruction .out [65]⟩, ⟨2, .data 22⟩,
      ⟨3, .instruction .set [7, 40000]⟩, ⟨6, .instruction .add [32768]⟩] := by
    rw [Listing.lines_of_lt (by decide), Listing.lines_of_lt (by decide),
      Listing.lines_of_lt (by decide), Listing.lines_of_lt (by decide),
      Listing.lines_of_le (by decide)]
    decide +kernel
  refine ⟨hlines, ?_, ?_, ?_, ?_⟩
  · obtain ⟨-, -, hfull⟩ := listing_agrees_with_decoding memory 0
      (l := ⟨0, .instruction .out [65]⟩) (by simp [hlines])
    rcases (hfull _ _ rfl (by decide)).2 with ⟨i, hread, hopcode, -, hwords⟩ | ⟨k, slot, w, hbad, -⟩
    · have hi := Instruction.ofWords_eq_ok_iff.2 ⟨hopcode, hwords⟩
      rw [hread, ← hi]
      rfl
    · have hrefusal := Instruction.refusal?_eq_some_iff.2 ⟨k, slot, w, hbad, rfl⟩
      cases hrefusal
  · obtain ⟨hdata, -, -⟩ := listing_agrees_with_decoding memory 0
      (l := ⟨2, .data 22⟩) (by simp [hlines])
    exact (hdata 22).1 rfl
  · obtain ⟨-, -, hfull⟩ := listing_agrees_with_decoding memory 0
      (l := ⟨3, .instruction .set [7, 40000]⟩) (by simp [hlines])
    rcases (hfull _ _ rfl (by decide)).2 with
      ⟨i, -, hopcode, -, hwords⟩ | ⟨k, slot, w, hbad, hrefused⟩
    · have hi := Instruction.ofWords_eq_ok_iff.2 ⟨hopcode, hwords⟩
      cases hi
    · have hrefusal := Instruction.refusal?_eq_some_iff.2 ⟨k, slot, w, hbad, rfl⟩
      rw [hrefused, ← Option.some.inj hrefusal]
  · obtain ⟨-, htruncated, -⟩ := listing_agrees_with_decoding memory 0
      (l := ⟨6, .instruction .add [32768]⟩) (by simp [hlines])
    exact htruncated.1 ⟨_, _, rfl, by decide⟩

end WordMachine
