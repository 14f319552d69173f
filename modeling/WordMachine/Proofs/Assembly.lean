import WordMachine.Assembler
import WordMachine.Instruction.Basic
import WordMachine.Proofs.Grammar
import WordMachine.Proofs.Text

/-!
# Instructions are assembled from their text

The text of an instruction assembles to the words that the instruction is written as
(`Instruction.assemble?_text`). Its tokens are its mnemonic and its operands, and these cannot be
taken for each other: a number starts with a digit, and no number follows the `r` of a mnemonic that
starts as a register does.

Texts with white space between them assemble one by one (`Assembler.assemble?_intercalate`), so the
text of a program assembles to the words of its instructions, in order. What is decoded from these
words, one instruction after the other (`Instruction.Sequence`), is the program again.
-/

namespace WordMachine

namespace Assembler

variable {c : Char} {s t : String} {n : Nat} {w : Word}

/-! ### Texts -/

/-- **Where there is white space, tokens end.** -/
theorem tokens_append (hc : isSpace c = true) :
    tokens (s ++ String.singleton c ++ t) = tokens s ++ tokens t := by
  have htext : (s ++ String.singleton c ++ t).toList = s.toList ++ c :: t.toList := by simp
  rw [tokens, htext, List.splitOnP_append_cons _ _ hc, List.filter_append, List.map_append]
  rfl

theorem assemble?_append (hc : isSpace c = true) :
    assemble? (s ++ String.singleton c ++ t) = return (← assemble? s) ++ (← assemble? t) := by
  rw [assemble?, tokens_append hc, List.mapM_append]
  rfl

/-- **Texts with white space between them assemble one by one.** -/
theorem assemble?_intercalate (hc : isSpace c = true) (texts : List String) :
    assemble? ((String.singleton c).intercalate texts) =
      (texts.mapM assemble?).map List.flatten := by
  induction texts with
  | nil => rfl
  | cons s texts ih =>
    by_cases hlast : texts = []
    · subst hlast
      cases h : assemble? s with
      | none => simp [h]
      | some ws => simp [h]
    · rw [String.intercalate_cons_of_ne_nil hlast, assemble?_append hc, ih, List.mapM_cons]
      cases assemble? s with
      | none => rfl
      | some ws =>
        cases texts.mapM assemble? with
        | none => rfl
        | some rest => rfl

/-! ### Tokens -/

/-- The text of a token: there is something in it, but no white space. -/
def IsToken (s : String) : Prop := s.toList ≠ [] ∧ ∀ c ∈ s.toList, isSpace c = false

theorem IsToken.tokens_eq (h : IsToken s) : tokens s = [s] := by
  rw [tokens, List.splitOnP_eq_singleton h.2]
  simp [h.1]

/-- A token assembles to the word that it stands for. -/
theorem IsToken.assemble?_eq (h : IsToken s) (hw : wordOf? s = some w) :
    assemble? s = some [w] := by
  rw [assemble?, h.tokens_eq, List.mapM_cons, hw]
  rfl

theorem isSpace_of_isDigit (h : c.isDigit = true) : isSpace c = false := by
  have hrange : 48 ≤ c.toNat ∧ c.toNat ≤ 57 := by
    simpa [Char.isDigit, UInt32.le_iff_toNat_le] using h
  simp only [isSpace, spaceRanges, List.any_cons, List.any_nil, Bool.or_eq_false_iff,
    Bool.and_eq_false_iff, decide_eq_false_iff_not, and_true]
  omega

theorem isToken_toString (n : Nat) : IsToken (toString n) := by
  refine ⟨(Text.digits_toString n).1, ?_⟩
  intro c hc
  exact isSpace_of_isDigit (Text.isDigit_of_mem_toString hc)

theorem numberOf?_toString (h : n < UInt16.size) :
    numberOf? (toString n).toList = some (.ofNat n) := by
  rw [numberOf?]
  · rw [if_pos (Text.digits_toString n), Text.ofDigitChars_toString]
    exact if_pos h
  · -- a sign would be a digit
    intro digits hsign
    exact absurd (Text.isDigit_of_toString_eq_cons hsign) (by decide)

/-- A number is not the name of a register. -/
theorem registerOf?_toString (n : Nat) : registerOf? (toString n).toList = none := by
  unfold registerOf?
  split
  · next hname => exact absurd (Text.isDigit_of_toString_eq_cons hname) (by decide)
  · rfl

theorem wordOf?_toString (w : Word) : wordOf? (toString w.toNat) = some w := by
  rw [wordOf?, registerOf?_toString, numberOf?_toString w.toNat_lt, UInt16.ofNat_toNat]

end Assembler

/-! ### Registers, operands and mnemonics -/

open Assembler

/-- The name of a register is an `r` and its number. -/
theorem Register.toList_text (r : Register) :
    r.text.toList = 'r' :: (toString r.index.val).toList := by
  have htext : r.text = "r" ++ toString r.index.val := rfl
  rw [htext, String.toList_append]
  rfl

theorem Register.isToken_text (r : Register) : IsToken r.text := by
  rw [IsToken, r.toList_text]
  exact ⟨List.cons_ne_nil _ _, List.forall_mem_cons.2 ⟨by decide, (isToken_toString _).2⟩⟩

theorem Register.wordOf?_text (r : Register) : wordOf? r.text = some r.word := by
  have hlt : r.index.val < 8 := r.index.isLt
  have hnumber : registerOf? r.text.toList = some (.ofNat r.index) := by
    rw [r.toList_text]
    exact numberOf?_toString (by simp only [UInt16.size]; omega)
  have hvalue : (UInt16.ofNat r.index.val).toNat = r.index := by
    rw [UInt16.toNat_ofNat']
    omega
  rw [wordOf?, hnumber]
  simp only [hvalue]
  exact if_pos (by simp only [registerBase, memorySize, UInt16.size]; omega)

theorem Operand.assemble?_text (a : Operand) : assemble? a.text = some [a.word] := by
  cases a with
  | literal value => exact (isToken_toString _).assemble?_eq (wordOf?_toString value.word)
  | register r => exact r.isToken_text.assemble?_eq r.wordOf?_text

theorem Opcode.isToken_mnemonic (o : Opcode) : IsToken o.mnemonic := by
  have hchars : o.mnemonic.toList ≠ [] ∧ o.mnemonic.toList.all (!isSpace ·) = true := by
    cases o <;> decide
  refine ⟨hchars.1, ?_⟩
  intro c hc
  simpa using List.all_eq_true.1 hchars.2 c hc

/-- A mnemonic is read neither as a register nor as a number. -/
theorem Opcode.assemble?_mnemonic (o : Opcode) : assemble? o.mnemonic = some [o.word] := by
  refine o.isToken_mnemonic.assemble?_eq ?_
  cases o <;> rfl

/-! ### Instructions -/

namespace Instruction

variable {memory : Array Word} {pc : Nat} {i j : Instruction} {is js : List Instruction}

/-- **The text of an instruction assembles to its words.** -/
theorem assemble?_text (i : Instruction) : assemble? i.text = some i.encode := by
  have htext : i.text = (String.singleton ' ').intercalate
      (i.opcode.mnemonic :: i.operands.map Operand.text) := rfl
  have hoperands : (i.operands.map Operand.text).mapM assemble? =
      some (i.operands.map fun a => [a.word]) :=
    Text.mapM_map_eq_some Operand.assemble?_text i.operands
  rw [htext, assemble?_intercalate (by decide), List.mapM_cons, i.opcode.assemble?_mnemonic,
    hoperands]
  show some ([i.opcode.word] ++ (i.operands.map fun a => [a.word]).flatten) = some i.encode
  rw [← List.flatMap_def, ← List.map_eq_flatMap]
  rfl

/-- **Instructions with the same text are the same.** -/
theorem text_inj (h : i.text = j.text) : i = j := by
  have hwords : some i.encode = some j.encode := by
    rw [← i.assemble?_text, h, j.assemble?_text]
  exact eq_of_isPrefix_encode (Option.some.inj hwords ▸ List.prefix_rfl)

/-! ### Sequences -/

/-- What is decoded from an address on, one instruction after the other up to the end of memory. -/
inductive Sequence (memory : Array Word) : Nat → List Instruction → Prop
  | done : Sequence memory memory.size []
  | step {pc : Nat} {i : Instruction} {is : List Instruction} (decoded : decode memory pc = .ok i)
      (rest : Sequence memory (pc + i.size) is) : Sequence memory pc (i :: is)

theorem not_decode_size : decode memory memory.size ≠ .ok i := by
  intro decoded
  have hle := add_size_le_of_decode decoded
  have hpos := i.size_pos
  omega

theorem Sequence.unique (h : Sequence memory pc is) (h' : Sequence memory pc js) : is = js := by
  induction h generalizing js with
  | done =>
    cases h' with
    | done => rfl
    | step decoded => exact absurd decoded not_decode_size
  | step decoded _ ih =>
    cases h' with
    | done => exact absurd decoded not_decode_size
    | step decoded' rest =>
      rw [decoded] at decoded'
      cases decoded'
      rw [ih rest]

/-- The words of instructions, up to the end of memory, are decoded as these instructions. -/
theorem sequence_of_drop_eq (hpc : pc ≤ memory.size)
    (h : memory.toList.drop pc = is.flatMap encode) : Sequence memory pc is := by
  induction is generalizing pc with
  | nil =>
    have hend := List.drop_eq_nil_iff.1 h
    rw [Array.length_toList] at hend
    obtain rfl := Nat.le_antisymm hpc hend
    exact .done
  | cons i is ih =>
    rw [List.flatMap_cons] at h
    have decoded : decode memory pc = .ok i :=
      decode_eq_ok_iff_isPrefix.2 (h ▸ List.prefix_append _ _)
    refine .step decoded (ih (add_size_le_of_decode decoded) ?_)
    rw [← List.drop_drop, h, ← i.length_encode, List.drop_left]

theorem sequence_encode_iff : Sequence (is.flatMap encode).toArray 0 js ↔ js = is := by
  have hsequence : Sequence (is.flatMap encode).toArray 0 is :=
    sequence_of_drop_eq (Nat.zero_le _) rfl
  constructor
  · intro h
    exact h.unique hsequence
  · rintro rfl
    exact hsequence

end Instruction

/-- **The text of an instruction assembles back.** Where an instruction is decoded, its text
assembles to the words that it takes up in memory. The texts of any instructions, with white space of
any kind between them, assemble to the words of all; from these words just the same instructions are
decoded, one after the other. And two instructions with the same text are the same. -/
theorem instruction_text_assembles_back :
    (∀ memory pc i, Instruction.decode memory pc = .ok i →
      assemble? i.text = some (memory.extract pc (pc + i.size)).toList) ∧
    (∀ (is : List Instruction) (c : Char), isSpace c = true → ∃ parts,
      (is.map (·.text)).mapM assemble? = some parts ∧
      assemble? ((String.singleton c).intercalate (is.map (·.text))) = some parts.flatten ∧
      ∀ js, Instruction.Sequence parts.flatten.toArray 0 js ↔ js = is) ∧
    ∀ i j : Instruction, i.text = j.text → i = j := by
  refine ⟨?_, ?_, fun i j => Instruction.text_inj⟩
  · intro memory pc i decoded
    rw [Instruction.decode_eq_ok_iff.1 decoded]
    exact i.assemble?_text
  · intro is c hc
    have hparts : (is.map (·.text)).mapM assemble? = some (is.map (·.encode)) :=
      Text.mapM_map_eq_some Instruction.assemble?_text is
    refine ⟨_, hparts, ?_, fun js => Instruction.sequence_encode_iff⟩
    rw [assemble?_intercalate hc, hparts]
    rfl

/-- An addition behind a `noop`, and a program of three lines with mnemonics that start as registers
do. -/
theorem instruction_text_assembles_back_lines :
    assemble? "add r0 4 r1" = some [9, 32768, 4, 32769] ∧
    assemble? "rmem r7 12\nret\nret" = some [15, 32775, 12, 18, 18] ∧
    ∀ js, Instruction.Sequence #[15, 32775, 12, 18, 18] 0 js ↔
      js = [.rmem ⟨7⟩ (.literal ⟨12, by decide⟩), .ret, .ret] := by
  obtain ⟨hwords, hlines, -⟩ := instruction_text_assembles_back
  refine ⟨?_, ?_⟩
  · let i : Instruction := .binary .add ⟨0⟩ (.literal ⟨4, by decide⟩) (.register ⟨1⟩)
    have htext : i.text = "add r0 4 r1" := by decide +kernel
    rw [← htext]
    exact hwords #[21, 9, 32768, 4, 32769] 1 i rfl
  · let is : List Instruction := [.rmem ⟨7⟩ (.literal ⟨12, by decide⟩), .ret, .ret]
    have htext : (String.singleton '\n').intercalate (is.map (·.text)) =
        "rmem r7 12\nret\nret" := by
      decide +kernel
    obtain ⟨parts, hparts, hprogram, hsequence⟩ := hlines is '\n' (by decide)
    rw [Text.mapM_map_eq_some Instruction.assemble?_text] at hparts
    cases hparts
    rw [htext] at hprogram
    exact ⟨hprogram, hsequence⟩

end WordMachine
