import WordMachine.Proofs.Decode

/-!
# The grammar of instructions

Memory holds an instruction at an address exactly if the words from there on begin with the words
that the instruction is written as (`decode_eq_ok_iff_isPrefix`), and no instruction is written as
the beginning of another (`eq_of_isPrefix_encode`). Where memory holds none, there is one reason for
it, given here as rules (`Refused`): the address lies outside, the word there is no opcode, memory
ends inside the instruction, or an operand is the leftmost that its slot does not accept.
-/

namespace WordMachine

/-- The words that a slot accepts: the names of registers as a destination, and also all literals as
a source. -/
def Slot.Accepts : Slot → Word → Prop
  | .destination, w => registerBase ≤ w.toNat ∧ w.toNat ≤ maxOperand
  | .source, w => w.toNat ≤ maxOperand

instance : (slot : Slot) → (w : Word) → Decidable (slot.Accepts w)
  | .destination, _ => inferInstanceAs (Decidable (_ ∧ _))
  | .source, _ => inferInstanceAs (Decidable (_ ≤ _))

/-- The error that a slot answers to a word that it does not accept. -/
def Slot.error : Slot → Word → Error
  | .destination => .notARegister
  | .source => .invalidOperand

theorem Slot.refusal?_of_accepts {slot : Slot} {w : Word} (h : slot.Accepts w) :
    slot.refusal? w = none := by
  cases slot with
  | destination => exact if_pos h
  | source => exact if_pos h

theorem Slot.refusal?_of_not_accepts {slot : Slot} {w : Word} (h : ¬ slot.Accepts w) :
    slot.refusal? w = some (slot.error w) := by
  cases slot with
  | destination => exact if_neg h
  | source => exact if_neg h

/-- The opcodes are numbered from 0 to 21. -/
theorem Opcode.ofWord?_eq_none_iff {w : Word} : ofWord? w = none ↔ 21 < w.toNat :=
  Array.getElem?_eq_none_iff

namespace Instruction

/-- The operand word at a position is the leftmost that its slot does not accept. -/
structure LeftmostBad (slots : List Slot) (ws : List Word) (k : Nat) (slot : Slot) (w : Word) :
    Prop where
  stands : slots[k]? = some slot
  word : ws[k]? = some w
  bad : ¬ slot.Accepts w
  left : ∀ j < k, ∀ (s : Slot) (v : Word), slots[j]? = some s → ws[j]? = some v → s.Accepts v

/-- **Why there is no instruction at an address.** -/
inductive Refused (memory : Array Word) (pc : Nat) : Error → Prop
  | outside (far : memory.size ≤ pc) : Refused memory pc (.addressOutOfRange pc)
  | unknown {w} (there : memory[pc]? = some w) (large : 21 < w.toNat) :
      Refused memory pc (.unknownOpcode w)
  | truncated {o : Opcode} (there : memory[pc]? = some o.word)
      (short : memory.size < pc + 1 + o.arity) : Refused memory pc .truncated
  | operand {o : Opcode} {k slot w} (there : memory[pc]? = some o.word)
      (complete : pc + 1 + o.arity ≤ memory.size)
      (leftmost : LeftmostBad o.row.slots (memory.toList.drop (pc + 1)) k slot w) :
      Refused memory pc (slot.error w)

/-! ### Instructions -/

/-- **Memory holds an instruction where the words begin with its own.** -/
theorem decode_eq_ok_iff_isPrefix {memory : Array Word} {pc : Nat} {i : Instruction} :
    decode memory pc = .ok i ↔ i.encode <+: memory.toList.drop pc := by
  rw [decode_eq_ok_iff, Array.toList_extract, List.extract_eq_take_drop, Nat.add_sub_cancel_left,
    ← length_encode, List.prefix_iff_eq_take, eq_comm]

/-- **No instruction is written as the beginning of another.** -/
theorem eq_of_isPrefix_encode {i j : Instruction} (h : i.encode <+: j.encode) : i = j := by
  have hi : decode j.encode.toArray 0 = .ok i := decode_eq_ok_iff_isPrefix.2 h
  have hj : decode j.encode.toArray 0 = .ok j := decode_eq_ok_iff_isPrefix.2 List.prefix_rfl
  rw [hi] at hj
  cases hj
  rfl

/-! ### Refusals -/

section LeftmostBad

variable {slots : List Slot} {ws : List Word} {s slot : Slot} {v w : Word} {k : Nat}

theorem leftmostBad_zero_iff :
    LeftmostBad (s :: slots) (v :: ws) 0 slot w ↔ s = slot ∧ v = w ∧ ¬ s.Accepts v := by
  constructor
  · rintro ⟨stands, word, bad, -⟩
    cases stands
    cases word
    exact ⟨rfl, rfl, bad⟩
  · rintro ⟨rfl, rfl, bad⟩
    exact ⟨rfl, rfl, bad, fun j hj => absurd hj (Nat.not_lt_zero j)⟩

theorem leftmostBad_succ_iff :
    LeftmostBad (s :: slots) (v :: ws) (k + 1) slot w ↔
      s.Accepts v ∧ LeftmostBad slots ws k slot w := by
  constructor
  · rintro ⟨stands, word, bad, left⟩
    refine ⟨left 0 k.succ_pos s v rfl rfl, stands, word, bad, ?_⟩
    intro j hj
    exact left (j + 1) (Nat.succ_lt_succ hj)
  · rintro ⟨haccepts, stands, word, bad, left⟩
    refine ⟨stands, word, bad, ?_⟩
    intro j hj s' v' hs hv
    cases j with
    | zero =>
      cases hs
      cases hv
      exact haccepts
    | succ j => exact left j (Nat.lt_of_succ_lt_succ hj) s' v' hs hv

end LeftmostBad

/-- **A refusal is that of the leftmost bad operand.** -/
theorem refusal?_eq_some_iff {slots : List Slot} {ws : List Word} {e : Error} :
    refusal? slots ws = some e ↔ ∃ k slot w, LeftmostBad slots ws k slot w ∧ slot.error w = e := by
  induction slots generalizing ws with
  | nil =>
    constructor
    · exact nofun
    · rintro ⟨k, slot, w, h, -⟩
      cases h.stands
  | cons s slots ih =>
    cases ws with
    | nil =>
      constructor
      · exact nofun
      · rintro ⟨k, slot, w, h, -⟩
        cases h.word
    | cons v ws =>
      rw [refusal?]
      by_cases haccepts : s.Accepts v
      · rw [Slot.refusal?_of_accepts haccepts, Option.none_or, ih]
        constructor
        · rintro ⟨k, slot, w, h, he⟩
          exact ⟨k + 1, slot, w, leftmostBad_succ_iff.2 ⟨haccepts, h⟩, he⟩
        · rintro ⟨k, slot, w, h, he⟩
          cases k with
          | zero => exact absurd haccepts (leftmostBad_zero_iff.1 h).2.2
          | succ k => exact ⟨k, slot, w, (leftmostBad_succ_iff.1 h).2, he⟩
      · rw [Slot.refusal?_of_not_accepts haccepts, Option.some_or, Option.some.injEq]
        constructor
        · intro he
          exact ⟨0, s, v, leftmostBad_zero_iff.2 ⟨rfl, rfl, haccepts⟩, he⟩
        · rintro ⟨k, slot, w, h, he⟩
          cases k with
          | zero =>
            obtain ⟨rfl, rfl, -⟩ := leftmostBad_zero_iff.1 h
            exact he
          | succ k => exact absurd (leftmostBad_succ_iff.1 h).1 haccepts

/-- Words behind those that the slots stand for do not matter. -/
theorem refusal?_take (slots : List Slot) (ws : List Word) :
    refusal? slots (ws.take slots.length) = refusal? slots ws := by
  induction slots generalizing ws with
  | nil => rfl
  | cons s slots ih =>
    cases ws with
    | nil => rfl
    | cons v ws => rw [List.length_cons, List.take_succ_cons, refusal?, refusal?, ih]

theorem refusal?_extract (memory : Array Word) (pc : Nat) (o : Opcode) :
    refusal? o.row.slots (memory.extract (pc + 1) (pc + 1 + o.arity)).toList =
      refusal? o.row.slots (memory.toList.drop (pc + 1)) := by
  rw [Array.toList_extract, List.extract_eq_take_drop, Nat.add_sub_cancel_left]
  exact refusal?_take _ _

/-- **There is no instruction exactly for one of the reasons.** -/
theorem decode_eq_error_iff_refused {memory : Array Word} {pc : Nat} {e : Error} :
    decode memory pc = .error e ↔ Refused memory pc e := by
  rw [decode_eq_error_iff]
  constructor
  · rintro (⟨far, rfl⟩ | ⟨w, there, ⟨hnone, rfl⟩ | ⟨o, ho, h⟩⟩)
    · exact .outside far
    · exact .unknown there (Opcode.ofWord?_eq_none_iff.1 hnone)
    · rw [← Opcode.ofWord?_eq_some_iff.1 ho] at there
      rcases h with ⟨short, rfl⟩ | ⟨complete, h⟩
      · exact .truncated there short
      · rw [refusal?_extract] at h
        obtain ⟨k, slot, w, leftmost, rfl⟩ := refusal?_eq_some_iff.1 h
        exact .operand there complete leftmost
  · intro h
    cases h with
    | outside far => exact .inl ⟨far, rfl⟩
    | @unknown w there large =>
      exact .inr ⟨w, there, .inl ⟨Opcode.ofWord?_eq_none_iff.2 large, rfl⟩⟩
    | @truncated o there short =>
      exact .inr ⟨o.word, there, .inr ⟨o, o.ofWord?_word, .inl ⟨short, rfl⟩⟩⟩
    | @operand o k slot w there complete leftmost =>
      refine .inr ⟨o.word, there, .inr ⟨o, o.ofWord?_word, .inr ⟨complete, ?_⟩⟩⟩
      rw [refusal?_extract]
      exact refusal?_eq_some_iff.2 ⟨k, slot, w, leftmost, rfl⟩

/-- **Decoding accepts exactly the grammar.** In any memory and at any address, an instruction is
read if and only if the words from there on begin with its opcode's word and its operand words, all
of which lie in memory; an instruction has one such writing, which is not the beginning of any
other. If none is read, the error is that of the first check that fails: that the address lies in
memory, that there is an opcode, that no operand word is missing, and that all operands, from left
to right, are accepted where they stand. -/
theorem decode_accepts_grammar (memory : Array Word) (pc : Nat) :
    (∀ i, decode memory pc = .ok i ↔ i.encode <+: memory.toList.drop pc) ∧
    (∀ e, decode memory pc = .error e ↔ Refused memory pc e) ∧
    (∀ i : Instruction, i.encode.length = i.size ∧
      ∀ ws : List Word, ws.length = i.size → decode ws.toArray 0 = .ok i → ws = i.encode) ∧
    ∀ i j : Instruction, i.encode <+: j.encode → i = j := by
  refine ⟨fun _ => decode_eq_ok_iff_isPrefix, fun _ => decode_eq_error_iff_refused, ?_,
    fun _ _ => eq_of_isPrefix_encode⟩
  intro i
  refine ⟨i.length_encode, ?_⟩
  intro ws hlength hdecode
  have hstarts : i.encode <+: ws := decode_eq_ok_iff_isPrefix.1 hdecode
  exact (hstarts.eq_of_length (i.length_encode.trans hlength.symm)).symm

/-- An addition, a `set` of which both operands are bad, an unknown opcode, and a `push` without its
operand. -/
theorem decode_accepts_grammar_cases :
    let memory : Array Word := #[9, 32768, 4, 32769, 1, 7, 40000, 22, 2]
    decode memory 0 = .ok (.binary .add ⟨0⟩ (.literal ⟨4, by decide⟩) (.register ⟨1⟩)) ∧
      decode memory 4 = .error (.notARegister 7) ∧ decode memory 7 = .error (.unknownOpcode 22) ∧
      decode memory 8 = .error .truncated ∧ decode memory 9 = .error (.addressOutOfRange 9) := by
  intro memory
  refine ⟨?_, ?_, ?_, ?_, ?_⟩
  · apply ((decode_accepts_grammar memory 0).1 _).2
    decide
  · apply ((decode_accepts_grammar memory 4).2.1 _).2
    have hleftmost : LeftmostBad Opcode.set.row.slots [7, 40000, 22, 2] 0 .destination 7 :=
      leftmostBad_zero_iff.2 ⟨rfl, rfl, by decide⟩
    have hrefused : Refused memory 4 (Slot.error .destination 7) :=
      .operand (o := .set) rfl (by decide) hleftmost
    exact hrefused
  · apply ((decode_accepts_grammar memory 7).2.1 _).2
    exact .unknown rfl (by decide)
  · apply ((decode_accepts_grammar memory 8).2.1 _).2
    exact .truncated (o := .push) rfl (by decide)
  · apply ((decode_accepts_grammar memory 9).2.1 _).2
    exact .outside (by decide)

end Instruction

end WordMachine
