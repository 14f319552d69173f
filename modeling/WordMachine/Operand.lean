import WordMachine.Error

/-!
# Registers, literals and addresses

What a word means depends on where it stands. As a destination it names one of the eight registers
(`Register.ofWord`). As a source it is a literal or names a register (`Operand.ofWord`). As an
address it is below `memorySize` (`Address.ofWord`). Each reading refuses all other words, and each
value knows the one word that it is written as.
-/

namespace WordMachine

/-! ### Registers -/

/-- One of the eight registers. -/
@[ext] structure Register where
  index : Fin registerCount
  deriving DecidableEq, Repr, Inhabited

namespace Register

/-- The register at a position, if there is one. -/
def ofIndex? (i : Nat) : Option Register :=
  if h : i < registerCount then some ⟨i, h⟩ else none

/-- The operand word that names a register. -/
def word (r : Register) : Word := .ofNat (registerBase + r.index)

/-- The register that a word names. -/
def ofWord (w : Word) : Except Error Register :=
  if registerBase ≤ w.toNat then
    match ofIndex? (w.toNat - registerBase) with
    | some r => .ok r
    | none => .error (.notARegister w)
  else .error (.notARegister w)

/-- A register is written `r0` to `r7`. -/
def text (r : Register) : String := s!"r{r.index.val}"

theorem toNat_word (r : Register) : r.word.toNat = registerBase + r.index := by
  have hi : r.index.val < 8 := r.index.isLt
  simp only [word, registerBase, memorySize, UInt16.toNat_ofNat']
  omega

theorem ofIndex?_eq_some_iff {i : Nat} {r : Register} : ofIndex? i = some r ↔ r.index.val = i := by
  unfold ofIndex?
  split
  · next h => simp [Register.ext_iff, Fin.ext_iff, eq_comm]
  · next h =>
    simp only [reduceCtorEq, false_iff]
    rintro rfl
    exact h r.index.isLt

theorem ofIndex?_eq_none_iff {i : Nat} : ofIndex? i = none ↔ registerCount ≤ i := by
  unfold ofIndex?
  split
  · next h => simpa using h
  · next h => simpa using h

theorem ofWord_eq_ok_iff {w : Word} {r : Register} : ofWord w = .ok r ↔ r.word = w := by
  rw [← UInt16.toNat_inj, toNat_word]
  unfold ofWord
  split
  · next h =>
    cases hr : ofIndex? (w.toNat - registerBase) with
    | some r' =>
      rw [ofIndex?_eq_some_iff] at hr
      simp only [Except.ok.injEq, Register.ext_iff, Fin.ext_iff]
      omega
    | none =>
      have hi := r.index.isLt
      rw [ofIndex?_eq_none_iff] at hr
      simp only [reduceCtorEq, false_iff]
      omega
  · next h =>
    simp only [reduceCtorEq, false_iff]
    omega

@[simp] theorem ofWord_word (r : Register) : ofWord r.word = .ok r := ofWord_eq_ok_iff.2 rfl

/-- A word that names no register is refused as it is. -/
theorem ofWord_eq_error_iff {w : Word} {e : Error} :
    ofWord w = .error e ↔
      e = .notARegister w ∧ (w.toNat < registerBase ∨ maxOperand < w.toNat) := by
  unfold ofWord
  split
  · next h =>
    cases hr : ofIndex? (w.toNat - registerBase) with
    | some r =>
      have hi := r.index.isLt
      rw [ofIndex?_eq_some_iff] at hr
      simp only [reduceCtorEq, false_iff, maxOperand]
      omega
    | none =>
      rw [ofIndex?_eq_none_iff] at hr
      have hlarge : maxOperand < w.toNat := by
        simp only [maxOperand, registerBase, memorySize, registerCount] at *
        omega
      rw [Except.error.injEq, eq_comm]
      exact ⟨fun he => ⟨he, .inr hlarge⟩, And.left⟩
  · next h =>
    rw [Except.error.injEq, eq_comm]
    exact ⟨fun he => ⟨he, by omega⟩, And.left⟩

end Register

/-! ### Literals and addresses -/

/-- A word that stands for itself. -/
@[ext] structure Literal where
  word : Word
  isLt : word.toNat < registerBase
  deriving DecidableEq, Repr

/-- The place of a word of memory. -/
@[ext] structure Address where
  word : Word
  isLt : word.toNat < memorySize
  deriving DecidableEq, Repr

/-- The address that a word gives. -/
def Address.ofWord (w : Word) : Except Error Address :=
  if h : w.toNat < memorySize then .ok ⟨w, h⟩ else .error (.addressOutOfRange w.toNat)

theorem Address.ofWord_eq_ok_iff {w : Word} {a : Address} : ofWord w = .ok a ↔ a.word = w := by
  unfold ofWord
  split
  · next h =>
    rw [Except.ok.injEq, Address.ext_iff, eq_comm]
  · next h =>
    simp only [reduceCtorEq, false_iff]
    rintro rfl
    exact h a.isLt

@[simp] theorem Address.ofWord_word (a : Address) : ofWord a.word = .ok a :=
  ofWord_eq_ok_iff.2 rfl

/-- A word past the end of memory is refused as it is. -/
theorem Address.ofWord_eq_error_iff {w : Word} {e : Error} :
    ofWord w = .error e ↔ e = .addressOutOfRange w.toNat ∧ memorySize ≤ w.toNat := by
  unfold ofWord
  split
  · next h =>
    simp only [reduceCtorEq, false_iff]
    omega
  · next h =>
    rw [Except.error.injEq, eq_comm]
    exact ⟨fun he => ⟨he, by omega⟩, And.left⟩

/-! ### Source operands -/

/-- Where an instruction takes a value from. -/
inductive Operand
  | literal (value : Literal)
  | register (r : Register)
  deriving DecidableEq, Repr

namespace Operand

/-- The operand that a word stands for. -/
def ofWord (w : Word) : Except Error Operand :=
  if h : w.toNat < registerBase then .ok (.literal ⟨w, h⟩)
  else match Register.ofWord w with
    | .ok r => .ok (.register r)
    | .error _ => .error (.invalidOperand w)

/-- The word that an operand is written as. -/
def word : Operand → Word
  | .literal value => value.word
  | .register r => r.word

/-- A literal is written in decimal, a register by its name. -/
def text : Operand → String
  | .literal value => toString value.word
  | .register r => r.text

@[simp] theorem ofWord_word (a : Operand) : ofWord a.word = .ok a := by
  cases a with
  | literal v => exact dif_pos v.isLt
  | register r =>
    have named : ¬ r.word.toNat < registerBase := by
      rw [r.toNat_word]
      omega
    simp only [ofWord, word, dif_neg named, Register.ofWord_word]

theorem ofWord_eq_ok_iff {w : Word} {a : Operand} : ofWord w = .ok a ↔ a.word = w := by
  constructor
  · intro h
    unfold ofWord at h
    split at h
    · cases h
      rfl
    · split at h
      · next r hr =>
        cases h
        exact Register.ofWord_eq_ok_iff.1 hr
      · cases h
  · rintro rfl
    exact ofWord_word a

/-- A word that is no operand is refused as it is. -/
theorem ofWord_eq_error_iff {w : Word} {e : Error} :
    ofWord w = .error e ↔ e = .invalidOperand w ∧ maxOperand < w.toNat := by
  unfold ofWord
  split
  · next h =>
    simp only [reduceCtorEq, false_iff, not_and, Nat.not_lt]
    intro _
    exact Nat.le_of_lt_succ (Nat.lt_of_lt_of_le h (by decide))
  · next h =>
    cases hr : Register.ofWord w with
    | ok r =>
      have hw := r.toNat_word
      rw [Register.ofWord_eq_ok_iff.1 hr] at hw
      have := r.index.isLt
      simp only [reduceCtorEq, false_iff, not_and, Nat.not_lt, maxOperand]
      omega
    | error e' =>
      rw [Register.ofWord_eq_error_iff] at hr
      rw [Except.error.injEq, eq_comm]
      exact ⟨fun he => ⟨he, by omega⟩, And.left⟩

end Operand

end WordMachine
