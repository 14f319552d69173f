import WordMachine.Proofs.Image
import WordMachine.Proofs.Load

/-!
# Images, exactly

What images are: `Image.decode` accepts an image or names its flaw, and there is nothing in between.

* `validate_eq_error_iff` — why a program is refused; the word that is named is the first bad one.
* `encode_words` — an image of even length is the image of the words that are read from it. Together
  with `words_encode` this makes reading and writing inverse to each other.
* `decode_eq_ok_iff`, `decode_eq_error_iff` — so an image is accepted exactly if it is the image of
  an accepted program, and refused exactly for its `Flaw`.
-/

namespace WordMachine

namespace Image

/-- The number that two bytes of an image make which stand next to each other, the low one first. -/
def pairValue (image : Array UInt8) (i : Nat) : Nat :=
  (image.getD (2 * i) 0).toNat + 256 * (image.getD (2 * i + 1) 0).toNat

/-- What an image is refused for. Its length is looked at first, then how many words it has, and
last the words, from the first one on. -/
inductive Flaw (image : Array UInt8) : ImageError → Prop
  | oddLength (odd : image.size % 2 = 1) : Flaw image (.oddLength image.size)
  | tooLarge (even : image.size % 2 = 0) (large : memorySize < image.size / 2) :
      Flaw image (.tooLarge (image.size / 2))
  | invalidWord {i : Nat} {w : Word} (even : image.size % 2 = 0)
      (fits : image.size / 2 ≤ memorySize) (inside : i < image.size / 2)
      (value : w.toNat = pairValue image i) (bad : maxOperand < w.toNat)
      (first : ∀ j < i, pairValue image j ≤ maxOperand) : Flaw image (.invalidWord i w)

/-! ### Programs that are refused -/

theorem allowed_iff {w : Word} : allowed w = true ↔ w.toNat ≤ maxOperand := by
  simp [allowed]

/-- **Why a program is refused**: it is too large, or a word is, and the first such is named. -/
theorem validate_eq_error_iff {program : Array Word} {e : ImageError} :
    validate program = .error e ↔
      memorySize < program.size ∧ e = .tooLarge program.size ∨
      program.size ≤ memorySize ∧ ∃ i, ∃ hi : i < program.size,
        e = .invalidWord i program[i] ∧ maxOperand < program[i].toNat ∧
          ∀ j, ∀ hj : j < i, program[j].toNat ≤ maxOperand := by
  unfold validate
  split
  · next large =>
    have fits : ¬ program.size ≤ memorySize := Nat.not_le.2 large
    simp [large, fits, eq_comm]
  · next fits =>
    have fits : program.size ≤ memorySize := Nat.not_lt.1 fits
    have small : ¬ memorySize < program.size := Nat.not_lt.2 fits
    simp only [small, false_and, false_or, fits, true_and]
    split
    · next i found =>
      -- the word that is found is bad, and those before it are not
      obtain ⟨bad, first⟩ := Array.findFinIdx?_eq_some_iff.1 found
      simp only [Bool.not_eq_true', ← Bool.not_eq_true, allowed_iff, Nat.not_le, Nat.not_lt]
        at bad first
      constructor
      · intro h
        cases h
        exact ⟨i, i.isLt, rfl, bad, fun j hj => first ⟨j, Nat.lt_trans hj i.isLt⟩ hj⟩
      · rintro ⟨k, hk, rfl, bad', first'⟩
        obtain hlt | heq | hgt := Nat.lt_trichotomy k i.val
        · exact absurd bad' (Nat.not_lt.2 (first ⟨k, hk⟩ hlt))
        · subst heq
          rfl
        · exact absurd (first' i hgt) (Nat.not_le.2 bad)
    · next none =>
      have valid := Array.findFinIdx?_eq_none_iff.1 none
      simp only [Bool.not_eq_true', ← Bool.not_eq_true, allowed_iff, Decidable.not_not] at valid
      simp only [reduceCtorEq, false_iff]
      rintro ⟨i, hi, -, bad, -⟩
      exact absurd (valid program[i] (Array.getElem_mem hi)) (Nat.not_le.2 bad)

/-- To answer something if a program is accepted fails as the program is refused. -/
theorem map_validate_eq_error_iff {α : Type} {a : α} {program : Array Word} {e : ImageError} :
    ((validate program).map fun _ => a) = .error e ↔ validate program = .error e := by
  cases validate program with
  | error e' => simp [Except.map]
  | ok u => simp [Except.map]

theorem map_validate_eq_ok_iff {α : Type} {a b : α} {program : Array Word} :
    ((validate program).map fun _ => a) = .ok b ↔ validate program = .ok () ∧ a = b := by
  cases validate program with
  | error e => simp [Except.map]
  | ok u => simp [Except.map]

/-! ### Words and the bytes they are read from -/

variable {image : Array UInt8} {program : Array Word}

@[simp] theorem size_words (image : Array UInt8) : (words image).size = image.size / 2 :=
  Array.size_ofFn

theorem bytesOf_wordOf (low high : UInt8) : bytesOf (wordOf low high) = [low, high] := by
  have hlow := low.toNat_lt
  have hhigh := high.toNat_lt
  have hword : (wordOf low high).toNat = low.toNat + 256 * high.toNat := by
    rw [wordOf, UInt16.toNat_ofNat']
    omega
  rw [bytesOf, hword]
  congr 1
  · rw [← UInt8.toNat_inj, UInt8.toNat_ofNat']
    omega
  · congr 1
    rw [← UInt8.toNat_inj, UInt8.toNat_ofNat']
    omega

/-- A word that is read is the number that its two bytes make. -/
theorem toNat_getElem_words {i : Nat} (hi : i < (words image).size) :
    (words image)[i].toNat = pairValue image i := by
  have hsize : i < image.size / 2 := by simpa using hi
  have hlow : 2 * i < image.size := by omega
  have hhigh : 2 * i + 1 < image.size := by omega
  have := image[2 * i].toNat_lt
  have := image[2 * i + 1].toNat_lt
  simp only [words, Array.getElem_ofFn, wordOf, UInt16.toNat_ofNat', pairValue,
    Array.getD_eq_getD_getElem?, Array.getElem?_eq_getElem hlow, Array.getElem?_eq_getElem hhigh,
    Option.getD_some]
  omega

/-- **Writing inverts reading**, unless the image ends inside a word. -/
theorem encode_words (even : image.size % 2 = 0) : encode (words image) = image := by
  rw [← Array.toList_inj, toList_encode]
  apply List.ext_getElem?
  intro k
  -- the byte is the low or the high one of a word
  obtain ⟨i, hk⟩ : ∃ i, k = 2 * i ∨ k = 2 * i + 1 := ⟨k / 2, by omega⟩
  obtain ⟨hlow, hhigh⟩ := getElem?_flatMap_bytesOf (words image).toList i
  by_cases inside : i < image.size / 2
  · have hsize : 2 * i + 1 < image.size := by omega
    have hword : (words image).toList[i]? = some (wordOf image[2 * i] image[2 * i + 1]) := by
      simp [words, inside]
    have hbytes := bytesOf_wordOf image[2 * i] image[2 * i + 1]
    simp only [bytesOf, List.cons.injEq, and_true] at hbytes
    rw [hword, Option.map_some] at hlow hhigh
    rcases hk with rfl | rfl
    · rw [hlow, hbytes.1, Array.getElem?_toList, Array.getElem?_eq_getElem (by omega)]
    · rw [hhigh, hbytes.2, Array.getElem?_toList, Array.getElem?_eq_getElem hsize]
  · have hword : (words image).toList[i]? = none := by
      simp [Nat.not_lt.1 inside]
    rw [hword, Option.map_none] at hlow hhigh
    have hnone : image.toList[k]? = none := by
      rw [Array.getElem?_toList, Array.getElem?_eq_none (by omega)]
    rcases hk with rfl | rfl
    · rw [hlow, hnone]
    · rw [hhigh, hnone]

/-! ### What decoding accepts and what it refuses -/

theorem decode_of_odd (odd : image.size % 2 = 1) :
    decode image = .error (.oddLength image.size) := by
  rw [decode, if_pos odd]

/-- Decoding an image of even length reads its words and validates them. -/
theorem decode_of_even (even : image.size % 2 = 0) :
    decode image = (validate (words image)).map fun _ => words image := by
  rw [decode, if_neg (by omega)]
  show (validate (words image) >>= fun _ => pure (words image)) = _
  cases validate (words image) with
  | error e => rfl
  | ok u => rfl

/-- **An image is accepted exactly if it is the image of an accepted program**, which it decodes
to. -/
theorem decode_eq_ok_iff :
    decode image = .ok program ↔ encode program = image ∧ validate program = .ok () := by
  constructor
  · intro h
    rcases Nat.mod_two_eq_zero_or_one image.size with even | odd
    · rw [decode_of_even even, map_validate_eq_ok_iff] at h
      obtain ⟨hvalid, rfl⟩ := h
      exact ⟨encode_words even, hvalid⟩
    · rw [decode_of_odd odd] at h
      cases h
  · rintro ⟨rfl, hvalid⟩
    rw [decode_encode, map_validate_eq_ok_iff]
    exact ⟨hvalid, rfl⟩

/-- **An image is refused exactly for its flaw.** -/
theorem decode_eq_error_iff {e : ImageError} : decode image = .error e ↔ Flaw image e := by
  rcases Nat.mod_two_eq_zero_or_one image.size with even | odd
  · rw [decode_of_even even, map_validate_eq_error_iff, validate_eq_error_iff]
    constructor
    · rintro (⟨large, rfl⟩ | ⟨fits, i, hi, rfl, bad, first⟩)
      · rw [size_words] at large ⊢
        exact .tooLarge even large
      · have inside : i < image.size / 2 := by simpa using hi
        rw [size_words] at fits
        refine .invalidWord even fits inside (toNat_getElem_words hi) bad ?_
        intro j hj
        rw [← toNat_getElem_words (Nat.lt_trans hj hi)]
        exact first j hj
    · intro flaw
      cases flaw with
      | oddLength odd => omega
      | tooLarge _ large =>
        rw [← size_words] at large ⊢
        exact .inl ⟨large, rfl⟩
      | @invalidWord i w _ fits inside value bad first =>
        have hi : i < (words image).size := by simpa using inside
        have hw : (words image)[i] = w := by
          rw [← UInt16.toNat_inj, toNat_getElem_words hi, value]
        rw [← size_words] at fits
        refine .inr ⟨fits, i, hi, ?_, ?_, ?_⟩
        · rw [hw]
        · rw [hw]
          exact bad
        · intro j hj
          rw [toNat_getElem_words (Nat.lt_trans hj hi)]
          exact first j hj
  · rw [decode_of_odd odd]
    constructor
    · intro h
      cases h
      exact .oddLength odd
    · intro flaw
      cases flaw with
      | oddLength => rfl
      | tooLarge even | invalidWord even => omega

/-- Which images are accepted, by their bytes. -/
theorem exists_decode_iff :
    (∃ program, decode image = .ok program) ↔
      image.size % 2 = 0 ∧ image.size / 2 ≤ memorySize ∧
        ∀ i < image.size / 2, pairValue image i ≤ maxOperand := by
  constructor
  · rintro ⟨program, h⟩
    obtain ⟨rfl, hvalid⟩ := decode_eq_ok_iff.1 h
    obtain ⟨fits, valid⟩ := validate_eq_ok_iff.1 hvalid
    rw [size_encode, Nat.mul_mod_right, Nat.mul_div_cancel_left _ (by decide)]
    refine ⟨rfl, fits, ?_⟩
    intro i hi
    have hwords : i < (words (encode program)).size := by
      rw [words_encode]
      exact hi
    rw [← toNat_getElem_words hwords]
    simp only [words_encode]
    exact valid _ (Array.getElem_mem hi)
  · rintro ⟨even, fits, valid⟩
    refine ⟨words image, decode_eq_ok_iff.2 ⟨encode_words even, validate_eq_ok_iff.2 ⟨?_, ?_⟩⟩⟩
    · rw [size_words]
      exact fits
    · intro w hw
      obtain ⟨i, hi, rfl⟩ := Array.getElem_of_mem hw
      rw [toNat_getElem_words hi]
      exact valid i (by simpa using hi)

end Image

/-- **The codec of images is exact.** An image is accepted if and only if it has an even number of
bytes, not too many words and no word that is too large; it decodes to the one program that is
encoded as it; and if it is refused, it is for its first flaw. A program that is encoded and decoded
again is accepted or refused just as it is by validation, and so it is when it is loaded. -/
theorem image_codec_exact :
    (∀ image : Array UInt8,
      ((∃ program, Image.decode image = .ok program) ↔
        image.size % 2 = 0 ∧ image.size / 2 ≤ memorySize ∧
          ∀ i < image.size / 2, Image.pairValue image i ≤ maxOperand) ∧
      (∀ program, Image.decode image = .ok program ↔ Image.encode program = image ∧
        program.size ≤ memorySize ∧ ∀ w ∈ program, w.toNat ≤ maxOperand) ∧
      ∀ e, Image.decode image = .error e ↔ Image.Flaw image e) ∧
    ∀ program : Array Word,
      (Image.decode (Image.encode program) = .ok program ↔ Image.validate program = .ok ()) ∧
      (∀ e, Image.decode (Image.encode program) = .error e ↔ Image.validate program = .error e) ∧
      ∀ m : Machine,
        ((∃ m', m.load program = .ok m') ↔ Image.validate program = .ok ()) ∧
        ∀ e, m.load program = .error e ↔ Image.validate program = .error e := by
  refine ⟨fun image => ⟨Image.exists_decode_iff, ?_, fun e => Image.decode_eq_error_iff⟩, ?_⟩
  · intro program
    rw [Image.decode_eq_ok_iff, Image.validate_eq_ok_iff]
  · intro program
    rw [Image.decode_encode]
    refine ⟨?_, fun e => Image.map_validate_eq_error_iff, ?_⟩
    · rw [Image.map_validate_eq_ok_iff]
      exact and_iff_left rfl
    · intro m
      rw [Machine.load_eq]
      refine ⟨?_, fun e => Image.map_validate_eq_error_iff⟩
      simp [Image.map_validate_eq_ok_iff]

/-- An image of three words, one of which names a register, and an image with a word that is no
operand. -/
theorem image_codec_exact_add :
    let image : Array UInt8 := #[9, 0, 0, 0x80, 4, 0]
    Image.decode image = .ok #[9, 32768, 4] ∧ Image.encode #[9, 32768, 4] = image ∧
      Image.decode #[0, 0, 8, 0x80] = .error (.invalidWord 1 32776) := by
  intro image
  have hvalid : Image.validate #[9, 32768, 4] = .ok () :=
    Image.validate_eq_ok_of_all (by decide) (by decide)
  have hdecode : Image.decode image = .ok #[9, 32768, 4] :=
    (image_codec_exact.2 #[9, 32768, 4]).1.2 hvalid
  have hflaw : Image.Flaw #[0, 0, 8, 0x80] (.invalidWord 1 32776) := by
    refine .invalidWord rfl (by decide) (by decide) rfl (by decide) ?_
    decide
  have hencode := (((image_codec_exact.1 image).2.1 _).1 hdecode).1
  exact ⟨hdecode, hencode, ((image_codec_exact.1 _).2.2 _).2 hflaw⟩

end WordMachine
