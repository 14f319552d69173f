import WordMachine.Image

/-!
# Programs and their images

* `validate_eq_ok_iff` — which programs are accepted, as a property of their words;
* `words_encode` — reading the words of an image is the inverse of writing them;
* `decode_encode` — hence decoding an encoded program does nothing but validate it.
-/

namespace WordMachine.Image

/-- **What is accepted**: programs that fit into memory and have no word that is too large. -/
theorem validate_eq_ok_iff {program : Array Word} :
    validate program = .ok () ↔
      program.size ≤ memorySize ∧ ∀ w ∈ program, w.toNat ≤ maxOperand := by
  unfold validate
  split
  · next h =>
    simp only [reduceCtorEq, false_iff]
    omega
  · next h =>
    have hfits : program.size ≤ memorySize := Nat.not_lt.1 h
    split
    · next i hi =>
      -- the word that was found is one that is too large
      have hbad : (!allowed program[i]) = true := (Array.findFinIdx?_eq_some_iff.1 hi).1
      simp only [allowed, Bool.not_eq_true', decide_eq_false_iff_not] at hbad
      simp only [reduceCtorEq, false_iff]
      rintro ⟨-, hall⟩
      exact hbad (hall program[i] (Array.getElem_mem _))
    · next hi =>
      have hall := Array.findFinIdx?_eq_none_iff.1 hi
      simp only [allowed, Bool.not_eq_true', decide_eq_false_iff_not, Decidable.not_not] at hall
      exact ⟨fun _ => ⟨hfits, hall⟩, fun _ => rfl⟩

/-- The same for a program that is given, to be computed. -/
theorem validate_eq_ok_of_all {program : Array Word} (hsize : program.size ≤ memorySize)
    (hall : program.toList.all allowed = true) : validate program = .ok () := by
  apply validate_eq_ok_iff.2
  refine ⟨hsize, ?_⟩
  intro w hw
  have hallowed := List.all_eq_true.1 hall w (Array.mem_toList_iff.2 hw)
  rw [allowed] at hallowed
  exact of_decide_eq_true hallowed

/-! ### Words and bytes -/

theorem wordOf_bytes (w : Word) :
    wordOf (.ofNat (w.toNat % 256)) (.ofNat (w.toNat / 256)) = w := by
  rw [← UInt16.toNat_inj, wordOf, UInt16.toNat_ofNat', UInt8.toNat_ofNat', UInt8.toNat_ofNat']
  have := w.toNat_lt
  omega

@[simp] theorem toList_encode (program : Array Word) :
    (encode program).toList = program.toList.flatMap bytesOf := by
  simp [encode]

/-- Every word takes up two bytes. -/
@[simp] theorem size_encode (program : Array Word) : (encode program).size = 2 * program.size := by
  have hlen : ∀ ws : List Word, (ws.flatMap bytesOf).length = 2 * ws.length := by
    intro ws
    induction ws with
    | nil => rfl
    | cons w ws ih =>
      rw [List.flatMap_cons, List.length_append, ih, List.length_cons]
      show 2 + _ = _
      omega
  rw [← Array.length_toList, toList_encode, hlen, Array.length_toList]

/-- The two bytes of each word stand next to each other, in the order of the words. -/
theorem getElem?_flatMap_bytesOf (ws : List Word) (i : Nat) :
    (ws.flatMap bytesOf)[2 * i]? = ws[i]?.map (fun w => .ofNat (w.toNat % 256)) ∧
      (ws.flatMap bytesOf)[2 * i + 1]? = ws[i]?.map (fun w => .ofNat (w.toNat / 256)) := by
  induction ws generalizing i with
  | nil => simp
  | cons w ws ih =>
    cases i with
    | zero => exact ⟨rfl, rfl⟩
    | succ i =>
      rw [List.flatMap_cons, bytesOf, show 2 * (i + 1) = 2 * i + 1 + 1 by omega]
      exact ih i

/-- **Reading inverts writing**: the words of an encoded program are the program. -/
theorem words_encode (program : Array Word) : words (encode program) = program := by
  apply Array.ext
  · rw [words, Array.size_ofFn, size_encode]
    omega
  · intro i hi hi'
    obtain ⟨hlow, hhigh⟩ := getElem?_flatMap_bytesOf program.toList i
    rw [← toList_encode, Array.getElem?_toList, Array.getElem?_toList,
      Array.getElem?_eq_getElem hi', Option.map_some] at hlow hhigh
    obtain ⟨_, hlow⟩ := Array.getElem?_eq_some_iff.1 hlow
    obtain ⟨_, hhigh⟩ := Array.getElem?_eq_some_iff.1 hhigh
    simp only [words, Array.getElem_ofFn]
    rw [hlow, hhigh, wordOf_bytes]

/-- **Decoding an encoded program validates it**, and does nothing else. -/
theorem decode_encode (program : Array Word) :
    decode (encode program) = (validate program).map fun _ => program := by
  have heven : ¬ 2 * program.size % 2 = 1 := by omega
  rw [decode, size_encode, if_neg heven, words_encode]
  show (validate program >>= fun _ => pure program) = _
  cases validate program with
  | error e => rfl
  | ok u => rfl

/-- What an image holds is accepted. -/
theorem validate_of_decode {image : Array UInt8} {program : Array Word}
    (h : decode image = .ok program) : validate program = .ok () := by
  rw [decode] at h
  split at h
  · cases h
  · have h : (validate (words image) >>= fun _ => pure (words image)) = .ok program := h
    cases hvalid : validate (words image) with
    | error e =>
      rw [hvalid] at h
      cases h
    | ok u =>
      rw [hvalid] at h
      cases h
      exact hvalid

end WordMachine.Image
