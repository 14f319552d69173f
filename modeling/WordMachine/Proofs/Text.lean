import WordMachine.Text.Quoted

/-!
# What can be told from text

* Hexadecimal numbers are read back as they were written, whatever their width (`ofHex?_hexDigits`);
  a number that fits in four digits is written with four (`fourDigits_hexDigits`).
* Decimal numbers consist of digits, which are read back as well (`digits_toString`,
  `ofDigitChars_toString`).
* What is read back piece by piece is read back altogether (`mapM_map_eq_some`).
* No quoted character has a line break in it (`lineBreak_not_mem_quoteChar`): all of them are
  escaped, not only the line feed. A text of ASCII characters without quotes and backslashes stands
  between quotes as it is (`quote_of_ascii`).
-/

namespace WordMachine

namespace Text

/-! ### Hexadecimal numbers -/

/-- The number that a digit makes of the number before it. -/
def addDigit? (n : Nat) (c : Char) : Option Nat := (16 * n + ·) <$> hexValue? c

theorem ofHex?_eq {cs : List Char} (h : cs ≠ []) : ofHex? cs = cs.foldlM addDigit? 0 := if_neg h

theorem hexValue?_digitChar {d : Nat} (h : d < 16) : hexValue? d.digitChar = some d := by
  have hall : ∀ d : Fin 16, hexValue? d.val.digitChar = some d.val := by decide
  exact hall ⟨d, h⟩

theorem addDigit?_digitChar (n : Nat) {d : Nat} (h : d < 16) :
    addDigit? n d.digitChar = some (16 * n + d) := by
  rw [addDigit?, hexValue?_digitChar h]
  rfl

theorem foldlM_toDigits (n : Nat) : (Nat.toDigits 16 n).foldlM addDigit? 0 = some n := by
  induction n using Nat.strongRecOn with
  | ind n ih =>
    rw [Nat.toDigits_eq_if (by decide)]
    split
    · next h => simp [addDigit?_digitChar 0 h]
    · next h =>
      have hlast : n % 16 < 16 := Nat.mod_lt n (by decide)
      rw [List.foldlM_append, ih (n / 16) (by omega)]
      simp [addDigit?_digitChar _ hlast, Nat.div_add_mod]

theorem foldlM_zeros (k : Nat) (cs : List Char) :
    (List.replicate k '0' ++ cs).foldlM addDigit? 0 = cs.foldlM addDigit? 0 := by
  induction k with
  | zero => rfl
  | succ k ih => exact ih

theorem foldlM_hexDigits (width n : Nat) : (hexDigits width n).foldlM addDigit? 0 = some n := by
  rw [hexDigits, List.leftpad, foldlM_zeros, foldlM_toDigits]

/-- **Hexadecimal digits are read back** as the number that they were written for. -/
theorem ofHex?_hexDigits (width n : Nat) : ofHex? (hexDigits width n) = some n := by
  have hne : hexDigits width n ≠ [] := by
    simp [hexDigits, List.leftpad, Nat.toDigits_ne_nil]
  rw [ofHex?_eq hne, foldlM_hexDigits]

/-- Four digits that stand for a number. -/
def FourDigits (n : Nat) (digits : List Char) : Prop :=
  digits.length = 4 ∧ ofHex? digits = some n

theorem fourDigits_hexDigits {n : Nat} (h : n < 65536) : FourDigits n (hexDigits 4 n) := by
  have hlength : (Nat.toDigits 16 n).length ≤ 4 :=
    (Nat.length_toDigits_le_iff (by decide) (by decide)).2 h
  refine ⟨?_, ofHex?_hexDigits 4 n⟩
  rw [hexDigits, List.length_leftpad, Nat.max_eq_left hlength]

theorem toList_hexWord (n : Nat) : (hexWord n).toList = '0' :: 'x' :: hexDigits 4 n := by
  simp [hexWord, hex]

/-- So are addresses and words of a listing. -/
theorem ofHexWord?_hexWord (n : Nat) : ofHexWord? (hexWord n).toList = some n := by
  rw [toList_hexWord]
  exact ofHex?_hexDigits 4 n

/-- What is read as a number consists of digits. -/
theorem isSome_hexValue?_of_foldlM {cs : List Char} {a n : Nat}
    (h : cs.foldlM addDigit? a = some n) {c : Char} (hc : c ∈ cs) : (hexValue? c).isSome := by
  induction cs generalizing a with
  | nil => cases hc
  | cons c' cs ih =>
    cases hv : hexValue? c' with
    | none => simp [addDigit?, hv] at h
    | some d =>
      rcases List.mem_cons.1 hc with rfl | hc
      · simp [hv]
      · simp only [List.foldlM_cons, addDigit?, hv] at h
        exact ih h hc

theorem not_mem_hexDigits {c : Char} (hc : hexValue? c = none) (width n : Nat) :
    c ∉ hexDigits width n := by
  intro hmem
  have hdigit := isSome_hexValue?_of_foldlM (foldlM_hexDigits width n) hmem
  rw [hc] at hdigit
  cases hdigit

/-- A character that is no digit does not stand in a word of a listing, unless it is the `x`. -/
theorem not_mem_hexWord {c : Char} (hc : hexValue? c = none) (hx : c ≠ 'x') (n : Nat) :
    c ∉ (hexWord n).toList := by
  rw [toList_hexWord, List.mem_cons, List.mem_cons]
  rintro (rfl | rfl | hmem)
  · cases hc
  · exact hx rfl
  · exact not_mem_hexDigits hc 4 n hmem

/-! ### Decimal numbers -/

theorem isDigit_of_mem_toString {n : Nat} {c : Char} (hc : c ∈ (toString n).toList) :
    c.isDigit = true := by
  rw [Nat.toString_eq_ofList_toDigits, String.toList_ofList] at hc
  exact Nat.isDigit_of_mem_toDigits (by decide) (by decide) hc

/-- A decimal number is written with digits, and with at least one. -/
theorem digits_toString (n : Nat) :
    (toString n).toList ≠ [] ∧ (toString n).toList.all Char.isDigit = true := by
  refine ⟨?_, List.all_eq_true.2 fun _ => isDigit_of_mem_toString⟩
  rw [Nat.toString_eq_ofList_toDigits, String.toList_ofList]
  exact Nat.toDigits_ne_nil

/-- So it does not start with anything else. -/
theorem isDigit_of_toString_eq_cons {n : Nat} {c : Char} {cs : List Char}
    (h : (toString n).toList = c :: cs) : c.isDigit = true :=
  isDigit_of_mem_toString (h ▸ List.mem_cons_self)

theorem ofDigitChars_toString (n : Nat) : Nat.ofDigitChars 10 (toString n).toList 0 = n := by
  rw [Nat.toString_eq_ofList_toDigits, String.toList_ofList]
  exact Nat.ofDigitChars_ten_toDigits

/-! ### Several pieces of text -/

/-- If every piece is read back, all are. -/
theorem mapM_map_eq_some {α β γ : Type} {write : α → β} {read : β → Option γ} {f : α → γ}
    (h : ∀ a, read (write a) = some (f a)) (as : List α) :
    (as.map write).mapM read = some (as.map f) := by
  have hread : read ∘ write = fun a => pure (f a) := funext h
  rw [List.mapM_map, hread, List.mapM_pure]
  rfl

/-- Pieces without blanks in them are found again between the blanks. -/
theorem splitOn_blanks {first : List Char} {pieces : List (List Char)} (hfirst : ' ' ∉ first)
    (hpieces : ∀ p ∈ pieces, ' ' ∉ p) :
    (first ++ pieces.flatMap (' ' :: ·)).splitOn ' ' = first :: pieces := by
  induction pieces generalizing first with
  | nil => simp [List.splitOn_eq_singleton hfirst]
  | cons p ps ih =>
    obtain ⟨hp, hps⟩ := List.forall_mem_cons.1 hpieces
    rw [List.flatMap_cons, List.cons_append, List.splitOn_append_cons_self_of_not_mem hfirst,
      ih hp hps]

/-! ### Line breaks -/

/-- The characters that end a line: the line feed, and those that can be taken for one. -/
def lineBreaks : List Char := ['\n', '\x0b', '\x0c', '\r', '\x85', '\u2028', '\u2029']

/-- What is found true of each line break is true of all. -/
theorem of_lineBreaks_all {p : Char → Prop} [DecidablePred p] {b : Char} (hb : b ∈ lineBreaks)
    (h : lineBreaks.all (fun b => decide (p b)) = true) : p b :=
  of_decide_eq_true (List.all_eq_true.1 h b hb)

theorem hexValue?_lineBreak {b : Char} (hb : b ∈ lineBreaks) : hexValue? b = none := by
  apply of_lineBreaks_all hb
  decide

theorem lineBreak_not_mem_hexWord {b : Char} (hb : b ∈ lineBreaks) (n : Nat) :
    b ∉ (hexWord n).toList := by
  have hx : b ≠ 'x' := by
    apply of_lineBreaks_all hb
    decide
  exact not_mem_hexWord (hexValue?_lineBreak hb) hx n

theorem unprintable_of_getElem? {c : Char} {i first last : Nat}
    (h : unprintableBasic[i]? = some (first, last)) (hfirst : first ≤ c.toNat)
    (hlast : c.toNat ≤ last) (hc : c.toNat < 0x10000) : unprintable c = true := by
  rw [unprintable, if_pos hc, Array.any_eq_true]
  obtain ⟨hi, h⟩ := Array.getElem?_eq_some_iff.1 h
  refine ⟨i, hi, ?_⟩
  simp [h, hfirst, hlast]

set_option maxRecDepth 20000 in
/-- The line breaks that are not written as a letter are unprintable. -/
theorem lineBreak_cases {b : Char} (h : b ∈ lineBreaks) :
    b = '\n' ∨ b = '\r' ∨ unprintable b = true := by
  simp only [lineBreaks, List.mem_cons, List.not_mem_nil, or_false] at h
  have controls : unprintableBasic[1]? = some (0xb, 0xc) := rfl
  have more : unprintableBasic[3]? = some (0x7f, 0xa0) := rfl
  have separators : unprintableBasic[319]? = some (0x2028, 0x202f) := rfl
  rcases h with rfl | rfl | rfl | rfl | rfl | rfl | rfl
  · exact .inl rfl
  · exact .inr (.inr (unprintable_of_getElem? controls (by decide) (by decide) (by decide)))
  · exact .inr (.inr (unprintable_of_getElem? controls (by decide) (by decide) (by decide)))
  · exact .inr (.inl rfl)
  · exact .inr (.inr (unprintable_of_getElem? more (by decide) (by decide) (by decide)))
  · exact .inr (.inr (unprintable_of_getElem? separators (by decide) (by decide) (by decide)))
  · exact .inr (.inr (unprintable_of_getElem? separators (by decide) (by decide) (by decide)))

theorem lineBreak_not_mem_escape {b quote : Char} (hb : b ∈ lineBreaks)
    (hquote : quote ∉ lineBreaks) (c : Char) : b ∉ (escape quote c).toList := by
  have hplain : b ∉ ['\\', '0', 't', 'r', 'n', 'u', '\x7b', '\x7d'] := by
    apply of_lineBreaks_all hb
    decide
  simp only [List.mem_cons, List.not_mem_nil, or_false, not_or] at hplain
  fun_cases escape quote c with
  | case1 | case2 | case3 | case4 => simp [hplain]
  | case5 _ _ _ _ hescaped =>
    have hne : b ≠ c := by
      rintro rfl
      rcases hescaped with rfl | rfl
      · exact hplain.1 rfl
      · exact hquote hb
    simp [hplain, hne]
  | case6 =>
    have hdigits := not_mem_hexDigits (hexValue?_lineBreak hb) 1 c.toNat
    simp [hplain, hex, hdigits]
  | case7 _ _ hreturn hfeed _ hprintable =>
    -- a character that stands for itself is no line break, since those are unprintable
    have hne : b ≠ c := by
      rintro rfl
      rcases lineBreak_cases hb with h | h | h
      · exact hfeed h
      · exact hreturn h
      · exact hprintable h
    simp [hne]

/-- **No quoted character has a line break in it.** -/
theorem lineBreak_not_mem_quoteChar {b : Char} (hb : b ∈ lineBreaks) (c : Char) :
    b ∉ (quoteChar c).toList := by
  have hquote : '\x27' ∉ lineBreaks := by decide
  have hb' : b ≠ '\x27' := by
    rintro rfl
    exact hquote hb
  simp [quoteChar, hb', lineBreak_not_mem_escape hb hquote]

/-! ### Quotes -/

/-- The ASCII characters that are no controls are shown as they are. -/
theorem unprintable_of_ascii {c : Char} (low : 0x20 ≤ c.toNat) (high : c.toNat ≤ 0x7E) :
    unprintable c = false := by
  have hruns : unprintableBasic.toList.all (fun run => run.2 < 0x20 || 0x7E < run.1) = true := by
    decide +kernel
  rw [unprintable, if_pos (by omega), Array.any_eq_false']
  rintro ⟨first, last⟩ hrun
  have hrun := List.all_eq_true.1 hruns _ (Array.mem_def.1 hrun)
  simp only [Bool.or_eq_true, decide_eq_true_eq] at hrun
  simp only [Bool.and_eq_true, decide_eq_true_eq]
  omega

/-- **A text of ASCII characters stands between its quotes as it is**, if there is nothing to escape. -/
theorem quote_of_ascii {s : String} (h : s.toList.all fun c =>
    0x20 ≤ c.toNat ∧ c.toNat ≤ 0x7E ∧ c ≠ '\\' ∧ c ≠ '"') : quote s = "\"" ++ s ++ "\"" := by
  have hescape : s.toList.map (escape '"') = s.toList.map Char.toString := by
    apply List.map_congr_left
    intro c hc
    obtain ⟨low, high, hbackslash, hquote⟩ := of_decide_eq_true (List.all_eq_true.1 h c hc)
    have hcontrol : c ≠ '\x00' ∧ c ≠ '\t' ∧ c ≠ '\r' ∧ c ≠ '\n' := by
      refine ⟨?_, ?_, ?_, ?_⟩
      all_goals
        rintro rfl
        exact absurd low (by decide)
    simp [escape, hcontrol, hbackslash, hquote, unprintable_of_ascii low high]
  have hjoin : String.join (s.toList.map Char.toString) = s := by
    rw [← String.toList_inj, String.toList_join, List.flatMap_map]
    simp [Char.toString]
  rw [quote, hescape, hjoin]
end Text

end WordMachine
