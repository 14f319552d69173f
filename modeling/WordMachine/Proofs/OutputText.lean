import WordMachine.Proofs.FailingSink

/-!
# The text that is put out

What a console has written can be read again by any program that reads UTF-8, and it reads one
character for every word that was put out. All words are put out as different characters but for the
surrogates, which are no characters by themselves and come out as the replacement character.

* `codePoint` — the number of the character that a word is put out as.
* `Console.Request.word?` — the word that a request puts out.
* `Console.written` — the bytes in the sink once the console is finished.
* `Console.Fresh.written_eq` — they are the encoded characters, one for each word.
-/

namespace WordMachine

/-- The words that are no characters. -/
def IsSurrogate (w : Word) : Prop := 0xD800 ≤ w.toNat ∧ w.toNat ≤ 0xDFFF

instance (w : Word) : Decidable (IsSurrogate w) :=
  inferInstanceAs (Decidable (_ ∧ _))

/-- The number of the character that a word is put out as. -/
def codePoint (w : Word) : Nat := if IsSurrogate w then 0xFFFD else w.toNat

theorem isValidChar_iff_not_isSurrogate (w : Word) : w.toNat.isValidChar ↔ ¬ IsSurrogate w := by
  have hsize : w.toNat < 0x10000 := w.toNat_lt
  unfold Nat.isValidChar IsSurrogate
  omega

theorem toNat_characterOf_eq_codePoint (w : Word) : (characterOf w).toNat = codePoint w := by
  have hvalid := isValidChar_iff_not_isSurrogate w
  by_cases hw : IsSurrogate w
  · rw [characterOf, codePoint, dif_neg fun h => hvalid.1 h hw, if_pos hw]
    rfl
  · rw [characterOf, codePoint, dif_pos (hvalid.2 hw), if_neg hw]
    rfl

theorem map_toNat_map_characterOf (words : List Word) :
    (words.map characterOf).map Char.toNat = words.map codePoint := by
  rw [List.map_map]
  exact List.map_congr_left fun w _ => toNat_characterOf_eq_codePoint w

/-- Words that are characters can be told from their code points. -/
theorem map_codePoint {words : List Word} (h : ∀ w ∈ words, ¬ IsSurrogate w) :
    (words.map codePoint).map UInt16.ofNat = words := by
  have hword : ∀ w ∈ words, UInt16.ofNat (codePoint w) = w := by
    intro w hw
    rw [codePoint, if_neg (h w hw), UInt16.ofNat_toNat]
  rw [List.map_map]
  exact (List.map_congr_left hword).trans words.map_id

namespace Console

/-- The word that a request puts out. -/
def Request.word? : Request → Option Word
  | .output w => some w
  | .input | .script _ | .finish => none

/-- What is in the sink when the console is finished after requests. -/
def written (c : Console) (requests : List Request) : ByteArray :=
  ⟨(c.session (requests ++ [.finish])).sink.bytes⟩

variable {c : Console} {emitted : List UInt8} {requests : List Request}

theorem flatMap_emits (requests : List Request) :
    requests.flatMap Request.emits = (requests.filterMap Request.word?).flatMap encode := by
  induction requests with
  | nil => rfl
  | cons q qs ih =>
    rw [List.flatMap_cons, ih]
    cases q with
    | output w => rfl
    | input => rfl
    | script bytes => rfl
    | finish => rfl

/-- Characters are encoded one by one. -/
theorem toByteArray_flatMap_encode (words : List Word) :
    (words.flatMap encode).toByteArray = (words.map characterOf).utf8Encode := by
  rw [List.utf8Encode, List.flatMap_map]
  rfl

/-- An intact console that finishes without a failed write holds nothing back any more. -/
theorem Intact.pending_finish (h : Intact emitted c) (fine : c.finish.1 ≠ .error .sinkFull) :
    c.finish.2.pending = #[] := by
  rcases finish_cases h.within with ⟨result, flushes, -, hfinish, -⟩ | ⟨k, hfinish, -⟩
  · rw [hfinish]
  · rw [hfinish] at fine
    exact absurd rfl fine

/-- As long as no write has failed, a console is intact. -/
theorem Fresh.intact_session (h : c.Fresh) (fine : ¬ c.WriteFailed requests) :
    Intact (requests.flatMap Request.emits) (c.session requests) := by
  rcases h.intact.session requests with ⟨-, hintact⟩ | ⟨hfailed, -⟩
  · exact hintact
  · exact absurd hfailed fine

/-- **What is written are the characters**, one for each word. -/
theorem Fresh.written_eq (h : c.Fresh) (fine : ¬ c.WriteFailed (requests ++ [.finish])) :
    c.written requests = ((requests.filterMap Request.word?).map characterOf).utf8Encode := by
  obtain ⟨hfine, hfinish⟩ := not_or.1 (mt writeFailed_concat_iff.2 fine)
  have hpending : (c.session (requests ++ [.finish])).pending = #[] := by
    rw [session_concat]
    exact (h.intact_session hfine).pending_finish (mt map_eq_error_iff.2 hfinish)
  have hbytes := (h.intact_session fine).accounted
  rw [hpending, List.append_nil, List.flatMap_append, List.flatMap_singleton, Request.emits,
    List.append_nil, flatMap_emits] at hbytes
  rw [← toByteArray_flatMap_encode, ← hbytes]
  apply ByteArray.ext
  rw [List.data_toByteArray, Array.toArray_toList]
  rfl

/-- In interactive mode nothing is left to be written when the console is finished. -/
theorem Fresh.session_interactive (h : c.Fresh) (hmode : c.mode = .interactive)
    (fine : ¬ c.WriteFailed (requests ++ [.finish])) :
    (c.session requests).sink.bytes = (c.session (requests ++ [.finish])).sink.bytes := by
  have hmodes (qs : List Request) : (c.session qs).mode = .interactive :=
    (c.session_keeps qs).1.trans hmode
  have hfine : ¬ c.WriteFailed requests := fun hfailed =>
    fine (writeFailed_concat_iff.2 (.inl hfailed))
  rw [← Array.toList_inj, (h.intact_session hfine).toList_bytes (hmodes _),
    (h.intact_session fine).toList_bytes (hmodes _), List.flatMap_append, List.flatMap_singleton,
    Request.emits, List.append_nil]

end Console

/-- **The output of a console is uniquely decodable.** Once a console that has put out nothing before
is finished without a failed write, the sink holds well-formed UTF-8, in interactive mode also without
finishing. Decoded, it has one code point for every word that was put out, in order: the word itself,
or that of the replacement character for a surrogate. So the words can be told from the bytes, unless
there were surrogates among them, also between consoles in different modes. -/
theorem output_decodes {start : Console} (fresh : start.Fresh) {requests : List Console.Request}
    (fine : ¬ start.WriteFailed (requests ++ [.finish])) :
    let bytes := start.written requests
    let words := requests.filterMap Console.Request.word?
    bytes.IsValidUTF8 ∧
    (∃ text, bytes.utf8Decode? = some text ∧
      text.toList.map Char.toNat = words.map codePoint) ∧
    (start.mode = .interactive → (start.session requests).sink.bytes = bytes.data) ∧
    ∀ {start' : Console} {requests' : List Console.Request},
      let words' := requests'.filterMap Console.Request.word?
      start'.Fresh → ¬ start'.WriteFailed (requests' ++ [.finish]) →
      start'.written requests' = bytes →
      (∀ w ∈ words, ¬ IsSurrogate w) → (∀ w ∈ words', ¬ IsSurrogate w) → words' = words := by
  intro bytes words
  have hbytes : bytes = (words.map characterOf).utf8Encode := fresh.written_eq fine
  refine ⟨?_, ?_, ?_, ?_⟩
  · rw [hbytes]
    exact ByteArray.isValidUTF8_utf8Encode
  · refine ⟨(words.map characterOf).toArray, ?_, map_toNat_map_characterOf words⟩
    rw [hbytes]
    exact List.utf8Decode?_utf8Encode
  · intro hinteractive
    exact fresh.session_interactive hinteractive fine
  · intro start' requests' words' fresh' fine' hsame hwords hwords'
    have htext : words'.map characterOf = words.map characterOf := by
      rw [fresh'.written_eq fine', hbytes] at hsame
      have hdecoded := congrArg ByteArray.utf8Decode? hsame
      rw [List.utf8Decode?_utf8Encode, List.utf8Decode?_utf8Encode] at hdecoded
      exact List.toArray_inj (Option.some.inj hdecoded)
    have hcodes : words'.map codePoint = words.map codePoint := by
      rw [← map_toNat_map_characterOf, htext, map_toNat_map_characterOf]
    rw [← map_codePoint hwords', hcodes, map_codePoint hwords]

/-- A letter, a surrogate and a character of three bytes, held back until the end; and two consoles in
different modes that write the same. -/
theorem output_decodes_surrogate :
    let buffered : Console := { mode := .buffered }
    let interactive : Console := { mode := .interactive }
    let requests : List Console.Request := [.output 0x41, .output 0xD800, .output 0x4E2D]
    let plain : List Console.Request := [.output 0x41, .output 0xE9]
    buffered.Fresh ∧ ¬ buffered.WriteFailed (requests ++ [.finish]) ∧
    (∃ text, (buffered.written requests).utf8Decode? = some text ∧
      text.toList.map Char.toNat = [0x41, 0xFFFD, 0x4E2D]) ∧
    interactive.written plain = buffered.written plain ∧
    plain.filterMap Console.Request.word? = [0x41, 0xE9] := by
  intro buffered interactive requests plain
  have hbuffered : buffered.Fresh := ⟨rfl, rfl⟩
  have hinteractive : interactive.Fresh := ⟨rfl, rfl⟩
  have fine : ¬ buffered.WriteFailed (requests ++ [.finish]) := by decide
  have fine' : ¬ buffered.WriteFailed (plain ++ [.finish]) := by decide
  have hplain : ∀ w ∈ plain.filterMap Console.Request.word?, ¬ IsSurrogate w := by
    show ∀ w ∈ [0x41, 0xE9], ¬ IsSurrogate w
    rw [List.forall_mem_cons, List.forall_mem_singleton]
    decide
  have hsame : interactive.written plain = buffered.written plain := by decide
  obtain ⟨-, htext, -⟩ := output_decodes hbuffered fine
  obtain ⟨-, -, -, hwords⟩ := output_decodes hbuffered fine'
  exact ⟨hbuffered, fine, htext, hsame, hwords hinteractive (by decide) hsame hplain hplain⟩

end WordMachine
