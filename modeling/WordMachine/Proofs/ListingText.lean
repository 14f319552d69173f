import WordMachine.Listing.Text
import WordMachine.Proofs.Codec
import WordMachine.Proofs.Programs
import WordMachine.Proofs.Text
import WordMachine.Proofs.Tiling

/-!
# The text of a listing tells what is listed

Every line is read back as the line that it was written for (`Line.ofText?_text`), so a listing's
text tells all the words listed, and the image that they come from.

A line is read token by token. Where there is a blank between two texts, their tokens do not mix
(`Listing.tokens_append_blank`), so the tokens of a line are those of its parts. They cannot be
taken for each other: an address ends in a colon, a word starts with `0x`, no mnemonic does, and
what says which character a word names starts with a quote or a parenthesis.
-/

namespace WordMachine

namespace Listing

/-! ### Tokens -/

/-- **Where there is a blank, tokens end.** -/
theorem tokens_append_blank (s t : String) : tokens (s ++ " " ++ t) = tokens s ++ tokens t := by
  have htext : (s ++ " " ++ t).toList = s.toList ++ ' ' :: t.toList := by simp
  rw [tokens, htext, List.splitOn_append_cons_self, List.filter_append]
  rfl

/-- A text without a blank is a token. -/
theorem tokens_of_not_mem {s : String} (hne : s.toList ≠ []) (hs : ' ' ∉ s.toList) :
    tokens s = [s.toList] := by
  rw [tokens, List.splitOn_eq_singleton hs]
  simp [hne]

/-- The first token starts as the text does. -/
theorem exists_tokens_eq_cons {s : String} {c : Char} {cs : List Char} (hs : s.toList = c :: cs)
    (hc : c ≠ ' ') : ∃ t ts, tokens s = (c :: t) :: ts := by
  rw [tokens, hs, List.splitOn_cons_eq_if_modifyHead, if_neg (by simpa using hc)]
  obtain ⟨t, ts, hsplit⟩ := List.exists_cons_of_ne_nil (List.splitOn_ne_nil ' ' cs)
  rw [hsplit]
  exact ⟨t, _, rfl⟩

/-! ### Words -/

theorem tokens_hexWord (n : Nat) : tokens (Text.hexWord n) = [(Text.hexWord n).toList] := by
  apply tokens_of_not_mem
  · rw [Text.toList_hexWord]
    exact nofun
  · exact Text.not_mem_hexWord (by decide) (by decide) n

theorem wordOf?_hexWord (w : Word) : wordOf? (Text.hexWord w.toNat).toList = some w := by
  rw [wordOf?, Text.ofHexWord?_hexWord]
  simp [w.toNat_lt]

theorem wordOf?_cons {c : Char} (hc : c ≠ '0') (cs : List Char) : wordOf? (c :: cs) = none := by
  have hnumber : Text.ofHexWord? (c :: cs) = none := by
    unfold Text.ofHexWord?
    split
    · next h =>
      cases h
      exact absurd rfl hc
    · rfl
  rw [wordOf?, hnumber]
  rfl

theorem leadingWords_cons_hexWord (w : Word) (ts : List (List Char)) :
    leadingWords ((Text.hexWord w.toNat).toList :: ts) = w :: leadingWords ts := by
  rw [leadingWords, List.map_cons, wordOf?_hexWord, List.takeWhile_cons_of_pos rfl]
  rfl

theorem leadingWords_of_wordOf?_eq_none {t : List Char} (h : wordOf? t = none)
    (ts : List (List Char)) : leadingWords (t :: ts) = [] := by
  rw [leadingWords, List.map_cons, h, List.takeWhile_cons_of_neg Bool.false_ne_true]
  rfl

/-- Words are read up to what is no word. -/
theorem leadingWords_append (ws : List Word) (ts : List (List Char)) :
    leadingWords (ws.map (fun w => (Text.hexWord w.toNat).toList) ++ ts) =
      ws ++ leadingWords ts := by
  induction ws with
  | nil => rfl
  | cons w ws ih =>
    rw [List.map_cons, List.cons_append, leadingWords_cons_hexWord, ih]
    rfl

theorem tokens_append_operands (s : String) (ws : List Word) :
    tokens (s ++ String.join (ws.map fun w => " " ++ Text.hexWord w.toNat)) =
      tokens s ++ ws.map fun w => (Text.hexWord w.toNat).toList := by
  induction ws generalizing s with
  | nil => simp
  | cons w ws ih =>
    have htext : s ++ String.join ((w :: ws).map fun w => " " ++ Text.hexWord w.toNat) =
        s ++ " " ++ Text.hexWord w.toNat ++
          String.join (ws.map fun w => " " ++ Text.hexWord w.toNat) := by
      simp [← String.toList_inj]
    rw [htext, ih, tokens_append_blank, tokens_hexWord]
    simp

/-- What is said behind a quote is read as no word. -/
theorem leadingWords_quoteChar (c : Char) : leadingWords (tokens (Text.quoteChar c)) = [] := by
  have hquote : (Text.quoteChar c).toList =
      '\x27' :: ((Text.escape '\x27' c).toList ++ ['\x27']) := by
    simp [Text.quoteChar]
  obtain ⟨t, ts, htokens⟩ := exists_tokens_eq_cons hquote (by decide)
  rw [htokens]
  exact leadingWords_of_wordOf?_eq_none (wordOf?_cons (by decide) t) ts

end Listing

/-! ### Mnemonics -/

theorem Opcode.ofMnemonic?_mnemonic (o : Opcode) : ofMnemonic? o.mnemonic = some o := by
  cases o <;> rfl

/-- A mnemonic is a token, also with blanks behind it. -/
theorem Opcode.tokens_mnemonic (o : Opcode) :
    Listing.tokens o.mnemonic = [o.mnemonic.toList] ∧
      Listing.tokens (Text.alignLeft 4 o.mnemonic) = [o.mnemonic.toList] := by
  cases o <;> decide

/-- No mnemonic is read as a word. -/
theorem Opcode.wordOf?_mnemonic (o : Opcode) : Listing.wordOf? o.mnemonic.toList = none := by
  cases o <;> rfl

/-! ### Lines -/

/-- The tokens of an instruction are its mnemonic and its operands; what follows is no word. -/
theorem Item.tokens_text_instruction (o : Opcode) (ws : List Word) :
    ∃ ts, Listing.tokens (Item.instruction o ws).text =
        o.mnemonic.toList :: (ws.map (fun w => (Text.hexWord w.toNat).toList) ++ ts) ∧
      Listing.leadingWords ts = [] := by
  cases ws with
  | nil => exact ⟨[], o.tokens_mnemonic.1, rfl⟩
  | cons w ws =>
    have hoperands := Listing.tokens_append_operands (Text.alignLeft 4 o.mnemonic) (w :: ws)
    rw [o.tokens_mnemonic.2] at hoperands
    rw [Item.text]
    · cases Item.outCharacter? (.instruction o (w :: ws)) with
      | none =>
        refine ⟨[], ?_, rfl⟩
        simpa using hoperands
      | some c =>
        refine ⟨Listing.tokens (Text.quoteChar c), ?_, Listing.leadingWords_quoteChar c⟩
        simp only [Option.map_some, Option.getD_some]
        rw [← String.append_assoc, Listing.tokens_append_blank, hoperands]
        rfl
    · exact nofun

/-- The first token of a data word is the word. -/
theorem Item.tokens_text_data (w : Word) :
    ∃ ts, Listing.tokens (Item.data w).text = (Text.hexWord w.toNat).toList :: ts := by
  rw [Item.text]
  cases graphicOf? w with
  | none => exact ⟨[], by simp [Listing.tokens_hexWord]⟩
  | some c =>
    have htext : Text.hexWord w.toNat ++ (" (" ++ Text.quoteChar c ++ ")") =
        Text.hexWord w.toNat ++ " " ++ ("(" ++ Text.quoteChar c ++ ")") := by
      simp [← String.toList_inj]
    simp only [Option.map_some, Option.getD_some]
    rw [htext, Listing.tokens_append_blank, Listing.tokens_hexWord]
    exact ⟨_, rfl⟩

/-- Every item is read back from its text. -/
theorem Item.ofTokens?_tokens_text (i : Item) : ofTokens? (Listing.tokens i.text) = some i := by
  cases i with
  | instruction o ws =>
    obtain ⟨ts, htokens, hrest⟩ := Item.tokens_text_instruction o ws
    rw [htokens, ofTokens?, o.wordOf?_mnemonic, String.ofList_toList, o.ofMnemonic?_mnemonic,
      Listing.leadingWords_append, hrest, List.append_nil]
    rfl
  | data w =>
    obtain ⟨ts, htokens⟩ := Item.tokens_text_data w
    rw [htokens, ofTokens?, Listing.wordOf?_hexWord]

/-- **Every line is read back from its text.** -/
theorem Line.ofText?_text (l : Line) : ofText? l.text = some l := by
  have htext : l.text = Text.hexWord l.address ++ ":" ++ " " ++ l.item.text := by
    simp [Line.text, ← String.toList_inj]
  have hnumber : ' ' ∉ (Text.hexWord l.address).toList :=
    Text.not_mem_hexWord (by decide) (by decide) l.address
  have hblank : ' ' ∉ (Text.hexWord l.address ++ ":").toList := by simp [hnumber]
  have haddress : Listing.tokens (Text.hexWord l.address ++ ":") =
      [(Text.hexWord l.address).toList ++ [':']] := by
    rw [Listing.tokens_of_not_mem (by simp) hblank]
    simp
  rw [ofText?, htext, Listing.tokens_append_blank, haddress]
  simp [Text.ofHexWord?_hexWord, Item.ofTokens?_tokens_text]

/-! ### Line breaks -/

section LineBreaks

variable {b : Char} (hb : b ∈ Text.lineBreaks)
include hb

theorem Opcode.lineBreak_not_mem_mnemonic (o : Opcode) :
    b ∉ o.mnemonic.toList ∧ b ∉ (Text.alignLeft 4 o.mnemonic).toList := by
  apply Text.of_lineBreaks_all hb
  cases o <;> decide

theorem Item.lineBreak_not_mem_text (i : Item) : b ∉ i.text.toList := by
  obtain ⟨hblank, hopen, hclose⟩ : b ≠ ' ' ∧ b ≠ '(' ∧ b ≠ ')' := by
    apply Text.of_lineBreaks_all hb
    decide
  have hword (w : Word) := Text.lineBreak_not_mem_hexWord hb w.toNat
  have hquoted (c : Char) := Text.lineBreak_not_mem_quoteChar hb c
  cases i with
  | instruction o ws =>
    obtain ⟨hmnemonic, hcolumn⟩ := o.lineBreak_not_mem_mnemonic hb
    cases ws with
    | nil => exact hmnemonic
    | cons w ws =>
      rw [Item.text]
      · cases Item.outCharacter? (.instruction o (w :: ws)) with
        | none => simp [hcolumn, hblank, hword]
        | some c => simp [hcolumn, hblank, hword, hquoted]
      · exact nofun
  | data w =>
    rw [Item.text]
    cases graphicOf? w with
    | none => simp [hword]
    | some c => simp [hblank, hopen, hclose, hword, hquoted]

/-- **No line has a line break in it.** -/
theorem Line.lineBreak_not_mem_text (l : Line) : b ∉ l.text.toList := by
  have hplain : b ≠ ':' ∧ b ≠ ' ' := by
    apply Text.of_lineBreaks_all hb
    decide
  simp [Line.text, hplain, Text.lineBreak_not_mem_hexWord hb, l.item.lineBreak_not_mem_text hb]

end LineBreaks

/-! ### Listings -/

namespace Listing

theorem mapM_ofText? (ls : List Line) : (ls.map Line.text).mapM Line.ofText? = some ls := by
  rw [Text.mapM_map_eq_some Line.ofText?_text, List.map_id']

/-- **The text of a listing tells the words of memory** that it was made of. -/
theorem wordsOf?_text (memory : Array Word) (start : Nat) :
    wordsOf? ((lines memory start).map Line.text) = some (memory.toList.drop start) := by
  rw [wordsOf?, mapM_ofText?, ← words_lines]
  rfl

end Listing

namespace CommandLine

theorem disLines_inj {program program' : Array Word} (h : disLines program = disLines program') :
    program = program' := by
  have hwords := Listing.wordsOf?_text program 0
  rw [← disLines, h, disLines, Listing.wordsOf?_text] at hwords
  simpa using hwords.symm

theorem newline_not_mem_disLines {program : Array Word} {text : String}
    (h : text ∈ disLines program) : '\n' ∉ text.toList := by
  obtain ⟨l, -, rfl⟩ := List.mem_map.1 h
  exact l.lineBreak_not_mem_text (by decide)

/-- The report of a `dis` that has listed a file with the given image. -/
def Lists (image : Array UInt8) (r : Report) : Prop :=
  ∃ fuel env args rom rest, Command.ofList? args = some (.dis rom) ∧
    env.readFile rom = .ok (image, rest) ∧ report fuel env args = some r ∧ r.failure = none

variable {image image' : Array UInt8} {r r' : Report}

theorem Lists.exists_program (h : Lists image r) :
    ∃ program, Image.decode image = .ok program ∧ r.stdout = linesText (disLines program) := by
  obtain ⟨fuel, env, args, rom, rest, hargs, hread, hreport, hdone⟩ := h
  rw [report, hargs] at hreport
  cases hreport
  rcases showProgram_cases hread disLines with ⟨e, -, hfailed⟩ | ⟨program, hdecode, hstdout, -⟩
  · cases hdone.symm.trans hfailed
  · exact ⟨program, hdecode, hstdout⟩

/-- **Images with the same listing are the same.** -/
theorem Lists.image_eq (h : Lists image r) (h' : Lists image' r') (hsame : r.stdout = r'.stdout) :
    image = image' := by
  obtain ⟨program, hdecode, hstdout⟩ := h.exists_program
  obtain ⟨program', hdecode', hstdout'⟩ := h'.exists_program
  rw [hstdout, hstdout'] at hsame
  obtain rfl := disLines_inj (linesText_inj (fun _ => newline_not_mem_disLines)
    (fun _ => newline_not_mem_disLines) hsame)
  rw [← (Image.decode_eq_ok_iff.1 hdecode).1, ← (Image.decode_eq_ok_iff.1 hdecode').1]

end CommandLine

/-- **The text of a listing loses nothing.** For all words of memory and every start, each line is
read back from its text, so the texts tell the words of memory from the start on, in order; the
address on a line is where its words stand, and no line has a line break in it. So images for which
`dis` writes the same are the same, also if they end inside an instruction. -/
theorem listing_text_loses_nothing (memory : Array Word) (start : Nat) :
    let lines := Listing.lines memory start
    let texts := lines.map Line.text
    texts.mapM Line.ofText? = some lines ∧
    Listing.wordsOf? texts = some (memory.toList.drop start) ∧
    (∀ above l below, lines = above ++ l :: below →
      l.address = start + (above.flatMap (·.item.words)).length ∧
        l.item.words <+: memory.toList.drop l.address) ∧
    (∀ text ∈ texts, ∀ b ∈ Text.lineBreaks, b ∉ text.toList) ∧
    ∀ image image' r r', CommandLine.Lists image r → CommandLine.Lists image' r' →
      r.stdout = r'.stdout → image = image' := by
  refine ⟨Listing.mapM_ofText? _, Listing.wordsOf?_text memory start, ?_, ?_, ?_⟩
  · intro above l below h
    exact ⟨Listing.address_of_lines_eq h, Listing.words_prefix_of_lines_eq h⟩
  · intro text htext b hb
    obtain ⟨l, -, rfl⟩ := List.mem_map.1 htext
    exact l.lineBreak_not_mem_text hb
  · intro image image' r r' h h' hsame
    exact h.image_eq h' hsame

/-- A program that puts out a line feed and ends inside an instruction. -/
theorem listing_text_loses_nothing_truncated :
    let program : Array Word := #[19, 10, 9, 32768]
    let texts := ["0x0000: out  0x000a '\\n'", "0x0002: add  0x8000"]
    (Listing.lines program 0).map Line.text = texts ∧
    Listing.wordsOf? texts = some [19, 10, 9, 32768] ∧
    ∃ r, CommandLine.Lists (Image.encode program) r ∧
      ∀ image r', CommandLine.Lists image r' → r'.stdout = r.stdout →
        image = Image.encode program := by
  intro program texts
  have hlines : Listing.lines program 0 =
      [⟨0, .instruction .out [10]⟩, ⟨2, .instruction .add [32768]⟩] := by
    rw [Listing.lines_of_lt (by decide), Listing.lines_of_lt (by decide),
      Listing.lines_of_le (by decide)]
    decide +kernel
  have htexts : (Listing.lines program 0).map Line.text = texts := by
    rw [hlines]
    rfl
  obtain ⟨-, hwords, -, -, hinj⟩ := listing_text_loses_nothing program 0
  rw [htexts] at hwords
  refine ⟨htexts, hwords, ?_⟩
  let env : CommandLine.Environment :=
    { read := fun _ => .ok (.bytes (Image.encode program)), stdin := [], level := none }
  have hargs : CommandLine.Command.ofList? ["dis", "rom.bin"] = some (.dis "rom.bin") := by
    decide +kernel
  have hdecode : Image.decode (Image.encode program) = .ok program :=
    Image.decode_eq_ok_iff.2 ⟨rfl, Image.validate_eq_ok_of_all (by decide) (by decide)⟩
  have hread : env.readFile "rom.bin" = .ok (Image.encode program, env) := rfl
  have hlists : CommandLine.Lists (Image.encode program)
      (CommandLine.showProgram env "rom.bin" CommandLine.disLines) := by
    refine ⟨0, env, _, _, env, hargs, hread, ?_, ?_⟩
    · rw [CommandLine.report, hargs]
    · rcases CommandLine.showProgram_cases hread CommandLine.disLines with
        ⟨e, hfailed, -⟩ | ⟨-, -, -, hdone⟩
      · cases hdecode.symm.trans hfailed
      · exact hdone
  refine ⟨_, hlists, ?_⟩
  intro image r' h hsame
  exact hinj _ _ _ _ h hlists hsame

end WordMachine
