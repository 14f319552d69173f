import Mathlib.Algebra.Order.Floor.Div
import WordMachine.Dump
import WordMachine.Proofs.Arguments
import WordMachine.Proofs.Codec
import WordMachine.Proofs.Programs
import WordMachine.Proofs.Text

/-!
# The text of a dump tells what is dumped

A dump cuts a program into rows and writes each as a line. Nothing is lost by the cut, wherever it
falls (`Dump.flatMap_words_rows`), and nothing by the writing: a row in hexadecimal is read back
from its text (`DumpRow.ofText?_render`), and a row of characters has one for each word. So what a
dump tells does not depend on how wide its rows are.

`DumpRow.ShownBy` says what the text of a row has to look like. An address or a word of an image
fits in four digits, so it is written with exactly four.
-/

namespace WordMachine

/-! ### Rows -/

namespace Dump

variable {width : Nat} {program : Array Word}

theorem length_rows (width : Nat) (program : Array Word) :
    (rows width program).length = program.size ⌈/⌉ width := by
  simp [rows, Nat.ceilDiv_eq_add_pred_div]

/-- There is a row exactly where there are words left for it. -/
theorem lt_length_rows_iff (hwidth : 0 < width) {i : Nat} :
    i < (rows width program).length ↔ i * width < program.size := by
  rw [length_rows, ← Nat.not_le, ← Nat.not_le, ceilDiv_le_iff_le_mul hwidth, Nat.mul_comm]

theorem words_row (width : Nat) (program : Array Word) (i : Nat) :
    (program.extract (i * width) (i * width + width)).toList =
      (program.toList.drop (i * width)).take width := by
  rw [Array.toList_extract, List.extract_eq_take_drop, Nat.add_sub_cancel_left]

/-- What a row is: words at its place, at least one, and as many as the row is wide unless there is
no further row; the last row has all that is left. -/
theorem getElem?_rows {i : Nat} {row : DumpRow} (hwidth : 0 < width)
    (h : (rows width program)[i]? = some row) :
    row = ⟨i * width, (program.toList.drop (i * width)).take width⟩ ∧ row.words ≠ [] ∧
      (i + 1 < (rows width program).length → row.words.length = width) ∧
      (i + 1 = (rows width program).length → row.words = program.toList.drop (i * width)) := by
  obtain ⟨hi, hget⟩ := List.getElem?_eq_some_iff.1 h
  have hrow : row = ⟨i * width, (program.toList.drop (i * width)).take width⟩ := by
    rw [← hget]
    simp [rows]
  have hlength : row.words.length = min width (program.size - i * width) := by
    rw [hrow]
    simp
  have hstart := (lt_length_rows_iff hwidth).1 hi
  refine ⟨hrow, ?_, ?_, ?_⟩
  · refine List.ne_nil_of_length_pos ?_
    omega
  · intro hnext
    have hend := (lt_length_rows_iff hwidth).1 hnext
    rw [Nat.succ_mul] at hend
    omega
  · intro hlast
    have hend := mt (lt_length_rows_iff hwidth).2 (Nat.not_lt.2 (Nat.le_of_eq hlast.symm))
    rw [Nat.succ_mul] at hend
    rw [hrow]
    refine List.take_of_length_le ?_
    rw [List.length_drop, Array.length_toList]
    omega

/-- Rows of a program that fits in memory have addresses of four digits. -/
theorem address_lt_of_mem_rows (hwidth : 0 < width) (hsize : program.size ≤ memorySize)
    {row : DumpRow} (h : row ∈ rows width program) : row.address < 65536 := by
  obtain ⟨i, hi⟩ := List.mem_iff_getElem?.1 h
  have hstart := (lt_length_rows_iff hwidth).1 (List.getElem?_eq_some_iff.1 hi).1
  rw [(getElem?_rows hwidth hi).1]
  exact Nat.lt_trans hstart (Nat.lt_of_le_of_lt hsize (by decide))

/-- Rows that begin where the ones before them end. -/
theorem take_eq_flatMap_range {α : Type} (as : List α) (width count : Nat) :
    as.take (count * width) =
      (List.range count).flatMap fun i => (as.drop (i * width)).take width := by
  induction count with
  | zero => simp
  | succ count ih =>
    rw [Nat.succ_mul, List.take_add, ih, List.range_succ, List.flatMap_append]
    simp

/-- **Cutting loses nothing**: the words of the rows in order are the words of the program. -/
theorem flatMap_words_rows (hwidth : 0 < width) (program : Array Word) :
    (rows width program).flatMap DumpRow.words = program.toList := by
  have hsize : program.toList.length ≤ (program.size ⌈/⌉ width) * width := by
    rw [Array.length_toList, Nat.mul_comm]
    exact (ceilDiv_le_iff_le_mul hwidth).1 (Nat.le_refl _)
  calc (rows width program).flatMap DumpRow.words
    _ = (List.range (program.size ⌈/⌉ width)).flatMap fun i =>
          (program.toList.drop (i * width)).take width := by
      simp only [rows, List.flatMap_map, words_row, Nat.ceilDiv_eq_add_pred_div]
    _ = program.toList.take ((program.size ⌈/⌉ width) * width) := (take_eq_flatMap_range ..).symm
    _ = program.toList := List.take_of_length_le hsize

theorem isValidChar_of_le {w : Word} (h : w ≤ 0x7A) : w.toNat.isValidChar :=
  .inl (Nat.lt_of_le_of_lt (UInt16.le_iff_toNat_le.1 h) (by decide))

/-- A dump shows the characters from `0` to `z` as they are, and all else as blanks. -/
theorem characterFor_eq (w : Word) :
    characterFor w =
      if '0'.toNat ≤ w.toNat ∧ w.toNat ≤ 'z'.toNat then Char.ofNat w.toNat else ' ' := by
  have hshown : (0x30 ≤ w ∧ w ≤ 0x7A) ↔ '0'.toNat ≤ w.toNat ∧ w.toNat ≤ 'z'.toNat := by
    rw [UInt16.le_iff_toNat_le, UInt16.le_iff_toNat_le]
    rfl
  rw [characterFor]
  by_cases h : 0x30 ≤ w ∧ w ≤ 0x7A
  · have hvalid := isValidChar_of_le h.2
    rw [if_pos h, if_pos (hshown.1 h), characterOf, Char.ofNat, dif_pos hvalid, dif_pos hvalid]
  · rw [if_neg h, if_neg (mt hshown.2 h)]

theorem blank_le_characterFor (w : Word) : ' ' ≤ characterFor w := by
  rw [characterFor]
  split
  · next h =>
    have hle : ' '.toNat ≤ w.toNat := Nat.le_trans (by decide) (UInt16.le_iff_toNat_le.1 h.1)
    rw [characterOf, dif_pos (isValidChar_of_le h.2)]
    exact hle
  · exact Char.le_refl _

end Dump

/-! ### The text of a row -/

/-- What a text has to look like to show a row. -/
def DumpRow.ShownBy (row : DumpRow) (style : DumpStyle) (text : String) : Prop :=
  ∃ digits body, Text.FourDigits row.address digits ∧
    text.toList = ['0', 'x'] ++ digits ++ ':' :: body ∧
    match style with
    | .hex => ∃ numbers : List (List Char), body = numbers.flatMap (' ' :: ·) ∧
        (∀ n ∈ numbers, n.length = 4) ∧ numbers.map Text.ofHex? = row.words.map (some ·.toNat)
    | .text => body = ' ' :: row.words.map Dump.characterFor

namespace DumpRow

theorem toList_render_hex (row : DumpRow) :
    (row.render .hex).toList = (Text.hexWord row.address).toList ++ [':'] ++
      (row.words.map fun w => Text.hexDigits 4 w.toNat).flatMap (' ' :: ·) := by
  simp [render, Text.hex, List.flatMap_map]

theorem toList_render_text (row : DumpRow) :
    (row.render .text).toList = (Text.hexWord row.address).toList ++ [':'] ++
      ' ' :: row.words.map Dump.characterFor := by
  simp [render]

theorem shownBy_render {row : DumpRow} (style : DumpStyle) (haddress : row.address < 65536) :
    row.ShownBy style (row.render style) := by
  have hdigits : Text.FourDigits row.address _ := Text.fourDigits_hexDigits haddress
  cases style with
  | hex =>
    refine ⟨_, _, hdigits, ?_, row.words.map fun w => Text.hexDigits 4 w.toNat, rfl, ?_, ?_⟩
    · rw [toList_render_hex, Text.toList_hexWord]
      simp
    · intro n hn
      obtain ⟨w, -, rfl⟩ := List.mem_map.1 hn
      exact (Text.fourDigits_hexDigits w.toNat_lt).1
    · simp [Text.ofHex?_hexDigits]
  | text =>
    refine ⟨_, _, hdigits, ?_, rfl⟩
    rw [toList_render_text, Text.toList_hexWord]
    simp

/-- **A row in hexadecimal is read back from its text.** -/
theorem ofText?_render (row : DumpRow) : ofText? (row.render .hex) = some row := by
  have hblank (n : Nat) : ' ' ∉ Text.hexDigits 4 n := Text.not_mem_hexDigits (by decide) 4 n
  have haddress : ' ' ∉ (Text.hexWord row.address).toList ++ [':'] := by
    simp [Text.not_mem_hexWord (c := ' ') (by decide) (by decide)]
  have hwords : ∀ p ∈ row.words.map fun w => Text.hexDigits 4 w.toNat, ' ' ∉ p := by
    intro p hp
    obtain ⟨w, -, rfl⟩ := List.mem_map.1 hp
    exact hblank w.toNat
  have hread (w : Word) : Text.ofHex? (Text.hexDigits 4 w.toNat) = some w.toNat :=
    Text.ofHex?_hexDigits 4 w.toNat
  rw [ofText?, toList_render_hex, Text.splitOn_blanks haddress hwords]
  simp [Text.ofHexWord?_hexWord, Text.mapM_map_eq_some hread, Function.comp_def]

/-- A row of characters has them behind what takes eight. -/
theorem drop_render_text {row : DumpRow} (haddress : row.address < 65536) :
    (row.render .text).toList.drop 8 = row.words.map Dump.characterFor := by
  have hlength := (Text.fourDigits_hexDigits haddress).1
  rw [toList_render_text, Text.toList_hexWord, List.append_assoc]
  simp [List.drop_append, hlength]

theorem newline_not_mem_render (style : DumpStyle) (row : DumpRow) :
    '\n' ∉ (row.render style).toList := by
  have hnumber : '\n' ∉ (Text.hexWord row.address).toList :=
    Text.not_mem_hexWord (by decide) (by decide) _
  have hword (n : Nat) : '\n' ∉ Text.hexDigits 4 n := Text.not_mem_hexDigits (by decide) 4 n
  cases style with
  | hex =>
    rw [toList_render_hex]
    simp [hnumber, hword]
  | text =>
    have hcharacter (w : Word) : Dump.characterFor w ≠ '\n' := by
      intro h
      have hle := Dump.blank_le_characterFor w
      rw [h] at hle
      exact absurd hle (by decide)
    rw [toList_render_text]
    simp [hnumber, hcharacter]

end DumpRow

/-! ### Reports of dumps -/

namespace CommandLine

/-- What a dump of an image writes. -/
theorem report_dump {fuel : Nat} {env rest : Environment} {args : List String} {o : DumpOptions}
    {image : Array UInt8} {program : Array Word} (hargs : Command.ofList? args = some (.dump o))
    (hread : env.readFile o.rom = .ok (image, rest)) (decoded : Image.decode image = .ok program) :
    ∃ log, report fuel env args = some ⟨linesText (dumpLines o program), log, none⟩ := by
  rw [report, hargs]
  simp only [showProgram, readProgram_eq_ok hread decoded]
  exact ⟨_, rfl⟩

variable {o : DumpOptions} {program : Array Word}

theorem length_dumpLines (o : DumpOptions) (program : Array Word) :
    (dumpLines o program).length = (Dump.rows o.width program).length :=
  List.length_map _

theorem newline_not_mem_dumpLines {text : String} (h : text ∈ dumpLines o program) :
    '\n' ∉ text.toList := by
  obtain ⟨row, -, rfl⟩ := List.mem_map.1 h
  exact row.newline_not_mem_render o.style

theorem exists_row_of_getElem?_dumpLines {i : Nat} {text : String}
    (h : (dumpLines o program)[i]? = some text) :
    ∃ row, (Dump.rows o.width program)[i]? = some row ∧ row.render o.style = text := by
  rwa [dumpLines, List.getElem?_map, Option.map_eq_some_iff] at h

/-- The words read from the lines in hexadecimal. -/
theorem wordsOf?_dumpLines (hmin : 1 ≤ o.width) (hstyle : o.style = .hex) :
    Dump.wordsOf? (dumpLines o program) = some program.toList := by
  have hread : (dumpLines o program).mapM DumpRow.ofText? = some (Dump.rows o.width program) := by
    rw [dumpLines, hstyle, Text.mapM_map_eq_some DumpRow.ofText?_render, List.map_id']
  rw [Dump.wordsOf?, hread, ← Dump.flatMap_words_rows hmin program]
  rfl

/-- The characters of the lines of text. -/
theorem characters_dumpLines (hmin : 1 ≤ o.width) (hsize : program.size ≤ memorySize)
    (hstyle : o.style = .text) :
    (dumpLines o program).flatMap (·.toList.drop 8) = program.toList.map Dump.characterFor := by
  have hrow : ∀ row ∈ Dump.rows o.width program,
      (row.render .text).toList.drop 8 = row.words.map Dump.characterFor := fun row hrow =>
    DumpRow.drop_render_text (Dump.address_lt_of_mem_rows hmin hsize hrow)
  calc (dumpLines o program).flatMap (·.toList.drop 8)
    _ = (Dump.rows o.width program).flatMap fun row => (row.render .text).toList.drop 8 := by
      rw [dumpLines, hstyle, List.flatMap_map]
    _ = (Dump.rows o.width program).flatMap fun row => row.words.map Dump.characterFor :=
      List.flatMap_congr hrow
    _ = program.toList.map Dump.characterFor := by
      rw [← List.map_flatMap, Dump.flatMap_words_rows hmin]

end CommandLine

open CommandLine in
/-- **A dump loses nothing**, and what it tells does not depend on the width of its rows. An image
can be dumped in both styles with any width from 1 to 65535, and its dump has these lines and no
others: as many as rows are needed for its words, each with the address of its first word in four
digits and then its words, as many as the width says but for the last, which has what is left. In
hexadecimal, the words read from all lines in order are those of the image; as text, the characters
of all lines in order are those of the words from `0` to `z`, and blanks for the others. -/
theorem dump_loses_nothing {image : Array UInt8} {program : Array Word} {o : DumpOptions}
    (decoded : Image.decode image = .ok program) (hwidth : 1 ≤ o.width) :
    let texts := dumpLines o program
    ((∃ args, Command.ofList? args = some (.dump o)) ↔ o.rom ≠ "" ∧ 1 ≤ o.width ∧ o.width ≤ 65535) ∧
    (∀ fuel env args rest, Command.ofList? args = some (.dump o) →
      env.readFile o.rom = .ok (image, rest) →
      ∃ log, report fuel env args = some ⟨linesText texts, log, none⟩) ∧
    (∀ text ∈ texts, '\n' ∉ text.toList) ∧
    texts.length = program.size ⌈/⌉ o.width ∧
    (∀ i text, texts[i]? = some text → ∃ words,
      DumpRow.ShownBy ⟨i * o.width, words⟩ o.style text ∧
      words = (program.toList.drop (i * o.width)).take o.width ∧ words ≠ [] ∧
      (i + 1 < texts.length → words.length = o.width) ∧
      (i + 1 = texts.length → words = program.toList.drop (i * o.width))) ∧
    (o.style = .hex → Dump.wordsOf? texts = some program.toList) ∧
    (o.style = .text → texts.flatMap (·.toList.drop 8) = program.toList.map fun w =>
      if '0'.toNat ≤ w.toNat ∧ w.toNat ≤ 'z'.toNat then Char.ofNat w.toNat else ' ') := by
  intro texts
  have hsize : program.size ≤ memorySize :=
    (Image.validate_eq_ok_iff.1 (Image.decode_eq_ok_iff.1 decoded).2).1
  have hlength : texts.length = (Dump.rows o.width program).length := length_dumpLines o program
  refine ⟨Command.exists_dump_iff, ?_, ?_, ?_, ?_, ?_, ?_⟩
  · intro fuel env args rest hargs hread
    exact report_dump hargs hread decoded
  · intro text
    exact newline_not_mem_dumpLines
  · rw [hlength, Dump.length_rows]
  · intro i text htext
    obtain ⟨row, hi, rfl⟩ := exists_row_of_getElem?_dumpLines htext
    obtain ⟨hrow, hne, hfull, hlast⟩ := Dump.getElem?_rows hwidth hi
    have hfits := Dump.address_lt_of_mem_rows hwidth hsize (List.mem_of_getElem? hi)
    have hshown := DumpRow.shownBy_render o.style hfits
    rw [hlength]
    refine ⟨row.words, ?_, congrArg DumpRow.words hrow, hne, hfull, hlast⟩
    rw [hrow] at hshown ⊢
    exact hshown
  · exact wordsOf?_dumpLines hwidth
  · intro hstyle
    simp only [← Dump.characterFor_eq]
    exact characters_dumpLines hwidth hsize hstyle

open CommandLine in
/-- Five words in rows of three, as text. -/
theorem dump_loses_nothing_hi :
    let program : Array Word := #[72, 105, 32, 33, 122]
    let o : DumpOptions := ⟨"rom.bin", 3, .text⟩
    let texts := dumpLines o program
    Image.decode (Image.encode program) = .ok program ∧ 1 ≤ o.width ∧
      (∃ args, Command.ofList? args = some (.dump o)) ∧
      texts = ["0x0000: Hi ", "0x0003:  z"] ∧ texts.length = program.size ⌈/⌉ o.width ∧
      texts.flatMap (·.toList.drop 8) = "Hi  z".toList := by
  intro program o texts
  have hdecode : Image.decode (Image.encode program) = .ok program :=
    Image.decode_eq_ok_iff.2 ⟨rfl, Image.validate_eq_ok_of_all (by decide) (by decide)⟩
  have hwidth : 1 ≤ o.width := by decide
  obtain ⟨hargs, -, -, hcount, -, -, hcharacters⟩ := dump_loses_nothing (o := o) hdecode hwidth
  refine ⟨hdecode, hwidth, hargs.2 (by decide), ?_, hcount, ?_⟩
  · decide +kernel
  · rw [hcharacters rfl]
    decide

end WordMachine
