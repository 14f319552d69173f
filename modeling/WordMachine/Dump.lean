import WordMachine.Text.Basic

/-!
# Dumps

A dump shows a program in rows of equally many words, the last row having what is left. A row
starts with the address of its first word. The words follow in hexadecimal with a blank before
each, or as one character each behind one blank: the characters from `0` to `z` are shown, and every
other word is a blank.
-/

namespace WordMachine

/-- How a dump shows words. -/
inductive DumpStyle
  | hex
  | text
  deriving DecidableEq, Repr

/-- A row of a dump. -/
structure DumpRow where
  /-- The address of the row's first word. -/
  address : Nat
  words : List Word
  deriving DecidableEq, Repr

namespace Dump

/-- The character that a dump shows for a word. -/
def characterFor (w : Word) : Char :=
  if 0x30 ≤ w ∧ w ≤ 0x7A then characterOf w else ' '

/-- The rows of a dump with the given number of words in each. -/
def rows (width : Nat) (program : Array Word) : List DumpRow :=
  (List.range ((program.size + width - 1) / width)).map fun i =>
    ⟨i * width, (program.extract (i * width) (i * width + width)).toList⟩

end Dump

/-- The text of a row. -/
def DumpRow.render (style : DumpStyle) (row : DumpRow) : String :=
  Text.hexWord row.address ++ ":" ++
    match style with
    | .hex => String.join (row.words.map fun w => " " ++ Text.hex 4 w.toNat)
    | .text => " " ++ String.ofList (row.words.map Dump.characterFor)

/-! ### Reading -/

/-- The row with the given text, if it shows its words in hexadecimal. -/
def DumpRow.ofText? (text : String) : Option DumpRow :=
  match (text.toList.splitOn ' ') with
  | [] => none
  | first :: rest =>
    if first.getLast? = some ':' then do
      let address ← Text.ofHexWord? first.dropLast
      let words ← rest.mapM Text.ofHex?
      return ⟨address, words.map .ofNat⟩
    else none

/-- The program that rows in hexadecimal show. -/
def Dump.wordsOf? (texts : List String) : Option (List Word) := do
  let rows ← texts.mapM DumpRow.ofText?
  return rows.flatMap DumpRow.words

end WordMachine
