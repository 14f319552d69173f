import WordMachine.Listing.Basic
import WordMachine.Text.Quoted

/-!
# Listings as text

A line starts with its address and a colon. A data word follows in hexadecimal, and behind it, in
parentheses, the ASCII character that it names, if that is a blank or leaves a mark. An instruction
is its mnemonic and its operand words in hexadecimal, with the mnemonic filled up to four columns
before an operand; behind `out` with a literal stands the character that it puts out.

The text tells the words that the listing was made of. On each line the address and the words are
read; the character that may stand behind them says nothing new and is left aside.
-/

namespace WordMachine

namespace Item

/-- The character that stands behind an instruction, if one does. -/
def outCharacter? : Item → Option Char
  | .instruction .out [w] => if w.toNat < registerBase then some (characterOf w) else none
  | _ => none

/-- The text of an item. -/
def text (i : Item) : String :=
  match i with
  | .instruction opcode [] => opcode.mnemonic
  | .instruction opcode operands =>
    let operandTexts := operands.map fun w => " " ++ Text.hexWord w.toNat
    let character := i.outCharacter?.map fun c => " " ++ Text.quoteChar c
    Text.alignLeft 4 opcode.mnemonic ++ String.join operandTexts ++ character.getD ""
  | .data word =>
    let character := (graphicOf? word).map fun c => " (" ++ Text.quoteChar c ++ ")"
    Text.hexWord word.toNat ++ character.getD ""

end Item

/-- The text of a line. -/
def Line.text (l : Line) : String := Text.hexWord l.address ++ ": " ++ l.item.text

/-! ### Reading -/

namespace Listing

/-- The parts of a line between blanks. -/
def tokens (text : String) : List (List Char) :=
  (text.toList.splitOn ' ').filter (· ≠ [])

/-- The word that a token stands for. -/
def wordOf? (token : List Char) : Option Word := do
  let n ← Text.ofHexWord? token
  if n < UInt16.size then some (.ofNat n) else none

/-- The words at the start of a list of tokens. -/
def leadingWords (tokens : List (List Char)) : List Word :=
  ((tokens.map wordOf?).takeWhile Option.isSome).reduceOption

end Listing

/-- The item that is written as the given tokens. -/
def Item.ofTokens? : List (List Char) → Option Item
  | [] => none
  | first :: rest =>
    match Listing.wordOf? first with
    | some w => some (.data w)
    | none =>
      (.instruction · (Listing.leadingWords rest)) <$> Opcode.ofMnemonic? (.ofList first)

/-- The line with the given text. -/
def Line.ofText? (text : String) : Option Line :=
  match Listing.tokens text with
  | [] => none
  | first :: rest =>
    if first.getLast? = some ':' then do
      let address ← Text.ofHexWord? first.dropLast
      let item ← Item.ofTokens? rest
      return ⟨address, item⟩
    else none

/-- The words that the texts of lines tell. -/
def Listing.wordsOf? (texts : List String) : Option (List Word) := do
  let lines ← texts.mapM Line.ofText?
  return lines.flatMap (·.item.words)

end WordMachine
