import WordMachine.Opcode
import WordMachine.Operand

/-!
# The assembler

Programs are written as tokens with white space between them. A token stands for one word: the name
of a register for the word that names it, a decimal number for itself, a mnemonic for the opcode's
word.

A token is tried as these in turn. A mnemonic can start with `r` as a register does (`ret`, `rmem`),
so a token is a register only if a number follows the `r`. The number is not checked: `r9` stands
for the word two above that of `r7`, though no register has this name.
-/

namespace WordMachine.Assembler

/-- The numbers of the characters that are white space, as ranges with their first and last. -/
def spaceRanges : List (Nat × Nat) :=
  [(0x9, 0xd), (0x20, 0x20), (0x85, 0x85), (0xa0, 0xa0), (0x1680, 0x1680), (0x2000, 0x200a),
    (0x2028, 0x2029), (0x202f, 0x202f), (0x205f, 0x205f), (0x3000, 0x3000)]

/-- White space stands between tokens. -/
def isSpace (c : Char) : Bool :=
  spaceRanges.any fun (first, last) => first ≤ c.toNat && c.toNat ≤ last

/-- The tokens of a text. -/
def tokens (text : String) : List String :=
  ((text.toList.splitOnP isSpace).filter (· ≠ [])).map String.ofList

/-- The word that is a given number in decimal. A plus sign may stand before the digits. -/
def numberOf? (token : List Char) : Option Word :=
  let digits := match token with
    | '+' :: digits => digits
    | digits => digits
  if digits ≠ [] ∧ digits.all Char.isDigit then
    let n := Nat.ofDigitChars 10 digits 0
    if n < UInt16.size then some (.ofNat n) else none
  else none

/-- The number in the name of a register. -/
def registerOf? : List Char → Option Word
  | 'r' :: digits => numberOf? digits
  | _ => none

/-- The word that a token stands for. There is none for a register that is too large for a word. -/
def wordOf? (token : String) : Option Word :=
  match registerOf? token.toList, numberOf? token.toList with
  | some n, _ =>
    if registerBase + n.toNat < UInt16.size then some (.ofNat (registerBase + n.toNat)) else none
  | none, some w => some w
  | none, none => Opcode.word <$> Opcode.ofMnemonic? token

/-- The words of a program, unless a token stands for none. -/
def assemble? (text : String) : Option (List Word) := (tokens text).mapM wordOf?

end WordMachine.Assembler
