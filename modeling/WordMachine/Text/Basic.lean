import WordMachine.Word

/-!
# Words and numbers as text

* A text that is shorter than its column is filled up with blanks; a longer one is left as it is.
* In hexadecimal, numbers are written with lower-case digits and filled up with zeros on the left to
  a least width; a number that needs more digits gets them. `ofHex?` reads such digits.
* A word names the character with its code. The words from `0xD800` to `0xDFFF` are no character
  codes; they stand for the replacement character.
-/

namespace WordMachine

namespace Text

/-! ### Columns -/

/-- A text at the left of a column. -/
def alignLeft (width : Nat) (s : String) : String := .ofList (s.toList.rightpad width ' ')

/-- A text at the right of a column. -/
def alignRight (width : Nat) (s : String) : String := .ofList (s.toList.leftpad width ' ')

/-! ### Hexadecimal -/

/-- The hexadecimal digits of a number, at least `width` of them. -/
def hexDigits (width n : Nat) : List Char :=
  (Nat.toDigits 16 n).leftpad width '0'

/-- A number in hexadecimal with at least `width` digits. -/
def hex (width n : Nat) : String := .ofList (hexDigits width n)

/-- An address or a word in a listing: `0x` and at least four digits. -/
def hexWord (n : Nat) : String := "0x" ++ hex 4 n

/-- The value of a hexadecimal digit. -/
def hexValue? (c : Char) : Option Nat :=
  if '0' ≤ c ∧ c ≤ '9' then some (c.toNat - '0'.toNat)
  else if 'a' ≤ c ∧ c ≤ 'f' then some (10 + (c.toNat - 'a'.toNat))
  else none

/-- The number that hexadecimal digits stand for, of which there has to be one. -/
def ofHex? (digits : List Char) : Option Nat :=
  if digits = [] then none
  else digits.foldlM (fun n c => (16 * n + ·) <$> hexValue? c) 0

/-- The number behind `0x`. -/
def ofHexWord? : List Char → Option Nat
  | '0' :: 'x' :: digits => ofHex? digits
  | _ => none

end Text

/-! ### Characters -/

/-- The character shown for a word that is no character code. -/
def replacementCharacter : Char := '\uFFFD'

/-- The character that a word names. -/
def characterOf (w : Word) : Char :=
  if h : w.toNat.isValidChar then .ofNatAux w.toNat h else replacementCharacter

/-- The character of a word that names an ASCII character which is a blank or leaves a mark. -/
def graphicOf? (w : Word) : Option Char :=
  if 0x20 ≤ w ∧ w ≤ 0x7E then some (characterOf w) else none

end WordMachine
