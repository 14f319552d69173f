import WordMachine.Word

/-!
# Program images

An image is a program as bytes: its words one after the other, the low byte of each word first,
with nothing before, between or after them. A program is refused if it does not fit into memory or
has a word that is no operand (`validate`), and an image also if it ends inside a word (`decode`).
-/

namespace WordMachine

/-- Why an image or a program is refused. -/
inductive ImageError
  | oddLength (bytes : Nat)
  | tooLarge (words : Nat)
  /-- The word at an address, the first such word, is neither a literal nor names a register. -/
  | invalidWord (address : Nat) (word : Word)
  deriving DecidableEq, Repr, Inhabited

/-- The text of an image's error. -/
def ImageError.message : ImageError → String
  | .oddLength bytes => s!"image has an odd number of bytes ({bytes})"
  | .tooLarge words => s!"image is {words} words long, but memory only holds {memorySize}"
  | .invalidWord address word => s!"invalid word {word} at address {address}"

namespace Image

/-- The word with the given low and high byte. -/
def wordOf (low high : UInt8) : Word := .ofNat (low.toNat + 256 * high.toNat)

/-- The two bytes of a word, the low one first. -/
def bytesOf (w : Word) : List UInt8 := [.ofNat (w.toNat % 256), .ofNat (w.toNat / 256)]

/-- Whether a word may stand in a program. -/
def allowed (w : Word) : Bool := w.toNat ≤ maxOperand

/-- Checks that a program fits into memory, and then that all its words may stand in it. -/
def validate (program : Array Word) : Except ImageError Unit :=
  if memorySize < program.size then .error (.tooLarge program.size)
  else match program.findFinIdx? fun w => !allowed w with
    | some i => .error (.invalidWord i program[i])
    | none => .ok ()

/-- The words of an image of even length; a last odd byte is left out. -/
def words (image : Array UInt8) : Array Word :=
  .ofFn fun i : Fin (image.size / 2) => wordOf image[2 * i.val] image[2 * i.val + 1]

/-- The program that an image holds. -/
def decode (image : Array UInt8) : Except ImageError (Array Word) :=
  if image.size % 2 = 1 then .error (.oddLength image.size)
  else do
    let program := words image
    validate program
    return program

/-- The image of a program. -/
def encode (program : Array Word) : Array UInt8 :=
  program.flatMap fun w => (bytesOf w).toArray

end Image

end WordMachine
