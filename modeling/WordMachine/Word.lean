/-!
# Machine words

A word has sixteen bits. As an operand, a word below `registerBase` stands for itself, the eight
words from there on name the registers, and every larger word is refused. Memory has `memorySize`
words, so exactly the words that stand for themselves are addresses.

The operations of `Arith` take any words, also words of more than fifteen bits.

* `add` and `mul` are sum and product modulo 32768, taken of the unreduced words.
* `not`, `and` and `or` work on the fifteen low bits.
* `eq` and `gt` compare whole words and answer 1 or 0.
* `rem?` is the plain remainder, which a zero divisor has none of.
-/

namespace WordMachine

/-- A machine word. -/
abbrev Word := UInt16

/-- How many words memory holds. -/
@[simp] abbrev memorySize : Nat := 32768

/-- How many registers there are. -/
@[simp] abbrev registerCount : Nat := 8

/-- The operand word that names the first register; the other registers follow it. -/
@[simp] abbrev registerBase : Nat := memorySize

/-- The largest word that may stand as an operand, and so in a program: the last register's name. -/
@[simp] abbrev maxOperand : Nat := registerBase + registerCount - 1

/-- Sums and products are taken modulo this number. -/
@[simp] abbrev modulus : Nat := 32768

/-- The fifteen low bits of a word. -/
def mask : Word := 0x7FFF

/-! ### Arithmetic -/

namespace Arith

/-- The sum of two words, modulo 32768. -/
def add (a b : Word) : Word := .ofNat ((a.toNat + b.toNat) % modulus)

/-- The product of two words, modulo 32768. -/
def mul (a b : Word) : Word := .ofNat (a.toNat * b.toNat % modulus)

/-- The complement of the fifteen low bits. -/
def not (a : Word) : Word := ~~~a &&& mask

/-- The bits that both words have among the fifteen low ones. -/
def and (a b : Word) : Word := a &&& b &&& mask

/-- The bits that either word has among the fifteen low ones. -/
def or (a b : Word) : Word := (a ||| b) &&& mask

/-- A truth value as a word. -/
def truth (b : Bool) : Word := if b then 1 else 0

/-- Whether two words are equal. -/
def eq (a b : Word) : Word := truth (a == b)

/-- Whether the first word is the greater. -/
def gt (a b : Word) : Word := truth (b < a)

/-- The remainder of a division, unless the divisor is zero. -/
def rem? (a b : Word) : Option Word := if b = 0 then none else some (a % b)

@[simp] theorem toNat_add (a b : Word) : (add a b).toNat = (a.toNat + b.toNat) % modulus := by
  simp only [add, modulus, UInt16.toNat_ofNat']
  omega

@[simp] theorem toNat_mul (a b : Word) : (mul a b).toNat = a.toNat * b.toNat % modulus := by
  simp only [mul, modulus, UInt16.toNat_ofNat']
  omega

end Arith

end WordMachine
