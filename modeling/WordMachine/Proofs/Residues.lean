import Mathlib.Data.Int.ModEq
import WordMachine.Proofs.Arith

/-!
# Sums, products and complements modulo 32768

Sums, products and complements are taken of words as they are, and the results are reduced. So it
does not matter when words are reduced: what is computed step by step, in whatever order, is what
exact arithmetic gives, reduced once at the end.

* `Formula` — a computation; `Formula.value` is what it makes of words, `Formula.number` what it
  makes of integers, where the complement of `x` is `-1 - x`.
* `Formula.value_modEq` — the value is congruent to the number, by induction on the computation.
* `Formula.value_eq_of_modEq` — so computations whose numbers are congruent have the same value. The
  laws of sums and products of integers become laws of words in this way, also of unreduced ones.

`arithmetic_is_modular` puts together what the operations have of a ring.
-/

namespace WordMachine

/-- A computation with sums, products and complements; its inputs have names. -/
inductive Formula (ι : Type)
  | input (name : ι)
  | add (left right : Formula ι)
  | mul (left right : Formula ι)
  | not (operand : Formula ι)

namespace Formula

variable {ι κ : Type}

/-- What the arithmetic of the machine makes of words. -/
def value (words : ι → Word) : Formula ι → Word
  | input x => words x
  | add f g => Arith.add (f.value words) (g.value words)
  | mul f g => Arith.mul (f.value words) (g.value words)
  | not f => Arith.not (f.value words)

/-- What exact arithmetic makes of integers. -/
def number (numbers : ι → Int) : Formula ι → Int
  | input x => numbers x
  | add f g => f.number numbers + g.number numbers
  | mul f g => f.number numbers * g.number numbers
  | not f => -1 - f.number numbers

/-- A computation that is more than an input. -/
def Computes (f : Formula ι) : Prop := ∀ x, f ≠ input x

end Formula

/-! ### Computations -/

namespace Formula

variable {ι κ : Type} {f : Formula ι} {g : Formula κ} {words : ι → Word} {words' : κ → Word}

/-- **What is computed with words is congruent to what is computed with integers.** -/
theorem value_modEq (words : ι → Word) (f : Formula ι) :
    ((f.value words).toNat : Int) ≡ f.number (fun x => (words x).toNat) [ZMOD modulus] := by
  induction f with
  | input x => rfl
  | add f g ihf ihg =>
    rw [value, Arith.cast_add]
    exact (Int.mod_modEq _ _).trans (ihf.add ihg)
  | mul f g ihf ihg =>
    rw [value, Arith.cast_mul]
    exact (Int.mod_modEq _ _).trans (ihf.mul ihg)
  | not f ih =>
    rw [value, Arith.cast_not]
    exact (Int.mod_modEq _ _).trans (Int.ModEq.rfl.sub ih)

/-- What is computed is reduced, whatever it is computed of. -/
theorem Computes.value_lt (hf : f.Computes) : ((f.value words).toNat : Int) < modulus := by
  have reduced (z : Int) : z % modulus < modulus := Int.emod_lt_of_pos z (by decide)
  cases f with
  | input x => exact absurd rfl (hf x)
  | add f g =>
    rw [value, Arith.cast_add]
    exact reduced _
  | mul f g =>
    rw [value, Arith.cast_mul]
    exact reduced _
  | not f =>
    rw [value, Arith.cast_not]
    exact reduced _

/-- **One reduction at the end is enough.** -/
theorem Computes.value_eq_emod (hf : f.Computes) (words : ι → Word) :
    ((f.value words).toNat : Int) = f.number (fun x => (words x).toNat) % modulus := by
  rw [← (value_modEq words f).eq, Int.emod_eq_of_lt (Int.natCast_nonneg _) hf.value_lt]

/-- **Computations have the same value if their numbers are congruent**, be it of the same inputs
or of others. -/
theorem Computes.value_eq_of_modEq (hf : f.Computes) (hg : g.Computes)
    (h : f.number (fun x => (words x).toNat) ≡ g.number (fun x => (words' x).toNat) [ZMOD modulus]) :
    f.value words = g.value words' := by
  have hvalue : ((f.value words).toNat : Int) = (g.value words').toNat := by
    rw [hf.value_eq_emod, hg.value_eq_emod, h.eq]
  exact UInt16.toNat_inj.1 (Int.ofNat.inj hvalue)

/-- Congruent inputs lead to congruent numbers. -/
theorem number_modEq {numbers numbers' : ι → Int} (f : Formula ι)
    (h : ∀ x, numbers x ≡ numbers' x [ZMOD modulus]) :
    f.number numbers ≡ f.number numbers' [ZMOD modulus] := by
  induction f with
  | input x => exact h x
  | add f g ihf ihg => exact ihf.add ihg
  | mul f g ihf ihg => exact ihf.mul ihg
  | not f ih => exact Int.ModEq.rfl.sub ih

/-- **Only the fifteen low bits of the inputs matter.** -/
theorem Computes.value_mask (hf : f.Computes) (words : ι → Word) :
    f.value (fun x => words x &&& mask) = f.value words := by
  apply hf.value_eq_of_modEq hf
  apply f.number_modEq
  intro x
  rw [Arith.cast_and_mask]
  exact Int.mod_modEq _ _

end Formula

/-! ### Laws

An equation between computations of the same words holds if it is one of integers. -/

namespace Arith

theorem eq_of_number_eq (f g : Formula Word) (hf : f.Computes) (hg : g.Computes)
    (h : f.number (fun w => w.toNat) = g.number (fun w => w.toNat)) : f.value id = g.value id :=
  hf.value_eq_of_modEq hg (congrArg (· % (modulus : Int)) h)

theorem add_comm (a b : Word) : add a b = add b a :=
  eq_of_number_eq (.add (.input a) (.input b)) (.add (.input b) (.input a)) nofun nofun
    (Int.add_comm _ _)

theorem add_assoc (a b c : Word) : add (add a b) c = add a (add b c) :=
  eq_of_number_eq (.add (.add (.input a) (.input b)) (.input c))
    (.add (.input a) (.add (.input b) (.input c))) nofun nofun (Int.add_assoc _ _ _)

theorem mul_comm (a b : Word) : mul a b = mul b a :=
  eq_of_number_eq (.mul (.input a) (.input b)) (.mul (.input b) (.input a)) nofun nofun
    (Int.mul_comm _ _)

theorem mul_assoc (a b c : Word) : mul (mul a b) c = mul a (mul b c) :=
  eq_of_number_eq (.mul (.mul (.input a) (.input b)) (.input c))
    (.mul (.input a) (.mul (.input b) (.input c))) nofun nofun (Int.mul_assoc _ _ _)

theorem mul_add (a b c : Word) : mul a (add b c) = add (mul a b) (mul a c) :=
  eq_of_number_eq (.mul (.input a) (.add (.input b) (.input c)))
    (.add (.mul (.input a) (.input b)) (.mul (.input a) (.input c))) nofun nofun
    (Int.mul_add _ _ _)

theorem add_mul (a b c : Word) : mul (add a b) c = add (mul a c) (mul b c) := by
  rw [mul_comm, mul_add, mul_comm c a, mul_comm c b]

/-- Two complements leave the fifteen low bits. -/
theorem not_not (a : Word) : not (not a) = a &&& mask := by
  have hnumber : (-1 - (-1 - a.toNat) : Int) = a.toNat := by omega
  have hvalue : ((not (not a)).toNat : Int) = (-1 - (-1 - a.toNat)) % modulus :=
    Formula.Computes.value_eq_emod (f := .not (.not (.input a))) nofun id
  rw [hnumber, ← cast_and_mask] at hvalue
  exact UInt16.toNat_inj.1 (Int.ofNat.inj hvalue)

/-- Only the fifteen low bits of the summands matter. -/
theorem add_mask (a b : Word) : add (a &&& mask) (b &&& mask) = add a b :=
  Formula.Computes.value_mask (f := .add (.input a) (.input b)) nofun id

theorem mul_mask (a b : Word) : mul (a &&& mask) (b &&& mask) = mul a b :=
  Formula.Computes.value_mask (f := .mul (.input a) (.input b)) nofun id

theorem not_mask (a : Word) : not (a &&& mask) = not a :=
  Formula.Computes.value_mask (f := .not (.input a)) nofun id

end Arith

/-! ### The ring -/

/-- **Words are computed with modulo 32768, whether they are reduced or not.** The operations are
congruent to those of integers, give words below 32768 and look at fifteen bits only. What is
computed of a list of words, by as many operations as one likes, is what exact arithmetic computes
of the numbers, reduced once at the end. Hence sums and products obey the laws of a ring, and two
complements leave the fifteen low bits. -/
theorem arithmetic_is_modular :
    (∀ a b,
      ((Arith.add a b).toNat : Int) ≡ a.toNat + b.toNat [ZMOD modulus] ∧
      ((Arith.mul a b).toNat : Int) ≡ a.toNat * b.toNat [ZMOD modulus] ∧
      ((Arith.not a).toNat : Int) ≡ -1 - a.toNat [ZMOD modulus]) ∧
    (∀ a b, (Arith.add a b).toNat < modulus ∧ (Arith.mul a b).toNat < modulus ∧
      (Arith.not a).toNat < modulus) ∧
    (∀ a b a' b', a &&& mask = a' &&& mask → b &&& mask = b' &&& mask →
      Arith.add a b = Arith.add a' b' ∧ Arith.mul a b = Arith.mul a' b' ∧
      Arith.not a = Arith.not a') ∧
    (∀ (words : List Word) (f : Formula (Fin words.length)), f.Computes →
      ((f.value words.get).toNat : Int) =
        f.number (fun i => (words.get i).toNat) % modulus) ∧
    (∀ a b c,
      Arith.add (Arith.add a b) c = Arith.add a (Arith.add b c) ∧
      Arith.mul (Arith.mul a b) c = Arith.mul a (Arith.mul b c) ∧
      Arith.add a b = Arith.add b a ∧ Arith.mul a b = Arith.mul b a ∧
      Arith.mul a (Arith.add b c) = Arith.add (Arith.mul a b) (Arith.mul a c) ∧
      Arith.mul (Arith.add a b) c = Arith.add (Arith.mul a c) (Arith.mul b c)) ∧
    ∀ a, Arith.not (Arith.not a) = a &&& 0x7FFF := by
  refine ⟨?congruent, ?reduced, ?lowBits, ?once, ?laws, Arith.not_not⟩
  case congruent =>
    intro a b
    rw [Arith.cast_add, Arith.cast_mul, Arith.cast_not]
    exact ⟨Int.mod_modEq _ _, Int.mod_modEq _ _, Int.mod_modEq _ _⟩
  case reduced =>
    intro a b
    rw [Arith.toNat_add, Arith.toNat_mul, Arith.toNat_not]
    have hlt (n : Nat) : n % modulus < modulus := Nat.mod_lt n (by decide)
    exact ⟨hlt _, hlt _, Nat.lt_of_le_of_lt (Nat.sub_le _ _) (by decide)⟩
  case lowBits =>
    intro a b a' b' ha hb
    refine ⟨?_, ?_, ?_⟩
    · rw [← Arith.add_mask, ha, hb, Arith.add_mask]
    · rw [← Arith.mul_mask, ha, hb, Arith.mul_mask]
    · rw [← Arith.not_mask, ha, Arith.not_mask]
  case once =>
    intro words f hf
    exact hf.value_eq_emod words.get
  case laws =>
    intro a b c
    exact ⟨Arith.add_assoc a b c, Arith.mul_assoc a b c, Arith.add_comm a b, Arith.mul_comm a b,
      Arith.mul_add a b c, Arith.add_mul a b c⟩

/-- `not(65535 * 40000 + not(32768))`, which is 7232, and two words that differ in their highest bit
only. -/
theorem arithmetic_is_modular_unreduced :
    let words : List Word := [65535, 40000, 32768]
    let f : Formula (Fin words.length) :=
      .not (.add (.mul (.input ⟨0, by decide⟩) (.input ⟨1, by decide⟩))
        (.not (.input ⟨2, by decide⟩)))
    f.Computes ∧ f.number (fun i => (words.get i).toNat) = -2621367232 ∧
      (f.value words.get).toNat = 7232 ∧
      (65535 : Word) &&& mask = 32767 &&& mask ∧
      Arith.add 65535 1 = Arith.add 32767 1 ∧ Arith.mul 65535 1 = Arith.mul 32767 1 ∧
      Arith.not 65535 = Arith.not 32767 := by
  intro words f
  obtain ⟨-, -, hlow, honce, -⟩ := arithmetic_is_modular
  have hf : f.Computes := nofun
  have hnumber : f.number (fun i => (words.get i).toNat) = -2621367232 := by decide
  have hvalue : ((f.value words.get).toNat : Int) = -2621367232 % modulus :=
    hnumber ▸ honce words f hf
  exact ⟨hf, hnumber, Int.ofNat.inj hvalue, by decide,
    hlow 65535 1 32767 1 (by decide) rfl⟩

end WordMachine
