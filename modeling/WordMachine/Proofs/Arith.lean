import WordMachine.Machine.Action

/-!
# Arithmetic on words, as arithmetic on numbers

`toNat_add` and `toNat_mul` say which number a sum and a product are. The lemmas here do the same
for the operations on bits, so that no later proof has to look at bits again. As residues of integers
(`cast_add` and so on) sums, products and complements are all of one form.
`BinaryOp.exactResult` is what an operation gives on numbers of any size; all operations reduce it,
except for remainders.
-/

namespace WordMachine

namespace Arith

/-- Masking is reduction. -/
theorem toNat_and_mask (a : Word) : (a &&& mask).toNat = a.toNat % modulus := by
  rw [UInt16.toNat_and]
  exact Nat.and_two_pow_sub_one_eq_mod _ 15

@[simp] theorem toNat_and (a b : Word) : (and a b).toNat = (a.toNat &&& b.toNat) % modulus := by
  rw [and, toNat_and_mask, UInt16.toNat_and]

@[simp] theorem toNat_or (a b : Word) : (or a b).toNat = (a.toNat ||| b.toNat) % modulus := by
  rw [or, toNat_and_mask, UInt16.toNat_or]

@[simp] theorem toNat_not (a : Word) : (not a).toNat = modulus - 1 - a.toNat % modulus := by
  have ha := a.toNat_lt
  rw [not, toNat_and_mask, UInt16.toNat_not]
  simp only [modulus, UInt16.size] at *
  omega

theorem toNat_truth (b : Bool) : (truth b).toNat = if b then 1 else 0 := by
  cases b <;> rfl

/-! ### Sums, products and complements as residues of integers -/

theorem cast_add (a b : Word) : ((add a b).toNat : Int) = (a.toNat + b.toNat) % modulus := by
  rw [toNat_add, Int.natCast_emod, Int.natCast_add]

theorem cast_mul (a b : Word) : ((mul a b).toNat : Int) = a.toNat * b.toNat % modulus := by
  rw [toNat_mul, Int.natCast_emod, Int.natCast_mul]

theorem cast_not (a : Word) : ((not a).toNat : Int) = (-1 - a.toNat) % modulus := by
  rw [toNat_not]
  simp only [modulus]
  omega

theorem cast_and_mask (a : Word) : ((a &&& mask).toNat : Int) = a.toNat % modulus := by
  rw [toNat_and_mask, Int.natCast_emod]

end Arith

namespace BinaryOp

/-- The exact result of a binary operation, as a number. -/
def exactResult (op : BinaryOp) (a b : Nat) : Nat :=
  match op with
  | .eq => if a = b then 1 else 0
  | .gt => if b < a then 1 else 0
  | .add => a + b
  | .mult => a * b
  | .mod => a % b
  | .and => a &&& b
  | .or => a ||| b

variable {op : BinaryOp} {a b v : Word}

/-- A remainder is taken of the words as they are. -/
theorem toNat_eval_mod (h : eval .mod a b = .ok v) : b ≠ 0 ∧ v.toNat = a.toNat % b.toNat := by
  simp only [eval, Arith.rem?] at h
  split at h
  · next hr =>
    split at hr
    · cases hr
    · next hb =>
      cases hr
      cases h
      exact ⟨hb, UInt16.toNat_mod a b⟩
  · cases h

/-- All other operations give the exact result, reduced. -/
theorem toNat_eval (h : op.eval a b = .ok v) (hop : op ≠ .mod) :
    v.toNat = op.exactResult a.toNat b.toNat % modulus := by
  cases op with
  | mod => exact absurd rfl hop
  | eq =>
    cases h
    rw [Arith.eq, Arith.toNat_truth, exactResult]
    simp only [beq_iff_eq, ← UInt16.toNat_inj]
    split <;> rfl
  | gt =>
    cases h
    rw [Arith.gt, Arith.toNat_truth, exactResult]
    simp only [decide_eq_true_eq, UInt16.lt_iff_toNat_lt]
    split <;> rfl
  | add =>
    cases h
    exact Arith.toNat_add a b
  | mult =>
    cases h
    exact Arith.toNat_mul a b
  | and =>
    cases h
    exact Arith.toNat_and a b
  | or =>
    cases h
    exact Arith.toNat_or a b

/-- A binary operation gives a word below `modulus`, unless it is a remainder; that is no larger
than the first argument. -/
theorem toNat_eval_le (h : op.eval a b = .ok v) : v.toNat < modulus ∨ v.toNat ≤ a.toNat := by
  by_cases hop : op = .mod
  · subst hop
    rw [(toNat_eval_mod h).2]
    exact .inr (Nat.mod_le _ _)
  · rw [toNat_eval h hop]
    exact .inl (Nat.mod_lt _ (by decide))

end BinaryOp

end WordMachine
