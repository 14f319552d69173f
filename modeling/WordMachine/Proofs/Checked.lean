import Mathlib.Algebra.Group.Nat.Defs
import WordMachine.Machine.Action

/-!
# Checked computations

The rules of the machine are about numbers of any size. A program that follows them has numbers of
sixteen, thirty-two and sixty-four bits, and it looks words up by index; where a number does not
fit, an index is too large or a divisor is zero, it breaks off. The computations here make these
checks, each where it is due.

* `Checked` — a computation that breaks off at the first `Breach`. Its operations answer exactly if
  their check goes through (`index_eq_ok_iff`, `add_eq_ok_iff` and so on).
* `Guarded` — a computation that breaks off in the same way, and that may also answer with an error
  of the machine. Such an error is an answer like others, and no breach.

That a computation needs no check is said by an equation: it is `.ok` of what the rule gives, or
`Guarded.answer` of it, if the rule may give an error.
-/

namespace WordMachine

/-- Why a computation breaks off. -/
inductive Breach
  /-- Something of the given length has nothing at the index. -/
  | index (i length : Nat)
  /-- A part is asked for that does not lie within something of the given length. -/
  | slice (start stop length : Nat)
  /-- A result needs more than the given number of bits. -/
  | overflow (bits : Nat)
  | zeroDivisor
  deriving DecidableEq, Repr

/-- A computation that may break off. -/
abbrev Checked := Except Breach

namespace Checked

variable {α β : Type} {bits a b s i start stop length : Nat}

/-- A value that is there only under a condition. -/
def require (condition : Prop) [Decidable condition] (breach : Breach) (x : α) : Checked α :=
  if condition then .ok x else .error breach

/-- What stands at an index. -/
def index (xs : Array α) (i : Nat) : Checked α :=
  match xs[i]? with
  | some x => .ok x
  | none => .error (.index i xs.size)

/-- The vector with something else at an index. -/
def set (xs : Vector α length) (i : Nat) (x : α) : Checked (Vector α length) :=
  if h : i < length then .ok (xs.set i x h) else .error (.index i length)

/-- The part from one index up to another. -/
def slice (xs : Array α) (start stop : Nat) : Checked (Array α) :=
  require (start ≤ stop ∧ stop ≤ xs.size) (.slice start stop xs.size) (xs.extract start stop)

/-- A sum of so many bits. -/
def add (bits a b : Nat) : Checked Nat := require (a + b < 2 ^ bits) (.overflow bits) (a + b)

/-- A product of so many bits. -/
def mul (bits a b : Nat) : Checked Nat := require (a * b < 2 ^ bits) (.overflow bits) (a * b)

/-- The remainder of a division. -/
def rem (a b : Nat) : Checked Nat := require (b ≠ 0) .zeroDivisor (a % b)

/-! ### The checks are exact -/

theorem require_eq_ok_iff {condition : Prop} [Decidable condition] {breach : Breach} {x y : α} :
    require condition breach x = .ok y ↔ condition ∧ x = y := by
  unfold require
  split
  · next h => simp [h]
  · next h => simp [h]

theorem index_eq_ok_iff {xs : Array α} {x : α} : index xs i = .ok x ↔ xs[i]? = some x := by
  unfold index
  split <;> simp_all

theorem set_eq_ok_iff {xs ys : Vector α length} {x : α} :
    set xs i x = .ok ys ↔ ∃ h : i < length, xs.set i x h = ys := by
  unfold set
  split
  · next h => simp [h]
  · next h => simp [h]

theorem slice_eq_ok_iff {xs ys : Array α} :
    slice xs start stop = .ok ys ↔
      (start ≤ stop ∧ stop ≤ xs.size) ∧ xs.extract start stop = ys :=
  require_eq_ok_iff

theorem add_eq_ok_iff : add bits a b = .ok s ↔ a + b < 2 ^ bits ∧ a + b = s :=
  require_eq_ok_iff

theorem mul_eq_ok_iff : mul bits a b = .ok s ↔ a * b < 2 ^ bits ∧ a * b = s :=
  require_eq_ok_iff

theorem rem_eq_ok_iff : rem a b = .ok s ↔ b ≠ 0 ∧ a % b = s :=
  require_eq_ok_iff

/-- A sum that needs more bits breaks off. -/
theorem add_of_le (h : 2 ^ bits ≤ a + b) : add bits a b = .error (.overflow bits) :=
  if_neg (Nat.not_lt.2 h)

end Checked

/-! ### Errors of the machine among the answers -/

/-- A computation that may break off, and that answers with a value or with an error. -/
abbrev Guarded := ExceptT Error Checked

namespace Guarded

variable {α β : Type}

/-- The computation that gives an answer and checks nothing. -/
def answer (r : Except Error α) : Guarded α := ExceptT.mk (.ok r)

/-- A checked computation, which has no error to answer with. -/
def check (c : Checked α) : Guarded α := ExceptT.lift c

@[simp] theorem run_answer (r : Except Error α) : (answer r).run = .ok r := rfl

@[simp] theorem check_ok (a : α) : check (.ok a) = answer (.ok a) := rfl

@[simp] theorem pure_eq (a : α) : (pure a : Guarded α) = answer (.ok a) := rfl

@[simp] theorem throw_eq (e : Error) : (throw e : Guarded α) = answer (.error e) := rfl

@[simp] theorem answer_ok_bind (a : α) (f : α → Guarded β) : answer (.ok a) >>= f = f a := rfl

/-- Of a computation in parts that check nothing, the parts can be answered one by one. -/
theorem answer_bind (r : Except Error α) (f : α → Except Error β) :
    (answer r >>= fun a => answer (f a)) = answer (r >>= f) := by
  cases r <;> rfl

/-- The same, if the rest is only to take what was answered. -/
theorem answer_map (r : Except Error α) (f : α → β) :
    (answer r >>= fun a => answer (.ok (f a))) = answer (f <$> r) := by
  cases r <;> rfl

end Guarded

/-! ### Arithmetic on words -/

namespace Arith

/-- The sum of two words, computed in thirty-two bits. -/
def addChecked (a b : Word) : Checked Word := do
  let sum ← Checked.add 32 a.toNat b.toNat
  return .ofNat (← Checked.rem sum modulus)

/-- The product of two words, computed in thirty-two bits. -/
def mulChecked (a b : Word) : Checked Word := do
  let product ← Checked.mul 32 a.toNat b.toNat
  return .ofNat (← Checked.rem product modulus)

theorem rem_modulus (n : Nat) : Checked.rem n modulus = .ok (n % modulus) :=
  Checked.rem_eq_ok_iff.2 ⟨by decide, rfl⟩

/-- **The sum of two words fits into thirty-two bits.** -/
@[simp] theorem addChecked_eq (a b : Word) : addChecked a b = .ok (add a b) := by
  have ha := a.toNat_lt
  have hb := b.toNat_lt
  have hsum : Checked.add 32 a.toNat b.toNat = .ok (a.toNat + b.toNat) :=
    Checked.add_eq_ok_iff.2 ⟨by omega, rfl⟩
  rw [addChecked, hsum, Except.ok_bind, rem_modulus]
  rfl

/-- **The product of two words fits into thirty-two bits**, even of the largest. -/
@[simp] theorem mulChecked_eq (a b : Word) : mulChecked a b = .ok (mul a b) := by
  have hle : a.toNat * b.toNat ≤ 65535 * 65535 :=
    Nat.mul_le_mul (Nat.le_of_lt_succ a.toNat_lt) (Nat.le_of_lt_succ b.toNat_lt)
  have hproduct : Checked.mul 32 a.toNat b.toNat = .ok (a.toNat * b.toNat) :=
    Checked.mul_eq_ok_iff.2 ⟨by omega, rfl⟩
  rw [mulChecked, hproduct, Except.ok_bind, rem_modulus]
  rfl

end Arith

/-- The result of a binary operation; the divisor is looked at before it is divided by. -/
def BinaryOp.evalChecked (op : BinaryOp) (a b : Word) : Guarded Word :=
  match op with
  | .eq => return Arith.eq a b
  | .gt => return Arith.gt a b
  | .add => Guarded.check (Arith.addChecked a b)
  | .mult => Guarded.check (Arith.mulChecked a b)
  | .mod =>
    if b = 0 then throw .divideByZero
    else do return .ofNat (← Guarded.check (Checked.rem a.toNat b.toNat))
  | .and => return Arith.and a b
  | .or => return Arith.or a b

/-- **No binary operation needs a check.** -/
theorem BinaryOp.evalChecked_eq (op : BinaryOp) (a b : Word) :
    op.evalChecked a b = .answer (op.eval a b) := by
  cases op with
  | mod =>
    simp only [evalChecked, eval, Arith.rem?]
    split
    · rfl
    · next hb =>
      have hrem : Checked.rem a.toNat b.toNat = .ok (a.toNat % b.toNat) :=
        Checked.rem_eq_ok_iff.2 ⟨fun h0 => hb (UInt16.toNat_inj.1 h0), rfl⟩
      have hword : UInt16.ofNat (a.toNat % b.toNat) = a % b := by
        rw [← UInt16.toNat_mod, UInt16.ofNat_toNat]
      rw [hrem, ← hword]
      rfl
  | _ => simp [evalChecked, eval]

end WordMachine
