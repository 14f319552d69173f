import WordMachine.Console.Basic
import WordMachine.Proofs.Arith
import WordMachine.Proofs.Load
import WordMachine.Proofs.Writes

/-!
# Which results are reduced

Registers may hold words of more than fifteen bits, which come from memory or from the stack. What
is computed from them is reduced modulo 32768, with one exception: a remainder is taken of the words
as they are. If the dividend is unreduced and the divisor is larger still, the remainder is the
dividend, so that an unreduced word is left in the destination.

* `BinaryOp.KeepsDividend` — the exception (`Machine.KeepsDividend` for instructions);
* `Machine.exactResult?` — the exact result of an instruction that computes, as an integer;
* `results_reduced` — the exact result is reduced but for the exception, and then it is not.
-/

namespace WordMachine

/-- The division of an unreduced word by a larger one, for the remainder. -/
def BinaryOp.KeepsDividend (op : BinaryOp) (a b : Word) : Prop :=
  op = .mod ∧ modulus ≤ a.toNat ∧ a < b

namespace Machine

/-- The exact result of an instruction that computes, with the register that it is for. The
complement of a number is that of all its bits. -/
def exactResult? (m : Machine) : Instruction → Option (Register × Int)
  | .binary op dst a b => some (dst, op.exactResult (m.value a).toNat (m.value b).toNat)
  | .not dst a => some (dst, ~~~((m.value a).toNat : Int))
  | _ => none

/-- An instruction that divides an unreduced word by a larger one, for the remainder. -/
def KeepsDividend (m : Machine) : Instruction → Prop
  | .binary op _ a b => op.KeepsDividend (m.value a) (m.value b)
  | _ => False

end Machine

/-! ### The operations -/

/-- The complement of the fifteen low bits is the complement of all bits, reduced. -/
theorem Arith.toNat_not_eq_emod (a : Word) :
    ((Arith.not a).toNat : Int) = ~~~(a.toNat : Int) % modulus := by
  have hcomplement : ~~~(a.toNat : Int) = -1 - a.toNat :=
    calc
      ~~~(a.toNat : Int) = -(a.toNat + 1) := Int.negSucc_eq a.toNat
      _ = -1 - a.toNat := by omega
  rw [hcomplement, Arith.cast_not]

namespace BinaryOp

variable {op : BinaryOp} {a b v : Word}

/-- A remainder by a divisor that is no larger than the dividend is at most half of the dividend. -/
theorem mod_lt_modulus (hb : b ≠ 0) (hle : b ≤ a) : a.toNat % b.toNat < modulus := by
  have hpos : 0 < b.toNat := Nat.pos_of_ne_zero fun h0 => hb (UInt16.toNat_inj.1 h0)
  have hlt : a.toNat % b.toNat < b.toNat := Nat.mod_lt _ hpos
  have hrest : a.toNat % b.toNat ≤ a.toNat - b.toNat := by
    rw [Nat.mod_eq_sub_mod (UInt16.le_iff_toNat_le.1 hle)]
    exact Nat.mod_le _ _
  have hword := a.toNat_lt
  simp only [modulus]
  omega

/-- The exact result of an operation, reduced. -/
theorem toNat_eval_eq_mod (h : op.eval a b = .ok v) (hkeeps : ¬ op.KeepsDividend a b) :
    v.toNat = op.exactResult a.toNat b.toNat % modulus := by
  by_cases hop : op = .mod
  · subst hop
    obtain ⟨hb, hv⟩ := toNat_eval_mod h
    have hlt : a.toNat % b.toNat < modulus := by
      rcases Nat.lt_or_ge a.toNat modulus with ha | ha
      · exact Nat.lt_of_le_of_lt (Nat.mod_le _ _) ha
      · exact mod_lt_modulus hb (UInt16.not_lt.1 fun hab => hkeeps ⟨rfl, ha, hab⟩)
    rw [hv, exactResult, Nat.mod_eq_of_lt hlt]
  · exact toNat_eval h hop

/-- The exception: the dividend stays, which is the exact result and not reduced. -/
theorem eq_of_keepsDividend (h : op.eval a b = .ok v) (hkeeps : op.KeepsDividend a b) :
    v = a ∧ v.toNat = op.exactResult a.toNat b.toNat ∧ modulus ≤ v.toNat := by
  obtain ⟨rfl, ha, hab⟩ := hkeeps
  have hv : v.toNat = a.toNat % b.toNat := (toNat_eval_mod h).2
  have hva : v.toNat = a.toNat := hv.trans (Nat.mod_eq_of_lt (UInt16.lt_iff_toNat_lt.1 hab))
  exact ⟨UInt16.toNat_inj.1 hva, hv, hva ▸ ha⟩

end BinaryOp

/-! ### The instructions -/

namespace Rig

variable {δ : Type} [Device δ] {r : Rig δ} {dst : Register} {a b : Operand}

/-- What an operation on two words leaves in its destination. -/
theorem eval_of_executed {op : BinaryOp} (hi : r.executed? = some (.binary op dst a b)) :
    op.eval (r.machine.value a) (r.machine.value b) = .ok (r.step.machine.register dst) := by
  have hresult : (op.eval (r.machine.value a) (r.machine.value b)).toOption = some _ :=
    result?_of_executed hi rfl
  cases heval : op.eval (r.machine.value a) (r.machine.value b) with
  | error e =>
    rw [heval] at hresult
    cases hresult
  | ok v =>
    rw [heval] at hresult
    cases hresult
    rfl

/-- What a complement leaves in its destination. -/
theorem not_of_executed (hi : r.executed? = some (.not dst a)) :
    r.step.machine.register dst = Arith.not (r.machine.value a) :=
  (Option.some.inj (result?_of_executed hi (c := .register dst) rfl)).symm

/-- Reading a word whose address stands in the instruction. -/
theorem step_rmem {m : Machine} {d : δ} {w : Literal}
    (hdecode : m.decode m.pc = .ok (.rmem dst (.literal w))) :
    step ⟨m, d⟩ = ⟨m.apply (m.pc + 3) (.store dst (m.word ⟨w.word, w.isLt⟩)), d⟩ :=
  (executed?_of_yields hdecode (.rmem (t := ⟨w.word, w.isLt⟩) rfl)).2

/-- Two such readings, one behind the other. -/
theorem after_two_rmem {m : Machine} {d : δ} {x y : Register} {v w : Literal}
    (hfirst : m.decode m.pc = .ok (.rmem x (.literal v)))
    (hsecond : m.decode (m.pc + 3) = .ok (.rmem y (.literal w))) :
    after 2 ⟨m, d⟩ = ⟨(m.apply (m.pc + 3) (.store x (m.word ⟨v.word, v.isLt⟩))).apply
      (m.pc + 3 + 3) (.store y (m.word ⟨w.word, w.isLt⟩)), d⟩ := by
  rw [after_succ, after_succ, after_zero, step_rmem hfirst]
  exact step_rmem hsecond

end Rig

/-- **Results are reduced, but for remainders.** In any state and with any device, a step that
executes an instruction that computes leaves the exact result modulo 32768 in its destination, below
32768, whatever its source operands hold; except that a `mod` whose dividend is 32768 or more and
below its divisor leaves the dividend as it is, which is the exact result and not below 32768. -/
theorem results_reduced {δ : Type} [Device δ] {r : Rig δ} {i : Instruction} {dst : Register}
    {x : Int} (hi : r.executed? = some i) (hx : r.machine.exactResult? i = some (dst, x)) :
    (¬ r.machine.KeepsDividend i →
      (r.step.machine.register dst).toNat < modulus ∧
        ((r.step.machine.register dst).toNat : Int) = x % modulus) ∧
    (r.machine.KeepsDividend i →
      modulus ≤ (r.step.machine.register dst).toNat ∧
        ((r.step.machine.register dst).toNat : Int) = x) := by
  cases i with
  | binary op _ a b =>
    cases hx
    have heval := Rig.eval_of_executed hi
    refine ⟨fun hkeeps => ?_, fun hkeeps => ?_⟩
    · have hv := BinaryOp.toNat_eval_eq_mod heval hkeeps
      exact ⟨hv ▸ Nat.mod_lt _ (by decide), congrArg Int.ofNat hv⟩
    · obtain ⟨-, hv, hle⟩ := BinaryOp.eq_of_keepsDividend heval hkeeps
      exact ⟨hle, congrArg Int.ofNat hv⟩
  | not _ a =>
    cases hx
    refine ⟨fun _ => ?_, nofun⟩
    rw [Rig.not_of_executed hi]
    refine ⟨?_, Arith.toNat_not_eq_emod _⟩
    rw [Arith.toNat_not]
    simp only [modulus]
    omega
  | _ => cases hx

/-- A sum of fifteen bits and a carry. -/
theorem results_reduced_carry :
    let r : Rig NullDevice := ⟨Machine.loaded .skip #[9, 32768, 32767, 1], NullDevice.mk⟩
    let i : Instruction :=
      .binary .add ⟨0⟩ (.literal ⟨32767, by decide⟩) (.literal ⟨1, by decide⟩)
    r.executed? = some i ∧ r.machine.exactResult? i = some (⟨0⟩, 32768) ∧
      ¬ r.machine.KeepsDividend i ∧ (r.step.machine.register ⟨0⟩).toNat = 0 := by
  intro r i
  have hdecode : r.machine.decode 0 = .ok i := Machine.decode_loaded (by decide) rfl
  have hsum : BinaryOp.eval .add 32767 1 = .ok 0 := rfl
  have hi : r.executed? = some i := (Rig.executed?_of_yields hdecode (.binary hsum)).1
  have hx : r.machine.exactResult? i = some (⟨0⟩, 32768) := rfl
  have hkeeps : ¬ r.machine.KeepsDividend i := fun h => nomatch h.1
  have hreduced := ((results_reduced hi hx).1 hkeeps).2
  exact ⟨hi, hx, hkeeps, Int.ofNat.inj hreduced⟩

/-- A program that reads two of its own words, 32769 and 32770, and divides the first by the second
for the remainder. -/
def unreducedDivision : Array Word := #[15, 32769, 1, 15, 32770, 4, 11, 32768, 32769, 32770]

/-- **A remainder that is not reduced**: 32769 stays as it is; reduced, it would be 1. -/
theorem remainder_of_unreducedDivision :
    let r : Rig Console := .after 2 ⟨.loaded .skip unreducedDivision, { mode := .interactive }⟩
    let i : Instruction := .binary .mod ⟨0⟩ (.register ⟨1⟩) (.register ⟨2⟩)
    r.executed? = some i ∧ r.machine.exactResult? i = some (⟨0⟩, 32769) ∧
      (r.step.machine.register ⟨0⟩).toNat = 32769 ∧ ¬ 32769 < modulus ∧
      (32769 : Int) % modulus = 1 := by
  -- of the program, only the three instructions and the two words matter
  have hrig : ∀ (m : Machine) (d : Console), m.pc = 0 →
      m.decode 0 = .ok (.rmem ⟨1⟩ (.literal ⟨1, by decide⟩)) →
      m.decode 3 = .ok (.rmem ⟨2⟩ (.literal ⟨4, by decide⟩)) →
      m.decode 6 = .ok (.binary .mod ⟨0⟩ (.register ⟨1⟩) (.register ⟨2⟩)) →
      m.word ⟨1, by decide⟩ = 32769 → m.word ⟨4, by decide⟩ = 32770 →
      let r : Rig Console := .after 2 ⟨m, d⟩
      let i : Instruction := .binary .mod ⟨0⟩ (.register ⟨1⟩) (.register ⟨2⟩)
      r.executed? = some i ∧ r.machine.exactResult? i = some (⟨0⟩, 32769) ∧
        (r.step.machine.register ⟨0⟩).toNat = 32769 := by
    intro m d hpc hfirst hsecond hthird hone hfour r i
    let m' := (m.apply 3 (.store ⟨1⟩ 32769)).apply 6 (.store ⟨2⟩ 32770)
    have hr : r = ⟨m', d⟩ := by
      have hnext : m.decode (m.pc + 3) = .ok (.rmem ⟨2⟩ (.literal ⟨4, by decide⟩)) := by
        rw [hpc]
        exact hsecond
      have hafter := Rig.after_two_rmem (d := d) (hpc ▸ hfirst) hnext
      rwa [hpc, hone, hfour] at hafter
    have hdividend : m'.register ⟨1⟩ = 32769 := by
      show ((m.setRegister ⟨1⟩ 32769).setRegister ⟨2⟩ 32770).register ⟨1⟩ = _
      simp [Machine.register_setRegister]
    have hdivisor : m'.register ⟨2⟩ = 32770 := by
      show ((m.setRegister ⟨1⟩ 32769).setRegister ⟨2⟩ 32770).register ⟨2⟩ = _
      simp [Machine.register_setRegister]
    have hyields : m'.Yields i (.effect (.store ⟨0⟩ 32769)) := by
      refine .binary ?_
      show BinaryOp.eval .mod (m'.register ⟨1⟩) (m'.register ⟨2⟩) = _
      rw [hdividend, hdivisor]
      rfl
    have hdecode : m'.decode m'.pc = .ok i := hthird
    obtain ⟨hi, hstep⟩ := Rig.executed?_of_yields (d := d) hdecode hyields
    rw [hr]
    refine ⟨hi, ?_, ?_⟩
    · show some (_, (((m'.register ⟨1⟩).toNat % (m'.register ⟨2⟩).toNat : Nat) : Int)) = _
      rw [hdividend, hdivisor]
      rfl
    · rw [hstep]
      show ((m'.setRegister ⟨0⟩ 32769).register ⟨0⟩).toNat = _
      rw [Machine.register_setRegister, if_pos rfl]
      rfl
  have hsize : unreducedDivision.size ≤ memorySize := by decide
  have hfirst : Instruction.decode unreducedDivision 0 = _ := rfl
  have hsecond : Instruction.decode unreducedDivision 3 = _ := rfl
  have hthird : Instruction.decode unreducedDivision 6 = _ := rfl
  intro r i
  obtain ⟨hi, hx, hv⟩ := hrig (.loaded .skip unreducedDivision) { mode := .interactive } rfl
    (Machine.decode_loaded hsize hfirst) (Machine.decode_loaded hsize hsecond)
    (Machine.decode_loaded hsize hthird) (Machine.word_loaded _ _ _) (Machine.word_loaded _ _ _)
  exact ⟨hi, hx, hv, by decide, by decide⟩

end WordMachine
