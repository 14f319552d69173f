import WordMachine.Proofs.Action
import WordMachine.Proofs.Session

/-!
# What a run has executed

A step executes an instruction, or it executes none: a halted machine rests, an unknown opcode is
skipped, and a step that fails changes nothing. `Rig.executed?` tells which. `Rig.trail` lists the
rigs that the steps of a run start from, so what a run has done is read off its trail: how often
something was executed, in which order, and what was executed last.

A record to which every step adds what can be told of the step alone grows along a run by what can
be told of the trail (`Rig.append_trail`).
-/

namespace WordMachine.Rig

variable {δ : Type} [Device δ]

/-- The instruction that a step executes; none, if it fails, skips or rests. -/
def executed? (r : Rig δ) : Option Instruction :=
  match r.answer with
  | .ok _ => (r.machine.decode r.machine.pc).toOption
  | .error _ => none

/-- The rigs that the first steps start from, in order. -/
def trail (r : Rig δ) (n : Nat) : List (Rig δ) := (List.range n).map fun k => r.after k

@[simp] theorem trail_zero (r : Rig δ) : r.trail 0 = [] := rfl

theorem trail_succ (r : Rig δ) (n : Nat) : r.trail (n + 1) = r.trail n ++ [r.after n] := by
  simp [trail, List.range_succ]

theorem trail_succ_left (r : Rig δ) (n : Nat) : r.trail (n + 1) = r :: r.step.trail n := by
  rw [trail, List.range_succ_eq_map, List.map_cons, List.map_map, trail]
  exact congrArg (r :: ·) (List.map_congr_left fun k _ => r.after_succ_left k)

theorem executed?_of_error {r : Rig δ} {f : Fault} (h : r.answer = .error f) :
    r.executed? = none := by
  rw [executed?, h]

theorem executed?_of_ok {r : Rig δ} {s : Status} (h : r.answer = .ok s) :
    r.executed? = (r.machine.decode r.machine.pc).toOption := by
  rw [executed?, h]

/-- An instruction is executed exactly if it is read and the step does not fail. -/
theorem executed?_eq_some_iff {r : Rig δ} {i : Instruction} :
    r.executed? = some i ↔ r.machine.decode r.machine.pc = .ok i ∧ ∃ s, r.answer = .ok s := by
  constructor
  · intro h
    cases hanswer : r.answer with
    | error f =>
      rw [executed?_of_error hanswer] at h
      cases h
    | ok s =>
      rw [executed?_of_ok hanswer] at h
      cases hdecode : r.machine.decode r.machine.pc with
      | error e =>
        rw [hdecode] at h
        cases h
      | ok j =>
        rw [hdecode] at h
        cases h
        exact ⟨rfl, s, rfl⟩
  · rintro ⟨hdecode, s, hanswer⟩
    rw [executed?_of_ok hanswer, hdecode]
    rfl

/-- A step that needs no device executes the instruction at the program counter. -/
theorem executed?_of_yields {m : Machine} {d : δ} {i : Instruction} {e : Effect}
    (hdecode : m.decode m.pc = .ok i) (h : m.Yields i (.effect e)) :
    executed? ⟨m, d⟩ = some i ∧ step ⟨m, d⟩ = ⟨m.apply (m.next i) e, d⟩ := by
  have hadv : m.Advances d _ d :=
    .perform (Machine.isHalted_of_decode hdecode) hdecode (.effect h.action_eq)
  obtain ⟨hanswer, hstep⟩ := step_of_advances hadv
  exact ⟨executed?_eq_some_iff.2 ⟨hdecode, _, hanswer⟩, hstep⟩

/-- **What a step does to the machine**: it performs the instruction that it executes, and if it
executes none, memory, registers and stack stay as they are. -/
theorem executed_cases (r : Rig δ) :
    (∃ i e d', r.executed? = some i ∧ r.machine.Performs r.device i e d' ∧
      r.step = ⟨r.machine.apply (r.machine.next i) e, d'⟩) ∨
    r.executed? = none ∧ r.step.machine.memory = r.machine.memory ∧
      r.step.machine.registers = r.machine.registers ∧ r.step.machine.stack = r.machine.stack := by
  rcases r.step_cases with ⟨m', d', h, hanswer, hstep⟩ | ⟨f, d', h, hanswer, hstep⟩
  · rw [hstep, executed?_of_ok hanswer]
    cases h with
    | rest halted =>
      cases hdecode : r.machine.decode r.machine.pc with
      | ok i => cases halted.symm.trans (Machine.isHalted_of_decode hdecode)
      | error e => exact .inr ⟨rfl, rfl, rfl, rfl⟩
    | skip running unknown =>
      rw [unknown]
      exact .inr ⟨rfl, rfl, rfl, rfl⟩
    | @perform i e _ running decoded performs =>
      rw [decoded]
      exact .inl ⟨i, e, d', rfl, performs, rfl⟩
  · rw [hstep]
    exact .inr ⟨executed?_of_error hanswer, rfl, rfl, rfl⟩

/-- **What every step appends, a run appends in order.** -/
theorem append_trail {α : Type} (content : Rig δ → List α) (added : Rig δ → Option α)
    (appends : ∀ r, content r.step = content r ++ (added r).toList) (r : Rig δ) (n : Nat) :
    content (r.after n) = content r ++ (r.trail n).filterMap added := by
  induction n with
  | zero => simp
  | succ n ih =>
    rw [after_succ, appends, ih, trail_succ, List.filterMap_append, List.append_assoc]
    cases h : added (r.after n) with
    | none => simp [h]
    | some a => simp [h]

end WordMachine.Rig
