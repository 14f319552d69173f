import WordMachine.Proofs.Halting
import WordMachine.Proofs.Policy

/-!
# The log of a step

What a step logs begins with what the machine has to report before it does anything
(`Machine.Reports`). Then comes what the device has to report, if it is called (`Rig.heard`), and last
that the machine has halted, if now it has (`Rig.closing`). `Machine.Reports.log_eq` says that this is
all.

`Muted` is a device that passes its calls on and reports nothing. A machine cannot tell it from the
device itself, so what is logged with it (`Rig.report`) is what the machine has to report.

* `Machine.warning?` — the warning among it, which there is if a word is skipped.
* `Machine.begins` — whether it tells where the step begins, by a trace or by a warning.
* `Rig.closing_of_halted`, `Rig.halted_not_mem_report` — it says that the machine has halted just if
  the step answers so.
-/

namespace WordMachine

/-! ### Devices that are muted -/

/-- A device that passes calls on and reports nothing. -/
structure Muted (δ : Type) where
  device : δ

instance {δ : Type} [Device δ] : Device (Muted δ) where
  output s w :=
    let reply := Device.output s.device w
    ⟨reply.result, ⟨reply.device⟩, []⟩
  input s :=
    let reply : Reply δ (Option Word) := Device.input s.device
    ⟨reply.result, ⟨reply.device⟩, []⟩

/-- A machine cannot tell whether its device is muted. -/
theorem Muted.alike {δ : Type} [Device δ] :
    Device.Alike (fun (s : Muted δ) (d : δ) => s.device = d) where
  output := by
    rintro s d rfl w
    exact ⟨rfl, rfl⟩
  input := by
    rintro s d rfl
    exact ⟨rfl, rfl⟩

namespace Machine

/-! ### What a machine reports -/

/-- What a machine reports before it does anything in a step. It reports nothing if it has halted, or
if it fails because there is no instruction to read. Of a word that it skips it reports which word and
where, and of an instruction the whole state that it finds, and besides if it returns with an empty
stack. -/
inductive Reports (m : Machine) : List Record → Prop
  | rest (halted : m.isHalted = true) : Reports m []
  | refused {e} (running : m.isHalted = false) (refused : m.decode m.pc = .error e)
      (strict : ∀ w, e = .unknownOpcode w → m.policy = .fault) : Reports m []
  | skip {w} (unknown : m.decode m.pc = .error (.unknownOpcode w)) (lenient : m.policy = .skip) :
      Reports m [.unknownOpcode w m.pc]
  | instruction {i} (decoded : m.decode m.pc = .ok i) (usual : ¬ (i = .ret ∧ m.stack.depth = 0)) :
      Reports m [.trace (m.trace i)]
  | emptyReturn (decoded : m.decode m.pc = .ok .ret) (empty : m.stack.depth = 0) :
      Reports m [.trace (m.trace .ret), .emptyReturn]

/-- The word that a machine skips, with its address. -/
def skips? (m : Machine) : Option (Word × Word) :=
  match m.decode m.pc with
  | .error (.unknownOpcode w) => if m.policy = .skip then some (w, m.pc) else none
  | _ => none

/-- The warning of a word that is skipped. -/
def warning? (m : Machine) : Option Record :=
  m.skips?.map fun (word, address) => .unknownOpcode word address

variable {δ : Type} [Device δ] {m m' : Machine} {d d' : δ} {i : Instruction}

/-- A machine that has halted reads no instruction, and no word that could be skipped. -/
theorem decode_of_isHalted (halted : m.isHalted = true) :
    ∃ e, m.decode m.pc = .error e ∧ ∀ w, e = .unknownOpcode w → m.policy = .fault := by
  cases decoded : m.decode m.pc with
  | ok i => cases halted.symm.trans (isHalted_of_decode decoded)
  | error e =>
    refine ⟨e, rfl, ?_⟩
    rintro w rfl
    cases halted.symm.trans (decode_eq_unknown_iff.1 decoded).isHalted_eq

theorem warning?_eq_none
    (strict : ∀ w, m.decode m.pc = .error (.unknownOpcode w) → m.policy = .fault) :
    m.warning? = none := by
  rw [warning?, Option.map_eq_none_iff, skips?]
  split
  · next w unknown => simp [strict w unknown]
  · rfl

theorem warning?_of_atUnknown {w : Word} (h : m.AtUnknown w) (lenient : m.policy = .skip) :
    m.warning? = some (.unknownOpcode w m.pc) := by
  rw [warning?, skips?, decode_eq_unknown_iff.2 h]
  simp [lenient]

/-- There is a rule for every machine. -/
theorem exists_reports (m : Machine) : ∃ opening, m.Reports opening := by
  cases running : m.isHalted with
  | true => exact ⟨_, .rest running⟩
  | false =>
    cases decoded : m.decode m.pc with
    | ok i =>
      by_cases usual : i = .ret ∧ m.stack.depth = 0
      · obtain ⟨rfl, empty⟩ := usual
        exact ⟨_, .emptyReturn decoded empty⟩
      · exact ⟨_, .instruction decoded usual⟩
    | error e =>
      rcases m.lenient_or_strict e with ⟨w, rfl, lenient⟩ | strict
      · exact ⟨_, .skip decoded lenient⟩
      · exact ⟨_, .refused running decoded strict⟩

/-- An effect is reported only if it is a return with an empty stack. -/
theorem Yields.log_eq {e : Effect} (h : m.Yields i (.effect e)) :
    e.log = if i = .ret ∧ m.stack.depth = 0 then [.emptyReturn] else [] := by
  cases h with
  | ret top =>
    rw [if_neg]
    · rfl
    · rintro ⟨-, empty⟩
      cases top.symm.trans (Stack.top?_eq_none_iff.2 empty)
  | ret_empty top => exact (if_pos ⟨rfl, Stack.top?_eq_none_iff.1 top⟩).symm
  | _ => exact (if_neg (by simp)).symm

end Machine

namespace Rig

variable {δ : Type} [Device δ] {r : Rig δ} {m m' : Machine} {d d' : δ} {i : Instruction}
  {records : List Record}

/-- What a step logs. -/
def log (r : Rig δ) : List Record := (r.machine.step r.device).log

/-- What the device reports in a step, if it is called. -/
def heard (r : Rig δ) : List Record :=
  match r.machine.decode r.machine.pc with
  | .ok (.out a) => (Device.output r.device (r.machine.value a)).log
  | .ok (.inp _) => (Device.input r.device).log
  | _ => []

/-- What a machine reports at the end of a step: that it has halted, if it has done so in the step. -/
def closing (r : Rig δ) : List Record :=
  if r.machine.isHalted = false ∧ r.step.machine.isHalted = true then [.halted] else []

theorem heard_of_decode_error {e : Error} (h : r.machine.decode r.machine.pc = .error e) :
    r.heard = [] := by
  rw [heard, h]

theorem heard_of_action (decoded : r.machine.decode r.machine.pc = .ok i)
    (noOutput : ∀ v, r.machine.action i ≠ .ok (.output v))
    (noInput : ∀ dst, r.machine.action i ≠ .ok (.input dst)) : r.heard = [] := by
  rw [heard, decoded]
  cases i with
  | out a => exact absurd rfl (noOutput _)
  | inp dst => exact absurd rfl (noInput dst)
  | _ => rfl

theorem log_of_settle (running : m.isHalted = false) (h : m.step d = m'.settle d' records) :
    log ⟨m, d⟩ = records ++ closing ⟨m, d⟩ := by
  obtain ⟨log', hsettle⟩ := Machine.settle_eq m' d' records
  have hstep : (step ⟨m, d⟩).machine = m' := by rw [step, h, hsettle]
  rw [log, h, Machine.log_settle, closing, hstep]
  simp [running]

theorem log_of_fail {opcode : Option Opcode} {e : Error} (running : m.isHalted = false)
    (h : m.step d = m.fail opcode e d' records) : log ⟨m, d⟩ = records ++ closing ⟨m, d⟩ := by
  have hstep : (step ⟨m, d⟩).machine = m := by rw [step, h, Machine.fail]
  rw [log, h, Machine.fail, closing, hstep]
  simp [running]

/-- What is logged of an instruction besides its trace. -/
theorem log_of_decode (decoded : m.decode m.pc = .ok i) :
    log ⟨m, d⟩ = .trace (m.trace i) ::
      (if i = .ret ∧ m.stack.depth = 0 then [.emptyReturn] else []) ++
        heard ⟨m, d⟩ ++ closing ⟨m, d⟩ := by
  have running := Machine.isHalted_of_decode decoded
  have hstep : m.step d = m.execute i d := Machine.step_of_decode running decoded
  cases action : m.action i with
  | error e =>
    have hheard : heard ⟨m, d⟩ = [] := by
      apply heard_of_action decoded
      all_goals simp [action]
    have usual : ¬ (i = .ret ∧ m.stack.depth = 0) := by
      rintro ⟨rfl, empty⟩
      cases (Machine.Yields.ret_empty (Stack.top?_eq_none_iff.2 empty)).action_eq.symm.trans action
    simp only [Machine.execute, action] at hstep
    rw [log_of_fail running hstep, hheard, if_neg usual]
    rfl
  | ok a =>
    have hyields := Machine.action_eq_ok_iff.1 action
    cases a with
    | effect e =>
      have hheard : heard ⟨m, d⟩ = [] := by
        apply heard_of_action decoded
        all_goals simp [action]
      simp only [Machine.execute, action] at hstep
      rw [log_of_settle running hstep, hheard, hyields.log_eq, List.append_nil]
    | output v =>
      cases hyields with
      | @out a =>
        have hheard : heard ⟨m, d⟩ = (Device.output d (m.value a)).log := by
          simp only [heard, decoded]
        simp only [Machine.execute, action] at hstep
        rw [hheard, if_neg (by simp)]
        cases result : (Device.output d (m.value a)).result with
        | error c =>
          rw [result] at hstep
          exact log_of_fail running hstep
        | ok u =>
          rw [result] at hstep
          exact log_of_settle running hstep
    | input dst =>
      cases hyields with
      | inp =>
        have hheard : heard ⟨m, d⟩ = (Device.input d).log := by
          simp only [heard, decoded]
        simp only [Machine.execute, action] at hstep
        rw [hheard, if_neg (by simp)]
        rcases result : (Device.input d).result with c | - | w
        · rw [result] at hstep
          exact log_of_fail running hstep
        · rw [result] at hstep
          exact log_of_fail running hstep
        · rw [result] at hstep
          exact log_of_settle running hstep

end Rig

/-- **What a step logs**: what the machine reports, then what its device reports, and last whether the
machine has halted. -/
theorem Machine.Reports.log_eq {δ : Type} [Device δ] {m : Machine} {opening : List Record}
    (h : m.Reports opening) (d : δ) :
    Rig.log ⟨m, d⟩ = opening ++ Rig.heard ⟨m, d⟩ ++ Rig.closing ⟨m, d⟩ := by
  cases h with
  | rest halted =>
    obtain ⟨e, refused, -⟩ := decode_of_isHalted halted
    rw [Rig.heard_of_decode_error refused, Rig.log, (atRest_of_isHalted halted).step, Rig.closing]
    simp [halted]
  | @refused e running refused strict =>
    have hstep : m.step d = m.fail m.opcode? e d [] := step_of_refused running refused strict
    rw [Rig.heard_of_decode_error refused, Rig.log_of_fail running hstep, List.append_nil]
  | @skip w unknown lenient =>
    have running := (decode_eq_unknown_iff.1 unknown).isHalted_eq
    have hstep : m.step d = m.skip w d := step_of_unknown running unknown lenient
    rw [Rig.heard_of_decode_error unknown, Rig.log_of_settle running hstep, List.append_nil]
  | instruction decoded usual => rw [Rig.log_of_decode decoded, if_neg usual]
  | emptyReturn decoded empty => rw [Rig.log_of_decode decoded, if_pos ⟨rfl, empty⟩]

namespace Machine.Reports

variable {m : Machine} {opening : List Record}

/-- The warnings among what is reported. -/
theorem filter_warn (h : m.Reports opening) :
    opening.filter (·.level = .warn) = m.warning?.toList := by
  cases h with
  | rest halted =>
    rw [warning?_eq_none]
    · rfl
    · intro w unknown
      cases halted.symm.trans (decode_eq_unknown_iff.1 unknown).isHalted_eq
  | refused running refused strict =>
    rw [warning?_eq_none]
    · rfl
    · intro w unknown
      exact strict w (Except.error.inj (refused.symm.trans unknown))
  | skip unknown lenient =>
    rw [warning?_of_atUnknown (decode_eq_unknown_iff.1 unknown) lenient]
    rfl
  | instruction decoded | emptyReturn decoded =>
    rw [warning?_eq_none]
    · rfl
    · intro w unknown
      cases decoded.symm.trans unknown

theorem origin_eq (h : m.Reports opening) : ∀ e ∈ opening, e.origin = .machine := by
  cases h with
  | _ => simp [Record.origin]

/-- If a machine reports nothing before it does anything, then it does nothing. -/
theorem step_eq {δ : Type} [Device δ] (h : m.Reports []) (d : δ) : Rig.step ⟨m, d⟩ = ⟨m, d⟩ := by
  cases h with
  | rest halted => rw [Rig.step, (atRest_of_isHalted halted).step]
  | refused running refused strict => exact (Rig.step_of_fails (.decode running refused strict)).2

end Machine.Reports

namespace Rig

variable {δ : Type} [Device δ] {r : Rig δ} {opening : List Record}

/-! ### The device muted -/

/-- The same machine with its device muted. -/
def muted (r : Rig δ) : Rig (Muted δ) := ⟨r.machine, ⟨r.device⟩⟩

/-- What a step logs apart from what the device has to report. -/
def report (r : Rig δ) : List Record := r.muted.log

omit [Device δ] in
theorem muted_related (r : Rig δ) : r.muted.Related (fun s d => s.device = d) r := ⟨rfl, rfl⟩

theorem step_muted (r : Rig δ) : r.muted.step = r.step.muted := by
  have h := r.muted_related.step Muted.alike
  show r.muted.step = ⟨r.step.machine, ⟨r.step.device⟩⟩
  rw [← h.machine, ← h.device]

theorem closing_muted (r : Rig δ) : r.muted.closing = r.closing := by
  rw [closing, step_muted]
  rfl

theorem heard_muted (r : Rig δ) : r.muted.heard = [] := by
  rw [heard]
  split
  · rfl
  · rfl
  · rfl

theorem report_eq (h : r.machine.Reports opening) : r.report = opening ++ r.closing := by
  have hlog : r.muted.log = opening ++ r.muted.heard ++ r.muted.closing := h.log_eq _
  rw [report, hlog, heard_muted, closing_muted, List.append_nil]

theorem origin_of_mem_report (r : Rig δ) : ∀ e ∈ r.report, e.origin = .machine := by
  obtain ⟨opening, hopening⟩ := r.machine.exists_reports
  have hclosing : ∀ e ∈ r.closing, e.origin = .machine := by
    rw [closing]
    split
    · simp [Record.origin]
    · exact List.forall_mem_nil _
  rw [report_eq hopening]
  exact List.forall_mem_append.2 ⟨hopening.origin_eq, hclosing⟩

/-! ### Warnings -/

theorem filter_warn_report (r : Rig δ) :
    r.report.filter (·.level = .warn) = r.machine.warning?.toList := by
  obtain ⟨opening, hopening⟩ := r.machine.exists_reports
  have hclosing : r.closing.filter (·.level = .warn) = [] := by
    rw [closing]
    split
    · rfl
    · rfl
  rw [report_eq hopening, List.filter_append, hopening.filter_warn, hclosing, List.append_nil]

theorem skipped_step_eq (r : Rig δ) :
    r.step.machine.skipped = r.machine.skipped + r.machine.warning?.toList.length := by
  rcases r.step_cases with ⟨m', d', h, -, hstep⟩ | ⟨f, d', h, -, hstep⟩
  · rw [hstep]
    rcases h.skipped_eq with ⟨hskipped, known⟩ | ⟨hskipped, lenient, w, unknown⟩
    · rw [Machine.warning?_eq_none]
      · exact hskipped
      · intro w unknown
        exact absurd (Machine.decode_eq_unknown_iff.1 unknown) (known w)
    · rw [Machine.warning?_of_atUnknown unknown lenient]
      exact hskipped
  · rw [hstep, Machine.warning?_eq_none]
    · rfl
    · intro w unknown
      exact h.policy_eq_of_atUnknown (Machine.decode_eq_unknown_iff.1 unknown)

/-! ### Where steps begin -/

theorem closing_of_halted (running : r.machine.isHalted = false) (h : r.answer = .ok .halted) :
    r.closing = [.halted] :=
  if_pos ⟨running, (isHalted_step_iff running).2 h⟩

theorem closing_eq_nil (h : r.answer ≠ .ok .halted) : r.closing = [] := by
  apply if_neg
  rintro ⟨running, halted⟩
  exact h ((isHalted_step_iff running).1 halted)

end Rig

end WordMachine
