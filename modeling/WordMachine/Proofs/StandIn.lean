import WordMachine.Proofs.Chunks
import WordMachine.Proofs.LogAccounting
import WordMachine.Proofs.Script

/-!
# Runs that stand for part of another

Of a run against a console, part of the input may come later, and part of the output may have been
taken away already. Such a console **stands for** one that has it all (`Console.StandsFor`), and a run
against it does part of what a run against the other does, with the same records:

* `Run.amid_of_unfinished` — if it does not end, it makes the first steps of the other run.
* `Run.amid_of_exhausted` — if it ends for want of input, it has made the first steps of the other run
  and traced the next one, which goes differently there.
* `Run.exists_of_ended` — otherwise, or if there is no more input to come, it ends as the other does.
-/

namespace WordMachine

/-! ### What is kept of the first steps -/

namespace Rig

variable {δ : Type} [Device δ]

/-- The records of the first steps that are kept. -/
def kept (keep : Record → Bool) (r : Rig δ) (n : Nat) : List Record :=
  ((r.trail n).flatMap log).filter keep

theorem kept_succ (keep : Record → Bool) (r : Rig δ) (n : Nat) :
    r.kept keep (n + 1) = r.kept keep n ++ (r.after n).log.filter keep := by
  rw [kept, trail_succ, List.flatMap_append, List.flatMap_singleton, List.filter_append]
  rfl

theorem kept_succ_left (keep : Record → Bool) (r : Rig δ) (n : Nat) :
    r.kept keep (n + 1) = r.log.filter keep ++ r.step.kept keep n := by
  rw [kept, trail_succ_left, List.flatMap_cons, List.filter_append]
  rfl

/-- **A run goes on where its first steps lead**, with their records in front. -/
theorem run_add (keep : Record → Bool) {r : Rig δ} {n : Nat}
    (running : ∀ k < n, (r.after k).answer = .ok .running) (fuel : Nat) :
    r.machine.run keep (n + fuel) r.device =
      ((r.after n).machine.run keep fuel (r.after n).device).behind n (r.kept keep n).toArray := by
  induction n generalizing r with
  | zero =>
    rw [Nat.zero_add, after_zero]
    simp [Run.behind, kept]
  | succ n ih =>
    have hfirst : r.answer = .ok .running := running 0 (Nat.succ_pos n)
    have hrest : ∀ k < n, (r.step.after k).answer = .ok .running := by
      intro k hk
      rw [← after_succ_left]
      exact running (k + 1) (Nat.succ_lt_succ hk)
    have hgo := ih hrest
    rw [Nat.add_right_comm, Machine.run_of_running (step_of_answer hfirst), kept_succ_left,
      after_succ_left, hgo, Run.behind_behind, Nat.add_comm 1 n, log]
    simp

theorem log_run (keep : Record → Bool) (fuel : Nat) (r : Rig δ) :
    (r.machine.run keep fuel r.device).log.toList =
      r.kept keep (r.machine.run keep fuel r.device).steps := by
  rw [Machine.run_eq_runUntil]
  exact Machine.log_runUntil keep _ fuel r.machine r.device

end Rig

/-! ### Consoles with something missing -/

/-- A console **stands for** another one that has on it also what was passed on before, and to read
also what is still to come. Neither has a limit. -/
structure Console.StandsFor (passed : Array UInt8) (coming : List UInt8) (c e : Console) : Prop where
  mode : e.mode = c.mode
  pending : e.pending = c.pending
  script : e.script = c.script
  source : e.source = c.source ++ coming
  written : e.sink.bytes = passed ++ c.sink.bytes
  unlimited : c.sink.Unlimited
  unlimited' : e.sink.Unlimited

namespace Console.StandsFor

variable {passed : Array UInt8} {coming : List UInt8} {c e : Console}

theorem bytes_after (h : StandsFor passed coming c e) (bytes : List UInt8) (n k : Nat) :
    (e.sink.after bytes n).bytes = passed ++ (c.sink.after bytes k).bytes := by
  rw [← Array.toList_inj, Sink.toList_after, h.written]
  simp

theorem output (h : StandsFor passed coming c e) (w : Word) :
    (c.output w).result = (e.output w).result ∧
      StandsFor passed coming (c.output w).device (e.output w).device := by
  cases hmode : c.mode with
  | interactive =>
    rw [output_interactive hmode h.unlimited,
      output_interactive (h.mode.trans hmode) h.unlimited']
    exact ⟨rfl, h.mode, h.pending, h.script, h.source, h.bytes_after _ 1 1, h.unlimited.after _ _,
      h.unlimited'.after _ _⟩
  | buffered =>
    rw [output_buffered hmode, output_buffered (h.mode.trans hmode), h.pending]
    exact ⟨rfl, h.mode, rfl, h.script, h.source, h.written, h.unlimited, h.unlimited'⟩

/-- Reading does not tell the two apart, unless the one has read all and there is more to come. -/
theorem input (h : StandsFor passed coming c e) (left : c.unread ≠ [] ∨ coming = []) :
    c.input.result = e.input.result ∧ StandsFor passed coming c.input.device e.input.device := by
  obtain ⟨mode, sink, pending, script, source⟩ := c
  obtain ⟨mode', sink', pending', script', source'⟩ := e
  obtain rfl : script' = script := h.script
  obtain rfl : source' = source ++ coming := h.source
  cases script' with
  | cons b script =>
    exact ⟨rfl, h.mode, h.pending, rfl, rfl, h.written, h.unlimited, h.unlimited'⟩
  | nil =>
    cases source with
    | cons b source =>
      exact ⟨rfl, h.mode, h.pending, rfl, rfl, h.written, h.unlimited, h.unlimited'⟩
    | nil =>
      obtain rfl : coming = [] := left.resolve_left (absurd rfl)
      exact ⟨rfl, h⟩

theorem covers (passed : Array UInt8) (coming : List UInt8) :
    Device.Covers (StandsFor passed coming) where
  output h w := h.output w
  input {c _} h more := by
    apply h.input
    left
    intro hnil
    apply more
    show c.input.result = .ok none
    rw [input_of_unread_nil hnil]

theorem alike (passed : Array UInt8) : Device.Alike (StandsFor passed []) where
  output h w := h.output w
  input h := h.input (.inr rfl)

/-- What is passed on is on the other console still. -/
theorem passOn (h : StandsFor passed coming c e) :
    StandsFor (passed ++ c.sink.bytes) coming { c with sink.bytes := #[] } e where
  mode := h.mode
  pending := h.pending
  script := h.script
  source := h.source
  written := h.written.trans Array.append_empty.symm
  unlimited := ⟨h.unlimited.room, h.unlimited.flushRoom⟩
  unlimited' := h.unlimited'

/-- When there is nothing left to read, some of the input comes. -/
theorem give {bytes : List UInt8} (h : StandsFor passed (bytes ++ coming) c e)
    (read : c.source = []) : StandsFor passed coming { c with source := bytes } e where
  mode := h.mode
  pending := h.pending
  script := h.script
  source := by
    rw [h.source, read]
    rfl
  written := h.written
  unlimited := h.unlimited
  unlimited' := h.unlimited'

end Console.StandsFor

/-! ### What is logged against consoles -/

/-- What a console reports when it is read depends on its script alone. -/
theorem Console.input_log_congr {c e : Console} (script : e.script = c.script) :
    e.input.log = c.input.log := by
  rw [input, input, script]
  cases c.script with
  | cons b script => rfl
  | nil =>
    cases c.source with
    | cons | nil =>
      cases e.source with
      | cons | nil => rfl

namespace Rig

variable {r s : Rig Console} {n : Nat}

theorem heard_congr (machine : r.machine = s.machine) (script : s.device.script = r.device.script) :
    r.heard = s.heard := by
  rw [heard, heard, machine]
  split
  · exact (Console.output_log _ _).trans (Console.output_log _ _).symm
  · exact (Console.input_log_congr script).symm
  · rfl

/-- A step logs the same if it leads to the same machine and the console has the same script. -/
theorem log_congr (machine : r.machine = s.machine) (script : s.device.script = r.device.script)
    (after : r.step.machine = s.step.machine) : r.log = s.log := by
  obtain ⟨opening, hopening⟩ := r.machine.exists_reports
  have hr : r.log = opening ++ r.heard ++ r.closing := hopening.log_eq r.device
  rw [machine] at hopening
  have hs : s.log = opening ++ s.heard ++ s.closing := hopening.log_eq s.device
  rw [hr, hs, heard_congr machine script, closing, closing, machine, after]

/-- What a step logs that fails for want of input is its trace. -/
theorem log_of_exhausted {f : Fault} (h : r.answer = .error f) (hf : f.cause = .inputExhausted) :
    ∃ t, r.log = [.trace t] := by
  obtain ⟨m, c⟩ := r
  obtain ⟨hread, hstays⟩ := step_of_exhausted h hf
  have hclosing : closing ⟨m, c⟩ = [] := by
    apply closing_eq_nil
    rw [h]
    simp
  have hfails : m.Fails c f (m.step c).device := Machine.fails_of_error h
  generalize (m.step c).device = c' at hfails
  cases hfails with
  | decode running refused => exact absurd hf (Machine.decode_error_ne refused).1
  | action running decoded refused =>
    cases hf
    cases Machine.action_eq_error_iff.1 refused
  | output | input => cases hf
  | @exhausted i dst running decoded action nothing =>
    have hyields := Machine.action_eq_ok_iff.1 action
    cases hyields with
    | inp =>
      have hheard : heard ⟨m, c⟩ = [] := by
        rw [heard, decoded]
        show c.input.log = []
        rw [Console.input_of_unread_nil hread]
      rw [log_of_decode decoded, hheard, hclosing, if_neg (by simp)]
      exact ⟨_, rfl⟩

/-- As long as one console stands for another, the same is kept. -/
theorem kept_congr {passed : Array UInt8} {coming : List UInt8} (keep : Record → Bool)
    (before : ∀ k < n, (r.after k).Related (Console.StandsFor passed coming) (s.after k))
    (last : (r.after n).machine = (s.after n).machine) : r.kept keep n = s.kept keep n := by
  induction n with
  | zero => rfl
  | succ n ih =>
    have hn := before n (Nat.lt_succ_self n)
    rw [kept_succ, kept_succ, ih (fun k hk => before k (Nat.lt_succ_of_lt hk)) hn.machine,
      log_congr hn.machine hn.device.script last]

end Rig

/-! ### Runs that stand for part of another -/

section

variable {passed : Array UInt8} {coming : List UInt8} {r s : Rig Console} {fuel : Nat} {f : Fault}
  {run : Run Console}

/-- A run that does not end makes the first steps of the other one. -/
theorem Run.amid_of_unfinished (h : r.Related (Console.StandsFor passed coming) s)
    {keep : Record → Bool} (hrun : r.machine.run keep fuel r.device = run)
    (unfinished : run.outcome = .unfinished) :
    (∀ k < fuel, (s.after k).answer = .ok .running) ∧ run.log.toList = s.kept keep fuel ∧
      run.rig.Related (Console.StandsFor passed coming) (s.after fuel) := by
  subst hrun
  obtain ⟨all, hsteps, hrig⟩ :=
    (Machine.run_follows keep fuel r.machine r.device).of_unfinished unfinished
  have hcovers := Console.StandsFor.covers passed coming
  have hafter {n : Nat} (hn : n ≤ fuel) := h.after_covers hcovers (n := n) fun k hk =>
    (all k (Nat.lt_of_lt_of_le hk hn)).1
  refine ⟨(hafter (Nat.le_refl fuel)).2, ?_, ?_⟩
  · rw [r.log_run, hsteps]
    exact Rig.kept_congr keep (fun k hk => (hafter (Nat.le_of_lt hk)).1)
      (hafter (Nat.le_refl fuel)).1.machine
  · rw [hrig]
    exact (hafter (Nat.le_refl fuel)).1

/-- A run that ends for want of input has made the first steps of the other one, and then traced the
instruction that wants input. -/
theorem Run.amid_of_exhausted (h : r.Related (Console.StandsFor passed coming) s)
    {keep : Record → Bool} (hrun : r.machine.run keep fuel r.device = run)
    (faulted : run.outcome = .faulted f) (exhausted : f.cause = .inputExhausted) :
    ∃ n t, (∀ k < n, (s.after k).answer = .ok .running) ∧
      run.log.toList = s.kept keep n ++ [Record.trace t].filter keep ∧ run.device.unread = [] ∧
      run.rig.Related (Console.StandsFor passed coming) (s.after n) := by
  subst hrun
  obtain ⟨before, failing, hrig⟩ :=
    (Machine.run_follows keep fuel r.machine r.device).of_faulted faulted
  obtain ⟨hread, hstays⟩ := Rig.step_of_exhausted failing exhausted
  obtain ⟨t, hlog⟩ := Rig.log_of_exhausted failing exhausted
  have hsteps : (r.machine.run keep fuel r.device).steps =
      (r.machine.run keep fuel r.device).tries + 1 := by
    rw [Run.steps, faulted]
    rfl
  rw [Rig.after_succ, hstays] at hrig
  generalize (r.machine.run keep fuel r.device).tries = n at *
  have hcovers := Console.StandsFor.covers passed coming
  have hafter {k : Nat} (hk : k ≤ n) := h.after_covers hcovers (n := k) fun j hj =>
    (before j (Nat.lt_of_lt_of_le hj hk)).1
  refine ⟨n, t, (hafter (Nat.le_refl n)).2, ?_, ?_, ?_⟩
  · rw [r.log_run, hsteps, Rig.kept_succ, hlog, Rig.kept_congr keep
      (fun k hk => (hafter (Nat.le_of_lt hk)).1) (hafter (Nat.le_refl n)).1.machine]
  · rw [← hrig] at hread
    exact hread
  · rw [hrig]
    exact (hafter (Nat.le_refl n)).1

/-- If both runs end with the same step, they keep the same. -/
theorem Run.log_eq_of_related (h : r.Related (Console.StandsFor passed coming) s)
    {keep : Record → Bool} (hrun : r.machine.run keep fuel r.device = run) {fuel' : Nat}
    {run' : Run Console} (hrun' : s.machine.run keep fuel' s.device = run')
    (hsteps : run'.steps = run.steps)
    (hrelated : run.rig.Related (Console.StandsFor passed coming) run'.rig) :
    run'.log = run.log := by
  subst hrun hrun'
  have hfollows := Machine.run_follows keep fuel r.machine r.device
  have hfollows' := Machine.run_follows keep fuel' s.machine s.device
  have hbefore : ∀ k < (r.machine.run keep fuel r.device).steps,
      (r.after k).Related (Console.StandsFor passed coming) (s.after k) := by
    intro k hk
    refine (h.after_covers (Console.StandsFor.covers passed coming) fun j hj => ?_).1
    rcases hfollows.answer_cases (Nat.lt_trans hj hk) with hrunning | ⟨hlast, -⟩
    · exact hrunning
    · omega
  have hmachine := hrelated.machine
  rw [hfollows.rig_eq, hfollows'.rig_eq, hsteps] at hmachine
  rw [← Array.toList_inj, r.log_run, s.log_run, hsteps]
  exact (Rig.kept_congr keep hbefore hmachine).symm

/-- A run that ends otherwise, or when there is no more input to come, ends like the other one. -/
theorem Run.exists_of_ended (h : r.Related (Console.StandsFor passed coming) s)
    {keep : Record → Bool} (hrun : r.machine.run keep fuel r.device = run)
    (ended : run.outcome ≠ .unfinished)
    (last : coming = [] ∨ ∀ f, run.outcome = .faulted f → f.cause ≠ .inputExhausted) :
    ∃ fuel', ∀ run', s.machine.run keep fuel' s.device = run' →
      run'.outcome = run.outcome ∧ run'.log = run.log ∧
        run.rig.Related (Console.StandsFor passed coming) run'.rig := by
  have same {fuel' : Nat} {run' : Run Console} (hrun' : s.machine.run keep fuel' s.device = run')
      (houtcome : run'.outcome = run.outcome) (htries : run'.tries = run.tries)
      (hrelated : run.rig.Related (Console.StandsFor passed coming) run'.rig) :
      run'.log = run.log := by
    apply Run.log_eq_of_related h hrun hrun' _ hrelated
    rw [Run.steps, Run.steps, houtcome, htries]
  rcases last with rfl | hlast
  · -- with the same to read, the runs cannot be told apart
    obtain ⟨houtcome, htries, hrelated⟩ := h.run (Console.StandsFor.alike passed) keep keep fuel
    rw [hrun] at houtcome htries hrelated
    refine ⟨fuel, ?_⟩
    rintro run' rfl
    exact ⟨houtcome.symm, same rfl houtcome.symm htries.symm hrelated, hrelated⟩
  · rw [← hrun] at ended hlast
    obtain ⟨s', hend, hgoes⟩ :=
      (runsTo_of_run ended).covers (Console.StandsFor.covers passed coming) h hlast
    rw [hrun] at hend hgoes
    obtain ⟨fuel', houtcome, htries, hmachine, hdevice⟩ := hgoes.exists_run keep
    refine ⟨fuel', ?_⟩
    rintro run' rfl
    have hrig : (s.machine.run keep fuel' s.device).rig = s' := by
      rw [Run.rig, hmachine, hdevice]
    rw [← hrig] at hend
    exact ⟨houtcome, same rfl houtcome htries hend, hend⟩

end

end WordMachine
