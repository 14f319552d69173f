import WordMachine.Proofs.Run

/-!
# Runs by their steps

How a run goes is told by the steps that it makes: all of them go on until one ends the run, or the
fuel is used up. Where `RunsTo` has a rule for each step, here the steps are counted, and runs that
do not end are among them.

* `runUntil_of_error`, `runUntil_of_halted`, `runUntil_of_hit`, `runUntil_of_missed` — a run by its
  first step, for proofs by induction on the fuel; what is left of a run is a run of its own, with
  something in front (`Run.behind`).
* `Run.steps` — how many steps a run has made: one for every time that the condition was tried, and
  another if the run has halted or failed.
* `Run.Follows` — a run as the steps of `Rig.after` tell it; `runUntil_follows` says that every run
  is of this kind.
* `runUntil_of_le` — more fuel changes nothing about a run that has ended.
-/

namespace WordMachine

/-! ### The steps of a run, and what is in front of it -/

/-- How many steps a run ends with for which the condition for stopping is not tried: a step that
halts the machine or fails is one. -/
def Outcome.untried : Outcome → Nat
  | .halted | .faulted _ => 1
  | .stopped | .unfinished => 0

theorem Outcome.untried_le_one (o : Outcome) : o.untried ≤ 1 := by
  cases o with
  | halted | faulted => exact Nat.le_refl 1
  | stopped | unfinished => exact Nat.zero_le 1

namespace Run

variable {δ : Type}

/-- A run seen from before it: some tries were made already and some records kept. -/
def behind (run : Run δ) (tries : Nat) (log : Array Record) : Run δ :=
  { run with tries := tries + run.tries, log := log ++ run.log }

theorem behind_behind (run : Run δ) (n k : Nat) (log log' : Array Record) :
    (run.behind k log').behind n log = run.behind (n + k) (log ++ log') := by
  simp only [behind, Nat.add_assoc, Array.append_assoc]

/-- How many steps a run has made. -/
def steps (run : Run δ) : Nat := run.tries + run.outcome.untried

theorem steps_behind (run : Run δ) (log : Array Record) :
    (run.behind 1 log).steps = run.steps + 1 := by
  rw [steps, steps, behind, Nat.add_comm 1, Nat.add_right_comm]

end Run

/-- With devices that answer alike, runs make the same number of steps, whatever is kept. -/
theorem Rig.Related.steps_eq {δ ε : Type} [Device δ] [Device ε] {R : δ → ε → Prop} (hR : Device.Alike R)
    {r : Rig δ} {s : Rig ε} (h : r.Related R s) (keep keep' : Record → Bool)
    (stop : Machine → Nat → Bool) (fuel : Nat) :
    (r.machine.runUntil keep stop fuel r.device).steps =
      (s.machine.runUntil keep' stop fuel s.device).steps := by
  obtain ⟨houtcome, htries, -⟩ := h.runFrom hR keep keep' stop fuel 0 #[] #[]
  rw [Run.steps, Run.steps, Machine.runUntil, Machine.runUntil, htries, houtcome]

namespace Machine

variable {δ : Type} [Device δ] {keep : Record → Bool} {stop : Machine → Nat → Bool} {fuel n : Nat}
  {m m' : Machine} {d d' : δ} {records : List Record}

omit [Device δ] in
theorem append_list_eq (log : Array Record) (records : List Record) :
    log ++ records = log ++ records.toArray := by
  rw [← Array.toList_inj]
  simp

/-- **A run that goes on from a count is one from the start**, with a condition that counts on. -/
theorem runFrom_eq (keep : Record → Bool) (stop : Machine → Nat → Bool) (fuel n : Nat)
    (log : Array Record) (m : Machine) (d : δ) :
    m.runFrom keep stop fuel n log d =
      (m.runUntil keep (fun m i => stop m (n + i)) fuel d).behind n log := by
  induction fuel generalizing stop n log m d with
  | zero => simp [runUntil, runFrom, Run.behind]
  | succ fuel ih =>
    rw [runUntil, runFrom, runFrom]
    rcases m.step d with ⟨result, m', d', records⟩
    cases result with
    | error f => simp [Run.behind, append_list_eq]
    | ok status =>
      cases status with
      | halted => simp [Run.behind, append_list_eq]
      | running =>
        by_cases hit : stop m' (n + 1) = true
        · simp [hit, Run.behind, append_list_eq]
        · simp only [hit, Bool.false_eq_true, if_false, Nat.zero_add]
          rw [ih, ih (fun m i => stop m (n + i)), Run.behind_behind]
          simp only [Nat.add_assoc, Array.appendList_eq_append, append_list_eq, Array.empty_append]

/-! ### Runs by their first step -/

theorem runUntil_of_error {f : Fault} (h : m.step d = ⟨.error f, m', d', records⟩) :
    m.runUntil keep stop (fuel + 1) d =
      ⟨.faulted f, 0, m', d', (records.filter keep).toArray⟩ := by
  rw [runUntil, runFrom, h]
  simp

theorem runUntil_of_halted (h : m.step d = ⟨.ok .halted, m', d', records⟩) :
    m.runUntil keep stop (fuel + 1) d = ⟨.halted, 0, m', d', (records.filter keep).toArray⟩ := by
  rw [runUntil, runFrom, h]
  simp

theorem runUntil_of_hit (h : m.step d = ⟨.ok .running, m', d', records⟩) (hit : stop m' 1 = true) :
    m.runUntil keep stop (fuel + 1) d = ⟨.stopped, 1, m', d', (records.filter keep).toArray⟩ := by
  rw [runUntil, runFrom, h]
  simp [hit]

theorem runUntil_of_missed (h : m.step d = ⟨.ok .running, m', d', records⟩)
    (missed : stop m' 1 = false) :
    m.runUntil keep stop (fuel + 1) d =
      (m'.runUntil keep (fun m i => stop m (1 + i)) fuel d').behind 1
        (records.filter keep).toArray := by
  rw [runUntil, runFrom, h]
  simp only [Nat.zero_add, missed, Bool.false_eq_true, if_false]
  rw [runFrom_eq, Array.appendList_eq_append, append_list_eq, Array.empty_append]

/-- A run that has ended needs no more fuel. -/
theorem runUntil_of_le {fuel' : Nat} (ended : (m.runUntil keep stop fuel d).outcome ≠ .unfinished)
    (h : fuel ≤ fuel') : m.runUntil keep stop fuel' d = m.runUntil keep stop fuel d := by
  induction fuel generalizing fuel' stop m d with
  | zero => exact absurd rfl ended
  | succ fuel ih =>
    obtain ⟨fuel', rfl⟩ := Nat.exists_eq_add_of_le' (Nat.le_trans (Nat.le_add_left 1 fuel) h)
    rcases hs : m.step d with ⟨result, m', d', records⟩
    cases result with
    | error f => rw [runUntil_of_error hs, runUntil_of_error hs]
    | ok status =>
      cases status with
      | halted => rw [runUntil_of_halted hs, runUntil_of_halted hs]
      | running =>
        cases tried : stop m' 1 with
        | true => rw [runUntil_of_hit hs tried, runUntil_of_hit hs tried]
        | false =>
          rw [runUntil_of_missed hs tried] at ended
          rw [runUntil_of_missed hs tried, runUntil_of_missed hs tried, ih ended (by omega)]

end Machine

/-! ### Where runs end -/

namespace Rig

variable {δ : Type} [Device δ]

/-- After `k` steps a run goes on with another one: that leaves the machine running, and the
condition does not hold then. Whether it holds after the `i`-th step is told by `holds i`. -/
def GoesOn (holds : Nat → Bool) (r : Rig δ) (k : Nat) : Prop :=
  (r.after k).answer = .ok .running ∧ holds (k + 1) = false

/-- The ways in which a run ends with the step that comes after `k` others, and how often the
condition was tried by then. -/
inductive EndsAt (holds : Nat → Bool) (r : Rig δ) (k : Nat) : Outcome → Nat → Prop
  | faulted {f} (failing : (r.after k).answer = .error f) : EndsAt holds r k (.faulted f) k
  | halted (last : (r.after k).answer = .ok .halted) : EndsAt holds r k .halted k
  | stopped (running : (r.after k).answer = .ok .running) (hit : holds (k + 1) = true) :
    EndsAt holds r k .stopped (k + 1)

variable {holds : Nat → Bool} {r : Rig δ}

theorem goesOn_succ_iff {k : Nat} :
    r.GoesOn holds (k + 1) ↔ r.step.GoesOn (fun i => holds (1 + i)) k := by
  rw [GoesOn, GoesOn, after_succ_left, Nat.add_comm 1 (k + 1)]

theorem EndsAt.succ {k n : Nat} {o : Outcome} (h : r.step.EndsAt (fun i => holds (1 + i)) k o n) :
    r.EndsAt holds (k + 1) o (1 + n) := by
  rw [Nat.add_comm 1 n]
  cases h with
  | faulted failing =>
    rw [← after_succ_left] at failing
    exact .faulted failing
  | halted last =>
    rw [← after_succ_left] at last
    exact .halted last
  | stopped running hit =>
    rw [← after_succ_left] at running
    rw [Nat.add_comm 1 (k + 1)] at hit
    exact .stopped running hit

end Rig

/-- **How a run goes**, told by the steps of a rig: all go on until one ends the run, unless the
fuel is used up before. -/
inductive Run.Follows {δ : Type} [Device δ] (run : Run δ) (holds : Nat → Bool) (r : Rig δ)
    (fuel : Nat) : Prop
  | ended {k : Nat} (inside : k < fuel) (before : ∀ j < k, r.GoesOn holds j)
    (last : r.EndsAt holds k run.outcome run.tries) (rig : run.rig = r.after (k + 1))
  | unfinished (all : ∀ j < fuel, r.GoesOn holds j) (outcome : run.outcome = .unfinished)
    (tries : run.tries = fuel) (rig : run.rig = r.after fuel)

namespace Run.Follows

variable {δ : Type} [Device δ] {run : Run δ} {holds : Nat → Bool} {r : Rig δ} {fuel : Nat}

/-- A step that goes on may come before a run. -/
theorem behind (h : run.Follows (fun i => holds (1 + i)) r.step fuel) (first : r.GoesOn holds 0)
    (log : Array Record) : (run.behind 1 log).Follows holds r (fuel + 1) := by
  have before {k : Nat} (hk : ∀ j < k, r.step.GoesOn (fun i => holds (1 + i)) j) :
      ∀ j < k + 1, r.GoesOn holds j := by
    intro j hj
    cases j with
    | zero => exact first
    | succ j => exact Rig.goesOn_succ_iff.2 (hk j (by omega))
  cases h with
  | ended inside hbefore last rig =>
    refine .ended (Nat.succ_lt_succ inside) (before hbefore) last.succ ?_
    rw [Rig.after_succ_left]
    exact rig
  | unfinished all outcome tries rig =>
    refine .unfinished (before all) outcome ?_ ?_
    · rw [Run.behind, tries, Nat.add_comm]
    · rw [Rig.after_succ_left]
      exact rig

/-- **A run leads where its steps lead.** -/
theorem rig_eq (h : run.Follows holds r fuel) : run.rig = r.after run.steps := by
  cases h with
  | @ended k inside before last rig =>
    rw [rig, steps]
    generalize run.tries = n at last ⊢
    generalize run.outcome = o at last ⊢
    cases last with
    | faulted | halted | stopped => rfl
  | unfinished all outcome tries rig =>
    rw [rig, steps, tries, outcome]
    rfl

/-- The condition was tried after each step but perhaps the last. -/
theorem exists_after (h : run.Follows holds r fuel) :
    ∃ k, run.rig = r.after k ∧ k ≤ run.tries + 1 :=
  ⟨run.steps, h.rig_eq, Nat.add_le_add_left run.outcome.untried_le_one _⟩

/-- **A run is stopped by the first step after which the condition holds.** -/
theorem of_stopped (h : run.Follows holds r fuel) (stopped : run.outcome = .stopped) :
    holds run.tries = true ∧ run.rig = r.after run.tries ∧
      ∀ i, 1 ≤ i → i < run.tries → holds i = false := by
  cases h with
  | @ended k inside before last rig =>
    rw [stopped] at last
    generalize run.tries = n at last ⊢
    cases last with
    | stopped running hit =>
      refine ⟨hit, rig, ?_⟩
      intro i hpos hi
      obtain ⟨j, rfl⟩ := Nat.exists_eq_add_of_le' hpos
      exact (before j (by omega)).2
  | unfinished all outcome => cases outcome.symm.trans stopped

/-- A run faults at the first step that fails, if nothing ended it before. -/
theorem of_faulted {f : Fault} (h : run.Follows holds r fuel) (faulted : run.outcome = .faulted f) :
    (∀ j < run.tries, r.GoesOn holds j) ∧ (r.after run.tries).answer = .error f ∧
      run.rig = r.after (run.tries + 1) := by
  cases h with
  | @ended k inside before last rig =>
    rw [faulted] at last
    generalize run.tries = n at last ⊢
    cases last with
    | faulted failing => exact ⟨before, failing, rig⟩
  | unfinished all outcome => cases outcome.symm.trans faulted

/-- In a run that does not end all steps go on. -/
theorem of_unfinished (h : run.Follows holds r fuel) (unfinished : run.outcome = .unfinished) :
    (∀ j < fuel, r.GoesOn holds j) ∧ run.steps = fuel ∧ run.rig = r.after fuel := by
  cases h with
  | @ended k inside before last rig =>
    rw [unfinished] at last
    cases last
  | unfinished all outcome tries rig =>
    rw [steps, outcome, tries]
    exact ⟨all, rfl, rig⟩

/-- Every step of a run leaves the machine running, but perhaps the last. -/
theorem answer_cases (h : run.Follows holds r fuel) {k : Nat} (hk : k < run.steps) :
    (r.after k).answer = .ok .running ∨ k + 1 = run.steps ∧
      (run.outcome = .halted ∧ (r.after k).answer = .ok .halted ∨
        ∃ f, run.outcome = .faulted f ∧ (r.after k).answer = .error f) := by
  rw [steps] at hk ⊢
  cases h with
  | @ended n inside before last rig =>
    generalize run.tries = tries at last hk ⊢
    generalize run.outcome = o at last hk ⊢
    cases last with
    | @faulted f failing =>
      rcases Nat.lt_succ_iff_lt_or_eq.1 hk with hk | rfl
      · exact .inl (before k hk).1
      · exact .inr ⟨rfl, .inr ⟨f, rfl, failing⟩⟩
    | halted last =>
      rcases Nat.lt_succ_iff_lt_or_eq.1 hk with hk | rfl
      · exact .inl (before k hk).1
      · exact .inr ⟨rfl, .inl ⟨rfl, last⟩⟩
    | stopped running hit =>
      rcases Nat.lt_succ_iff_lt_or_eq.1 hk with hk | rfl
      · exact .inl (before k hk).1
      · exact .inl running
  | unfinished all outcome tries =>
    rw [tries, outcome] at hk
    exact .inl (all k hk).1

/-- A run from a machine that has not halted makes no step on one that has. -/
theorem isHalted_after (h : run.Follows holds r fuel) (running : r.machine.isHalted = false) {k : Nat}
    (hk : k < run.steps) : (r.after k).machine.isHalted = false := by
  cases k with
  | zero => exact running
  | succ k =>
    rcases h.answer_cases (Nat.lt_of_succ_lt hk) with hanswer | ⟨hlast, -⟩
    · exact Rig.isHalted_step hanswer
    · exact absurd hlast (Nat.ne_of_lt hk)

end Run.Follows

namespace Machine

variable {δ : Type} [Device δ] {keep : Record → Bool} {stop : Machine → Nat → Bool} {fuel n : Nat}
  {m m' : Machine} {d d' : δ} {records : List Record}

/-- **A run goes as its steps tell.** -/
theorem runUntil_follows (keep : Record → Bool) (stop : Machine → Nat → Bool) (fuel : Nat)
    (m : Machine) (d : δ) :
    (m.runUntil keep stop fuel d).Follows (fun i => stop (Rig.after i ⟨m, d⟩).machine i) ⟨m, d⟩
      fuel := by
  induction fuel generalizing stop m d with
  | zero => exact .unfinished (fun j hj => absurd hj (Nat.not_lt_zero j)) rfl rfl rfl
  | succ fuel ih =>
    rcases hs : m.step d with ⟨result, m', d', records⟩
    have hanswer : Rig.answer ⟨m, d⟩ = result := by rw [Rig.answer, hs]
    have hstep : Rig.step ⟨m, d⟩ = ⟨m', d'⟩ := by rw [Rig.step, hs]
    have none_before {P : Nat → Prop} : ∀ j < 0, P j := fun j hj => absurd hj (Nat.not_lt_zero j)
    cases result with
    | error f =>
      rw [runUntil_of_error hs]
      exact .ended (Nat.succ_pos fuel) none_before (.faulted hanswer) hstep.symm
    | ok status =>
      cases status with
      | halted =>
        rw [runUntil_of_halted hs]
        exact .ended (Nat.succ_pos fuel) none_before (.halted hanswer) hstep.symm
      | running =>
        cases tried : stop m' 1 with
        | true =>
          rw [runUntil_of_hit hs tried]
          refine .ended (Nat.succ_pos fuel) none_before (.stopped hanswer ?_) hstep.symm
          show stop (Rig.step ⟨m, d⟩).machine 1 = true
          rw [hstep, tried]
        | false =>
          rw [runUntil_of_missed hs tried]
          apply Run.Follows.behind
          · rw [hstep]
            have hrest := ih (fun m i => stop m (1 + i)) m' d'
            rw [← hstep] at hrest ⊢
            simpa only [← Rig.after_succ_left, Nat.add_comm 1] using hrest
          · refine ⟨hanswer, ?_⟩
            show stop (Rig.step ⟨m, d⟩).machine 1 = false
            rw [hstep, tried]

/-! ### Runs without a condition -/

theorem run_follows (keep : Record → Bool) (fuel : Nat) (m : Machine) (d : δ) :
    (m.run keep fuel d).Follows (fun _ => false) ⟨m, d⟩ fuel := by
  rw [run_eq_runUntil]
  exact runUntil_follows keep _ fuel m d

theorem run_of_running (h : m.step d = ⟨.ok .running, m', d', records⟩) :
    m.run keep (fuel + 1) d = (m'.run keep fuel d').behind 1 (records.filter keep).toArray := by
  rw [run_eq_runUntil, runUntil_of_missed h rfl, ← run_eq_runUntil]

theorem run_of_le {fuel' : Nat} (ended : (m.run keep fuel d).outcome ≠ .unfinished)
    (h : fuel ≤ fuel') : m.run keep fuel' d = m.run keep fuel d := by
  rw [run_eq_runUntil] at ended
  rw [run_eq_runUntil, run_eq_runUntil, runUntil_of_le ended h]

end Machine

end WordMachine
