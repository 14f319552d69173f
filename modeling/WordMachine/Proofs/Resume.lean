import WordMachine.Proofs.RunSteps

/-!
# Runs that are stopped and go on

A run can be stopped after any step, by a condition that is tried after each step which leaves the
machine running. Whoever tries it may remember what it was shown (`Observer`), so that also the
order of the tries is something to speak of.

* `Run.resume` — a run, and another one where it was stopped; `runUntil_add` says that this is what
  a longer run is.
* `runObserved_eq` — the observer is shown the machine after the first step, the second and so on,
  and after no other.
* `runs_resume` — both together, for runs with a bound, without one, and with a place to stop at.
-/

namespace WordMachine

/-! ### Runs in two parts -/

namespace Run

variable {δ : Type}

/-- A run, and behind it another one, if the first was stopped. -/
def resume (run : Run δ) (rest : Machine → δ → Run δ) : Run δ :=
  if run.outcome = .stopped then (rest run.machine run.device).behind run.tries run.log else run

/-- Going on does not depend on what was before the first part. -/
theorem resume_behind (run : Run δ) (n : Nat) (log : Array Record) (rest : Machine → δ → Run δ) :
    (run.behind n log).resume rest = (run.resume rest).behind n log := by
  by_cases h : run.outcome = .stopped
  · have h' : (run.behind n log).outcome = .stopped := h
    rw [resume, if_pos h', resume, if_pos h, behind_behind]
    rfl
  · have h' : (run.behind n log).outcome ≠ .stopped := h
    rw [resume, if_neg h', resume, if_neg h]

end Run

namespace Machine

variable {δ : Type} [Device δ] {keep : Record → Bool} {fuel : Nat} {m : Machine} {d : δ}

/-! ### Bounded runs -/

/-- The condition that so many steps were made. -/
def upTo (bound : Nat) : Machine → Nat → Bool := fun _ i => bound ≤ i

theorem upTo_shift (bound : Nat) : (fun m i => upTo (bound + 1) m (1 + i)) = upTo bound := by
  funext m i
  simp only [upTo, decide_eq_decide]
  omega

/-- **A run is a bounded run and one that goes on where it was stopped**, if the condition for
stopping does not hold before. -/
theorem runUntil_add (keep : Record → Bool) {stop : Machine → Nat → Bool} {bound : Nat}
    (positive : 1 ≤ bound) (never : ∀ m i, i ≤ bound → stop m i = false) (fuel : Nat) (m : Machine)
    (d : δ) :
    m.runUntil keep stop (bound + fuel) d = (m.runUntil keep (upTo bound) bound d).resume
      fun m d => m.runUntil keep (fun m i => stop m (bound + i)) fuel d := by
  induction bound generalizing stop m d with
  | zero => cases positive
  | succ bound ih =>
    rw [Nat.add_right_comm]
    rcases hs : m.step d with ⟨result, m', d', records⟩
    cases result with
    | error f =>
      rw [runUntil_of_error hs, runUntil_of_error hs]
      rfl
    | ok status =>
      cases status with
      | halted =>
        rw [runUntil_of_halted hs, runUntil_of_halted hs]
        rfl
      | running =>
        rw [runUntil_of_missed hs (never m' 1 positive)]
        rcases Nat.eq_zero_or_pos bound with rfl | hpos
        · rw [runUntil_of_hit hs rfl, Nat.zero_add]
          rfl
        · have missed : upTo (bound + 1) m' 1 = false := by
            simp only [upTo, decide_eq_false_iff_not]
            omega
          have never' : ∀ m i, i ≤ bound → stop m (1 + i) = false :=
            fun m i hi => never m (1 + i) (by omega)
          rw [runUntil_of_missed hs missed, upTo_shift, Run.resume_behind, ih hpos never']
          simp only [← Nat.add_assoc, Nat.add_comm 1 bound]

/-- A bounded run ends within its bound. -/
theorem ended_of_upTo {bound : Nat} (positive : 1 ≤ bound) (h : bound ≤ fuel) :
    (m.runUntil keep (upTo bound) fuel d).outcome ≠ .unfinished := by
  intro unfinished
  cases runUntil_follows keep (upTo bound) fuel m d with
  | ended _ _ last =>
    rw [unfinished] at last
    cases last
  | unfinished all =>
    -- the step that reaches the bound does not go on
    obtain ⟨-, missed⟩ := all (bound - 1) (by omega)
    simp only [upTo, decide_eq_false_iff_not] at missed
    omega

/-! ### Observers -/

end Machine

/-- Who is shown the machine after a step, with the number of steps, says whether to stop, and may
remember. -/
abbrev Observer (σ : Type) := σ → Machine → Nat → Bool × σ

/-- The observer that remembers nothing and stops on a condition. -/
def Observer.ofCondition {σ : Type} (stop : Machine → Nat → Bool) : Observer σ :=
  fun s m i => (stop m i, s)

namespace Machine

variable {δ σ : Type} [Device δ]

/-- Continues a run that is observed; the observer remembers `s`. -/
def observedFrom (keep : Record → Bool) (observe : Observer σ) :
    (fuel : Nat) → (tries : Nat) → (log : Array Record) → σ → Machine → δ → Run δ × σ
  | 0, tries, log, s, m, device => (⟨.unfinished, tries, m, device, log⟩, s)
  | fuel + 1, tries, log, s, m, device =>
    match m.step device with
    | ⟨.error fault, m, device, records⟩ =>
      (⟨.faulted fault, tries, m, device, log.appendList (records.filter keep)⟩, s)
    | ⟨.ok .halted, m, device, records⟩ =>
      (⟨.halted, tries, m, device, log.appendList (records.filter keep)⟩, s)
    | ⟨.ok .running, m, device, records⟩ =>
      let log := log.appendList (records.filter keep)
      let (hit, s) := observe s m (tries + 1)
      if hit then (⟨.stopped, tries + 1, m, device, log⟩, s)
      else observedFrom keep observe fuel (tries + 1) log s m device

/-- Runs the machine until it halts, faults or is stopped by an observer, and answers also what that
remembers in the end. -/
def runObserved (keep : Record → Bool) (observe : Observer σ) (fuel : Nat) (s : σ) (m : Machine)
    (device : δ) : Run δ × σ :=
  m.observedFrom keep observe fuel 0 #[] s device

end Machine

namespace Rig

variable {δ σ : Type} [Device δ]

/-- What an observer remembers that was shown the machine after each of the first steps, in
order. -/
def memory (observe : Observer σ) (s : σ) (r : Rig δ) : Nat → σ
  | 0 => s
  | i + 1 => (observe (memory observe s r i) (r.after (i + 1)).machine (i + 1)).2

/-- What the observer says after a step, if it was shown the machine after those before. -/
def verdict (observe : Observer σ) (s : σ) (r : Rig δ) : Nat → Bool
  | 0 => false
  | i + 1 => (observe (r.memory observe s i) (r.after (i + 1)).machine (i + 1)).1

end Rig

namespace Machine

variable {δ σ : Type} [Device δ]

theorem observedFrom_eq (keep : Record → Bool) (observe : Observer σ) (s : σ) (r : Rig δ)
    (fuel n : Nat) (log : Array Record) :
    let run := (r.after n).machine.runFrom keep (fun _ i => r.verdict observe s i) fuel n log
      (r.after n).device
    (r.after n).machine.observedFrom keep observe fuel n log (r.memory observe s n)
      (r.after n).device = (run, r.memory observe s run.tries) := by
  induction fuel generalizing n log with
  | zero => rfl
  | succ fuel ih =>
    have hstep := r.after_succ n
    rcases hs : (r.after n).machine.step (r.after n).device with ⟨result, m', d', records⟩
    rw [Rig.step, hs] at hstep
    simp only [observedFrom, runFrom, hs]
    cases result with
    | error f => rfl
    | ok status =>
      cases status with
      | halted => rfl
      | running =>
        -- what the observer is asked here is what makes up its verdict and its next memory
        have hasked : observe (r.memory observe s n) m' (n + 1) =
            (r.verdict observe s (n + 1), r.memory observe s (n + 1)) := by
          rw [Rig.verdict, Rig.memory, hstep]
        have hrest := ih (n + 1) (log.appendList (records.filter keep))
        rw [hstep] at hrest
        simp only [hasked]
        by_cases hit : r.verdict observe s (n + 1) = true
        · simp only [hit, if_true]
        · simp only [hit]
          exact hrest

/-- **The observer is shown the machine after each step**, in order, and no other machine. -/
theorem runObserved_eq (keep : Record → Bool) (observe : Observer σ) (s : σ) (fuel : Nat)
    (m : Machine) (d : δ) :
    let r : Rig δ := ⟨m, d⟩
    let run := m.runUntil keep (fun _ i => r.verdict observe s i) fuel d
    m.runObserved keep observe fuel s d = (run, r.memory observe s run.tries) :=
  observedFrom_eq keep observe s ⟨m, d⟩ fuel 0 #[]

/-- **A run with a condition is one with an observer** that does not remember. -/
theorem runObserved_ofCondition (keep : Record → Bool) (stop : Machine → Nat → Bool) (fuel : Nat)
    (s : σ) (m : Machine) (d : δ) :
    m.runObserved keep (.ofCondition stop) fuel s d = (m.runUntil keep stop fuel d, s) := by
  have hfrom : ∀ (n : Nat) (log : Array Record) (m : Machine) (d : δ),
      m.observedFrom keep (.ofCondition stop) fuel n log s d =
        (m.runFrom keep stop fuel n log d, s) := by
    induction fuel with
    | zero => exact fun _ _ _ _ => rfl
    | succ fuel ih =>
      intro n log m d
      simp only [observedFrom, runFrom, Observer.ofCondition]
      rcases m.step d with ⟨result, m', d', records⟩
      cases result with
      | error f => rfl
      | ok status =>
        cases status with
        | halted => rfl
        | running =>
          by_cases hit : stop m' (n + 1) = true
          · simp only [hit, if_true]
          · simp only [hit]
            exact ih (n + 1) _ m' d'
  exact hfrom 0 #[] m d

end Machine

namespace Machine

variable {δ : Type} [Device δ]

/-- **A bound is the sum of two** if a run goes on for the second where it was stopped by the
first. -/
theorem runUntil_upTo_add (keep : Record → Bool) {a b fuel : Nat} (ha : 1 ≤ a) (hb : 1 ≤ b)
    (enough : a + b ≤ fuel) (m : Machine) (d : δ) :
    m.runUntil keep (upTo (a + b)) fuel d = (m.runUntil keep (upTo a) fuel d).resume
      fun m d => m.runUntil keep (upTo b) fuel d := by
  have never : ∀ (m : Machine) i, i ≤ a → upTo (a + b) m i = false := by
    intro m i hi
    simp only [upTo, decide_eq_false_iff_not]
    omega
  have shifted : (fun m i => upTo (a + b) m (a + i)) = upTo b := by
    funext m i
    simp only [upTo, decide_eq_decide]
    omega
  have whole_ends : (m.runUntil keep (upTo (a + b)) (a + b) d).outcome ≠ .unfinished :=
    ended_of_upTo (by omega) (Nat.le_refl (a + b))
  have first_ends : (m.runUntil keep (upTo a) a d).outcome ≠ .unfinished :=
    ended_of_upTo ha (Nat.le_refl a)
  rw [runUntil_of_le whole_ends enough, runUntil_of_le first_ends (by omega),
    runUntil_add keep ha never b m d, shifted]
  congr 1
  funext m d
  have rest_ends : (m.runUntil keep (upTo b) b d).outcome ≠ .unfinished :=
    ended_of_upTo hb (Nat.le_refl b)
  exact (runUntil_of_le rest_ends (by omega)).symm

/-- **A run without a bound** goes on where one with a bound was stopped. -/
theorem run_add (keep : Record → Bool) {a bound : Nat} (ha : 1 ≤ a) (enough : a ≤ bound)
    (fuel : Nat) (m : Machine) (d : δ) :
    m.run keep (a + fuel) d = (m.runUntil keep (upTo a) bound d).resume
      fun m d => m.run keep fuel d := by
  have first_ends : (m.runUntil keep (upTo a) a d).outcome ≠ .unfinished :=
    ended_of_upTo ha (Nat.le_refl a)
  simp only [run_eq_runUntil, runUntil_of_le first_ends enough]
  exact runUntil_add keep ha (fun _ _ _ => rfl) fuel m d

/-- Whatever the bound, one step is tried. -/
theorem rig_runUntil_upTo_zero (keep : Record → Bool) (fuel : Nat) (m : Machine) (d : δ) :
    (m.runUntil keep (upTo 0) (fuel + 1) d).rig = Rig.step ⟨m, d⟩ := by
  cases runUntil_follows keep (upTo 0) (fuel + 1) m d with
  | @ended k inside before last rig =>
    cases k with
    | zero => exact rig
    | succ k =>
      obtain ⟨-, missed⟩ := before 0 (Nat.succ_pos k)
      cases missed
  | unfinished all =>
    obtain ⟨-, missed⟩ := all 0 (Nat.succ_pos fuel)
    cases missed

end Machine

/-- **Runs can be stopped anywhere and go on.** An observed run shows the observer the machine after
the first step, the second and so on, and ends with the first step that fails, halts the machine or
makes the observer say so; at least one step is tried, whatever the bound. A run that is stopped
after `a` steps and goes on for `b` more is a run that is stopped after `a + b`, in all that it
leads to, and one that goes on without a bound is a run without one. If a run with a bound and a
place where to stop is stopped, it is at the first occasion. -/
theorem runs_resume {δ : Type} [Device δ] (keep : Record → Bool) (m : Machine) (d : δ) :
    (∀ {σ : Type} (observe : Observer σ) (s : σ) fuel,
      let r : Rig δ := ⟨m, d⟩
      let (run, memory) := m.runObserved keep observe fuel s d
      run.Follows (r.verdict observe s) r fuel ∧ memory = r.memory observe s run.tries) ∧
    (∀ {σ : Type} stop fuel (s : σ),
      m.runObserved keep (.ofCondition stop) fuel s d = (m.runUntil keep stop fuel d, s)) ∧
    (∀ fuel, (m.runUntil keep (Machine.upTo 0) (fuel + 1) d).rig = Rig.step ⟨m, d⟩) ∧
    (∀ a b fuel, 1 ≤ a → 1 ≤ b → a + b ≤ fuel →
      let whole := m.runUntil keep (Machine.upTo (a + b)) fuel d
      whole.outcome ≠ .unfinished ∧
        whole = (m.runUntil keep (Machine.upTo a) fuel d).resume fun m d =>
          m.runUntil keep (Machine.upTo b) fuel d) ∧
    (∀ a bound fuel, 1 ≤ a → a ≤ bound →
      m.run keep (a + fuel) d = (m.runUntil keep (Machine.upTo a) bound d).resume fun m d =>
        m.run keep fuel d) ∧
    ∀ bound place fuel,
      let run := m.runUntil keep (fun m i => bound ≤ i || m.pc = place) fuel d
      run.outcome = .stopped → (bound ≤ run.tries ∨ run.machine.pc = place) ∧
        ∀ i, 1 ≤ i → i < run.tries → i < bound ∧ (Rig.after i ⟨m, d⟩).machine.pc ≠ place := by
  refine ⟨?_, ?_, ?_, ?_, ?_, ?_⟩
  · intro σ observe s fuel
    have hobserved := Machine.runObserved_eq keep observe s fuel m d
    simp only [hobserved]
    exact ⟨Machine.runUntil_follows keep _ fuel m d, trivial⟩
  · intro σ stop fuel s
    exact Machine.runObserved_ofCondition keep stop fuel s m d
  · intro fuel
    exact Machine.rig_runUntil_upTo_zero keep fuel m d
  · intro a b fuel ha hb enough
    exact ⟨Machine.ended_of_upTo (by omega) enough,
      Machine.runUntil_upTo_add keep ha hb enough m d⟩
  · intro a bound fuel ha enough
    exact Machine.run_add keep ha enough fuel m d
  · intro bound place fuel run stopped
    have hfollows := Machine.runUntil_follows keep (fun m i => bound ≤ i || m.pc = place) fuel m d
    obtain ⟨hit, rig, missed⟩ := hfollows.of_stopped stopped
    have hlast : run.machine = (Rig.after run.tries ⟨m, d⟩).machine := congrArg Rig.machine rig
    refine ⟨?_, ?_⟩
    · rw [hlast]
      simpa using hit
    · intro i hpos hi
      simpa using missed i hpos hi

/-- A run that is stopped before the instruction that halts the machine, and goes on. -/
theorem runs_resume_noop :
    let m := Machine.loaded .fault #[21, 0]
    let keep := fun _ => true
    let first := m.runUntil keep (Machine.upTo 1) 2 NullDevice.mk
    let placed := m.runUntil keep (fun m i => 5 ≤ i || m.pc = 1) 2 NullDevice.mk
    (first.outcome = .stopped ∧ first.tries = 1) ∧
      m.runUntil keep (Machine.upTo 2) 2 NullDevice.mk =
        first.resume (fun m d => m.runUntil keep (Machine.upTo 1) 2 d) ∧
      m.run keep 2 NullDevice.mk = first.resume (fun m d => m.run keep 1 d) ∧
      placed.outcome = .stopped ∧ (5 ≤ placed.tries ∨ placed.machine.pc = 1) := by
  -- of the machine only the first instruction matters
  have hstops : ∀ m : Machine, m.pc = 0 → m.decode 0 = .ok .noop →
      ∀ stop : Machine → Nat → Bool, (∀ m : Machine, m.pc = 1 → stop m 1 = true) →
        let run := m.runUntil (fun _ => true) stop 2 NullDevice.mk
        run.outcome = .stopped ∧ run.tries = 1 := by
    intro m hm decoded stop hit
    rw [← hm] at decoded
    have running := Machine.isHalted_of_decode decoded
    have hadv : m.Advances NullDevice.mk _ NullDevice.mk :=
      .perform running decoded (.effect rfl)
    have hpc : (m.apply (m.next .noop) .next).pc = 1 := by
      rw [Machine.apply, Machine.next, hm]
      rfl
    have hstatus : (m.apply (m.next .noop) .next).status = .running := by
      rw [Machine.status_eq_running_iff, Machine.isHalted_eq_false_iff, hpc]
      decide
    obtain ⟨log, hs⟩ := hadv.step_eq
    rw [hstatus] at hs
    rw [Machine.runUntil_of_hit hs (hit _ hpc)]
    exact ⟨rfl, rfl⟩
  have hstops := hstops (Machine.loaded .fault #[21, 0]) rfl
    (Machine.decode_loaded (by decide) rfl)
  obtain ⟨-, -, -, hadd, hrun, hplace⟩ :=
    runs_resume (fun _ => true) (Machine.loaded .fault #[21, 0]) NullDevice.mk
  have hplaced := (hstops (fun m i => 5 ≤ i || m.pc = 1) (by simp_all)).1
  refine ⟨hstops _ ?_, ?_, ?_, ?_, ?_⟩
  · exact fun _ _ => rfl
  · exact (hadd 1 1 2 (by decide) (by decide) (by decide)).2
  · exact hrun 1 2 1 (by decide) (by decide)
  · exact hplaced
  · exact (hplace 5 1 2 hplaced).1

end WordMachine
