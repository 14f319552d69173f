import WordMachine.Machine.Run
import WordMachine.Proofs.Session

/-!
# Runs are steps

`Machine.runFrom` carries fuel, a log and a count of tries along. `RunsTo` says what it does with
the machine and the device, step by step and without fuel. Every run that ends does so by these
rules (`runsTo_of_runFrom`), and what the rules lead to is where a run ends that has fuel enough
(`RunsTo.of_fuel`). The steps of a run are those that `Rig.after` makes.

Runs against devices that answer alike go the same way (`Rig.Related.runFrom`), and keep the same
records if the devices report alike (`Rig.Related.log_runFrom`). If one device only
covers the other, they do so until the one that is covered has no more input (`RunsTo.covers`), and
there the other run is under way (`RunsTo.under_way`).
-/

namespace WordMachine

variable {δ : Type} [Device δ]

/-- **How a run goes.** From a machine with its device, and a number of times that the condition for
stopping was tried, the rules lead to the outcome, the number of tries, and machine and device at
the end. -/
inductive RunsTo (stop : Machine → Nat → Bool) : Nat → Rig δ → Outcome → Nat → Rig δ → Prop
  | faulted {n r f} (failing : r.answer = .error f) : RunsTo stop n r (.faulted f) n r.step
  | halted {n r} (last : r.answer = .ok .halted) : RunsTo stop n r .halted n r.step
  | stopped {n r} (running : r.answer = .ok .running) (hit : stop r.step.machine (n + 1) = true) :
      RunsTo stop n r .stopped (n + 1) r.step
  | next {n r o n' r'} (running : r.answer = .ok .running)
      (missed : stop r.step.machine (n + 1) = false) (rest : RunsTo stop (n + 1) r.step o n' r') :
      RunsTo stop n r o n' r'

/-- **A run that ends goes by the rules.** -/
theorem runsTo_of_runFrom {keep : Record → Bool} {stop : Machine → Nat → Bool} {fuel tries : Nat}
    {log : Array Record} {m : Machine} {d : δ} {run : Run δ}
    (hrun : m.runFrom keep stop fuel tries log d = run) (h : run.outcome ≠ .unfinished) :
    RunsTo stop tries ⟨m, d⟩ run.outcome run.tries ⟨run.machine, run.device⟩ := by
  induction fuel generalizing tries log m d with
  | zero =>
    subst hrun
    exact absurd rfl h
  | succ fuel ih =>
    -- the step, taken apart so that the rules speak of its parts
    rcases hs : m.step d with ⟨result, m', d', records⟩
    have hanswer : Rig.answer ⟨m, d⟩ = result := by rw [Rig.answer, hs]
    have hstep : Rig.step ⟨m, d⟩ = ⟨m', d'⟩ := by rw [Rig.step, hs]
    rw [Machine.runFrom, hs] at hrun
    cases result with
    | error f =>
      subst hrun
      rw [← hstep]
      exact .faulted hanswer
    | ok s =>
      cases s with
      | halted =>
        subst hrun
        rw [← hstep]
        exact .halted hanswer
      | running =>
        by_cases hit : stop m' (tries + 1) = true
        · simp only [hit, if_true] at hrun
          subst hrun
          show RunsTo stop tries _ .stopped (tries + 1) ⟨m', d'⟩
          rw [← hstep]
          apply RunsTo.stopped hanswer
          rw [hstep]
          exact hit
        · simp only [hit] at hrun
          apply RunsTo.next hanswer
          · rw [hstep]
            exact Bool.eq_false_iff.2 hit
          · rw [hstep]
            exact ih hrun

theorem RunsTo.tries_le {stop : Machine → Nat → Bool} {n n' : Nat} {r r' : Rig δ} {o : Outcome}
    (h : RunsTo stop n r o n' r') : n ≤ n' := by
  induction h with
  | faulted | halted => exact Nat.le_refl _
  | stopped => exact Nat.le_succ _
  | next _ _ _ ih => exact Nat.le_of_succ_le ih

/-- **With more fuel than tries a run ends where the rules lead**, whatever it keeps of the log. -/
theorem RunsTo.of_fuel {stop : Machine → Nat → Bool} {n n' fuel : Nat} {r r' : Rig δ} {o : Outcome}
    (h : RunsTo stop n r o n' r') (keep : Record → Bool) (log : Array Record)
    (enough : n' < n + fuel) :
    let run := r.machine.runFrom keep stop fuel n log r.device
    run.outcome = o ∧ run.tries = n' ∧ run.machine = r'.machine ∧ run.device = r'.device := by
  have hfuel : 1 ≤ fuel := by
    have hle := h.tries_le
    omega
  obtain ⟨fuel, rfl⟩ := Nat.exists_eq_add_of_le' hfuel
  induction h generalizing fuel log with
  | @faulted n r f failing =>
    rw [Machine.runFrom, Rig.step_of_answer failing]
    exact ⟨rfl, rfl, rfl, rfl⟩
  | @halted n r last =>
    rw [Machine.runFrom, Rig.step_of_answer last]
    exact ⟨rfl, rfl, rfl, rfl⟩
  | @stopped n r running hit =>
    rw [Machine.runFrom, Rig.step_of_answer running]
    simp only [hit, if_true, and_self]
  | @next n r o n' r' running missed rest ih =>
    rw [Machine.runFrom, Rig.step_of_answer running]
    simp only [missed]
    -- fuel is left for the steps to come, since they try the condition more often
    have hle := rest.tries_le
    obtain ⟨fuel, rfl⟩ := Nat.exists_eq_add_of_le' (show 1 ≤ fuel by omega)
    exact ih _ fuel (by omega) (by omega)

/-- Where a run has led to. -/
def Run.rig (run : Run δ) : Rig δ := ⟨run.machine, run.device⟩

/-- **Devices that answer alike cannot be told apart** by a run, whatever is kept of the log. -/
theorem Rig.Related.runFrom {ε : Type} [Device ε] {R : δ → ε → Prop} (hR : Device.Alike R)
    {r : Rig δ} {s : Rig ε} (h : r.Related R s) (keep keep' : Record → Bool)
    (stop : Machine → Nat → Bool) (fuel n : Nat) (log log' : Array Record) :
    let run := r.machine.runFrom keep stop fuel n log r.device
    let run' := s.machine.runFrom keep' stop fuel n log' s.device
    run.outcome = run'.outcome ∧ run.tries = run'.tries ∧ run.rig.Related R run'.rig := by
  induction fuel generalizing n log log' r s with
  | zero => exact ⟨rfl, rfl, h⟩
  | succ fuel ih =>
    have hanswer := h.answer_eq hR
    have hnext := h.step hR
    simp only [Machine.runFrom]
    -- both steps, taken apart: they have the same result, and lead to related rigs
    rcases hr : r.machine.step r.device with ⟨result, m, d, records⟩
    rcases hs : s.machine.step s.device with ⟨result', m', e, records'⟩
    rw [Rig.answer, Rig.answer, hr, hs] at hanswer
    rw [Rig.step, Rig.step, hr, hs] at hnext
    obtain rfl : result = result' := hanswer
    obtain rfl : m = m' := hnext.machine
    cases result with
    | error f => exact ⟨rfl, rfl, hnext⟩
    | ok status =>
      cases status with
      | halted => exact ⟨rfl, rfl, hnext⟩
      | running =>
        by_cases hit : stop m (n + 1) = true
        · simp only [hit, if_true]
          exact ⟨trivial, trivial, hnext⟩
        · simp only [hit]
          exact ih hnext (n + 1) _ _

/-- **Of devices that report alike**, a run keeps the same records. -/
theorem Rig.Related.log_runFrom {ε : Type} [Device ε] {R : δ → ε → Prop} {keep : Record → Bool}
    (hR : Device.ReportsAlike keep R) {r : Rig δ} {s : Rig ε} (h : r.Related R s)
    (stop : Machine → Nat → Bool) (fuel n : Nat) (log : Array Record) :
    (r.machine.runFrom keep stop fuel n log r.device).log =
      (s.machine.runFrom keep stop fuel n log s.device).log := by
  induction fuel generalizing n log r s with
  | zero => rfl
  | succ fuel ih =>
    obtain ⟨m, d⟩ := r
    obtain ⟨m', e⟩ := s
    obtain rfl : m = m' := h.machine
    obtain ⟨hresult, hmachine, hdevice⟩ := Machine.step_alike (m := m) hR.toAlike h.device
    have hlog := Machine.step_log (m := m) hR h.device
    simp only [Machine.runFrom]
    rcases hd : m.step d with ⟨result, m₁, d₁, records⟩
    rcases he : m.step e with ⟨result', m₁', e₁, records'⟩
    rw [hd, he] at hresult hmachine hdevice hlog
    obtain rfl : result = result' := hresult
    obtain rfl : m₁ = m₁' := hmachine
    have hkept : records.filter keep = records'.filter keep := hlog
    have hnext : Related R ⟨m₁, d₁⟩ ⟨m₁, e₁⟩ := ⟨rfl, hdevice⟩
    cases result with
    | error f => simp only [hkept]
    | ok status =>
      cases status with
      | halted => simp only [hkept]
      | running =>
        simp only [hkept]
        split
        · rfl
        · exact ih hnext (n + 1) _

/-! ### Runs that are never stopped -/

section

variable {m m' : Machine} {d d' : δ} {n n' : Nat}

theorem RunsTo.of_fails {f : Fault} (h : m.Fails d f d') (n : Nat) :
    RunsTo (fun _ _ => false) n ⟨m, d⟩ (.faulted f) n ⟨m, d'⟩ := by
  obtain ⟨hanswer, hstep⟩ := Rig.step_of_fails h
  rw [← hstep]
  exact .faulted hanswer

theorem RunsTo.of_halts (h : m.Advances d m' d') (halted : m'.isHalted = true) (n : Nat) :
    RunsTo (fun _ _ => false) n ⟨m, d⟩ .halted n ⟨m', d'⟩ := by
  obtain ⟨hanswer, hstep⟩ := Rig.step_of_advances h
  rw [← hstep]
  apply RunsTo.halted
  rw [hanswer, Machine.status, halted]
  rfl

theorem RunsTo.of_advances {o : Outcome} {r : Rig δ} (h : m.Advances d m' d')
    (running : m'.isHalted = false) (rest : RunsTo (fun _ _ => false) (n + 1) ⟨m', d'⟩ o n' r) :
    RunsTo (fun _ _ => false) n ⟨m, d⟩ o n' r := by
  obtain ⟨hanswer, hstep⟩ := Rig.step_of_advances h
  rw [← hstep] at rest
  refine .next ?_ rfl rest
  rw [hanswer, Machine.status_eq_running_iff.2 running]

end

/-- A run that is never stopped halts or faults. -/
theorem RunsTo.halted_or_faulted {n n' : Nat} {r r' : Rig δ} {o : Outcome}
    (h : RunsTo (fun _ _ => false) n r o n' r') : o = .halted ∨ ∃ f, o = .faulted f := by
  induction h with
  | faulted => exact .inr ⟨_, rfl⟩
  | halted => exact .inl rfl
  | stopped running hit => cases hit
  | next running missed rest ih => exact ih

/-- A run that is never stopped does not depend on where its count starts. -/
theorem RunsTo.recount {n n' : Nat} {r r' : Rig δ} {o : Outcome}
    (h : RunsTo (fun _ _ => false) n r o n' r') (k : Nat) :
    ∃ k', RunsTo (fun _ _ => false) k r o k' r' := by
  induction h generalizing k with
  | faulted failing => exact ⟨k, .faulted failing⟩
  | halted last => exact ⟨k, .halted last⟩
  | stopped running hit => cases hit
  | next running missed rest ih =>
    obtain ⟨k', hk⟩ := ih (k + 1)
    exact ⟨k', .next running rfl hk⟩

theorem runsTo_of_run {keep : Record → Bool} {fuel : Nat} {m : Machine} {d : δ}
    (h : (m.run keep fuel d).outcome ≠ .unfinished) :
    RunsTo (fun _ _ => false) 0 ⟨m, d⟩ (m.run keep fuel d).outcome (m.run keep fuel d).tries
      (m.run keep fuel d).rig := by
  rw [Machine.run_eq_runUntil] at h ⊢
  exact runsTo_of_runFrom rfl h

/-- With more fuel than steps that leave the machine running, a run ends where the rules lead. -/
theorem RunsTo.run_of_fuel {n fuel : Nat} {r r' : Rig δ} {o : Outcome}
    (h : RunsTo (fun _ _ => false) 0 r o n r') (keep : Record → Bool) (enough : n < fuel) :
    let run := r.machine.run keep fuel r.device
    run.outcome = o ∧ run.tries = n ∧ run.machine = r'.machine ∧ run.device = r'.device := by
  rw [Machine.run_eq_runUntil]
  exact h.of_fuel keep #[] (by omega)

theorem RunsTo.exists_run {n : Nat} {r r' : Rig δ} {o : Outcome}
    (h : RunsTo (fun _ _ => false) 0 r o n r') (keep : Record → Bool) : ∃ fuel,
      let run := r.machine.run keep fuel r.device
      run.outcome = o ∧ run.tries = n ∧ run.machine = r'.machine ∧ run.device = r'.device :=
  ⟨n + 1, h.run_of_fuel keep (Nat.lt_succ_self n)⟩

/-- Runs against devices that answer alike cannot be told apart either if they are never stopped. -/
theorem Rig.Related.run {ε : Type} [Device ε] {R : δ → ε → Prop} (hR : Device.Alike R) {r : Rig δ}
    {s : Rig ε} (h : r.Related R s) (keep keep' : Record → Bool) (fuel : Nat) :
    let run := r.machine.run keep fuel r.device
    let run' := s.machine.run keep' fuel s.device
    run.outcome = run'.outcome ∧ run.tries = run'.tries ∧ run.rig.Related R run'.rig := by
  rw [Machine.run_eq_runUntil, Machine.run_eq_runUntil]
  exact h.runFrom hR keep keep' _ fuel 0 #[] #[]

theorem Rig.Related.log_run {ε : Type} [Device ε] {R : δ → ε → Prop} {keep : Record → Bool}
    (hR : Device.ReportsAlike keep R) {r : Rig δ} {s : Rig ε} (h : r.Related R s) (fuel : Nat) :
    (r.machine.run keep fuel r.device).log = (s.machine.run keep fuel s.device).log := by
  rw [Machine.run_eq_runUntil, Machine.run_eq_runUntil]
  exact h.log_runFrom hR _ fuel 0 #[]

/-! ### Runs that go along with each other -/

section Covers

variable {ε : Type} [Device ε] {R : δ → ε → Prop} {stop : Machine → Nat → Bool} {n n' : Nat}
  {r r' : Rig δ} {s : Rig ε} {o : Outcome}

/-- **A run goes along with one that has less input**, unless that one ends for want of it. -/
theorem RunsTo.covers (hR : Device.Covers R) (h : RunsTo stop n r o n' r') (hs : r.Related R s)
    (ho : ∀ f, o = .faulted f → f.cause ≠ .inputExhausted) :
    ∃ s', r'.Related R s' ∧ RunsTo stop n s o n' s' := by
  induction h generalizing s with
  | @faulted n r f failing =>
    have hinput : ∀ f', r.answer = .error f' → f'.cause ≠ .inputExhausted := by
      intro f' hf'
      cases failing.symm.trans hf'
      exact ho f rfl
    obtain ⟨hanswer, hstep⟩ := hs.step_covers hR hinput
    exact ⟨_, hstep, .faulted (hanswer.trans failing)⟩
  | @halted n r last =>
    obtain ⟨hanswer, hstep⟩ := hs.step_covers_of_ok hR last
    exact ⟨_, hstep, .halted hanswer⟩
  | @stopped n r running hit =>
    obtain ⟨hanswer, hstep⟩ := hs.step_covers_of_ok hR running
    refine ⟨_, hstep, .stopped hanswer ?_⟩
    rw [← hstep.machine]
    exact hit
  | @next n r o n' r' running missed rest ih =>
    obtain ⟨hanswer, hstep⟩ := hs.step_covers_of_ok hR running
    obtain ⟨s', hs', hrest⟩ := ih hstep ho
    refine ⟨s', hs', .next hanswer ?_ hrest⟩
    rw [← hstep.machine]
    exact missed

/-- **Where a run ends for want of input, one that has more is under way**: it has come to where the
other fails, and however it goes on from there, so goes all of it. -/
theorem RunsTo.under_way (hR : Device.Covers R) {f : Fault} (h : RunsTo stop n r (.faulted f) n' r')
    (hs : r.Related R s) : ∃ (r₀ : Rig δ) (s₀ : Rig ε), r₀.Related R s₀ ∧
      r₀.answer = .error f ∧ r' = r₀.step ∧
      ∀ o n'' s', RunsTo stop n' s₀ o n'' s' → RunsTo stop n s o n'' s' := by
  generalize ho : Outcome.faulted f = o at h
  induction h generalizing s with
  | @faulted n r f failing =>
    cases ho
    exact ⟨r, s, hs, failing, rfl, fun _ _ _ hgo => hgo⟩
  | halted | stopped => cases ho
  | @next n r o n' r' running missed rest ih =>
    obtain ⟨hanswer, hstep⟩ := hs.step_covers_of_ok hR running
    obtain ⟨r₀, s₀, hs₀, hfails, hr', hgo⟩ := ih hstep ho
    refine ⟨r₀, s₀, hs₀, hfails, hr', ?_⟩
    intro o' n'' s' hrest
    apply RunsTo.next hanswer
    · rw [← hstep.machine]
      exact missed
    · exact hgo o' n'' s' hrest

end Covers

end WordMachine
