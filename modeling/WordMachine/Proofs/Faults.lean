import WordMachine.Proofs.InOrder
import WordMachine.Proofs.RunSteps

/-!
# Faults change nothing and come again

A step that fails leaves the machine as it was. If it was not for the device that it failed, the
device was not even called, and the same fault is the answer of every later step, whatever device is
attached by then.
-/

namespace WordMachine

/-- A fault that is not the device's: it did not fail, and input was not asked for in vain. -/
def Fault.Internal (f : Fault) : Prop := (∀ c, f.cause ≠ .device c) ∧ f.cause ≠ .inputExhausted

namespace Machine

variable {δ : Type} [Device δ] {m : Machine} {d d' : δ} {f : Fault}

/-- **An internal fault is found without the device**, so it is found with any device. -/
theorem Fails.repeats (h : m.Fails d f d') (hf : f.Internal) {ε : Type} [Device ε] (e : ε) :
    m.Fails e f e := by
  cases h with
  | decode running refused strict => exact .decode running refused strict
  | action running decoded refused => exact .action running decoded refused
  | output | input => exact absurd rfl (hf.1 _)
  | exhausted => exact absurd rfl hf.2

end Machine

/-- A machine is **stuck** at a fault: every step answers it, after any steps and with any device,
and changes nothing and calls no device. -/
structure Machine.Stuck (m : Machine) (f : Fault) : Prop where
  repeats : ∀ (ε : Type) [Device ε] (es : List ε) (e : ε),
    let m' := es.foldl (fun m e => (m.step e).machine) m
    m' = m ∧ (m'.step e).result = .error f ∧ (m'.step e).machine = m ∧ (m'.step e).device = e
  uncalled : ∀ (ε : Type) [Device ε] (e : ε), (m.step (⟨e, []⟩ : Watched ε)).device.calls = []

/-- **An internal fault is final.** -/
theorem Machine.Fails.stuck {δ : Type} [Device δ] {m : Machine} {d d' : δ} {f : Fault}
    (h : m.Fails d f d') (hf : f.Internal) : m.Stuck f where
  repeats := by
    intro ε _ es e m'
    have hm' : m' = m := by
      show es.foldl (fun m e => (m.step e).machine) m = m
      -- a step that fails leaves the machine as it was, so the next one fails in the same way
      induction es with
      | nil => rfl
      | cons e' es ih =>
        obtain ⟨log, hs⟩ := (h.repeats hf e').step_eq
        rw [List.foldl_cons, hs]
        exact ih
    obtain ⟨log, hs⟩ := (h.repeats hf e).step_eq
    rw [hm', hs]
    exact ⟨rfl, rfl, rfl, rfl⟩
  uncalled := by
    intro ε _ e
    obtain ⟨log, hs⟩ := (h.repeats hf (⟨e, []⟩ : Watched ε)).step_eq
    rw [hs]

/-- A run ended in a fault: its steps left the machine running, until one failed. Machine and device
are as that step left them. -/
structure Run.FaultedAfter {δ : Type} [Device δ] (run : Run δ) (r : Rig δ) (f : Fault) : Prop where
  running : ∀ k < run.tries, (r.after k).answer = .ok .running
  failing : (r.after run.tries).answer = .error f
  machine : run.machine = (r.after run.tries).machine
  device : run.device = (r.after run.tries).step.device
  pc : run.machine.pc = f.pc
  notHalted : run.machine.isHalted = false

variable {δ : Type} [Device δ]

theorem faultedAfter_of_runUntil {keep : Record → Bool} {stop : Machine → Nat → Bool} {fuel : Nat}
    {m : Machine} {d : δ} {run : Run δ} (hrun : m.runUntil keep stop fuel d = run) {f : Fault}
    (h : run.outcome = .faulted f) : run.FaultedAfter ⟨m, d⟩ f := by
  subst hrun
  obtain ⟨before, failing, rig⟩ := (Machine.runUntil_follows keep stop fuel m d).of_faulted h
  generalize m.runUntil keep stop fuel d = run at before failing rig
  have hfails := Machine.fails_of_error failing
  have hmachine : run.machine = (Rig.after run.tries ⟨m, d⟩).machine := by
    obtain ⟨log, hs⟩ := hfails.step_eq
    have hm := congrArg Rig.machine rig
    rwa [Rig.after_succ, Rig.step, hs] at hm
  refine ⟨fun k hk => (before k hk).1, failing, hmachine, congrArg Rig.device rig, ?_, ?_⟩
  · rw [hmachine, hfails.pc_eq]
  · rw [hmachine, hfails.isHalted_eq]

/-- **Faults are atomic, and internal faults are final.** A step that fails leaves the machine as it
was, and statement by statement none of those before the one that fails has changed it; a run that
fails leaves it as it was before the step that failed; and unless it was for the device, the machine
answers with that fault for ever. -/
theorem faults_are_atomic (m : Machine) (d : δ) :
    (∀ f, (m.step d).result = .error f →
      (m.step d).machine = m ∧ f.pc = m.pc ∧ m.isHalted = false ∧ (f.Internal → m.Stuck f)) ∧
    Step.ofResult (m.stepInOrder d) = m.step d ∧
    (∀ f s, m.stepInOrder d = .error f s →
      s.machine = m ∧ f.pc = m.pc ∧ m.isHalted = false ∧ (f.Internal → s.device = d ∧ m.Stuck f)) ∧
    (∀ keep stop fuel f, (m.runUntil keep stop fuel d).outcome = .faulted f →
      (m.runUntil keep stop fuel d).FaultedAfter ⟨m, d⟩ f ∧
        (f.Internal → (m.runUntil keep stop fuel d).machine.Stuck f)) ∧
    ∀ keep fuel f, (m.run keep fuel d).outcome = .faulted f →
      (m.run keep fuel d).FaultedAfter ⟨m, d⟩ f ∧
        (f.Internal → (m.run keep fuel d).machine.Stuck f) := by
  have hruns : ∀ keep stop fuel f, (m.runUntil keep stop fuel d).outcome = .faulted f →
      (m.runUntil keep stop fuel d).FaultedAfter ⟨m, d⟩ f ∧
        (f.Internal → (m.runUntil keep stop fuel d).machine.Stuck f) := by
    intro keep stop fuel f h
    have hafter := faultedAfter_of_runUntil rfl h
    refine ⟨hafter, fun hf => ?_⟩
    rw [hafter.machine]
    exact (Machine.fails_of_error hafter.failing).stuck hf
  refine ⟨?_, m.stepInOrder_eq d, ?_, hruns, ?_⟩
  · intro f h
    have hfails := Machine.fails_of_error h
    obtain ⟨log, hs⟩ := hfails.step_eq
    refine ⟨?_, hfails.pc_eq, hfails.isHalted_eq, hfails.stuck⟩
    rw [hs]
  · intro f s h
    obtain ⟨hmachine, hdevice, hresult, -⟩ := Machine.stepInOrder_of_error h
    have hfails := Machine.fails_of_error hresult
    refine ⟨hmachine, hfails.pc_eq, hfails.isHalted_eq, fun hf => ⟨?_, hfails.stuck hf⟩⟩
    obtain ⟨log, hs⟩ := (hfails.repeats hf d).step_eq
    rw [hdevice, hs]
  · intro keep fuel f h
    rw [Machine.run_eq_runUntil] at h ⊢
    exact hruns keep _ fuel f h

/-- A program that pops from the empty stack never gets beyond it. -/
theorem faults_are_atomic_pop :
    let m := Machine.loaded .skip #[3, 32768]
    let f : Fault := ⟨0, some .pop, .stackUnderflow⟩
    (m.step NullDevice.mk).result = .error f ∧ (m.step NullDevice.mk).machine = m ∧ f.Internal ∧
      m.Stuck f ∧ ∃ fuel, (m.run (fun _ => true) fuel NullDevice.mk).outcome = .faulted f ∧
        (m.run (fun _ => true) fuel NullDevice.mk).FaultedAfter ⟨m, NullDevice.mk⟩ f := by
  intro m f
  have decoded : m.decode 0 = .ok (.pop ⟨0⟩) := Machine.decode_loaded (by decide) rfl
  have refused : m.Refuses (.pop ⟨0⟩) .stackUnderflow := .pop (by rw [Machine.loaded_stack]; rfl)
  have hfails : m.Fails NullDevice.mk f NullDevice.mk :=
    .action (Machine.isHalted_loaded _ _) decoded refused.action_eq
  have hf : f.Internal := ⟨fun c => Error.noConfusion, Error.noConfusion⟩
  have hend : ∀ m : Machine, m.Fails NullDevice.mk f NullDevice.mk →
      (m.step NullDevice.mk).result = .error f ∧ (m.step NullDevice.mk).machine = m ∧ f.Internal ∧
        m.Stuck f ∧ ∃ fuel, (m.run (fun _ => true) fuel NullDevice.mk).outcome = .faulted f ∧
          (m.run (fun _ => true) fuel NullDevice.mk).FaultedAfter ⟨m, NullDevice.mk⟩ f := by
    intro m hfails
    obtain ⟨log, hs⟩ := hfails.step_eq
    have hresult : (m.step NullDevice.mk).result = .error f := by rw [hs]
    have hruns : RunsTo (fun _ _ => false) 0 ⟨m, NullDevice.mk⟩ (.faulted f) 0 _ :=
      .faulted hresult
    obtain ⟨fuel, hrun, -⟩ := hruns.exists_run fun _ => true
    obtain ⟨hsteps, -, -, -, hruns⟩ := faults_are_atomic m NullDevice.mk
    obtain ⟨hmachine, -, -, hstuck⟩ := hsteps f hresult
    exact ⟨hresult, hmachine, hf, hstuck hf, fuel, hrun, (hruns _ _ f hrun).1⟩
  exact hend _ hfails

end WordMachine
