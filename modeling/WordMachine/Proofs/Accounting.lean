import WordMachine.Device
import WordMachine.Proofs.Calls

/-!
# No input or output is lost

What was asked of a device during a run can be told from its trail (`Rig.call?`), and so can what
came of it: a value is taken exactly if the `out` is executed that hands it over, and a word is
given exactly if an `in` is executed that stores it. A step that fails has taken no word.
-/

namespace WordMachine

/-- The word that a recorder hands out with a supply. -/
def Recorder.Supply.word? : Supply → Option Word
  | .word w => some w
  | .nothing | .failure _ => none

namespace Rig

variable {δ : Type} [Device δ]

/-! ### Single steps -/

/-- **A value is emitted exactly if the device is called with it and takes it.** -/
theorem call?_eq_output_iff {r : Rig δ} {v : Word} :
    r.call? = some (.output v (.ok ())) ↔ r.emitted? = some v := by
  rcases r.call_cases with ⟨a, h⟩ | ⟨dst, h⟩ | h
  · rw [(step_out h).2.1, call?_of_out h]
    cases (Device.output r.device (r.machine.value a)).result with
    | error c => simp [Except.toOption]
    | ok u => simp [Except.toOption]
  · rw [(step_inp h).2.2, call?_of_inp h]
    simp
  · rw [(step_of_call?_eq_none h).2.1, h]
    simp

/-- **A word is received exactly if the device is asked for one and gives it.** -/
theorem call?_eq_input_iff {r : Rig δ} {w : Word} :
    r.call? = some (.input (.ok (some w))) ↔ r.received? = some w := by
  rcases r.call_cases with ⟨a, h⟩ | ⟨dst, h⟩ | h
  · rw [(step_out h).2.2, call?_of_out h]
    simp
  · rw [(step_inp h).2.1, call?_of_inp h]
    rcases (Device.input r.device).result with c | - | w'
    · simp [Except.toOption]
    · simp [Except.toOption]
    · simp [Except.toOption]
  · rw [(step_of_call?_eq_none h).2.2, h]
    simp

/-- **A step that fails has taken no word.** -/
theorem call?_ne_input_of_error {r : Rig δ} {f : Fault} (h : r.answer = .error f) (w : Word) :
    r.call? ≠ some (.input (.ok (some w))) := by
  intro hgiven
  have hreceived := call?_eq_input_iff.1 hgiven
  rw [received?, executed?_of_error h] at hreceived
  cases hreceived

/-- What a recorder notes in a step is the value that the step emits. -/
theorem recorded_step (r : Rig Recorder) :
    r.step.device.recorded.toList = r.device.recorded.toList ++ r.emitted?.toList := by
  rcases r.call_cases with ⟨a, h⟩ | ⟨dst, h⟩ | h
  · obtain ⟨hdevice, hemitted, -⟩ := step_out h
    rw [hdevice, hemitted]
    show (Recorder.output _ _).device.recorded.toList =
      _ ++ ((Recorder.output _ _).result.toOption.map _).toList
    unfold Recorder.output
    split
    · simp [Except.toOption]
    · simp [Except.toOption]
  · obtain ⟨hdevice, -, hemitted⟩ := step_inp h
    rw [hdevice, hemitted]
    show (Recorder.input _).device.recorded.toList = _
    unfold Recorder.input
    split
    · simp
    · simp
  · obtain ⟨hdevice, hemitted, -⟩ := step_of_call?_eq_none h
    rw [hdevice, hemitted]
    simp

/-- A step uses up the supplies that it takes, and what they hold it receives. -/
theorem supplies_step (r : Rig Recorder) :
    ∃ used, r.device.supplies = used ++ r.step.device.supplies ∧
      used.filterMap Recorder.Supply.word? = r.received?.toList := by
  rcases r.call_cases with ⟨a, h⟩ | ⟨dst, h⟩ | h
  · obtain ⟨hdevice, -, hreceived⟩ := step_out h
    rw [hdevice, hreceived]
    refine ⟨[], ?_, rfl⟩
    show _ = [] ++ (Recorder.output _ _).device.supplies
    unfold Recorder.output
    split
    · rfl
    · rfl
  · obtain ⟨hdevice, hreceived, -⟩ := step_inp h
    rw [hdevice, hreceived]
    show ∃ used, _ = used ++ (Recorder.input _).device.supplies ∧
      _ = ((Recorder.input _).result.toOption.join).toList
    rcases hsupplies : r.device.supplies with - | ⟨s, rest⟩
    · rw [Recorder.input, hsupplies]
      exact ⟨[], by simp [hsupplies], rfl⟩
    · rw [Recorder.input, hsupplies]
      refine ⟨[s], rfl, ?_⟩
      cases s with
      | word | nothing | failure => rfl
  · obtain ⟨hdevice, -, hreceived⟩ := step_of_call?_eq_none h
    rw [hdevice, hreceived]
    exact ⟨[], rfl, rfl⟩

/-! ### Runs -/

/-- **What a watched device sees in a run** are the calls of the trail. -/
theorem calls_after (r : Rig (Watched δ)) (n : Nat) :
    (r.after n).device.calls = r.device.calls ++ (r.trail n).filterMap call? :=
  append_trail (·.device.calls) call? calls_step r n

/-- What a recorder notes in a run are the values that the trail emits. -/
theorem recorded_after (r : Rig Recorder) (n : Nat) :
    (r.after n).device.recorded.toList =
      r.device.recorded.toList ++ (r.trail n).filterMap emitted? :=
  append_trail (·.device.recorded.toList) emitted? recorded_step r n

/-- **The supplies used up in a run** are those whose words the run has received. -/
theorem supplies_after (r : Rig Recorder) (n : Nat) :
    ∃ used, r.device.supplies = used ++ (r.after n).device.supplies ∧
      used.filterMap Recorder.Supply.word? = (r.trail n).filterMap received? := by
  induction n with
  | zero => exact ⟨[], rfl, rfl⟩
  | succ n ih =>
    obtain ⟨used, hused, hwords⟩ := ih
    obtain ⟨used', hused', hwords'⟩ := (r.after n).supplies_step
    refine ⟨used ++ used', ?_, ?_⟩
    · rw [after_succ, List.append_assoc, ← hused', hused]
    · rw [trail_succ, List.filterMap_append, List.filterMap_append, hwords, hwords']
      cases h : (r.after n).received? with
      | none => simp [h]
      | some w => simp [h]

end Rig

/-- **No input or output is lost, made up or made twice.** With any device and over any number of
steps, the calls that a machine makes to its device are those of the `out`s and `in`s that it reads,
one each and in order, and a step that reads neither leaves the device alone. A value is taken
exactly if its `out` is executed, a word is given exactly if an `in` is executed and has stored it,
and a step that fails has taken none. So a recorder notes the values of the `out`s executed, and the
words that it has handed out are those that the `in`s executed have stored. -/
theorem device_accounting {δ : Type} [Device δ] (r : Rig (Watched δ)) (q : Rig Recorder) (n : Nat) :
    (r.after n).device.calls = r.device.calls ++ (r.trail n).filterMap Rig.call? ∧
    (∀ s : Rig δ,
      (s.call? = none → s.step.device = s.device) ∧
      (∀ v, s.call? = some (.output v (.ok ())) ↔ s.emitted? = some v) ∧
      (∀ w, s.call? = some (.input (.ok (some w))) ↔ s.received? = some w) ∧
      ∀ f, s.answer = .error f → ∀ w, s.call? ≠ some (.input (.ok (some w)))) ∧
    (q.after n).device.recorded.toList =
      q.device.recorded.toList ++ (q.trail n).filterMap Rig.emitted? ∧
    ∃ used, q.device.supplies = used ++ (q.after n).device.supplies ∧
      used.filterMap Recorder.Supply.word? = (q.trail n).filterMap Rig.received? := by
  refine ⟨r.calls_after n, ?_, q.recorded_after n, q.supplies_after n⟩
  intro s
  exact ⟨fun h => (Rig.step_of_call?_eq_none h).1, fun v => Rig.call?_eq_output_iff,
    fun w => Rig.call?_eq_input_iff, fun f h => Rig.call?_ne_input_of_error h⟩

/-- A program that reads a word and writes it out again. -/
theorem device_accounting_echo :
    let m := Machine.loaded .fault #[20, 32768, 19, 32768]
    let d : Recorder := { supplies := [.word 65] }
    (Rig.after 2 ⟨m, (⟨d, []⟩ : Watched Recorder)⟩).device.calls =
        [.input (.ok (some 65)), .output 65 (.ok ())] ∧
      (Rig.after 2 ⟨m, d⟩).device.recorded.toList = [65] := by
  -- both instructions are there from the start; the second finds what the first has stored
  have second {δ : Type} [Device δ] (m : Machine) (e : δ) (hpc : m.pc = 0)
      (hinp : m.decode m.pc = .ok (.inp ⟨0⟩)) (hout : m.decode 2 = .ok (.out (.register ⟨0⟩)))
      (given : (Device.input e).result = .ok (some 65)) :
      (Rig.step ⟨m, e⟩).machine.decode (Rig.step ⟨m, e⟩).machine.pc =
          .ok (.out (.register ⟨0⟩)) ∧
        (Rig.step ⟨m, e⟩).machine.value (.register ⟨0⟩) = 65 := by
    have hadv : m.Advances e _ _ := .perform (Machine.isHalted_of_decode hinp) hinp
      (.input Machine.Yields.inp.action_eq given)
    rw [(Rig.step_of_advances hadv).2]
    refine ⟨?_, (Machine.register_setRegister m ⟨0⟩ ⟨0⟩ 65).trans (if_pos rfl)⟩
    show m.decode (m.pc + 2) = _
    rw [hpc]
    exact hout
  have htrail {δ α : Type} [Device δ] (f : Rig δ → Option α) (r : Rig δ) :
      (r.trail 2).filterMap f = [r, r.step].filterMap f := by
    simp [Rig.trail_succ, Rig.after_succ]
  have hrun : ∀ m : Machine, m.pc = 0 → m.decode m.pc = .ok (.inp ⟨0⟩) →
      m.decode 2 = .ok (.out (.register ⟨0⟩)) →
      let d : Recorder := { supplies := [.word 65] }
      (Rig.after 2 ⟨m, (⟨d, []⟩ : Watched Recorder)⟩).device.calls =
          [.input (.ok (some 65)), .output 65 (.ok ())] ∧
        (Rig.after 2 ⟨m, d⟩).device.recorded.toList = [65] := by
    intro m hpc hinp hout d
    obtain ⟨hcalls, -, hrecorded, -⟩ :=
      device_accounting (⟨m, ⟨d, []⟩⟩ : Rig (Watched Recorder)) ⟨m, d⟩ 2
    constructor
    · obtain ⟨hsecond, hvalue⟩ := second m (⟨d, []⟩ : Watched Recorder) hpc hinp hout rfl
      have hfirst : Rig.call? ⟨m, (⟨d, []⟩ : Watched Recorder)⟩ = some (.input (.ok (some 65))) :=
        Rig.call?_of_inp hinp
      have hnext : (Rig.step ⟨m, (⟨d, []⟩ : Watched Recorder)⟩).call? =
          some (.output 65 (.ok ())) := by
        rw [Rig.call?_of_out hsecond, hvalue, (Rig.step_inp hinp).1]
        rfl
      rw [hcalls, htrail]
      simp [hfirst, hnext]
    · obtain ⟨hsecond, hvalue⟩ := second m d hpc hinp hout rfl
      have hfirst : Rig.emitted? ⟨m, d⟩ = none := (Rig.step_inp hinp).2.2
      have hnext : (Rig.step ⟨m, d⟩).emitted? = some 65 := by
        rw [(Rig.step_out hsecond).2.1, hvalue, (Rig.step_inp hinp).1]
        rfl
      rw [hrecorded, htrail]
      simp [hfirst, hnext, d]
  exact hrun _ rfl (Machine.decode_loaded (by decide) rfl) (Machine.decode_loaded (by decide) rfl)

end WordMachine
