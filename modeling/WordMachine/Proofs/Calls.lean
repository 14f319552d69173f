import WordMachine.Proofs.Trail

/-!
# What a step asks of its device

A machine calls its device only for an `out` or an `in` that it has read to the end, and then once
(`Rig.call?`, `Rig.call_cases`). The instruction is executed if the device takes the value of the
`out` (`Rig.emitted?`), or gives the word that the `in` stores (`Rig.received?`). Every other step
leaves the device alone.
-/

namespace WordMachine

namespace Rig

variable {δ : Type} [Device δ]

/-- What a step asks of its device, and the answer: an `out` or an `in` that is read asks once. -/
def call? (r : Rig δ) : Option Device.Call :=
  match r.machine.decode r.machine.pc with
  | .ok (.out a) =>
    some (.output (r.machine.value a) (Device.output r.device (r.machine.value a)).result)
  | .ok (.inp _) => some (.input (Device.input r.device).result)
  | _ => none

/-- The value of the `out` that a step executes. -/
def emitted? (r : Rig δ) : Option Word :=
  match r.executed? with
  | some (.out a) => some (r.machine.value a)
  | _ => none

/-- What the `in` that a step executes has stored: its destination holds it afterwards. -/
def received? (r : Rig δ) : Option Word :=
  match r.executed? with
  | some (.inp dst) => some (r.step.machine.register dst)
  | _ => none

theorem call?_of_out {r : Rig δ} {a : Operand} (h : r.machine.decode r.machine.pc = .ok (.out a)) :
    r.call? =
      some (.output (r.machine.value a) (Device.output r.device (r.machine.value a)).result) := by
  rw [call?, h]

theorem call?_of_inp {r : Rig δ} {dst : Register}
    (h : r.machine.decode r.machine.pc = .ok (.inp dst)) :
    r.call? = some (.input (Device.input r.device).result) := by
  rw [call?, h]

/-- A step that reads an `out` hands its value to the device, and executes it if that is taken. -/
theorem step_out {r : Rig δ} {a : Operand} (h : r.machine.decode r.machine.pc = .ok (.out a)) :
    r.step.device = (Device.output r.device (r.machine.value a)).device ∧
      r.emitted? = (Device.output r.device (r.machine.value a)).result.toOption.map
        (fun _ => r.machine.value a) ∧ r.received? = none := by
  obtain ⟨m, d⟩ := r
  have running := Machine.isHalted_of_decode h
  have action : m.action (.out a) = .ok (.output (m.value a)) := Machine.Yields.out.action_eq
  cases taken : (Device.output d (m.value a)).result with
  | error c =>
    obtain ⟨hanswer, hstep⟩ := step_of_fails (.output running h action taken)
    rw [emitted?, received?, executed?_of_error hanswer, hstep]
    exact ⟨rfl, rfl, rfl⟩
  | ok u =>
    obtain ⟨hanswer, hstep⟩ := step_of_advances (.perform running h (.output action taken))
    rw [emitted?, received?, executed?_eq_some_iff.2 ⟨h, _, hanswer⟩, hstep]
    exact ⟨rfl, rfl, rfl⟩

/-- A step that reads an `in` asks the device for a word, and executes it if there is one: that is
what it stores. -/
theorem step_inp {r : Rig δ} {dst : Register}
    (h : r.machine.decode r.machine.pc = .ok (.inp dst)) :
    r.step.device = (Device.input r.device).device ∧
      r.received? = (Device.input r.device).result.toOption.join ∧ r.emitted? = none := by
  obtain ⟨m, d⟩ := r
  have running := Machine.isHalted_of_decode h
  have action : m.action (.inp dst) = .ok (.input dst) := Machine.Yields.inp.action_eq
  rcases given : (Device.input d).result with c | - | w
  · obtain ⟨hanswer, hstep⟩ := step_of_fails (.input running h action given)
    rw [emitted?, received?, executed?_of_error hanswer, hstep]
    exact ⟨rfl, rfl, rfl⟩
  · obtain ⟨hanswer, hstep⟩ := step_of_fails (.exhausted running h action given)
    rw [emitted?, received?, executed?_of_error hanswer, hstep]
    exact ⟨rfl, rfl, rfl⟩
  · obtain ⟨hanswer, hstep⟩ := step_of_advances (.perform running h (.input action given))
    rw [emitted?, received?, executed?_eq_some_iff.2 ⟨h, _, hanswer⟩, hstep]
    refine ⟨rfl, congrArg some ?_, rfl⟩
    exact (Machine.register_setRegister m dst dst w).trans (if_pos rfl)

/-- Every other step leaves the device alone. -/
theorem step_of_call?_eq_none {r : Rig δ} (h : r.call? = none) :
    r.step.device = r.device ∧ r.emitted? = none ∧ r.received? = none := by
  have hout (a : Operand) : r.machine.decode r.machine.pc ≠ .ok (.out a) := by
    intro hdecode
    cases h.symm.trans (call?_of_out hdecode)
  have hinp (dst : Register) : r.machine.decode r.machine.pc ≠ .ok (.inp dst) := by
    intro hdecode
    cases h.symm.trans (call?_of_inp hdecode)
  have hdevice : r.step.device = r.device := by
    rcases r.step_cases with ⟨m', d', hadv, -, hstep⟩ | ⟨f, d', hfails, -, hstep⟩
    · rw [hstep]
      cases hadv with
      | rest | skip => rfl
      | perform _ decoded performs =>
        cases performs with
        | effect => rfl
        | output action =>
          cases Machine.action_eq_ok_iff.1 action
          exact absurd decoded (hout _)
        | input action =>
          cases Machine.action_eq_ok_iff.1 action
          exact absurd decoded (hinp _)
    · rw [hstep]
      cases hfails with
      | decode | action => rfl
      | output _ decoded action =>
        cases Machine.action_eq_ok_iff.1 action
        exact absurd decoded (hout _)
      | input _ decoded action | exhausted _ decoded action =>
        cases Machine.action_eq_ok_iff.1 action
        exact absurd decoded (hinp _)
  refine ⟨hdevice, ?_⟩
  rw [emitted?, received?]
  cases hexecuted : r.executed? with
  | none => exact ⟨rfl, rfl⟩
  | some i =>
    have hdecode := (executed?_eq_some_iff.1 hexecuted).1
    cases i with
    | out a => exact absurd hdecode (hout a)
    | inp dst => exact absurd hdecode (hinp dst)
    | _ => exact ⟨rfl, rfl⟩

/-- A step reads an `out` or an `in`, or asks nothing of its device. -/
theorem call_cases (r : Rig δ) :
    (∃ a, r.machine.decode r.machine.pc = .ok (.out a)) ∨
      (∃ dst, r.machine.decode r.machine.pc = .ok (.inp dst)) ∨ r.call? = none := by
  cases hdecode : r.machine.decode r.machine.pc with
  | error e => exact .inr (.inr (by rw [call?, hdecode]))
  | ok i =>
    cases i with
    | out a => exact .inl ⟨a, rfl⟩
    | inp dst => exact .inr (.inl ⟨dst, rfl⟩)
    | _ => exact .inr (.inr (by rw [call?, hdecode]))

/-- **What a watched device sees in a step** is the call of the step. -/
theorem calls_step (r : Rig (Watched δ)) :
    r.step.device.calls = r.device.calls ++ r.call?.toList := by
  rcases r.call_cases with ⟨a, h⟩ | ⟨dst, h⟩ | h
  · rw [(step_out h).1, call?_of_out h]
    rfl
  · rw [(step_inp h).1, call?_of_inp h]
    rfl
  · rw [(step_of_call?_eq_none h).1, h]
    simp

/-- A step leads to a device that calls lead to. -/
theorem leads_step (r : Rig δ) : Device.Leads r.device r.step.device := by
  rcases r.call_cases with ⟨a, h⟩ | ⟨dst, h⟩ | h
  · rw [(step_out h).1]
    exact .output _ .refl
  · rw [(step_inp h).1]
    exact .input .refl
  · rw [(step_of_call?_eq_none h).1]
    exact .refl

end Rig

end WordMachine
