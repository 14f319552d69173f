import WordMachine.Machine.Step
import WordMachine.Proofs.Decode

/-!
# What a step can do

`Machine.step` is a function with an answer for every case. Here the same is said once more as
rules, so that a proof about steps is a case split on what happened and never an unfolding.

* `Performs` — an instruction has an effect, given what the device answered. A word of input is an
  effect like any other (`store`), so from here on there are effects only.
* `Advances` — the steps that do not fail: the halted machine rests, an unknown opcode is skipped,
  an instruction is performed.
* `Fails` — the steps that do fail, with the fault they answer.

The rules are exactly the function: `advances_of_ok` and `fails_of_error` read a step's answer as a
rule, `Advances.step_eq` and `Fails.step_eq` give the answer back.
-/

namespace WordMachine.Machine

variable {δ : Type} [Device δ]

/-- How a machine stands. -/
def status (m : Machine) : Status := if m.isHalted then .halted else .running

theorem status_eq_running_iff {m : Machine} : m.status = .running ↔ m.isHalted = false := by
  unfold status
  split <;> simp_all

theorem isHalted_eq_false_iff {m : Machine} : m.isHalted = false ↔ m.pc.toNat < memorySize := by
  simp [isHalted]

/-- The words of an instruction that is read lie in memory. -/
theorem pc_add_size_le {m : Machine} {pc : Word} {i : Instruction} (h : m.decode pc = .ok i) :
    pc.toNat + i.size ≤ memorySize := by
  have hle := Instruction.add_size_le_of_decode h
  rwa [Vector.size_toArray] at hle

theorem isHalted_of_decode {m : Machine} {i : Instruction} (h : m.decode m.pc = .ok i) :
    m.isHalted = false := by
  rw [isHalted_eq_false_iff]
  exact Nat.lt_of_lt_of_le (Nat.lt_add_of_pos_right i.size_pos) (pc_add_size_le h)

/-- No address is lost to overflow behind an instruction that is read. -/
theorem toNat_next {m : Machine} {i : Instruction} (h : m.decode m.pc = .ok i) :
    (m.next i).toNat = m.pc.toNat + i.size := by
  have hle := pc_add_size_le h
  simp only [memorySize] at hle
  rw [next, UInt16.toNat_add, UInt16.toNat_ofNat']
  omega

/-- No address is lost to overflow behind a word of memory. -/
theorem toNat_pc_add_one {m : Machine} (running : m.isHalted = false) :
    (m.pc + 1).toNat = m.pc.toNat + 1 := by
  have hlt := isHalted_eq_false_iff.1 running
  rw [memorySize] at hlt
  rw [UInt16.toNat_add]
  show (m.pc.toNat + 1) % 65536 = _
  omega

/-- An instruction has an effect, given the answers of the device. -/
inductive Performs (m : Machine) (d : δ) (i : Instruction) : Effect → δ → Prop
  | effect {e} (action : m.action i = .ok (.effect e)) : Performs m d i e d
  | output {v} (action : m.action i = .ok (.output v))
      (taken : (Device.output d v).result = .ok ()) :
      Performs m d i .next (Device.output d v).device
  | input {dst w} (action : m.action i = .ok (.input dst))
      (given : (Device.input d).result = .ok (some w)) :
      Performs m d i (.store dst w) (Device.input d).device

/-- The steps that do not fail. -/
inductive Advances (m : Machine) (d : δ) : Machine → δ → Prop
  | rest (halted : m.isHalted = true) : Advances m d m d
  | skip {w} (running : m.isHalted = false) (unknown : m.decode m.pc = .error (.unknownOpcode w))
      (lenient : m.policy = .skip) :
      Advances m d { m with pc := m.pc + 1, skipped := m.skipped + 1 } d
  | perform {i e d'} (running : m.isHalted = false) (decoded : m.decode m.pc = .ok i)
      (performs : m.Performs d i e d') : Advances m d (m.apply (m.next i) e) d'

/-- The steps that fail. -/
inductive Fails (m : Machine) (d : δ) : Fault → δ → Prop
  | decode {e} (running : m.isHalted = false) (refused : m.decode m.pc = .error e)
      (strict : ∀ w, e = .unknownOpcode w → m.policy = .fault) :
      Fails m d ⟨m.pc, m.opcode?, e⟩ d
  | action {i e} (running : m.isHalted = false) (decoded : m.decode m.pc = .ok i)
      (refused : m.action i = .error e) : Fails m d ⟨m.pc, i.opcode, e⟩ d
  | output {i v c} (running : m.isHalted = false) (decoded : m.decode m.pc = .ok i)
      (action : m.action i = .ok (.output v)) (failed : (Device.output d v).result = .error c) :
      Fails m d ⟨m.pc, i.opcode, .device c⟩ (Device.output d v).device
  | input {i dst c} (running : m.isHalted = false) (decoded : m.decode m.pc = .ok i)
      (action : m.action i = .ok (.input dst)) (failed : (Device.input d).result = .error c) :
      Fails m d ⟨m.pc, i.opcode, .device c⟩ (Device.input d).device
  | exhausted {i dst} (running : m.isHalted = false) (decoded : m.decode m.pc = .ok i)
      (action : m.action i = .ok (.input dst)) (nothing : (Device.input d).result = .ok none) :
      Fails m d ⟨m.pc, i.opcode, .inputExhausted⟩ (Device.input d).device

variable {m m' : Machine} {d d' : δ}

/-! ### Rules and function agree -/

omit [Device δ] in
theorem settle_eq (m : Machine) (d : δ) (log : List Record) :
    ∃ log', m.settle d log = ⟨.ok m.status, m, d, log'⟩ := by
  unfold settle status
  split
  · exact ⟨_, rfl⟩
  · exact ⟨_, rfl⟩

theorem step_of_isHalted (halted : m.isHalted = true) : m.step d = ⟨.ok .halted, m, d, []⟩ := by
  rw [step, if_pos halted]

theorem step_of_decode {i : Instruction} (running : m.isHalted = false)
    (decoded : m.decode m.pc = .ok i) : m.step d = m.execute i d := by
  simp [step, running, decoded]

theorem step_of_unknown {w : Word} (running : m.isHalted = false)
    (unknown : m.decode m.pc = .error (.unknownOpcode w)) (lenient : m.policy = .skip) :
    m.step d = m.skip w d := by
  simp only [step, running, unknown, lenient, Bool.false_eq_true, if_false]

theorem step_of_refused {e : Error} (running : m.isHalted = false)
    (refused : m.decode m.pc = .error e)
    (strict : ∀ w, e = .unknownOpcode w → m.policy = .fault) :
    m.step d = m.fail m.opcode? e d [] := by
  simp only [step, running, refused, Bool.false_eq_true, if_false]
  cases e with
  | unknownOpcode w => rw [strict w rfl]
  | _ => rfl

omit [Device δ] in
/-- Only an unknown opcode can be passed over, and only if the policy says so. -/
theorem lenient_or_strict (m : Machine) (e : Error) :
    (∃ w, e = .unknownOpcode w ∧ m.policy = .skip) ∨
      ∀ w, e = .unknownOpcode w → m.policy = .fault := by
  cases hp : m.policy with
  | fault => exact .inr fun _ _ => rfl
  | skip =>
    cases e with
    | unknownOpcode w => exact .inl ⟨w, rfl, rfl⟩
    | _ => exact .inr (by simp)

theorem Advances.step_eq (h : m.Advances d m' d') :
    ∃ log, m.step d = ⟨.ok m'.status, m', d', log⟩ := by
  cases h with
  | rest halted =>
    rw [step_of_isHalted halted, status, if_pos halted]
    exact ⟨_, rfl⟩
  | @skip w running unknown lenient =>
    rw [step_of_unknown running unknown lenient]
    exact settle_eq _ d _
  | perform running decoded performs =>
    rw [step_of_decode running decoded]
    cases performs with
    | effect action =>
      simp only [execute, action]
      exact settle_eq _ d _
    | output action taken =>
      simp only [execute, action, taken]
      exact settle_eq _ _ _
    | input action given =>
      simp only [execute, action, given]
      exact settle_eq _ _ _

theorem Fails.step_eq {f : Fault} (h : m.Fails d f d') :
    ∃ log, m.step d = ⟨.error f, m, d', log⟩ := by
  cases h with
  | @decode e running refused strict =>
    rw [step_of_refused running refused strict]
    exact ⟨_, rfl⟩
  | action running decoded refused =>
    rw [step_of_decode running decoded]
    simp only [execute, refused]
    exact ⟨_, rfl⟩
  | output running decoded action failed =>
    rw [step_of_decode running decoded]
    simp only [execute, action, failed]
    exact ⟨_, rfl⟩
  | input running decoded action failed =>
    rw [step_of_decode running decoded]
    simp only [execute, action, failed]
    exact ⟨_, rfl⟩
  | exhausted running decoded action nothing =>
    rw [step_of_decode running decoded]
    simp only [execute, action, nothing]
    exact ⟨_, rfl⟩

theorem Fails.pc_eq {f : Fault} (h : m.Fails d f d') : f.pc = m.pc := by
  cases h <;> rfl

theorem Fails.isHalted_eq {f : Fault} (h : m.Fails d f d') : m.isHalted = false := by
  cases h <;> assumption

/-- There is a rule for every step. -/
theorem advances_or_fails (m : Machine) (d : δ) :
    (∃ m' d', m.Advances d m' d') ∨ ∃ f d', m.Fails d f d' := by
  cases running : m.isHalted with
  | true => exact .inl ⟨_, _, .rest running⟩
  | false =>
    cases decoded : m.decode m.pc with
    | error e =>
      rcases m.lenient_or_strict e with ⟨w, rfl, lenient⟩ | strict
      · exact .inl ⟨_, _, .skip running decoded lenient⟩
      · exact .inr ⟨_, _, .decode running decoded strict⟩
    | ok i =>
      cases action : m.action i with
      | error e => exact .inr ⟨_, _, .action running decoded action⟩
      | ok a =>
        cases a with
        | effect e => exact .inl ⟨_, _, .perform running decoded (.effect action)⟩
        | output v =>
          cases taken : (Device.output d v).result with
          | error c => exact .inr ⟨_, _, .output running decoded action taken⟩
          | ok u => exact .inl ⟨_, _, .perform running decoded (.output action taken)⟩
        | input dst =>
          cases given : (Device.input d).result with
          | error c => exact .inr ⟨_, _, .input running decoded action given⟩
          | ok w =>
            cases w with
            | none => exact .inr ⟨_, _, .exhausted running decoded action given⟩
            | some w => exact .inl ⟨_, _, .perform running decoded (.input action given)⟩

/-- **What a step does**: it advances or it fails, and answers so. -/
theorem step_cases (m : Machine) (d : δ) :
    (∃ m' d' log, m.Advances d m' d' ∧ m.step d = ⟨.ok m'.status, m', d', log⟩) ∨
      ∃ f d' log, m.Fails d f d' ∧ m.step d = ⟨.error f, m, d', log⟩ := by
  rcases advances_or_fails m d with ⟨m', d', h⟩ | ⟨f, d', h⟩
  · obtain ⟨log, hs⟩ := h.step_eq
    exact .inl ⟨m', d', log, h, hs⟩
  · obtain ⟨log, hs⟩ := h.step_eq
    exact .inr ⟨f, d', log, h, hs⟩

theorem advances_of_ok {s : Status} (h : (m.step d).result = .ok s) :
    m.Advances d (m.step d).machine (m.step d).device := by
  rcases step_cases m d with ⟨m', d', log, hr, hs⟩ | ⟨f, d', log, hr, hs⟩
  · rw [hs]
    exact hr
  · rw [hs] at h
    cases h

theorem fails_of_error {f : Fault} (h : (m.step d).result = .error f) :
    m.Fails d f (m.step d).device := by
  rcases step_cases m d with ⟨m', d', log, hr, hs⟩ | ⟨f', d', log, hr, hs⟩
  · rw [hs] at h
    cases h
  · rw [hs] at h ⊢
    cases h
    exact hr

end WordMachine.Machine
