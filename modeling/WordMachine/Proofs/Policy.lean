import WordMachine.Proofs.Causes
import WordMachine.Proofs.Session

/-!
# The policy for unknown opcodes

The policy is asked for in one place only: when the word at the program counter is no opcode. Two
machines that differ in their policy alone go on alike until they get to such a word. There the
lenient one passes over it and counts, and the strict one fails and stays.

* `Machine.AtUnknown` — the word at the program counter is no opcode;
* `Rig.step_setPolicy` — any other step is the same under every policy;
* `Rig.step_lenient`, `Rig.step_strict` — what the two policies do about an unknown opcode;
* `Rig.after_setPolicy` — as long as nothing was skipped, the policy could have been another one.
-/

namespace WordMachine

namespace Machine

/-- The word at the program counter is no opcode. -/
structure AtUnknown (m : Machine) (w : Word) : Prop where
  read : m.readMemory m.pc = .ok w
  unknown : Opcode.ofWord? w = none

variable {δ : Type} [Device δ] {m m' : Machine} {d d' : δ} {i : Instruction} {w : Word}

theorem decode_eq_unknown_iff : m.decode m.pc = .error (.unknownOpcode w) ↔ m.AtUnknown w := by
  rw [decode, Instruction.decode_eq_unknownOpcode_iff, ← readMemory_eq_ok_iff]
  constructor
  · rintro ⟨read, unknown⟩
    exact ⟨read, unknown⟩
  · rintro ⟨read, unknown⟩
    exact ⟨read, unknown⟩

theorem AtUnknown.isHalted_eq (h : m.AtUnknown w) : m.isHalted = false := by
  have hword := readMemory_eq_ok_iff.1 h.read
  rw [isHalted_eq_false_iff, ← Vector.size_toArray m.memory]
  exact (Array.getElem?_eq_some_iff.1 hword).1

theorem AtUnknown.opcode?_eq (h : m.AtUnknown w) : m.opcode? = none := by
  have hword := readMemory_eq_ok_iff.1 h.read
  rw [Vector.getElem?_toArray] at hword
  rw [opcode?, hword]
  exact h.unknown

/-! ### What the policy has no part in -/

@[simp] theorem action_policy (m : Machine) (policy : Policy) (i : Instruction) :
    Machine.action { m with policy } i = m.action i := by
  cases i <;> rfl

@[simp] theorem apply_policy (m : Machine) (policy : Policy) (next : Word) (e : Effect) :
    Machine.apply { m with policy } next e = { m.apply next e with policy } := by
  cases e <;> rfl

@[simp] theorem policy_apply (m : Machine) (next : Word) (e : Effect) :
    (m.apply next e).policy = m.policy := by
  cases e <;> rfl

@[simp] theorem skipped_apply (m : Machine) (next : Word) (e : Effect) :
    (m.apply next e).skipped = m.skipped := by
  cases e <;> rfl

theorem Performs.setPolicy {e : Effect} (h : m.Performs d i e d') (policy : Policy) :
    Performs { m with policy } d i e d' := by
  cases h with
  | effect action => exact .effect (by simpa using action)
  | output action taken => exact .output (by simpa using action) taken
  | input action given => exact .input (by simpa using action) given

/-- **Where the opcode is known, the policy makes no difference** to a step that does not fail. -/
theorem Advances.setPolicy (h : m.Advances d m' d') (known : ∀ w, ¬ m.AtUnknown w)
    (policy : Policy) : Advances { m with policy } d { m' with policy } d' := by
  cases h with
  | rest halted => exact .rest halted
  | skip running unknown => exact absurd (decode_eq_unknown_iff.1 unknown) (known _)
  | perform running decoded performs =>
    rw [← apply_policy]
    exact .perform running decoded (performs.setPolicy policy)

/-- **Where the opcode is known, the policy makes no difference** to a step that fails. -/
theorem Fails.setPolicy {f : Fault} (h : m.Fails d f d') (known : ∀ w, ¬ m.AtUnknown w)
    (policy : Policy) : Fails { m with policy } d f d' := by
  cases h with
  | decode running refused =>
    refine .decode running refused ?_
    rintro w rfl
    exact absurd (decode_eq_unknown_iff.1 refused) (known w)
  | action running decoded refused => exact .action running decoded (by simpa using refused)
  | output running decoded action failed =>
    exact .output running decoded (by simpa using action) failed
  | input running decoded action failed =>
    exact .input running decoded (by simpa using action) failed
  | exhausted running decoded action nothing =>
    exact .exhausted running decoded (by simpa using action) nothing

theorem Advances.policy_eq (h : m.Advances d m' d') : m'.policy = m.policy := by
  cases h with
  | rest | skip => rfl
  | perform => simp

/-! ### What the policy decides -/

/-- **Only an unknown opcode is counted**, and only by a lenient machine. -/
theorem Advances.skipped_eq (h : m.Advances d m' d') :
    m'.skipped = m.skipped ∧ (∀ w, ¬ m.AtUnknown w) ∨
      m'.skipped = m.skipped + 1 ∧ m.policy = .skip ∧ ∃ w, m.AtUnknown w := by
  cases h with
  | rest halted =>
    refine .inl ⟨rfl, ?_⟩
    intro w hw
    cases halted.symm.trans hw.isHalted_eq
  | @skip w running unknown lenient =>
    exact .inr ⟨rfl, lenient, w, decode_eq_unknown_iff.1 unknown⟩
  | perform running decoded =>
    refine .inl ⟨by simp, ?_⟩
    intro w hw
    cases decoded.symm.trans (decode_eq_unknown_iff.2 hw)

/-- **Only a strict machine fails because of an unknown opcode.** -/
theorem Fails.policy_eq {f : Fault} (h : m.Fails d f d') (hf : f.cause = .unknownOpcode w) :
    m.policy = .fault := by
  have hcause := h.cause.1
  rw [hf] at hcause
  cases hcause with
  | unreadable refused strict => exact strict w rfl

theorem Fails.policy_eq_of_atUnknown {f : Fault} (h : m.Fails d f d') (hw : m.AtUnknown w) :
    m.policy = .fault := by
  obtain ⟨v, hv⟩ := (h.cause.1.unknownOpcode_iff h.isHalted_eq).2 hw.opcode?_eq
  exact h.policy_eq hv

end Machine

namespace Rig

variable {δ : Type} [Device δ] {r : Rig δ} {w : Word}

/-- **Where the opcode is known, the policy makes no difference** but for itself. -/
theorem step_setPolicy (known : ∀ w, ¬ r.machine.AtUnknown w) (policy : Policy) :
    (r.serve (.setPolicy policy)).answer = r.answer ∧
      (r.serve (.setPolicy policy)).step = r.step.serve (.setPolicy policy) := by
  rcases r.step_cases with ⟨m', d', h, hanswer, hstep⟩ | ⟨f, d', h, hanswer, hstep⟩
  · rw [hanswer, hstep]
    exact step_of_advances (h.setPolicy known policy)
  · rw [hanswer, hstep]
    exact step_of_fails (h.setPolicy known policy)

theorem step_lenient (h : r.machine.AtUnknown w) (lenient : r.machine.policy = .skip) :
    r.answer = .ok r.step.machine.status ∧
      r.step = ⟨{ r.machine with pc := r.machine.pc + 1, skipped := r.machine.skipped + 1 },
        r.device⟩ := by
  have hadv : r.machine.Advances r.device _ r.device :=
    .skip h.isHalted_eq (Machine.decode_eq_unknown_iff.2 h) lenient
  obtain ⟨hanswer, hstep⟩ := step_of_advances hadv
  refine ⟨?_, hstep⟩
  rw [show r.step = _ from hstep]
  exact hanswer

theorem step_strict (h : r.machine.AtUnknown w) (strict : r.machine.policy = .fault) :
    r.answer = .error ⟨r.machine.pc, none, .unknownOpcode w⟩ ∧ r.step = r := by
  have hfails : r.machine.Fails r.device _ r.device :=
    .decode h.isHalted_eq (Machine.decode_eq_unknown_iff.2 h) (fun _ _ => strict)
  rw [h.opcode?_eq] at hfails
  exact step_of_fails hfails

/-- **A step of a lenient rig counts exactly if it is at an unknown opcode.** -/
theorem skipped_step (lenient : r.machine.policy = .skip) :
    r.step.machine.skipped = r.machine.skipped ∧ (∀ w, ¬ r.machine.AtUnknown w) ∨
      r.step.machine.skipped = r.machine.skipped + 1 ∧ ∃ w, r.machine.AtUnknown w := by
  rcases r.step_cases with ⟨m', d', h, -, hstep⟩ | ⟨f, d', h, -, hstep⟩
  · rw [hstep]
    rcases h.skipped_eq with ⟨hskipped, known⟩ | ⟨hskipped, -, unknown⟩
    · exact .inl ⟨hskipped, known⟩
    · exact .inr ⟨hskipped, unknown⟩
  · rw [hstep]
    refine .inl ⟨rfl, ?_⟩
    intro w hw
    cases lenient.symm.trans (h.policy_eq_of_atUnknown hw)

theorem policy_step (r : Rig δ) : r.step.machine.policy = r.machine.policy := by
  rcases r.step_cases with ⟨m', d', h, -, hstep⟩ | ⟨f, d', h, -, hstep⟩
  · rw [hstep]
    exact h.policy_eq
  · rw [hstep]

@[simp] theorem policy_after (r : Rig δ) (n : Nat) :
    (r.after n).machine.policy = r.machine.policy := by
  induction n with
  | zero => rfl
  | succ n ih => rw [after_succ, policy_step, ih]

theorem skipped_le_after (lenient : r.machine.policy = .skip) (n : Nat) :
    r.machine.skipped ≤ (r.after n).machine.skipped := by
  induction n with
  | zero => exact Nat.le_refl _
  | succ n ih =>
    rw [after_succ]
    rcases skipped_step (r := r.after n) (by simpa using lenient) with ⟨hskipped, -⟩ | ⟨hskipped, -⟩
    · rwa [hskipped]
    · rw [hskipped]
      exact Nat.le_succ_of_le ih

/-- **As long as nothing was skipped, the policy could have been another one.** -/
theorem after_setPolicy (lenient : r.machine.policy = .skip) (policy : Policy) {n : Nat}
    (h : (r.after n).machine.skipped = r.machine.skipped) :
    (r.serve (.setPolicy policy)).after n = (r.after n).serve (.setPolicy policy) := by
  induction n with
  | zero => rfl
  | succ n ih =>
    -- the count never goes down, so nothing was skipped before, and nothing is skipped now
    have hle := skipped_le_after lenient n
    rw [after_succ] at h
    rcases skipped_step (r := r.after n) (by simpa using lenient) with
      ⟨hskipped, known⟩ | ⟨hskipped, -⟩
    · rw [after_succ, ih (by omega), (step_setPolicy known policy).2, after_succ]
    · omega

/-- Where a lenient and a strict rig **part** over a word that is no opcode: the lenient one passes
over the word and counts it, and that is all; the strict one fails and stays as it is. Told to be
lenient as well, it does from there on what the other did. -/
structure Part (lenient strict : Rig δ) (w : Word) : Prop where
  unknown : lenient.machine.AtUnknown w
  passes : lenient.answer = .ok lenient.step.machine.status ∧
    lenient.step = ⟨{ lenient.machine with
      pc := lenient.machine.pc + 1
      skipped := lenient.machine.skipped + 1 }, lenient.device⟩
  behind : (lenient.machine.pc + 1).toNat = lenient.machine.pc.toNat + 1
  fails : ∃ f, strict.answer = .error f ∧ f.pc = lenient.machine.pc ∧ f.mnemonic = "???" ∧
    f.cause = .unknownOpcode w
  stays : strict.step = strict
  resumes : ∀ n, (strict.step.serve (.setPolicy .skip)).after n = lenient.after n

theorem part (h : r.machine.AtUnknown w) (lenient : r.machine.policy = .skip) :
    Part r (r.serve (.setPolicy .fault)) w := by
  have hstrict : (r.serve (.setPolicy .fault)).machine.AtUnknown w := ⟨h.read, h.unknown⟩
  obtain ⟨hanswer, hstep⟩ := step_strict hstrict rfl
  refine ⟨h, step_lenient h lenient, Machine.toNat_pc_add_one h.isHalted_eq, ?_, hstep, ?_⟩
  · exact ⟨_, hanswer, rfl, rfl, rfl⟩
  · intro n
    rw [hstep]
    show after n ⟨{ r.machine with policy := .skip }, r.device⟩ = _
    rw [← lenient]

end Rig

/-- **The policies differ at unknown opcodes only.** A machine is run under either policy. As long
as the lenient one has skipped nothing, both are the same but for the policy, and their steps answer
the same. At the first step that skips they part. Under the lenient policy no step ever fails
because of an unknown opcode. -/
theorem policies_part_at_unknown {δ : Type} [Device δ] (m : Machine) (d : δ) :
    let lenient := Rig.serve ⟨m, d⟩ (.setPolicy .skip)
    let strict := Rig.serve ⟨m, d⟩ (.setPolicy .fault)
    (∀ n, (lenient.after n).machine.skipped = m.skipped →
      strict.after n = (lenient.after n).serve (.setPolicy .fault) ∧
      ((lenient.after (n + 1)).machine.skipped = m.skipped →
        (strict.after n).answer = (lenient.after n).answer) ∧
      (m.skipped < (lenient.after (n + 1)).machine.skipped →
        ∃ w, Rig.Part (lenient.after n) (strict.after n) w)) ∧
    ∀ f, m.policy = .skip → (m.step d).result = .error f → ∀ w, f.cause ≠ .unknownOpcode w := by
  intro lenient strict
  refine ⟨?_, ?_⟩
  · intro n hn
    have hlenient : (lenient.after n).machine.policy = .skip := by simp [lenient, Rig.serve]
    have hstrict : strict.after n = (lenient.after n).serve (.setPolicy .fault) :=
      Rig.after_setPolicy rfl .fault hn
    have hcount := Rig.skipped_step hlenient
    rw [← Rig.after_succ, hn] at hcount
    refine ⟨hstrict, ?_, ?_⟩
    · intro hsame
      rcases hcount with ⟨-, known⟩ | ⟨hskipped, -⟩
      · rw [hstrict]
        exact (Rig.step_setPolicy known .fault).1
      · omega
    · intro hmore
      rcases hcount with ⟨hskipped, -⟩ | ⟨-, w, unknown⟩
      · omega
      · rw [hstrict]
        exact ⟨w, Rig.part unknown hlenient⟩
  · intro f hpolicy hf w hw
    cases hpolicy.symm.trans ((Machine.fails_of_error hf).policy_eq hw)

/-- A `noop`, a word that is no opcode, and a `pop` that fails for another reason. -/
theorem policies_part_at_unknown_pop :
    let r : Rig NullDevice := ⟨Machine.loaded .skip #[21, 30, 3, 32768], .mk⟩
    let lenient := r.serve (.setPolicy .skip)
    let strict := r.serve (.setPolicy .fault)
    strict.answer = lenient.answer ∧ (∃ w, Rig.Part (lenient.after 1) (strict.after 1) w) ∧
      ∃ f, (lenient.after 2).answer = .error f ∧ ∀ w, f.cause ≠ .unknownOpcode w := by
  have hparts : ∀ m : Machine, m.pc = 0 → m.stack = .empty → m.decode 0 = .ok .noop →
      m.decode 1 = .error (.unknownOpcode 30) → m.decode 2 = .ok (.pop ⟨0⟩) →
      let lenient := Rig.serve (⟨m, .mk⟩ : Rig NullDevice) (.setPolicy .skip)
      let strict := Rig.serve (⟨m, .mk⟩ : Rig NullDevice) (.setPolicy .fault)
      strict.answer = lenient.answer ∧ (∃ w, Rig.Part (lenient.after 1) (strict.after 1) w) ∧
        ∃ f, (lenient.after 2).answer = .error f ∧ ∀ w, f.cause ≠ .unknownOpcode w := by
    intro m hpc hstack hnoop hunknown hpop lenient strict
    obtain ⟨hparted, -⟩ := policies_part_at_unknown m NullDevice.mk
    -- the lenient run, over the `noop` and over the unknown opcode
    let m₀ : Machine := { m with policy := .skip }
    let m₁ : Machine := { m₀ with pc := 1 }
    let m₂ : Machine := { m₁ with pc := 2, skipped := m.skipped + 1 }
    have hfirst : lenient.after 1 = ⟨m₁, .mk⟩ := by
      have decoded : m₀.decode m₀.pc = .ok .noop := by
        rw [← hpc] at hnoop
        exact hnoop
      have hadv : m₀.Advances NullDevice.mk { m₀ with pc := m.pc + 1 } NullDevice.mk :=
        .perform (Machine.isHalted_of_decode decoded) decoded (.effect rfl)
      have hnext : m.pc + 1 = 1 := by
        rw [hpc]
        rfl
      rw [hnext] at hadv
      exact (Rig.step_of_advances hadv).2
    have hsecond : lenient.after 2 = ⟨m₂, .mk⟩ := by
      have hadv : m₁.Advances NullDevice.mk m₂ NullDevice.mk := .skip rfl hunknown rfl
      rw [Rig.after_succ, hfirst]
      exact (Rig.step_of_advances hadv).2
    have hsame : (lenient.after 1).machine.skipped = m.skipped := by
      rw [hfirst]
    refine ⟨(hparted 0 rfl).2.1 hsame, (hparted 1 hsame).2.2 ?_, ?_⟩
    · show m.skipped < (lenient.after 2).machine.skipped
      rw [hsecond]
      exact Nat.lt_succ_self _
    · have hpop₂ : m₂.Refuses (.pop ⟨0⟩) .stackUnderflow := by
        apply Machine.Refuses.pop
        show m.stack.top? = none
        rw [hstack]
        rfl
      have hfails : m₂.Fails NullDevice.mk _ NullDevice.mk := .action rfl hpop hpop₂.action_eq
      have hanswer := (Rig.step_of_fails hfails).1
      rw [hsecond]
      exact ⟨_, hanswer, (policies_part_at_unknown m₂ NullDevice.mk).2 _ rfl hanswer⟩
  have hunknown : Machine.decode (Machine.loaded .skip #[21, 30, 3, 32768]) 1 =
      .error (.unknownOpcode 30) :=
    Instruction.decode_eq_unknownOpcode_iff.2
      ⟨Machine.getElem?_loaded .skip _ (by decide), by decide⟩
  exact hparts _ rfl rfl (Machine.decode_loaded (by decide) rfl) hunknown
    (Machine.decode_loaded (by decide) rfl)

end WordMachine
