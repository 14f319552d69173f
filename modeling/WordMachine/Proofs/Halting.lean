import WordMachine.Machine.Run
import WordMachine.Proofs.Causes
import WordMachine.Proofs.Session

/-!
# The end of memory

A machine has halted if its program counter is no address. There are three ways to get there: the
machine is told to halt, or it returns with an empty stack, or it runs off the end of memory. All
three lead to the same place, right behind the last word, and none leads further.

* `Effect.pc` — where an effect goes on; `Performs.pc_eq` sorts the instructions by that.
* `Ends` — the ways to halt, read off the instruction at the program counter.
* `Advances.pc_le`, `Advances.pc_eq_iff` — a step stays within memory or stops right behind it, and
  does the latter exactly if the machine `Ends`.
* `AtRest` — what becomes of a machine that has halted: nothing.
-/

namespace WordMachine

/-- Where the machine goes on after an effect of an instruction with another one behind it. -/
def Effect.pc (next : Word) : Effect → Word
  | .jump target | .call target | .ret target => target.word
  | .halt _ => Machine.haltedPc
  | .next | .store .. | .write .. | .push _ | .pop .. => next

namespace Machine

@[simp] theorem pc_apply (m : Machine) (next : Word) (e : Effect) :
    (m.apply next e).pc = e.pc next := by
  cases e <;> rfl

/-- **The ways to halt**: a machine that is about to do one of these has halted afterwards. -/
inductive Ends (m : Machine) : Prop
  | halt (decoded : m.decode m.pc = .ok .halt) : Ends m
  | emptyReturn (decoded : m.decode m.pc = .ok .ret) (empty : m.stack.depth = 0) : Ends m
  /-- An instruction that does not go on elsewhere ends with the last word of memory. -/
  | lastWord {i} (decoded : m.decode m.pc = .ok i) (onward : m.target? i = none)
      (last : m.pc.toNat + i.size = memorySize) : Ends m
  /-- The last word of memory is no opcode and is skipped. -/
  | skip {w} (unknown : m.decode m.pc = .error (.unknownOpcode w)) (lenient : m.policy = .skip)
      (last : m.pc.toNat + 1 = memorySize) : Ends m

/-- A machine is **at rest** if all that it answers is that it has halted, and if nothing is
changed by asking, no device is called, and nothing is reported. -/
structure AtRest (m : Machine) : Prop where
  step : ∀ (ε : Type) [Device ε] (e : ε), m.step e = ⟨.ok .halted, m, e, []⟩
  after : ∀ (ε : Type) [Device ε] (e : ε) (n : Nat), Rig.after n ⟨m, e⟩ = ⟨m, e⟩
  run : ∀ (ε : Type) [Device ε] (e : ε) keep fuel,
    m.run keep (fuel + 1) e = ⟨.halted, 0, m, e, #[]⟩
  runUntil : ∀ (ε : Type) [Device ε] (e : ε) keep stop fuel,
    m.runUntil keep stop (fuel + 1) e = ⟨.halted, 0, m, e, #[]⟩
  uncalled : ∀ (ε : Type) [Device ε] (e : ε) keep stop fuel,
    (m.step (⟨e, []⟩ : Watched ε)).device.calls = [] ∧
      (m.runUntil keep stop fuel (⟨e, []⟩ : Watched ε)).device.calls = []

variable {δ : Type} [Device δ] {m m' : Machine} {d d' : δ} {i : Instruction}

/-! ### Where instructions go on -/

theorem target?_ret_eq_none_iff : m.target? .ret = none ↔ m.stack.depth = 0 :=
  Stack.top?_eq_none_iff

/-- The ways to halt that an instruction has. -/
theorem ends_iff_of_decode (decoded : m.decode m.pc = .ok i) :
    m.Ends ↔ i = .halt ∨ i = .ret ∧ m.stack.depth = 0 ∨
      m.target? i = none ∧ m.pc.toNat + i.size = memorySize := by
  have same {j : Instruction} (h : m.decode m.pc = .ok j) : j = i :=
    Except.ok.inj (h.symm.trans decoded)
  constructor
  · intro ends
    cases ends with
    | halt decoded => exact .inl (same decoded).symm
    | emptyReturn decoded empty => exact .inr (.inl ⟨(same decoded).symm, empty⟩)
    | lastWord decoded onward last =>
      rw [same decoded] at onward last
      exact .inr (.inr ⟨onward, last⟩)
    | skip unknown => cases decoded.symm.trans unknown
  · rintro (rfl | ⟨rfl, empty⟩ | ⟨onward, last⟩)
    · exact .halt decoded
    · exact .emptyReturn decoded empty
    · exact .lastWord decoded onward last

theorem not_ends_of_target {w : Word} (decoded : m.decode m.pc = .ok i)
    (target : m.target? i = some w) : ¬ m.Ends := by
  rw [ends_iff_of_decode decoded]
  rintro (rfl | ⟨rfl, empty⟩ | ⟨onward, -⟩)
  · cases target
  · cases (target?_ret_eq_none_iff.2 empty).symm.trans target
  · cases onward.symm.trans target

/-- The one way to halt that a word has which is skipped. -/
theorem ends_iff_of_unknown {w : Word} (unknown : m.decode m.pc = .error (.unknownOpcode w))
    (lenient : m.policy = .skip) : m.Ends ↔ m.pc.toNat + 1 = memorySize := by
  constructor
  · intro ends
    cases ends with
    | halt decoded | emptyReturn decoded | lastWord decoded => cases decoded.symm.trans unknown
    | skip _ _ last => exact last
  · intro last
    exact .skip unknown lenient last

/-- **Where a performed instruction goes on**: at its target, if it has one, and else behind itself,
unless it is there to halt. -/
theorem Performs.pc_eq {e : Effect} (h : m.Performs d i e d') (next : Word) :
    (∃ t : Address, m.target? i = some t.word ∧ e.pc next = t.word) ∨
      m.target? i = none ∧ (i = .halt ∨ i = .ret) ∧ e.pc next = haltedPc ∨
      m.target? i = none ∧ i ≠ .halt ∧ i ≠ .ret ∧ e.pc next = next := by
  cases h with
  | effect action =>
    cases action_eq_ok_iff.1 action with
    | @jmp a t target | @call a t target => exact .inl ⟨t, by rw [target?, target], rfl⟩
    | @jt_taken a b t test target | @jf_taken a b t test target =>
      exact .inl ⟨t, by rw [target?, if_pos test, target], rfl⟩
    | @ret t top => exact .inl ⟨t, top, rfl⟩
    | halt => exact .inr (.inl ⟨rfl, .inl rfl, rfl⟩)
    | ret_empty top => exact .inr (.inl ⟨top, .inr rfl, rfl⟩)
    | jt_passed test => exact .inr (.inr ⟨if_neg (not_not_intro test), nofun, nofun, rfl⟩)
    | jf_passed test => exact .inr (.inr ⟨if_neg test, nofun, nofun, rfl⟩)
    | _ => exact .inr (.inr ⟨rfl, nofun, nofun, rfl⟩)
  | output action =>
    cases action_eq_ok_iff.1 action
    exact .inr (.inr ⟨rfl, nofun, nofun, rfl⟩)
  | input action =>
    cases action_eq_ok_iff.1 action
    exact .inr (.inr ⟨rfl, nofun, nofun, rfl⟩)

/-- **A step stays within memory or stops right behind it.** -/
theorem Advances.pc_le (h : m.Advances d m' d') (hm : m.pc.toNat ≤ memorySize) :
    m'.pc.toNat ≤ memorySize := by
  cases h with
  | rest => exact hm
  | skip running =>
    have hlt := isHalted_eq_false_iff.1 running
    show (m.pc + 1).toNat ≤ memorySize
    rw [toNat_pc_add_one running]
    exact hlt
  | @perform i e _ running decoded performs =>
    rw [pc_apply]
    rcases performs.pc_eq (m.next i) with ⟨t, -, hpc⟩ | ⟨-, -, hpc⟩ | ⟨-, -, -, hpc⟩
    · rw [hpc]
      exact Nat.le_of_lt t.isLt
    · rw [hpc]
      exact Nat.le_refl _
    · rw [hpc, toNat_next decoded]
      exact pc_add_size_le decoded

/-- **A running machine gets behind its memory exactly if it `Ends`.** -/
theorem Advances.pc_eq_iff (h : m.Advances d m' d') (running : m.isHalted = false) :
    m'.pc.toNat = memorySize ↔ m.Ends := by
  cases h with
  | rest halted =>
    rw [running] at halted
    cases halted
  | skip _ unknown lenient =>
    rw [ends_iff_of_unknown unknown lenient, ← toNat_pc_add_one running]
  | @perform i e _ _ decoded performs =>
    rw [ends_iff_of_decode decoded, pc_apply]
    rcases performs.pc_eq (m.next i) with
      ⟨t, target, hpc⟩ | ⟨onward, hi, hpc⟩ | ⟨onward, hhalt, hret, hpc⟩
    · -- a target is an address, and what has a target is no way to halt
      rw [hpc, ← ends_iff_of_decode decoded]
      exact iff_of_false (Nat.ne_of_lt t.isLt) (not_ends_of_target decoded target)
    · rw [hpc]
      refine ⟨fun _ => ?_, fun _ => rfl⟩
      rcases hi with rfl | rfl
      · exact .inl rfl
      · exact .inr (.inl ⟨rfl, target?_ret_eq_none_iff.1 onward⟩)
    · rw [hpc, toNat_next decoded]
      simp [hhalt, hret, onward]

/-- **A step answers that the machine has halted exactly if it is right behind its memory.** -/
theorem Advances.status_eq_halted_iff (h : m.Advances d m' d') (running : m.isHalted = false) :
    m'.status = .halted ↔ m'.pc.toNat = memorySize := by
  have hm : m.pc.toNat ≤ memorySize := Nat.le_of_lt (isHalted_eq_false_iff.1 running)
  have hle := h.pc_le hm
  rw [status, isHalted]
  by_cases hend : memorySize ≤ m'.pc.toNat
  · simp [Nat.le_antisymm hle hend]
  · simp [hend, Nat.ne_of_lt (Nat.not_le.1 hend)]

/-- **An instruction with a target never halts the machine**, whether it goes there or fails. -/
theorem step_of_target {w : Word} (decoded : m.decode m.pc = .ok i)
    (target : m.target? i = some w) (d : δ) :
    (m.step d).result ≠ .ok .halted ∧ (m.step d).machine.isHalted = false := by
  have running := isHalted_of_decode decoded
  rcases step_cases m d with ⟨m', d', log, h, hs⟩ | ⟨f, d', log, h, hs⟩
  · have hstatus : m'.status ≠ .halted := by
      rw [Ne, h.status_eq_halted_iff running, h.pc_eq_iff running]
      exact not_ends_of_target decoded target
    rw [hs]
    refine ⟨fun hresult => hstatus (Except.ok.inj hresult), ?_⟩
    cases hm' : m'.isHalted with
    | false => rfl
    | true => simp [status, hm'] at hstatus
  · rw [hs]
    refine ⟨?_, running⟩
    intro hresult
    cases hresult

/-! ### Machines that have halted -/

/-- **A machine that has halted is at rest.** -/
theorem atRest_of_isHalted (halted : m.isHalted = true) : m.AtRest := by
  have hstep (ε : Type) [Device ε] (e : ε) : m.step e = ⟨.ok .halted, m, e, []⟩ :=
    step_of_isHalted halted
  have hrun (ε : Type) [Device ε] (e : ε) keep stop fuel :
      m.runUntil keep stop (fuel + 1) e = ⟨.halted, 0, m, e, #[]⟩ := by
    rw [runUntil, runFrom, hstep]
    rfl
  refine ⟨hstep, ?_, ?_, hrun, ?_⟩
  · intro ε _ e n
    induction n with
    | zero => rfl
    | succ n ih => rw [Rig.after_succ, ih, Rig.step, hstep]
  · intro ε _ e keep fuel
    rw [run_eq_runUntil]
    exact hrun ε e keep _ fuel
  · intro ε _ e keep stop fuel
    refine ⟨by rw [hstep], ?_⟩
    cases fuel with
    | zero => rfl
    | succ fuel => rw [hrun]

end Machine

/-- **A request leaves the program counter where it may be.** -/
theorem Rig.pc_serve_le {δ : Type} [Device δ] {r : Rig δ} (hr : r.machine.pc.toNat ≤ memorySize)
    (q : Request) : (r.serve q).machine.pc.toNat ≤ memorySize := by
  cases q with
  | load program =>
    rw [Rig.serve]
    split
    · next m hm =>
      obtain ⟨-, rfl⟩ := Machine.load_eq_ok_iff.1 hm
      exact Nat.zero_le _
    · exact hr
  | setPolicy policy => exact hr
  | step =>
    show r.step.machine.pc.toNat ≤ memorySize
    rcases r.step_cases with ⟨m', d', h, -, hstep⟩ | ⟨f, d', h, -, hstep⟩
    · rw [hstep]
      exact h.pc_le hr
    · rw [hstep]
      exact hr

theorem Rig.pc_after_le {δ : Type} [Device δ] {r : Rig δ} (hr : r.machine.pc.toNat ≤ memorySize)
    (n : Nat) : (r.after n).machine.pc.toNat ≤ memorySize := by
  induction n with
  | zero => exact hr
  | succ n ih => exact pc_serve_le ih .step

/-- **When a machine halts, and that it then has.** The program counter never gets beyond the first
place behind memory. A step of a running machine that does not fail answers that the machine has
halted if and only if the program counter is there, and that is if and only if the machine is told
to halt, returns with an empty stack, or runs off the end of memory. An instruction that goes on at
a target never halts it. And once it has halted, also by setting the program counter, it is at
rest. -/
theorem halts_exactly_at_end {δ : Type} [Device δ] (m : Machine) (d : δ) :
    (m.pc.toNat ≤ memorySize →
      ∀ requests, (Rig.session ⟨m, d⟩ requests).machine.pc.toNat ≤ memorySize) ∧
    (m.isHalted = false → ∀ s, (m.step d).result = .ok s →
      (s = .halted ↔ (m.step d).machine.pc.toNat = memorySize) ∧
      ((m.step d).machine.pc.toNat = memorySize ↔ m.Ends)) ∧
    (∀ i w, m.decode m.pc = .ok i → m.target? i = some w →
      (m.step d).result ≠ .ok .halted ∧ (m.step d).machine.isHalted = false) ∧
    (m.isHalted = true → m.AtRest) ∧
    ∀ pc : Word, memorySize ≤ pc.toNat → Machine.AtRest { m with pc } := by
  refine ⟨?_, ?_, ?_, Machine.atRest_of_isHalted, ?_⟩
  · intro hm requests
    exact Rig.session_induction (P := fun r => r.machine.pc.toNat ≤ memorySize)
      (fun r q hr => r.pc_serve_le hr q) hm requests
  · intro running s hs
    have h := Machine.advances_of_ok hs
    have hstatus : s = (m.step d).machine.status := by
      obtain ⟨log, hstep⟩ := h.step_eq
      rw [hstep] at hs
      exact (Except.ok.inj hs).symm
    rw [hstatus]
    exact ⟨h.status_eq_halted_iff running, h.pc_eq_iff running⟩
  · intro i w decoded target
    exact Machine.step_of_target decoded target d
  · intro pc hpc
    exact Machine.atRest_of_isHalted (decide_eq_true hpc)

/-- A program that returns with an empty stack, and then rests. -/
theorem halts_exactly_at_end_return :
    let m := Machine.loaded .skip #[18]
    let after := (m.step NullDevice.mk).machine
    (m.step NullDevice.mk).result = .ok .halted ∧ after.pc.toNat = memorySize ∧ after.AtRest ∧
      ∀ requests, (Rig.session ⟨m, NullDevice.mk⟩ requests).machine.pc.toNat ≤ memorySize := by
  -- of the machine only the instruction and the stack matter
  have hreturn : ∀ m : Machine, m.pc = 0 → m.decode 0 = .ok .ret → m.stack = .empty →
      let after := (m.step NullDevice.mk).machine
      (m.step NullDevice.mk).result = .ok .halted ∧ after.pc.toNat = memorySize ∧ after.AtRest ∧
        ∀ requests,
          (Rig.session ⟨m, NullDevice.mk⟩ requests).machine.pc.toNat ≤ memorySize := by
    intro m hm decoded hstack after
    rw [← hm] at decoded
    have running := Machine.isHalted_of_decode decoded
    have hyields : m.Yields .ret (.effect (.halt true)) := by
      apply Machine.Yields.ret_empty
      rw [hstack]
      rfl
    have hadv : m.Advances NullDevice.mk _ NullDevice.mk :=
      .perform running decoded (.effect hyields.action_eq)
    obtain ⟨log, hs⟩ := hadv.step_eq
    obtain ⟨hpc, hhalts, -⟩ := halts_exactly_at_end m NullDevice.mk
    obtain ⟨hanswer, hends⟩ := hhalts running _ (congrArg Step.result hs)
    have hend : after.pc.toNat = memorySize := by
      apply hends.2
      apply Machine.Ends.emptyReturn decoded
      rw [hstack]
      rfl
    have hresult : (m.step NullDevice.mk).result = .ok .halted := by
      rw [← hanswer.2 hend, hs]
    obtain ⟨-, -, -, hrest, -⟩ := halts_exactly_at_end after NullDevice.mk
    refine ⟨hresult, hend, hrest ?_, hpc ?_⟩
    · exact decide_eq_true (Nat.le_of_eq hend.symm)
    · rw [hm]
      exact Nat.zero_le _
  exact hreturn _ rfl (Machine.decode_loaded (by decide) rfl) rfl

end WordMachine
