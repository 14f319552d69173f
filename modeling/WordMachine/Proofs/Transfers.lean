import WordMachine.Proofs.Halting
import WordMachine.Proofs.Policy
import WordMachine.Proofs.RunSteps
import WordMachine.Proofs.Trail

/-!
# How long runs without transfers can be

A program can only run on by going back, and it can only go back by a transfer of control. Every other
step gets nearer to the end of memory, whether it executes an instruction or skips a word, whatever it
writes, and wherever it writes it. So what is left of memory bounds the steps up to the next transfer,
and the number of transfers bounds the run.

* `Rig.transfers` — whether a step takes a transfer of control.
* `Rig.Runs` — a number of steps that can be made in a run.
* `Rig.lt_pc_step` — without a transfer a step goes on further behind.
* `Rig.Runs.pc_add_le` — how far a run gets, with every transfer costing no more than all of memory.
-/

namespace WordMachine

namespace Rig

variable {δ : Type} [Device δ] {r : Rig δ} {n : Nat} {s : Status}

/-- Whether a step takes a transfer of control: it executes a jump, a branch that is taken, a call, or
a return with something on the stack. -/
def transfers (r : Rig δ) : Bool := (r.executed?.bind r.machine.target?).isSome

/-- The first steps do not fail, and none but the last of them answers that the machine has halted. -/
structure Runs (r : Rig δ) (n : Nat) : Prop where
  advances : ∀ k < n, ∃ s, (r.after k).answer = .ok s
  goesOn : ∀ k, k + 1 < n → (r.after k).answer ≠ .ok .halted

/-- **A step without a transfer goes on further behind.** -/
theorem lt_pc_step (running : r.machine.isHalted = false) (hs : r.answer = .ok s)
    (onward : r.transfers = false) : r.machine.pc.toNat < r.step.machine.pc.toNat := by
  have hlt := Machine.isHalted_eq_false_iff.1 running
  rcases r.step_cases with ⟨m', d', h, -, hstep⟩ | ⟨f, d', -, hanswer, -⟩
  · rw [hstep]
    cases h with
    | rest halted => cases running.symm.trans halted
    | skip _ unknown lenient =>
      show _ < (r.machine.pc + 1).toNat
      rw [Machine.toNat_pc_add_one running]
      exact Nat.lt_succ_self _
    | @perform i e _ _ decoded performs =>
      have hexecuted : r.executed? = some i := executed?_eq_some_iff.2 ⟨decoded, s, hs⟩
      rw [transfers, hexecuted] at onward
      rw [Machine.pc_apply]
      rcases performs.pc_eq (r.machine.next i) with
        ⟨t, target, -⟩ | ⟨-, -, hpc⟩ | ⟨-, -, -, hpc⟩
      · simp [target] at onward
      · rw [hpc]
        exact hlt
      · rw [hpc, Machine.toNat_next decoded]
        exact Nat.lt_add_of_pos_right i.size_pos
  · cases hs.symm.trans hanswer

/-- A transfer goes back by no more than all of memory. -/
theorem pc_step_le (running : r.machine.isHalted = false) (hs : r.answer = .ok s) :
    r.machine.pc.toNat + 1 ≤
      r.step.machine.pc.toNat + memorySize * (if r.transfers then 1 else 0) := by
  have hlt := Machine.isHalted_eq_false_iff.1 running
  cases htransfers : r.transfers with
  | true =>
    rw [if_pos rfl, Nat.mul_one]
    exact Nat.le_add_left_of_le hlt
  | false =>
    rw [if_neg nofun, Nat.mul_zero]
    exact lt_pc_step running hs htransfers

namespace Runs

theorem of_succ (h : r.Runs (n + 1)) : r.Runs n where
  advances k hk := h.advances k (Nat.lt_succ_of_lt hk)
  goesOn k hk := h.goesOn k (Nat.lt_succ_of_lt hk)

/-- In a run the machine has not halted before a step. -/
theorem isHalted_after (h : r.Runs (n + 1)) (running : r.machine.isHalted = false) :
    (r.after n).machine.isHalted = false := by
  cases n with
  | zero => exact running
  | succ n =>
    obtain ⟨s, hs⟩ := h.advances n (by omega)
    have hnot := h.goesOn n (by omega)
    rw [hs] at hnot
    cases s with
    | halted => exact absurd rfl hnot
    | running => exact isHalted_step hs

/-- **How far a run gets.** -/
theorem pc_add_le (h : r.Runs n) (running : r.machine.isHalted = false) :
    r.machine.pc.toNat + n ≤
      (r.after n).machine.pc.toNat + memorySize * (r.trail n).countP transfers := by
  induction n with
  | zero => exact Nat.le_refl _
  | succ n ih =>
    obtain ⟨s, hs⟩ := h.advances n (Nat.lt_succ_self n)
    have hstep := pc_step_le (h.isHalted_after running) hs
    have hbefore := ih h.of_succ
    rw [trail_succ, List.countP_append, List.countP_singleton, after_succ, Nat.mul_add]
    omega

/-- A machine that has halted runs for one step. -/
theorem le_one (h : r.Runs n) (halted : r.machine.isHalted = true) : n ≤ 1 := by
  apply Nat.le_of_not_lt
  intro hn
  apply h.goesOn 0 hn
  rw [after_zero, answer, (Machine.atRest_of_isHalted halted).step]

end Runs

theorem countP_transfers_eq_zero (h : ∀ k < n, (r.after k).transfers = false) :
    (r.trail n).countP transfers = 0 := by
  rw [List.countP_eq_zero, trail, List.forall_mem_map]
  intro k hk
  rw [h k (List.mem_range.1 hk)]
  exact Bool.false_ne_true

/-- A rig **keeps off transfers** if none of its steps takes one as long as the machine goes on. -/
def KeepsOffTransfers (r : Rig δ) : Prop :=
  ∀ n, (∀ k < n, (r.after k).answer = .ok .running) → (r.after n).transfers = false

/-- Without transfers the steps come to the end of memory. -/
theorem KeepsOffTransfers.not_all_running (h : r.KeepsOffTransfers)
    (running : r.machine.isHalted = false) :
    ¬ ∀ k < memorySize, (r.after k).answer = .ok .running := by
  intro hall
  have hruns : r.Runs memorySize := by
    refine ⟨fun k hk => ⟨_, hall k hk⟩, ?_⟩
    intro k hk hhalted
    cases (hall k (Nat.lt_of_succ_lt hk)).symm.trans hhalted
  have hcount : (r.trail memorySize).countP transfers = 0 :=
    countP_transfers_eq_zero fun k hk => h k fun j hj => hall j (Nat.lt_trans hj hk)
  have hlast : (r.after memorySize).machine.isHalted = false :=
    isHalted_step (hall (memorySize - 1) (by decide))
  have hpc := hruns.pc_add_le running
  rw [hcount, Nat.mul_zero, Nat.add_zero] at hpc
  exact Nat.lt_irrefl _ (Nat.lt_of_le_of_lt (Nat.le_of_add_left_le hpc)
    (Machine.isHalted_eq_false_iff.1 hlast))

/-- A run that is not to be stopped ends with the first step that halts the machine or fails. -/
theorem run_cases (r : Rig δ) (keep : Record → Bool) (fuel : Nat) :
    let run := r.machine.run keep fuel r.device
    (∃ k < fuel, (∀ j < k, (r.after j).answer = .ok .running) ∧
      (run.outcome = .halted ∧ (r.after k).answer = .ok .halted ∨
        ∃ f, run.outcome = .faulted f ∧ (r.after k).answer = .error f)) ∨
    ∀ j < fuel, (r.after j).answer = .ok .running := by
  rw [Machine.run_eq_runUntil]
  intro run
  cases Machine.runUntil_follows keep (fun _ _ => false) fuel r.machine r.device with
  | @ended k inside before last =>
    refine .inl ⟨k, inside, fun j hj => (before j hj).1, ?_⟩
    change EndsAt _ r k run.outcome run.tries at last
    generalize run.tries = n at last
    generalize run.outcome = o at last ⊢
    cases last with
    | faulted failing => exact .inr ⟨_, rfl, failing⟩
    | halted last => exact .inl ⟨rfl, last⟩
    | stopped _ hit => cases hit
  | unfinished all => exact .inr fun j hj => (all j hj).1

/-! ### Memory without opcodes -/

omit [Device δ] in
theorem opcode?_of_unknown (unknown : ∀ w ∈ r.machine.memory, Opcode.ofWord? w = none) :
    r.machine.opcode? = none := by
  rw [Machine.opcode?, Option.bind_eq_none_iff]
  intro w hw
  exact unknown w (Vector.mem_of_getElem? hw)

theorem executed?_of_unknown (unknown : ∀ w ∈ r.machine.memory, Opcode.ofWord? w = none) :
    r.executed? = none := by
  cases hexecuted : r.executed? with
  | none => rfl
  | some i =>
    have hopcode := Machine.opcode?_of_decode (executed?_eq_some_iff.1 hexecuted).1
    cases (opcode?_of_unknown unknown).symm.trans hopcode

/-- Where no word is an opcode, nothing is ever executed, and memory stays as it is. -/
theorem memory_after_of_unknown (unknown : ∀ w ∈ r.machine.memory, Opcode.ofWord? w = none)
    (n : Nat) : (r.after n).machine.memory = r.machine.memory := by
  induction n with
  | zero => rfl
  | succ n ih =>
    rw [← ih] at unknown
    rcases (r.after n).executed_cases with ⟨i, e, d', hexecuted, -⟩ | ⟨-, hmemory, -⟩
    · cases (executed?_of_unknown unknown).symm.trans hexecuted
    · exact hmemory.trans ih

theorem transfers_after_of_unknown (unknown : ∀ w ∈ r.machine.memory, Opcode.ofWord? w = none)
    (n : Nat) : (r.after n).transfers = false := by
  rw [← memory_after_of_unknown unknown n] at unknown
  rw [transfers, executed?_of_unknown unknown]
  rfl

/-- If words that are no opcodes are skipped, steps pass over them one by one. -/
theorem step_of_unknown (unknown : ∀ w ∈ r.machine.memory, Opcode.ofWord? w = none)
    (lenient : r.machine.policy = .skip) (running : r.machine.isHalted = false) :
    r.answer = .ok r.step.machine.status ∧
      r.step.machine.pc.toNat = r.machine.pc.toNat + 1 := by
  obtain ⟨w, hw⟩ := (Machine.opcode?_eq_none_iff running).1 (opcode?_of_unknown unknown)
  obtain ⟨hanswer, hstep⟩ := step_lenient (Machine.decode_eq_unknown_iff.1 hw) lenient
  refine ⟨hanswer, ?_⟩
  rw [hstep]
  exact Machine.toNat_pc_add_one running

/-- They do so up to the end of memory. -/
theorem pc_after_of_unknown (unknown : ∀ w ∈ r.machine.memory, Opcode.ofWord? w = none)
    (lenient : r.machine.policy = .skip) (hn : r.machine.pc.toNat + n ≤ memorySize) :
    (r.after n).machine.pc.toNat = r.machine.pc.toNat + n := by
  induction n with
  | zero => rfl
  | succ n ih =>
    have hpc := ih (Nat.le_of_succ_le hn)
    have running : (r.after n).machine.isHalted = false := by
      rw [Machine.isHalted_eq_false_iff, hpc]
      exact hn
    rw [← memory_after_of_unknown unknown n] at unknown
    rw [after_succ, (step_of_unknown unknown ((policy_after r n).trans lenient) running).2, hpc,
      Nat.add_assoc]

theorem runs_of_unknown (unknown : ∀ w ∈ r.machine.memory, Opcode.ofWord? w = none)
    (lenient : r.machine.policy = .skip) (hn : r.machine.pc.toNat + n = memorySize) :
    r.Runs n := by
  have running {k : Nat} (hk : k < n) : (r.after k).machine.isHalted = false := by
    rw [Machine.isHalted_eq_false_iff, pc_after_of_unknown unknown lenient (by omega)]
    omega
  have hanswer {k : Nat} (hk : k < n) :
      (r.after k).answer = .ok (r.after (k + 1)).machine.status := by
    rw [← memory_after_of_unknown unknown k] at unknown
    exact (step_of_unknown unknown ((policy_after r k).trans lenient) (running hk)).1
  refine ⟨fun k hk => ⟨_, hanswer hk⟩, ?_⟩
  intro k hk
  rw [hanswer (Nat.lt_of_succ_lt hk), Machine.status_eq_running_iff.2 (running hk)]
  exact nofun

end Rig

/-- **Runs are bounded by their transfers of control**, in any state of the machine, with any device,
under either policy, and whatever the program makes of itself. Steps that can be made in a run are no
more than all of memory for each transfer among them and once more. So if a machine that has not
halted takes no transfer, then a step halts or fails, one of no more than there are words of memory,
and that many steps are all that a run needs to end with it. -/
theorem run_length_le_transfers {δ : Type} [Device δ] (r : Rig δ) :
    (∀ n, r.Runs n → n ≤ memorySize * ((r.trail n).countP Rig.transfers + 1)) ∧
    (r.machine.isHalted = false → r.KeepsOffTransfers → ∀ keep fuel, memorySize ≤ fuel →
      let run := r.machine.run keep fuel r.device
      ∃ k < memorySize, (∀ j < k, (r.after j).answer = .ok .running) ∧
        (run.outcome = .halted ∧ (r.after k).answer = .ok .halted ∨
          ∃ f, run.outcome = .faulted f ∧ (r.after k).answer = .error f)) := by
  constructor
  · intro n h
    rw [Nat.mul_add, Nat.mul_one]
    cases hr : r.machine.isHalted with
    | true =>
      have hone := h.le_one hr
      rw [memorySize]
      omega
    | false =>
      have hpc := h.pc_add_le hr
      have hend := Rig.pc_after_le (Nat.le_of_lt (Machine.isHalted_eq_false_iff.1 hr)) n
      omega
  · intro running keepsOff keep fuel hfuel run
    have hnot := keepsOff.not_all_running running
    rcases r.run_cases keep fuel with ⟨k, -, hbefore, hlast⟩ | hall
    · refine ⟨k, ?_, hbefore, hlast⟩
      apply Nat.lt_of_not_le
      intro hk
      exact hnot fun j hj => hbefore j (Nat.lt_of_lt_of_le hj hk)
    · exact absurd (fun j hj => hall j (Nat.lt_of_lt_of_le hj hfuel)) hnot

/-- Memory without any opcode, which is skipped word by word: a run without a transfer that is as long
as can be. -/
theorem run_length_le_transfers_skipping :
    let m : Machine := { Machine.blank .skip with memory := .replicate memorySize 22 }
    let r : Rig NullDevice := ⟨m, NullDevice.mk⟩
    r.Runs memorySize ∧ (r.trail memorySize).countP Rig.transfers = 0 ∧
    memorySize ≤ memorySize * (0 + 1) ∧ r.machine.isHalted = false ∧ r.KeepsOffTransfers ∧
    ∃ k < memorySize, (r.after k).answer = .ok .halted ∨ ∃ f, (r.after k).answer = .error f := by
  intro m r
  have hunknown : ∀ w ∈ r.machine.memory, Opcode.ofWord? w = none := by
    intro w hw
    obtain ⟨-, rfl⟩ := Vector.mem_replicate.1 hw
    decide
  have hnone := Rig.transfers_after_of_unknown hunknown
  have hruns : r.Runs memorySize := Rig.runs_of_unknown hunknown rfl (Nat.zero_add _)
  have hcount : (r.trail memorySize).countP Rig.transfers = 0 :=
    Rig.countP_transfers_eq_zero fun k _ => hnone k
  have hkeeps : r.KeepsOffTransfers := fun n _ => hnone n
  have hrunning : r.machine.isHalted = false := rfl
  obtain ⟨hlength, hends⟩ := run_length_le_transfers r
  have hn := hlength _ hruns
  rw [hcount] at hn
  obtain ⟨k, hk, -, hlast⟩ := hends hrunning hkeeps (fun _ => false) memorySize (Nat.le_refl _)
  refine ⟨hruns, hcount, hn, hrunning, hkeeps, k, hk, ?_⟩
  rcases hlast with ⟨-, hhalted⟩ | ⟨f, -, hfailed⟩
  · exact .inl hhalted
  · exact .inr ⟨f, hfailed⟩

end WordMachine
