import WordMachine.Proofs.InOrder
import WordMachine.Proofs.Trail

/-!
# Stack frames

A step moves the stack by one word at most, so what lies deeper than the stack ever gets is out of
reach. The proof is in two lines. A step that does not reach below a level of the stack leaves what
is below as it is (`Stack.Moves.take_eq`), and so do many of them (`Rig.take_after`). Every argument
about subroutines rests on that.

How high the stack is follows from what was executed (`Rig.depth_after`): `Rig.pushes` and
`Rig.pops` tell the steps that make it higher and lower.
-/

namespace WordMachine

/-! ### Below a level, the stack is kept -/

/-- What a step can do to the stack. -/
inductive Stack.Moves (s : Stack) : Stack → Prop
  | keep : Moves s s
  | push (w : Word) : Moves s (s.push w)
  | drop : Moves s s.drop

theorem Stack.depth_drop (s : Stack) : s.drop.depth = s.depth - 1 := by
  rw [← length_toList, toList_drop, List.length_dropLast, length_toList]

theorem Stack.depth_pos_of_top? {s : Stack} {w : Word} (h : s.top? = some w) : 0 < s.depth := by
  rw [top?_eq] at h
  rw [← length_toList]
  exact List.length_pos_of_mem (List.mem_of_getLast? h)

theorem Stack.isEmpty_eq_false_iff {s : Stack} : s.isEmpty = false ↔ 0 < s.depth := by
  simp [isEmpty, depth, Array.size_pos_iff]

/-- The stack gets higher or lower by one word at most. -/
theorem Stack.Moves.depth_le {s t : Stack} (h : s.Moves t) :
    t.depth ≤ s.depth + 1 ∧ s.depth ≤ t.depth + 1 := by
  cases h with
  | keep => omega
  | push w =>
    rw [depth_push]
    omega
  | drop =>
    rw [depth_drop]
    omega

theorem Stack.Moves.take_eq {s t : Stack} (h : s.Moves t) {n : Nat} (hs : n ≤ s.depth)
    (ht : n ≤ t.depth) : t.toList.take n = s.toList.take n := by
  cases h with
  | keep => rfl
  | push w =>
    rw [toList_push]
    apply List.take_append_of_le_length
    rwa [length_toList]
  | drop =>
    rw [← length_toList, toList_drop, List.length_dropLast] at ht
    rw [toList_drop, List.dropLast_eq_take, List.take_take, Nat.min_eq_left ht]

namespace Rig

variable {δ : Type} [Device δ]

/-- **A step moves the stack by one word at most**, and not at all if it fails. -/
theorem stack_moves (r : Rig δ) : r.machine.stack.Moves r.step.machine.stack := by
  rcases r.executed_cases with ⟨i, e, d', -, -, hstep⟩ | ⟨-, -, -, hstack⟩
  · rw [hstep]
    cases e with
    | push | call => exact .push _
    | pop | ret => exact .drop
    | _ => exact .keep
  · rw [hstack]
    exact .keep

/-- **What lies below a level is kept** by steps between which the stack is always that high. -/
theorem take_after {r : Rig δ} {n level : Nat}
    (high : ∀ k ≤ n, level ≤ (r.after k).machine.stack.depth) :
    (r.after n).machine.stack.toList.take level = r.machine.stack.toList.take level := by
  -- one step after the other: the stack is high enough before and after each of them
  induction n with
  | zero => rfl
  | succ n ih =>
    have hmoves := (r.after n).stack_moves
    rw [after_succ, hmoves.take_eq (high n (Nat.le_succ n)) (high (n + 1) (Nat.le_refl _))]
    exact ih fun k hk => high k (Nat.le_succ_of_le hk)

/-! ### How high the stack is -/

/-- Whether a step puts a word on the stack. -/
def pushes (r : Rig δ) : Bool :=
  match r.executed? with
  | some (.push _) | some (.call _) => true
  | _ => false

/-- Whether a step takes a word from the stack; a return does, unless the stack is empty. -/
def pops (r : Rig δ) : Bool :=
  match r.executed? with
  | some (.pop _) => true
  | some .ret => !r.machine.stack.isEmpty
  | _ => false

/-- Every instruction changes the height of the stack as it is counted. -/
theorem depth_apply {m : Machine} {d d' : δ} {i : Instruction} {e : Effect} (next : Word)
    (executed : executed? ⟨m, d⟩ = some i) (performs : m.Performs d i e d') :
    (m.apply next e).stack.depth + (pops ⟨m, d⟩).toNat =
      m.stack.depth + (pushes ⟨m, d⟩).toNat := by
  rw [pops, pushes, executed]
  cases performs with
  | effect action =>
    cases Machine.action_eq_ok_iff.1 action with
    | push | call => exact Stack.depth_push _ _
    | pop top =>
      have hpos := Stack.depth_pos_of_top? top
      show m.stack.drop.depth + 1 = m.stack.depth
      rw [Stack.depth_drop]
      omega
    | ret top =>
      have hpos := Stack.depth_pos_of_top? top
      show m.stack.drop.depth + (!m.stack.isEmpty).toNat = m.stack.depth
      rw [Stack.depth_drop, Stack.isEmpty_eq_false_iff.2 hpos]
      show m.stack.depth - 1 + 1 = m.stack.depth
      omega
    | ret_empty top =>
      have hempty : m.stack.isEmpty = true := by
        rw [Stack.top?, Array.back?_eq_none_iff] at top
        rw [Stack.isEmpty, top]
        rfl
      show m.stack.depth + (!m.stack.isEmpty).toNat = m.stack.depth
      rw [hempty]
      rfl
    | _ => rfl
  | output action =>
    cases Machine.action_eq_ok_iff.1 action
    rfl
  | input action =>
    cases Machine.action_eq_ok_iff.1 action
    rfl

theorem depth_step (r : Rig δ) :
    r.step.machine.stack.depth + r.pops.toNat = r.machine.stack.depth + r.pushes.toNat := by
  rcases r.executed_cases with ⟨i, e, d', hexecuted, hperforms, hstep⟩ | ⟨hnone, -, -, hstack⟩
  · rw [hstep]
    exact depth_apply _ hexecuted hperforms
  · rw [hstack, pops, pushes, hnone]

/-- **The height of the stack is what was pushed less what was popped.** -/
theorem depth_after (r : Rig δ) (n : Nat) :
    (r.after n).machine.stack.depth + (r.trail n).countP pops =
      r.machine.stack.depth + (r.trail n).countP pushes := by
  induction n with
  | zero => rfl
  | succ n ih =>
    have hstep := (r.after n).depth_step
    have hcount : ∀ p : Rig δ → Bool, [r.after n].countP p = (p (r.after n)).toNat := by
      intro p
      cases hp : p (r.after n) <;> simp [hp]
    rw [after_succ, trail_succ, List.countP_append, List.countP_append, hcount, hcount]
    omega

end Rig

/-- **Stack frames are protected.** In any state, with any device and over any number of steps,
failing ones among them: a step changes the height of the stack by one at most; where it fails, no
statement before the one that fails has touched the stack; if the stack never gets lower than `level`,
its `level` bottom words stay as they are; and its height is what it was at the start, with the steps
counted that push a word and those that pop one. -/
theorem stack_frames_protected {δ : Type} [Device δ] (r : Rig δ) (n : Nat) :
    (∀ k, (r.after (k + 1)).machine.stack.depth ≤ (r.after k).machine.stack.depth + 1 ∧
      (r.after k).machine.stack.depth ≤ (r.after (k + 1)).machine.stack.depth + 1) ∧
    (∀ k f s, (r.after k).machine.stepInOrder (r.after k).device = .error f s →
      s.machine.stack = (r.after k).machine.stack ∧
        (r.after (k + 1)).machine.stack = s.machine.stack) ∧
    (∀ level, (∀ k ≤ n, level ≤ (r.after k).machine.stack.depth) →
      (r.after n).machine.stack.toList.take level = r.machine.stack.toList.take level) ∧
    (r.after n).machine.stack.depth + (r.trail n).countP Rig.pops =
      r.machine.stack.depth + (r.trail n).countP Rig.pushes := by
  refine ⟨?_, ?_, ?_, r.depth_after n⟩
  · intro k
    exact (r.after k).stack_moves.depth_le
  · intro k f s h
    obtain ⟨hmachine, -, -, hstep⟩ := Machine.stepInOrder_of_error h
    rw [hmachine]
    exact ⟨rfl, congrArg Machine.stack hstep⟩
  · intro level high
    exact Rig.take_after high

/-- A program that pushes a word and pops it again, over a word that stays where it is. -/
theorem stack_frames_protected_above_five :
    let m₀ := Machine.loaded .skip #[2, 7, 3, 32768]
    let m := { m₀ with stack := Stack.empty.push 5 }
    let r : Rig NullDevice := ⟨m, NullDevice.mk⟩
    (∀ k ≤ 2, 1 ≤ (r.after k).machine.stack.depth) ∧ (r.after 1).machine.stack.toList = [5, 7] ∧
      (r.after 2).machine.stack.toList.take 1 = [5] ∧
      (r.after 2).machine.stack.depth + (r.trail 2).countP Rig.pops =
        1 + (r.trail 2).countP Rig.pushes := by
  -- of the machine only its two instructions and its stack matter
  have hrun : ∀ m₀ : Machine, m₀.pc = 0 → m₀.decode 0 = .ok (.push (.literal ⟨7, by decide⟩)) →
      m₀.decode 2 = .ok (.pop ⟨0⟩) →
      let m := { m₀ with stack := Stack.empty.push 5 }
      let r : Rig NullDevice := ⟨m, NullDevice.mk⟩
      (∀ k ≤ 2, 1 ≤ (r.after k).machine.stack.depth) ∧ (r.after 1).machine.stack.toList = [5, 7] ∧
        (r.after 2).machine.stack.toList.take 1 = [5] ∧
        (r.after 2).machine.stack.depth + (r.trail 2).countP Rig.pops =
          1 + (r.trail 2).countP Rig.pushes := by
    intro m₀ hpc push pop m r
    rw [← hpc] at push
    have push : m.decode m.pc = .ok (.push (.literal ⟨7, by decide⟩)) := push
    have hpush : m.Advances NullDevice.mk _ NullDevice.mk :=
      .perform (Machine.isHalted_of_decode push) push (.effect Machine.Yields.push.action_eq)
    have hafter : r.after 1 = _ := (Rig.step_of_advances hpush).2
    have hone : (r.after 1).machine.stack = (Stack.empty.push 5).push 7 := by
      rw [hafter]
      rfl
    have hdecode : (r.after 1).machine.decode (r.after 1).machine.pc = .ok (.pop ⟨0⟩) := by
      rw [hafter]
      show m₀.decode (m₀.next _) = _
      rw [Machine.next, hpc]
      exact pop
    have htop : (r.after 1).machine.stack.top? = some 7 := by rw [hone, Stack.top?_push]
    have hpop : (r.after 1).machine.Advances (r.after 1).device _ (r.after 1).device :=
      .perform (Machine.isHalted_of_decode hdecode) hdecode
        (.effect (Machine.Yields.pop htop).action_eq)
    have hafter' : r.after 2 = _ := (Rig.step_of_advances hpop).2
    have htwo : (r.after 2).machine.stack = Stack.empty.push 5 := by
      rw [hafter', ← Stack.drop_push (Stack.empty.push 5) 7, ← hone]
      rfl
    have high : ∀ k ≤ 2, 1 ≤ (r.after k).machine.stack.depth := by
      intro k hk
      obtain rfl | rfl | rfl : k = 0 ∨ k = 1 ∨ k = 2 := by omega
      · exact Nat.le_refl 1
      · rw [hone]
        decide
      · exact Nat.le_of_eq (congrArg Stack.depth htwo.symm)
    obtain ⟨-, -, htake, hdepth⟩ := stack_frames_protected r 2
    refine ⟨high, congrArg Stack.toList hone, ?_, ?_⟩
    · rw [htake 1 high]
      rfl
    · exact hdepth
  exact hrun _ rfl (Machine.decode_loaded (by decide) rfl) (Machine.decode_loaded (by decide) rfl)

end WordMachine
