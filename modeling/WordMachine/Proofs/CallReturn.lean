import WordMachine.Proofs.Frames

/-!
# Calls and their returns

A call pushes the address behind it, and the return that matches the call takes it from the stack
again. In between anything may happen: further calls, pushes and pops, and writes over the code, as
long as the stack never gets lower than the call has left it. What the call has pushed is then out
of reach until its return (`Rig.take_after`).

At the end of memory the two sides of the linkage disagree. A call in the last two words of memory
pushes 32768, and a return refuses to go there, although this is where the machine halts when any
other instruction runs off the end of memory.
-/

namespace WordMachine

theorem Machine.next_call (m : Machine) (target : Operand) : m.next (.call target) = m.pc + 2 := rfl

namespace Rig

variable {δ : Type} [Device δ] {r : Rig δ} {n : Nat}

/-! ### The matching return -/

/-- The call at the program counter is **matched** by the return that `n` further steps lead to: no
step up to there fails, the stack never gets lower than the call has left it, and at the return it
is no higher. -/
structure Matched (r : Rig δ) (n : Nat) : Prop where
  call : ∃ target, r.machine.decode r.machine.pc = .ok (.call target)
  advances : ∀ k ≤ n, ∃ s, (r.after k).answer = .ok s
  high : ∀ k ≤ n, r.machine.stack.depth + 1 ≤ (r.after (k + 1)).machine.stack.depth
  level : (r.after (n + 1)).machine.stack.depth = r.machine.stack.depth + 1
  ret : (r.after (n + 1)).machine.decode (r.after (n + 1)).machine.pc = .ok .ret

theorem Matched.stack_after_call (h : r.Matched n) :
    r.step.machine.stack = r.machine.stack.push (r.machine.pc + 2) := by
  obtain ⟨target, decoded⟩ := h.call
  obtain ⟨s, hs⟩ := h.advances 0 (Nat.zero_le n)
  have hadv : r.machine.Advances r.device r.step.machine r.step.device :=
    Machine.advances_of_ok hs
  generalize r.step.machine = m', r.step.device = d' at hadv ⊢
  -- the instruction is known, and of all the rules only that for calls is about it
  cases hadv with
  | rest halted =>
    rw [Machine.isHalted_of_decode decoded] at halted
    cases halted
  | skip _ unknown =>
    rw [decoded] at unknown
    cases unknown
  | perform _ decoded' performs =>
    rw [decoded] at decoded'
    cases decoded'
    cases performs with
    | effect action =>
      cases Machine.action_eq_ok_iff.1 action with
      | call => rfl
    | output action => cases Machine.action_eq_ok_iff.1 action
    | input action => cases Machine.action_eq_ok_iff.1 action

/-- **At the matching return the stack is what the call has made of it.** -/
theorem Matched.stack_at_ret (h : r.Matched n) :
    (r.after (n + 1)).machine.stack = r.machine.stack.push (r.machine.pc + 2) := by
  have hkept : (r.step.after n).machine.stack.toList.take (r.machine.stack.depth + 1) =
      r.step.machine.stack.toList.take (r.machine.stack.depth + 1) := by
    apply take_after
    intro k hk
    rw [← after_succ_left]
    exact h.high k hk
  -- on both sides the level is the whole of the stack
  have hall : (r.after (n + 1)).machine.stack.toList.length = r.machine.stack.depth + 1 := by
    rw [Stack.length_toList, h.level]
  have hpushed : (r.machine.stack.push (r.machine.pc + 2)).toList.length =
      r.machine.stack.depth + 1 := by
    rw [Stack.length_toList, Stack.depth_push]
  rw [← after_succ_left, h.stack_after_call, List.take_of_length_le (Nat.le_of_eq hall),
    List.take_of_length_le (Nat.le_of_eq hpushed)] at hkept
  exact Stack.ext hkept

/-- The address behind a call is in memory, but for the call in the last two words. -/
theorem Matched.behind_lt_iff (h : r.Matched n) :
    (r.machine.pc + 2).toNat < memorySize ↔ r.machine.pc ≠ 32766 := by
  obtain ⟨target, decoded⟩ := h.call
  have hnext := Machine.toNat_next decoded
  rw [Machine.next_call] at hnext
  have hle : r.machine.pc.toNat + 2 ≤ memorySize := Machine.pc_add_size_le decoded
  rw [hnext, Ne, ← UInt16.toNat_inj]
  show r.machine.pc.toNat + 2 < 32768 ↔ r.machine.pc.toNat ≠ 32766
  rw [memorySize] at hle
  omega

theorem Matched.returns (h : r.Matched n) (hpc : r.machine.pc ≠ 32766) :
    (r.after (n + 1)).answer = .ok .running ∧
      r.after (n + 2) = ⟨{ (r.after (n + 1)).machine with
        stack := r.machine.stack, pc := r.machine.pc + 2 }, (r.after (n + 1)).device⟩ := by
  have hlt := h.behind_lt_iff.2 hpc
  have hstack := h.stack_at_ret
  have hret := h.ret
  rw [after_succ r (n + 1)]
  generalize r.after (n + 1) = s at hstack hret ⊢
  have htop : s.machine.stack.top? = some (r.machine.pc + 2) := by
    rw [hstack, Stack.top?_push]
  have hdrop : s.machine.stack.drop = r.machine.stack := by
    rw [hstack, Stack.drop_push]
  have hyields : s.machine.Yields .ret (.effect (.ret ⟨r.machine.pc + 2, hlt⟩)) := .ret htop
  have hadv : s.machine.Advances s.device _ s.device :=
    .perform (Machine.isHalted_of_decode hret) hret (.effect hyields.action_eq)
  obtain ⟨hanswer, hstep⟩ := step_of_advances hadv
  rw [Machine.status_eq_running_iff.2 (Machine.isHalted_eq_false_iff.2 hlt)] at hanswer
  rw [Machine.apply, hdrop] at hstep
  exact ⟨hanswer, hstep⟩

theorem Matched.fails (h : r.Matched n) (hpc : r.machine.pc = 32766) :
    (r.after (n + 1)).answer =
        .error ⟨(r.after (n + 1)).machine.pc, some .ret, .addressOutOfRange 32768⟩ ∧
      r.after (n + 2) = r.after (n + 1) := by
  have hstack := h.stack_at_ret
  have hret := h.ret
  rw [after_succ r (n + 1)]
  generalize r.after (n + 1) = s at hstack hret ⊢
  have htop : s.machine.stack.top? = some 32768 := by
    rw [hstack, Stack.top?_push, hpc]
    rfl
  have hrefuses : s.machine.Refuses .ret (.addressOutOfRange 32768) := .ret htop (Nat.le_refl _)
  have hfails : s.machine.Fails s.device _ s.device :=
    .action (Machine.isHalted_of_decode hret) hret hrefuses.action_eq
  obtain ⟨log, hs⟩ := hfails.step_eq
  rw [answer, step, hs]
  exact ⟨rfl, rfl⟩

theorem step_call {m : Machine} {d : δ} {a : Operand} {t : Address}
    (hcall : m.decode m.pc = .ok (.call a)) (ht : t.word = m.value a) :
    (∃ s, answer ⟨m, d⟩ = .ok s) ∧
      step ⟨m, d⟩ = ⟨{ m with stack := m.stack.push (m.pc + 2), pc := t.word }, d⟩ := by
  have hyields : m.Yields (.call a) (.effect (.call t)) := .call ht
  have hadv : m.Advances d _ d :=
    .perform (Machine.isHalted_of_decode hcall) hcall (.effect hyields.action_eq)
  obtain ⟨hanswer, hstep⟩ := step_of_advances hadv
  exact ⟨⟨_, hanswer⟩, hstep⟩

/-- A subroutine that is a mere return matches every call of it. -/
theorem matched_zero {m : Machine} {d : δ} {a : Operand} {t : Address}
    (hcall : m.decode m.pc = .ok (.call a)) (ht : t.word = m.value a)
    (hret : m.decode t.word = .ok .ret) : Matched ⟨m, d⟩ 0 := by
  obtain ⟨hanswer, hstep⟩ := step_call (d := d) hcall ht
  have hafter : after 1 ⟨m, d⟩ = _ := hstep
  have hdepth := m.stack.depth_push (m.pc + 2)
  refine ⟨⟨a, hcall⟩, ?_, ?_, ?_, ?_⟩
  · intro k hk
    rw [Nat.le_zero.1 hk]
    exact hanswer
  · intro k hk
    rw [Nat.le_zero.1 hk, hafter]
    exact Nat.le_of_eq hdepth.symm
  · rw [hafter, hdepth]
  · rw [hafter]
    exact hret

/-- **A return takes back what its call has pushed** and goes on behind the call, whatever came
between the two. This holds but for the call in the last two words of memory: its return fails, and
leaves all as it is. -/
theorem ret_of_matched (h : r.Matched n) :
    (r.machine.pc ≠ 32766 →
      (r.after (n + 1)).answer = .ok .running ∧
      r.after (n + 2) = ⟨{ (r.after (n + 1)).machine with
        stack := r.machine.stack, pc := r.machine.pc + 2 }, (r.after (n + 1)).device⟩) ∧
    (r.machine.pc = 32766 →
      (r.after (n + 1)).answer =
        .error ⟨(r.after (n + 1)).machine.pc, some .ret, .addressOutOfRange 32768⟩ ∧
      r.after (n + 2) = r.after (n + 1)) :=
  ⟨h.returns, h.fails⟩

/-- A call of the return at 2, and back. -/
theorem ret_of_matched_subroutine :
    let r : Rig NullDevice := ⟨Machine.loaded .skip #[17, 2, 18], NullDevice.mk⟩
    r.Matched 0 ∧ r.machine.pc ≠ 32766 ∧ (r.after 1).answer = .ok .running ∧
      (r.after 2).machine.stack = .empty ∧ (r.after 2).machine.pc = 2 := by
  intro r
  have hmatched : r.Matched 0 :=
    matched_zero (t := ⟨2, by decide⟩) (Machine.decode_loaded (by decide) rfl) rfl
      (Machine.decode_loaded (by decide) rfl)
  have hpc : r.machine.pc ≠ 32766 := by decide
  obtain ⟨hanswer, hafter⟩ := (ret_of_matched hmatched).1 hpc
  refine ⟨hmatched, hpc, hanswer, ?_, ?_⟩
  · rw [hafter]
    rfl
  · rw [hafter]
    rfl

end Rig

/-- A program that fills memory and jumps to its end, where it calls the return at 2. -/
def lastCallWord (i : Nat) : Word :=
  if i = 0 then 6 else if i = 1 then 32766 else if i = 2 then 18
  else if i = 32766 then 17 else if i = 32767 then 2 else 0

def lastCall : Array Word := .ofFn fun i : Fin memorySize => lastCallWord i

theorem decode_lastCall {pc : Nat} {i : Instruction} (hpc : pc + i.size ≤ memorySize)
    (h : ∀ k < i.size, some (lastCallWord (pc + k)) = i.encode[k]?) :
    Instruction.decode lastCall pc = .ok i := by
  apply Instruction.decode_of_getElem?
  intro k hk
  rw [lastCall, Array.getElem?_ofFn, dif_pos (by omega)]
  exact h k hk

/-- **The last call of memory has no way back**: its return fails. -/
theorem ret_of_lastCall :
    let r : Rig NullDevice := .step ⟨Machine.loaded .skip lastCall, NullDevice.mk⟩
    r.machine.pc = 32766 ∧ r.Matched 0 ∧
      (r.after 1).answer = .error ⟨2, some .ret, .addressOutOfRange 32768⟩ := by
  have hjmp : Instruction.decode lastCall 0 = .ok (.jmp (.literal ⟨32766, by decide⟩)) :=
    decode_lastCall (by decide) (by decide)
  have hcall : Instruction.decode lastCall 32766 = .ok (.call (.literal ⟨2, by decide⟩)) :=
    decode_lastCall (by decide) (by decide)
  have hret : Instruction.decode lastCall 2 = .ok .ret := decode_lastCall (by decide) (by decide)
  -- what the memory is does not matter beyond these three, and it is too large to be carried along
  have hrig : ∀ m : Machine, m.pc = 0 → m.decode 0 = .ok (.jmp (.literal ⟨32766, by decide⟩)) →
      m.decode 32766 = .ok (.call (.literal ⟨2, by decide⟩)) → m.decode 2 = .ok .ret →
      let r : Rig NullDevice := .step ⟨m, NullDevice.mk⟩
      r.machine.pc = 32766 ∧ r.Matched 0 ∧
        (r.after 1).answer = .error ⟨2, some .ret, .addressOutOfRange 32768⟩ := by
    intro m hpc hjmp hcall hret r
    rw [← hpc] at hjmp
    have hyields : m.Yields _ (.effect (.jump ⟨32766, by decide⟩)) :=
      .jmp (a := .literal ⟨32766, by decide⟩) rfl
    have hadv : m.Advances NullDevice.mk { m with pc := 32766 } NullDevice.mk :=
      .perform (Machine.isHalted_of_decode hjmp) hjmp (.effect hyields.action_eq)
    have hr : r = ⟨{ m with pc := 32766 }, NullDevice.mk⟩ := (Rig.step_of_advances hadv).2
    have hmatched : r.Matched 0 := by
      rw [hr]
      exact Rig.matched_zero (t := ⟨2, by decide⟩) hcall rfl hret
    have hlast : r.machine.pc = 32766 := by rw [hr]
    have htarget : (r.after 1).machine.pc = 2 := by
      rw [hr, Rig.after_succ, Rig.after_zero, (Rig.step_call (t := ⟨2, by decide⟩) hcall rfl).2]
    have hanswer := (hmatched.fails hlast).1
    rw [htarget] at hanswer
    exact ⟨hlast, hmatched, hanswer⟩
  have hsize : lastCall.size ≤ memorySize := Nat.le_of_eq Array.size_ofFn
  exact hrig _ rfl (Machine.decode_loaded hsize hjmp) (Machine.decode_loaded hsize hcall)
    (Machine.decode_loaded hsize hret)

end WordMachine
