import WordMachine.Proofs.Halting
import WordMachine.Proofs.Padding
import WordMachine.Proofs.Policy
import WordMachine.Proofs.Trail

/-!
# Straight-line execution

As long as nothing but the next word or instruction is gone on to, a run goes down the listing that
starts at its program counter, one line with each step, until it comes to the end of memory. A step
that goes straight on (`Rig.Straight`) goes on behind the words of the first line, so what is listed
from the program counter on is then the rest of the listing (`Rig.Straight.ahead_step`), and after
any number of such steps it is the listing without as many lines (`Rig.ahead_after`).
-/

namespace WordMachine

/-- An instruction that is performed leaves memory alone, unless it is there to write. -/
theorem Machine.Performs.memory_eq {δ : Type} [Device δ] {m : Machine} {d d' : δ} {i : Instruction}
    {e : Effect} (h : m.Performs d i e d') (hi : ∀ a b, i ≠ .wmem a b) (next : Word) :
    (m.apply next e).memory = m.memory := by
  cases h with
  | effect action =>
    cases action_eq_ok_iff.1 action with
    | wmem => exact absurd rfl (hi _ _)
    | _ => rfl
  | output action =>
    cases action_eq_ok_iff.1 action
    rfl
  | input action =>
    cases action_eq_ok_iff.1 action
    rfl

namespace Rig

variable {δ : Type} [Device δ] {r : Rig δ} {n : Nat}

/-- A step goes **straight** on: it does not fail, and if it executes an instruction, that does not
write to memory, does not halt the machine, and takes no transfer of control. -/
structure Straight (r : Rig δ) : Prop where
  advances : ∃ s, r.answer = .ok s
  noWrite : ∀ a b, r.executed? ≠ some (.wmem a b)
  noHalt : r.executed? ≠ some .halt
  noEmptyReturn : r.executed? = some .ret → r.machine.stack.depth ≠ 0
  noTransfer : ∀ i, r.executed? = some i → r.machine.target? i = none

/-- A step **skips** a word: that is no opcode, and the step does nothing but pass over it and count
it. -/
structure Skips (r : Rig δ) (w : Word) : Prop where
  unknown : r.machine.AtUnknown w
  nothing : r.executed? = none
  passed : r.step =
    ⟨{ r.machine with pc := r.machine.pc + 1, skipped := r.machine.skipped + 1 }, r.device⟩

/-- **What a step that goes straight on does**: it rests, skips a word, or executes an instruction
and goes on behind it. -/
theorem Straight.cases (h : r.Straight) :
    (r.machine.isHalted = true ∧ r.step = r) ∨ (∃ w, r.Skips w) ∨
      ∃ i, r.executed? = some i ∧ r.machine.decode r.machine.pc = .ok i ∧
        r.step.machine.memory = r.machine.memory ∧ r.step.machine.pc = r.machine.next i := by
  obtain ⟨s, hs⟩ := h.advances
  have hexecuted := executed?_of_ok hs
  rcases r.step_cases with ⟨m', d', hadv, -, hstep⟩ | ⟨f, d', -, hanswer, -⟩
  · cases hadv with
    | rest halted => exact .inl ⟨halted, hstep⟩
    | @skip w running unknown lenient =>
      rw [unknown] at hexecuted
      exact .inr (.inl ⟨w, Machine.decode_eq_unknown_iff.1 unknown, hexecuted, hstep⟩)
    | @perform i e _ running decoded performs =>
      rw [decoded] at hexecuted
      have hexecuted : r.executed? = some i := hexecuted
      have hwrite : ∀ a b, i ≠ .wmem a b := by
        rintro a b rfl
        exact h.noWrite a b hexecuted
      have hpc : e.pc (r.machine.next i) = r.machine.next i := by
        have honward := h.noTransfer i hexecuted
        rcases performs.pc_eq (r.machine.next i) with
          ⟨t, target, -⟩ | ⟨-, hi | hi, -⟩ | ⟨-, -, -, hpc⟩
        · cases honward.symm.trans target
        · rw [hi] at hexecuted
          exact absurd hexecuted h.noHalt
        · -- a return without a target is one with an empty stack
          rw [hi] at hexecuted honward
          exact absurd (Machine.target?_ret_eq_none_iff.1 honward) (h.noEmptyReturn hexecuted)
        · exact hpc
      refine .inr (.inr ⟨i, hexecuted, decoded, ?_, ?_⟩)
      · rw [hstep]
        exact performs.memory_eq hwrite _
      · rw [hstep]
        exact (Machine.pc_apply _ _ e).trans hpc
  · cases hs.symm.trans hanswer

theorem straight_of_atUnknown {w : Word} (h : r.machine.AtUnknown w)
    (lenient : r.machine.policy = .skip) : r.Straight := by
  obtain ⟨hanswer, -⟩ := step_lenient h lenient
  have hnone : r.executed? = none := by
    rw [executed?_of_ok hanswer, Machine.decode_eq_unknown_iff.2 h]
    rfl
  exact ⟨⟨_, hanswer⟩, by simp [hnone], by simp [hnone], by simp [hnone], by simp [hnone]⟩

theorem straight_of_noop (h : r.machine.decode r.machine.pc = .ok .noop) : r.Straight := by
  obtain ⟨hexecuted, -⟩ := executed?_of_yields (d := r.device) h .noop
  have hexecuted : r.executed? = some .noop := hexecuted
  refine ⟨(executed?_eq_some_iff.1 hexecuted).2, ?_, ?_, ?_, ?_⟩
  · simp [hexecuted]
  · simp [hexecuted]
  · simp [hexecuted]
  · intro i hi
    cases hexecuted.symm.trans hi
    rfl

/-- What is listed from the program counter on. -/
def ahead (r : Rig δ) : List Line :=
  Listing.lines r.machine.memory.toArray r.machine.pc.toNat

omit [Device δ] in
theorem ahead_eq_nil_iff : r.ahead = [] ↔ r.machine.isHalted = true := by
  rw [ahead, Listing.lines_eq_nil_iff, Vector.size_toArray, Machine.isHalted, decide_eq_true_iff]

/-- **A step that goes straight on goes on to the next line.** -/
theorem Straight.ahead_step (h : r.Straight) : r.step.ahead = r.ahead.tail := by
  rcases h.cases with ⟨halted, hstep⟩ | ⟨w, hskips⟩ | ⟨i, -, decoded, hmemory, hpc⟩
  · rw [hstep, ahead_eq_nil_iff.2 halted]
    rfl
  · have hpc := Machine.toNat_pc_add_one hskips.unknown.isHalted_eq
    have hlines := Listing.lines_of_unknown (Machine.decode_eq_unknown_iff.2 hskips.unknown)
    rw [ahead, ahead, hlines, hskips.passed]
    show Listing.lines _ (r.machine.pc + 1).toNat = _
    rw [hpc]
    rfl
  · rw [ahead, ahead, Listing.lines_of_decode decoded, hmemory, hpc, Machine.toNat_next decoded]
    rfl

/-- **Steps that go straight on go down the listing**, one line with each. -/
theorem ahead_after (straight : ∀ k < n, (r.after k).Straight) :
    (r.after n).ahead = r.ahead.drop n := by
  induction n with
  | zero => rfl
  | succ n ih =>
    have hn := straight n (Nat.lt_succ_self n)
    rw [after_succ, hn.ahead_step, ih fun k hk => straight k (Nat.lt_succ_of_lt hk), List.tail_drop]

/-- **What a step that goes straight on does is what the first line says.** -/
theorem Straight.does (h : r.Straight) {l : Line} {below : List Line} (hl : r.ahead = l :: below) :
    (∃ i, r.executed? = some i ∧
        l.item = .instruction i.opcode (i.operands.map Operand.word)) ∨
      ∃ w, r.Skips w ∧ l.item = .data w := by
  rcases h.cases with ⟨halted, -⟩ | ⟨w, hskips⟩ | ⟨i, hexecuted, decoded, -⟩
  · rw [ahead_eq_nil_iff.2 halted] at hl
    cases hl
  · have hlines := Listing.lines_of_unknown (Machine.decode_eq_unknown_iff.2 hskips.unknown)
    cases hlines.symm.trans hl
    exact .inr ⟨w, hskips, rfl⟩
  · cases (Listing.lines_of_decode decoded).symm.trans hl
    exact .inl ⟨i, hexecuted, rfl⟩

end Rig

/-- **Straight-line execution follows the listing.** Under either policy, with any device, and from
any program counter that is not beyond the end of memory: if the first `n` steps go straight on,
then up to there the program counter after `k` steps is the address of line number `k`, counted from
0, of the listing that starts at the program counter, or right behind memory if the listing has no
such line. And each of the steps that has a line executes what is listed there, or skips the word if
that is a data word. -/
theorem straight_runs_follow_listing {δ : Type} [Device δ] (r : Rig δ)
    (inside : r.machine.pc.toNat ≤ memorySize) (n : Nat)
    (straight : ∀ k < n, (r.after k).Straight) :
    let ls := Listing.lines r.machine.memory.toArray r.machine.pc.toNat
    (∀ k ≤ n, ∀ l, ls[k]? = some l → (r.after k).machine.pc.toNat = l.address) ∧
    (∀ k ≤ n, ls.length ≤ k → (r.after k).machine.pc.toNat = memorySize) ∧
    ∀ k < n, ∀ l, ls[k]? = some l →
      (∃ i, (r.after k).executed? = some i ∧
          l.item = .instruction i.opcode (i.operands.map Operand.word)) ∨
        ∃ w, (r.after k).Skips w ∧ l.item = .data w := by
  intro ls
  -- what is ahead after `k` steps is what the listing has from line number `k` on
  have hahead : ∀ k ≤ n, (r.after k).ahead = ls.drop k := by
    intro k hk
    exact Rig.ahead_after fun j hj => straight j (Nat.lt_of_lt_of_le hj hk)
  have hline : ∀ k ≤ n, ∀ l, ls[k]? = some l → (r.after k).ahead = l :: ls.drop (k + 1) := by
    intro k hk l hl
    obtain ⟨hlt, rfl⟩ := List.getElem?_eq_some_iff.1 hl
    rw [hahead k hk, List.drop_eq_getElem_cons hlt]
  refine ⟨?_, ?_, ?_⟩
  · intro k hk l hl
    obtain ⟨hlt, hl, -⟩ := Listing.lines_eq_cons_iff.1 (hline k hk l hl)
    rw [hl, Listing.address_lineAt]
  · intro k hk hle
    have hnil := hahead k hk
    rw [List.drop_eq_nil_of_le hle, Rig.ahead_eq_nil_iff, Machine.isHalted, decide_eq_true_iff]
      at hnil
    exact Nat.le_antisymm (Rig.pc_after_le inside k) hnil
  · intro k hk l hl
    exact (straight k hk).does (hline k (Nat.le_of_lt hk) l hl)

/-- A program that starts with a word that is no opcode. -/
theorem straight_runs_follow_listing_skip :
    let r : Rig NullDevice := ⟨Machine.loaded .skip #[22, 21, 0], NullDevice.mk⟩
    (∀ k < 2, (r.after k).Straight) ∧ r.Skips 22 ∧ (r.after 1).machine.pc.toNat = 1 ∧
      (r.after 1).executed?.map Instruction.opcode = some .noop ∧
      (r.after 2).machine.pc.toNat = 2 := by
  -- of the machine only what is decoded matters
  have hrun : ∀ m : Machine, m.pc = 0 → m.policy = .skip →
      m.decode 0 = .error (.unknownOpcode 22) → m.decode 1 = .ok .noop → m.decode 2 = .ok .halt →
      let r : Rig NullDevice := ⟨m, NullDevice.mk⟩
      (∀ k < 2, (r.after k).Straight) ∧ r.Skips 22 ∧ (r.after 1).machine.pc.toNat = 1 ∧
        (r.after 1).executed?.map Instruction.opcode = some .noop ∧
        (r.after 2).machine.pc.toNat = 2 := by
    intro m hpc lenient unknown noop halt r
    have hlines : Listing.lines m.memory.toArray m.pc.toNat =
        ⟨0, .data 22⟩ :: ⟨1, .instruction .noop []⟩ :: ⟨2, .instruction .halt []⟩ ::
          Listing.lines m.memory.toArray 3 := by
      have hzero := Listing.lines_of_unknown unknown
      have hone := Listing.lines_of_decode noop
      have htwo := Listing.lines_of_decode halt
      rw [hpc]
      exact hzero.trans (congrArg _ (hone.trans (congrArg _ htwo)))
    rw [← hpc] at unknown
    have hfirst : r.machine.AtUnknown 22 := Machine.decode_eq_unknown_iff.1 unknown
    obtain ⟨-, hstep⟩ := Rig.step_lenient hfirst lenient
    have hsecond : (r.after 1).machine.decode (r.after 1).machine.pc = .ok .noop := by
      rw [Rig.after_succ, Rig.after_zero, hstep]
      show m.decode (m.pc + 1) = _
      rw [hpc]
      exact noop
    have straight : ∀ k < 2, (r.after k).Straight := by
      intro k hk
      obtain rfl | rfl : k = 0 ∨ k = 1 := by omega
      · exact Rig.straight_of_atUnknown hfirst lenient
      · exact Rig.straight_of_noop hsecond
    have inside : r.machine.pc.toNat ≤ memorySize := by
      rw [show r.machine.pc = 0 from hpc]
      exact Nat.zero_le _
    obtain ⟨haddress, -, hdoes⟩ := straight_runs_follow_listing r inside 2 straight
    rw [show Listing.lines r.machine.memory.toArray r.machine.pc.toNat = _ from hlines]
      at haddress hdoes
    refine ⟨straight, ?_, haddress 1 (by decide) _ rfl, ?_, haddress 2 (by decide) _ rfl⟩
    · rcases hdoes 0 (by decide) _ rfl with ⟨i, -, hitem⟩ | ⟨w, hskips, hitem⟩
      · cases hitem
      · cases hitem
        exact hskips
    · rcases hdoes 1 (by decide) _ rfl with ⟨i, hexecuted, hitem⟩ | ⟨w, -, hitem⟩
      · injection hitem with hopcode
        rw [hexecuted, Option.map_some, hopcode]
      · cases hitem
  have hsize : Array.size #[(22 : Word), 21, 0] ≤ memorySize := by decide
  exact hrun _ rfl rfl (Machine.decode_loaded_eq hsize (by decide) nofun)
    (Machine.decode_loaded hsize rfl) (Machine.decode_loaded hsize rfl)

end WordMachine
