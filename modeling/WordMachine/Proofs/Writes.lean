import WordMachine.Proofs.Footprint
import WordMachine.Proofs.InOrder
import WordMachine.Proofs.Trail

/-!
# What memory and registers hold

A word of memory or a register holds what was last written there. The two are `Cell`s of one store,
although operands name registers by the words just above the addresses of memory, so one law covers
both.

* `Machine.destination?` and `Rig.result?` — the cell that an instruction writes, and the word that
  it writes there, told from the state before it;
* `Effect.write?` — the same of what is really done (`Machine.Performs.write_cases`);
* `Rig.written?` — what a step writes to a cell, and `Rig.content_after`: after a run, a cell holds
  the last of these.
-/

namespace WordMachine

/-- A place that holds a word. -/
inductive Cell
  | memory (a : Address)
  | register (x : Register)
  deriving DecidableEq, Repr

/-- Where an effect writes, and what: it writes one cell at most. -/
def Effect.write? : Effect → Option (Cell × Word)
  | store dst v | pop dst v => some (.register dst, v)
  | write a v => some (.memory a, v)
  | _ => none

/-- The opcodes whose instructions write no cell. -/
def Opcode.withoutDestination : List Opcode :=
  [.halt, .push, .jmp, .jt, .jf, .call, .ret, .out, .noop]

namespace Machine

/-- What a cell holds. -/
def content (m : Machine) : Cell → Word
  | .memory a => m.word a
  | .register x => m.register x

/-- The cell that an instruction writes if it is executed: the word of memory whose address its
operand has as value, or the register that its destination operand names. -/
def destination? (m : Machine) : Instruction → Option Cell
  | .set dst _ | .pop dst | .binary _ dst _ _ | .not dst _ | .rmem dst _ | .inp dst =>
    some (.register dst)
  | .wmem address _ => (Address.ofWord (m.value address)).toOption.map .memory
  | _ => none

/-! ### Effects write one cell -/

theorem content_congr {m m' : Machine} (hmemory : m.memory = m'.memory)
    (hregisters : m.registers = m'.registers) (c : Cell) : m.content c = m'.content c := by
  cases c with
  | memory a => exact congrArg (Vector.get · ⟨a.word.toNat, a.isLt⟩) hmemory
  | register x => exact congrArg (Vector.get · x.index) hregisters

theorem content_setRegister (m : Machine) (x : Register) (w : Word) (c : Cell) :
    (m.setRegister x w).content c = if .register x = c then w else m.content c := by
  cases c with
  | memory a => rfl
  | register y => simp only [content, register_setRegister, Cell.register.injEq]

theorem content_setWord (m : Machine) (a : Address) (w : Word) (c : Cell) :
    (m.setWord a w).content c = if .memory a = c then w else m.content c := by
  cases c with
  | memory b =>
    simp only [content, word_setWord, Cell.memory.injEq, Address.ext_iff, UInt16.toNat_inj]
  | register y => rfl

/-- **After an effect**, the cell that it writes holds the word written, and all others are kept. -/
theorem content_apply (m : Machine) (next : Word) (e : Effect) (c : Cell) :
    (m.apply next e).content c =
      (e.write?.bind fun p => if p.1 = c then some p.2 else none).getD (m.content c) := by
  cases e with
  | store dst v | pop dst v =>
    show (m.setRegister dst v).content c = _
    rw [content_setRegister]
    simp only [Effect.write?, Option.bind_some]
    split <;> rfl
  | write a v =>
    show (m.setWord a v).content c = _
    rw [content_setWord]
    simp only [Effect.write?, Option.bind_some]
    split <;> rfl
  | _ => cases c <;> rfl

theorem apply_of_write?_eq_none {m : Machine} {e : Effect} (next : Word) (h : e.write? = none) :
    (m.apply next e).memory = m.memory ∧ (m.apply next e).registers = m.registers := by
  cases e with
  | store | pop | write => cases h
  | _ => exact ⟨rfl, rfl⟩

theorem destination?_eq_none {m : Machine} {i : Instruction}
    (h : i.opcode ∈ Opcode.withoutDestination) : m.destination? i = none := by
  cases i with
  | binary op =>
    cases op <;> simp [Instruction.opcode, BinaryOp.opcode, Opcode.withoutDestination] at h
  | set | pop | not | rmem | wmem | inp =>
    simp [Instruction.opcode, Opcode.withoutDestination] at h
  | _ => rfl

end Machine

namespace Rig

variable {δ : Type} [Device δ]

/-- The word that an instruction writes to its destination if it is executed. -/
def result? (r : Rig δ) : Instruction → Option Word
  | .set _ a | .wmem _ a => some (r.machine.value a)
  | .pop _ => r.machine.stack.top?
  | .binary op _ a b => (op.eval (r.machine.value a) (r.machine.value b)).toOption
  | .not _ a => some (Arith.not (r.machine.value a))
  | .rmem _ a => (r.machine.readMemory (r.machine.value a)).toOption
  | .inp _ => (Device.input r.device).result.toOption.join
  | _ => none

/-- What a step writes to a cell, if it executes an instruction that has the cell as destination. -/
def written? (r : Rig δ) (c : Cell) : Option Word :=
  r.executed?.bind fun i => if r.machine.destination? i = some c then r.result? i else none

end Rig

/-- **What is performed writes what the instruction says**: its result to its destination, if it has
one. -/
theorem Machine.Performs.write_cases {δ : Type} [Device δ] {m : Machine} {d d' : δ}
    {i : Instruction} {e : Effect} (h : m.Performs d i e d') :
    (∃ c w, m.destination? i = some c ∧ Rig.result? ⟨m, d⟩ i = some w ∧ e.write? = some (c, w)) ∨
      m.destination? i = none ∧ e.write? = none := by
  cases h with
  | effect action =>
    cases action_eq_ok_iff.1 action with
    | set | not => exact .inl ⟨_, _, rfl, rfl, rfl⟩
    | pop top => exact .inl ⟨_, _, rfl, top, rfl⟩
    | binary result =>
      refine .inl ⟨_, _, rfl, ?_, rfl⟩
      rw [Rig.result?, result]
      rfl
    | @rmem dst a t address =>
      refine .inl ⟨_, _, rfl, ?_, rfl⟩
      rw [Rig.result?, readMemory, ← address, Address.ofWord_word]
      rfl
    | @wmem a b t address =>
      refine .inl ⟨.memory t, _, ?_, rfl, rfl⟩
      rw [destination?, ← address, Address.ofWord_word]
      rfl
    | _ => exact .inr ⟨rfl, rfl⟩
  | output action =>
    cases action_eq_ok_iff.1 action
    exact .inr ⟨rfl, rfl⟩
  | @input dst w action given =>
    cases action_eq_ok_iff.1 action
    refine .inl ⟨_, w, rfl, ?_, rfl⟩
    rw [Rig.result?, given]
    rfl

namespace Rig

variable {δ : Type} [Device δ]

/-- **What a step writes**: one word to the destination of the instruction that it executes, or
nothing at all, if it executes none or one without a destination. -/
theorem write_cases (r : Rig δ) :
    (∃ i c w, r.executed? = some i ∧ r.machine.destination? i = some c ∧
      (∀ c', r.written? c' = if c = c' then some w else none) ∧
      ∀ c', r.step.machine.content c' = if c = c' then w else r.machine.content c') ∨
    (∀ i, r.executed? = some i → r.machine.destination? i = none) ∧ (∀ c, r.written? c = none) ∧
      r.step.machine.memory = r.machine.memory ∧
      r.step.machine.registers = r.machine.registers := by
  rcases r.executed_cases with ⟨i, e, d', hexecuted, hperforms, hstep⟩ | ⟨hnone, hmem, hreg, -⟩
  · rcases hperforms.write_cases with ⟨c, w, hdst, hresult, hwrite⟩ | ⟨hdst, hwrite⟩
    · refine .inl ⟨i, c, w, hexecuted, hdst, ?_, ?_⟩
      · intro c'
        simp only [written?, hexecuted, hdst, hresult, Option.bind_some, Option.some.injEq]
      · intro c'
        rw [hstep, Machine.content_apply, hwrite, Option.bind_some]
        split <;> rfl
    · refine .inr ⟨?_, ?_, ?_⟩
      · intro j hj
        cases hexecuted.symm.trans hj
        exact hdst
      · intro c
        rw [written?, hexecuted, Option.bind_some, hdst, if_neg nofun]
      · rw [hstep]
        exact Machine.apply_of_write?_eq_none _ hwrite
  · refine .inr ⟨?_, ?_, hmem, hreg⟩
    · intro i hi
      cases hnone.symm.trans hi
    · intro c
      rw [written?, hnone, Option.bind_none]

/-- A step writes to a cell exactly if it executes an instruction with that destination. -/
theorem isSome_written?_iff (r : Rig δ) (c : Cell) :
    (r.written? c).isSome ↔ ∃ i, r.executed? = some i ∧ r.machine.destination? i = some c := by
  constructor
  · intro h
    rcases r.write_cases with ⟨i, c', w, hi, hdst, hwritten, -⟩ | ⟨-, hwritten, -⟩
    · rw [hwritten] at h
      split at h
      · next hc => exact ⟨i, hi, hc ▸ hdst⟩
      · cases h
    · rw [hwritten] at h
      cases h
  · rintro ⟨i, hi, hdst⟩
    rcases r.write_cases with ⟨j, c', w, hj, hdst', hwritten, -⟩ | ⟨hnone, -⟩
    · cases hi.symm.trans hj
      cases hdst.symm.trans hdst'
      rw [hwritten, if_pos rfl]
      rfl
    · cases (hnone i hi).symm.trans hdst

/-- **A step changes the cell that it writes to**, and no other. -/
theorem content_step (r : Rig δ) (c : Cell) :
    r.step.machine.content c = (r.written? c).getD (r.machine.content c) := by
  rcases r.write_cases with ⟨-, c', w, -, -, hwritten, hcontent⟩ | ⟨-, hwritten, hmem, hreg⟩
  · rw [hwritten, hcontent]
    split <;> rfl
  · rw [hwritten]
    exact Machine.content_congr hmem hreg c

/-- An instruction that is executed leaves its result in its destination. -/
theorem result?_of_executed {r : Rig δ} {i : Instruction} {c : Cell} (hi : r.executed? = some i)
    (hdst : r.machine.destination? i = some c) : r.result? i = some (r.step.machine.content c) := by
  obtain ⟨w, hw⟩ := Option.isSome_iff_exists.1 ((r.isSome_written?_iff c).2 ⟨i, hi, hdst⟩)
  rw [content_step, hw]
  rwa [written?, hi, Option.bind_some, if_pos hdst] at hw

/-- A step that executes no instruction with a destination keeps all cells. -/
theorem cells_step {r : Rig δ}
    (h : ∀ i, r.executed? = some i → i.opcode ∈ Opcode.withoutDestination) :
    r.step.machine.memory = r.machine.memory ∧ r.step.machine.registers = r.machine.registers := by
  rcases r.write_cases with ⟨i, c, w, hi, hdst, -⟩ | ⟨-, -, hkept⟩
  · cases (Machine.destination?_eq_none (h i hi)).symm.trans hdst
  · exact hkept

/-- No step changes two cells. -/
theorem eq_of_content_ne {r : Rig δ} {c c' : Cell}
    (h : r.step.machine.content c ≠ r.machine.content c)
    (h' : r.step.machine.content c' ≠ r.machine.content c') : c = c' := by
  rcases r.write_cases with ⟨-, c₀, w, -, -, -, hcontent⟩ | ⟨-, -, hmemory, hregisters⟩
  · have changed {x : Cell} (hx : r.step.machine.content x ≠ r.machine.content x) : c₀ = x := by
      rw [hcontent] at hx
      exact Decidable.byContradiction fun hne => hx (if_neg hne)
    exact (changed h).symm.trans (changed h')
  · exact absurd (Machine.content_congr hmemory hregisters c) h

/-- **After a run, a cell holds what was last written there**, or what it held at the start. -/
theorem content_after (r : Rig δ) (n : Nat) (c : Cell) :
    (r.after n).machine.content c =
      ((r.trail n).filterMap (·.written? c)).getLastD (r.machine.content c) := by
  induction n with
  | zero => rfl
  | succ n ih =>
    rw [after_succ, content_step, ih, trail_succ, List.filterMap_append]
    cases hw : (r.after n).written? c with
    | none => simp [hw]
    | some w => simp [hw]

end Rig

/-- **The last writer decides.** In any state, with any device and over any number of steps, a word
of memory holds the source value of the last `wmem` executed whose operand gave its address, and a
register holds what the last instruction executed that names it as destination has stored there; if
there was none, they hold what they held at the start. A step executes an instruction with a
destination exactly if it writes to that cell; a step that executes none, because its instruction
has no destination or because it fails, skips or rests, keeps memory and registers, and if it fails,
then no statement before the one that fails has touched them; and no step changes two cells. -/
theorem last_writer_decides {δ : Type} [Device δ] (r : Rig δ) (n : Nat) :
    (∀ c, (r.after n).machine.content c =
      ((r.trail n).filterMap (·.written? c)).getLastD (r.machine.content c)) ∧
    ∀ s : Rig δ,
      (∀ c, (s.written? c).isSome ↔
        ∃ i, s.executed? = some i ∧ s.machine.destination? i = some c) ∧
      ((∀ i, s.executed? = some i → i.opcode ∈ Opcode.withoutDestination) →
        s.step.machine.memory = s.machine.memory ∧
          s.step.machine.registers = s.machine.registers) ∧
      (∀ f w, s.machine.stepInOrder s.device = .error f w →
        w.machine.memory = s.machine.memory ∧ w.machine.registers = s.machine.registers ∧
          s.step.machine = w.machine) ∧
      ∀ c c', s.step.machine.content c ≠ s.machine.content c →
        s.step.machine.content c' ≠ s.machine.content c' → c = c' := by
  refine ⟨r.content_after n, ?_⟩
  intro s
  refine ⟨s.isSome_written?_iff, Rig.cells_step, ?_, fun c c' => Rig.eq_of_content_ne⟩
  intro f w h
  obtain ⟨hmachine, -, -, hstep⟩ := Machine.stepInOrder_of_error h
  rw [hmachine]
  exact ⟨rfl, rfl, hstep⟩

/-- A program that sets a register twice. -/
theorem last_writer_decides_set :
    let r : Rig NullDevice := ⟨Machine.loaded .skip #[1, 32768, 7, 1, 32768, 8], NullDevice.mk⟩
    (r.trail 2).filterMap (·.written? (.register ⟨0⟩)) = [7, 8] ∧
      (r.after 2).machine.content (.register ⟨0⟩) = 8 := by
  have hset : ∀ (m : Machine) (v : Literal),
      m.decode m.pc = .ok (.set ⟨0⟩ (.literal v)) →
      let r : Rig NullDevice := ⟨m, NullDevice.mk⟩
      r.written? (.register ⟨0⟩) = some v.word ∧
        r.step = ⟨m.apply (m.pc + 3) (.store ⟨0⟩ v.word), NullDevice.mk⟩ := by
    intro m v hdecode r
    have hadv : m.Advances NullDevice.mk _ NullDevice.mk :=
      .perform (Machine.isHalted_of_decode hdecode) hdecode (.effect Machine.Yields.set.action_eq)
    obtain ⟨hanswer, hstep⟩ := Rig.step_of_advances hadv
    have hexecuted : r.executed? = _ := Rig.executed?_eq_some_iff.2 ⟨hdecode, _, hanswer⟩
    refine ⟨?_, hstep⟩
    rw [Rig.written?, hexecuted]
    rfl
  -- both instructions are there from the start, and no register matters to them
  have hrun : ∀ m : Machine, m.pc = 0 → m.decode 0 = .ok (.set ⟨0⟩ (.literal ⟨7, by decide⟩)) →
      m.decode 3 = .ok (.set ⟨0⟩ (.literal ⟨8, by decide⟩)) →
      let r : Rig NullDevice := ⟨m, NullDevice.mk⟩
      (r.trail 2).filterMap (·.written? (.register ⟨0⟩)) = [7, 8] ∧
        (r.after 2).machine.content (.register ⟨0⟩) = 8 := by
    intro m hpc first second r
    rw [← hpc] at first
    obtain ⟨hwritten, hstep⟩ := hset m _ first
    have hsecond : r.step.machine.decode r.step.machine.pc =
        .ok (.set ⟨0⟩ (.literal ⟨8, by decide⟩)) := by
      rw [hstep]
      show m.decode (m.pc + 3) = _
      rw [hpc]
      exact second
    have hwritten' : r.step.written? (.register ⟨0⟩) = some 8 := (hset _ _ hsecond).1
    have htrail : (r.trail 2).filterMap (·.written? (.register ⟨0⟩)) = [7, 8] := by
      rw [Rig.trail_succ, Rig.trail_succ, Rig.trail_zero, Rig.after_succ, Rig.after_zero]
      simp only [List.nil_append, List.cons_append, List.filterMap_cons, List.filterMap_nil]
      rw [hwritten, hwritten']
    refine ⟨htrail, ?_⟩
    rw [(last_writer_decides r 2).1, htrail]
    rfl
  exact hrun _ rfl (Machine.decode_loaded (by decide) rfl) (Machine.decode_loaded (by decide) rfl)

end WordMachine
