import WordMachine.Proofs.CheckedReading
import WordMachine.Proofs.Policy

/-!
# Steps need no check

A step looks up registers and words of memory by their numbers, computes addresses in sixteen bits,
sums and products in thirty-two, and counts the words that it skips in sixty-four. `stepChecked`
makes all these checks, and it makes the step that `step` makes.

* The word at the program counter is looked up only if the machine has not halted.
* The address behind an instruction fits, since an instruction that is read ends within memory.
* Registers are looked up by numbers below eight, since there are no others.

Only the count can come to its end, after as many skipped words as sixty-four bits can count
(`CountFull`).
-/

namespace WordMachine

namespace Machine

variable {δ : Type}

/-! ### Values and actions -/

/-- The value of an operand; a register is looked up by its number. -/
def valueChecked (m : Machine) : Operand → Checked Word
  | .literal value => return value.word
  | .register r => Checked.index m.registers.toArray r.index

/-- The value of an operand as a part of what may be refused. -/
def read (m : Machine) (a : Operand) : Guarded Word := Guarded.check (m.valueChecked a)

/-- Puts a word into a register, which is looked up by its number. -/
def setRegisterChecked (m : Machine) (r : Register) (w : Word) : Checked Machine := do
  return { m with registers := ← Checked.set m.registers r.index w }

/-- The jump to where an operand says. -/
def jumpChecked (m : Machine) (target : Operand) : Guarded Action := do
  return .effect (.jump (← Guarded.answer (Address.ofWord (← m.read target))))

/-- What an instruction asks for, with every operand looked up and every result computed by
checks. -/
def actionChecked (m : Machine) : Instruction → Guarded Action
  | .halt => return .effect (.halt false)
  | .set dst value => return .effect (.store dst (← m.read value))
  | .push value => return .effect (.push (← m.read value))
  | .pop dst => match m.stack.top? with
    | some w => return .effect (.pop dst w)
    | none => throw .stackUnderflow
  | .binary op dst left right => do
    return .effect (.store dst (← op.evalChecked (← m.read left) (← m.read right)))
  | .jmp target => m.jumpChecked target
  | .jt test target => do
    if (← m.read test) ≠ 0 then m.jumpChecked target else return .effect .next
  | .jf test target => do
    if (← m.read test) = 0 then m.jumpChecked target else return .effect .next
  | .not dst value => return .effect (.store dst (Arith.not (← m.read value)))
  | .rmem dst address => do
    return .effect (.store dst (← Guarded.answer (m.readMemory (← m.read address))))
  | .wmem address value => do
    let w ← m.read address
    let v ← m.read value
    return .effect (.write (← Guarded.answer (Address.ofWord w)) v)
  | .call target => do
    return .effect (.call (← Guarded.answer (Address.ofWord (← m.read target))))
  | .ret => match m.stack.top? with
    | some w => return .effect (.ret (← Guarded.answer (Address.ofWord w)))
    | none => return .effect (.halt true)
  | .out value => return .output (← m.read value)
  | .inp dst => return .input dst
  | .noop => return .effect .next

theorem valueChecked_eq (m : Machine) (a : Operand) : m.valueChecked a = .ok (m.value a) := by
  cases a with
  | literal value => rfl
  | register r =>
    have hr : r.index.val < m.registers.toArray.size := by simp
    exact Checked.index_eq_ok_iff.2 (Array.getElem?_eq_getElem hr)

@[simp] theorem read_eq (m : Machine) (a : Operand) : m.read a = .answer (.ok (m.value a)) := by
  rw [read, valueChecked_eq, Guarded.check_ok]

@[simp] theorem setRegisterChecked_eq (m : Machine) (r : Register) (w : Word) :
    m.setRegisterChecked r w = .ok (m.setRegister r w) := by
  have hset : Checked.set m.registers r.index w = .ok (m.registers.set r.index w) :=
    Checked.set_eq_ok_iff.2 ⟨r.index.isLt, rfl⟩
  rw [setRegisterChecked, hset]
  rfl

@[simp] theorem jumpChecked_eq (m : Machine) (target : Operand) :
    m.jumpChecked target = .answer (m.jump target) := by
  simp [jumpChecked, jump, Guarded.answer_map]

/-- **What an instruction asks for needs no check.** -/
theorem actionChecked_eq (m : Machine) (i : Instruction) :
    m.actionChecked i = .answer (m.action i) := by
  cases i with
  | pop dst => cases top : m.stack.toList.getLast? <;> simp [actionChecked, action, top]
  | ret =>
    cases top : m.stack.toList.getLast? <;> simp [actionChecked, action, top, Guarded.answer_map]
  | binary op dst a b =>
    simp [actionChecked, action, BinaryOp.evalChecked_eq, Guarded.answer_map]
  | jt test target => by_cases test : m.value test = 0 <;> simp [actionChecked, action, test]
  | jf test target => by_cases test : m.value test = 0 <;> simp [actionChecked, action, test]
  | rmem | wmem | call => simp [actionChecked, action, Guarded.answer_map]
  | _ => simp [actionChecked, action]

/-! ### Changes of state and addresses -/

/-- Makes a change of state; a register that is written is looked up by its number. -/
def applyChecked (m : Machine) (next : Word) (e : Effect) : Checked Machine :=
  match e with
  | .store dst value => do return { ← m.setRegisterChecked dst value with pc := next }
  | .pop dst value => do
    return { ← m.setRegisterChecked dst value with stack := m.stack.drop, pc := next }
  | _ => return m.apply next e

/-- The address behind an instruction at the program counter, in sixteen bits. -/
def nextChecked (m : Machine) (i : Instruction) : Checked Word := do
  let size ← Checked.add 16 1 i.opcode.arity
  return .ofNat (← Checked.add 16 m.pc.toNat size)

@[simp] theorem applyChecked_eq (m : Machine) (next : Word) (e : Effect) :
    m.applyChecked next e = .ok (m.apply next e) := by
  cases e <;> simp [applyChecked, apply, pure, Except.pure]

/-- **The address behind an instruction that is read fits into sixteen bits.** -/
theorem nextChecked_eq {m : Machine} {i : Instruction} (h : m.decode m.pc = .ok i) :
    m.nextChecked i = .ok (m.next i) := by
  have hle := pc_add_size_le h
  have harity := i.opcode.arity_le
  have hsize : Checked.add 16 1 i.opcode.arity = .ok i.size :=
    Checked.add_eq_ok_iff.2 ⟨by omega, rfl⟩
  have hnext : Checked.add 16 m.pc.toNat i.size = .ok (m.pc.toNat + i.size) :=
    Checked.add_eq_ok_iff.2 ⟨Nat.lt_of_le_of_lt hle (by decide), rfl⟩
  rw [nextChecked, hsize, Except.ok_bind, hnext]
  simp [next, UInt16.ofNat_add, pure, Except.pure]

/-! ### Steps -/

/-- Executes an instruction. -/
def executeChecked [Device δ] (m : Machine) (i : Instruction) (device : δ) : Checked (Step δ) := do
  let trace := Record.trace (m.trace i)
  let next ← m.nextChecked i
  match ← (m.actionChecked i).run with
  | .error e => return m.fail i.opcode e device [trace]
  | .ok (.effect e) => return (← m.applyChecked next e).settle device (trace :: e.log)
  | .ok (.output value) =>
    let reply := Device.output device value
    match reply.result with
    | .error e => return m.fail i.opcode (.device e) reply.device (trace :: reply.log)
    | .ok () => return (← m.applyChecked next .next).settle reply.device (trace :: reply.log)
  | .ok (.input dst) =>
    let reply : Reply δ (Option Word) := Device.input device
    match reply.result with
    | .error e => return m.fail i.opcode (.device e) reply.device (trace :: reply.log)
    | .ok none => return m.fail i.opcode .inputExhausted reply.device (trace :: reply.log)
    | .ok (some w) =>
      return (← m.applyChecked next (.store dst w)).settle reply.device (trace :: reply.log)

/-- Skips the word at the program counter, which is no opcode, and counts it. -/
def skipChecked (m : Machine) (w : Word) (device : δ) : Checked (Step δ) := do
  let skipped ← Checked.add 64 m.skipped 1
  let pc ← Checked.add 16 m.pc.toNat 1
  return { m with pc := .ofNat pc, skipped := skipped }.settle device [.unknownOpcode w m.pc]

/-- The end of a step that read no instruction; the fault names the opcode at the program counter. -/
def refuseChecked (m : Machine) (cause : Error) (device : δ) : Checked (Step δ) := do
  let w ← Checked.index m.memory.toArray m.pc.toNat
  return m.fail (Opcode.ofWord? w) cause device []

/-- Executes the instruction at the program counter, unless the machine has halted. -/
def stepChecked [Device δ] (m : Machine) (device : δ) : Checked (Step δ) :=
  if m.isHalted then return ⟨.ok .halted, m, device, []⟩
  else do
    match ← (Instruction.decodeChecked m.memory.toArray m.pc.toNat).run with
    | .ok i => m.executeChecked i device
    | .error (.unknownOpcode w) =>
      match m.policy with
      | .skip => m.skipChecked w device
      | .fault => m.refuseChecked (.unknownOpcode w) device
    | .error e => m.refuseChecked e device

/-- The step is to count a skipped word, and sixty-four bits cannot count one more. -/
structure CountFull (m : Machine) : Prop where
  full : 2 ^ 64 ≤ m.skipped + 1
  lenient : m.policy = .skip
  unknown : ∃ w, m.AtUnknown w

theorem AtUnknown.withSkipped {m : Machine} {w : Word} (h : m.AtUnknown w) (count : Nat) :
    AtUnknown { m with skipped := count } w :=
  ⟨h.read, h.unknown⟩

/-- The memory of a machine can be stored. -/
theorem storable (m : Machine) : Storable m.memory.toArray := by
  rw [Storable, Vector.size_toArray]
  decide

theorem executeChecked_eq [Device δ] {m : Machine} {i : Instruction} (h : m.decode m.pc = .ok i)
    (d : δ) : m.executeChecked i d = .ok (m.execute i d) := by
  simp only [executeChecked, execute, nextChecked_eq h, actionChecked_eq, Guarded.run_answer,
    Except.ok_bind, applyChecked_eq]
  cases m.action i with
  | error e => rfl
  | ok a =>
    cases a with
    | effect e => rfl
    | output value =>
      dsimp only
      cases (Device.output d value).result with
      | error e => rfl
      | ok u => rfl
    | input dst =>
      dsimp only
      cases (Device.input d).result with
      | error e => rfl
      | ok w =>
        cases w with
        | none => rfl
        | some w => rfl

theorem skipChecked_eq {m : Machine} (running : m.isHalted = false) (w : Word) (d : δ)
    (counts : m.skipped + 1 < 2 ^ 64) : m.skipChecked w d = .ok (m.skip w d) := by
  have hlt := isHalted_eq_false_iff.1 running
  have hskipped : Checked.add 64 m.skipped 1 = .ok (m.skipped + 1) :=
    Checked.add_eq_ok_iff.2 ⟨counts, rfl⟩
  have hpc : Checked.add 16 m.pc.toNat 1 = .ok (m.pc.toNat + 1) :=
    Checked.add_eq_ok_iff.2 ⟨by simp at hlt; omega, rfl⟩
  rw [skipChecked, hskipped, Except.ok_bind, hpc]
  simp [skip, UInt16.ofNat_add, pure, Except.pure]

theorem refuseChecked_eq {m : Machine} (running : m.isHalted = false) (cause : Error) (d : δ) :
    m.refuseChecked cause d = .ok (m.fail m.opcode? cause d []) := by
  have hlt : m.pc.toNat < m.memory.size := isHalted_eq_false_iff.1 running
  have hw : m.memory[m.pc.toNat]? = some m.memory[m.pc.toNat] := Vector.getElem?_eq_getElem hlt
  have hindex : Checked.index m.memory.toArray m.pc.toNat = .ok m.memory[m.pc.toNat] :=
    Checked.index_eq_ok_iff.2 ((Vector.getElem?_toArray).trans hw)
  rw [refuseChecked, hindex, opcode?, hw]
  rfl

variable [Device δ] {m : Machine} {d : δ}

/-- **A step needs no check**, but for the count. -/
theorem stepChecked_eq (counts : ¬ m.CountFull) (d : δ) : m.stepChecked d = .ok (m.step d) := by
  cases running : m.isHalted with
  | true => simp [stepChecked, step, running, pure, Except.pure]
  | false =>
    have hdecode : Instruction.decodeChecked m.memory.toArray m.pc.toNat =
        .answer (m.decode m.pc) := Instruction.decodeChecked_eq m.storable _
    simp only [stepChecked, step, running, hdecode, Guarded.run_answer, Except.ok_bind,
      Bool.false_eq_true, if_false]
    cases decoded : m.decode m.pc with
    | ok i => exact executeChecked_eq decoded d
    | error e =>
      cases e with
      | unknownOpcode w =>
        cases policy : m.policy with
        | fault => exact refuseChecked_eq running _ d
        | skip =>
          apply skipChecked_eq running
          apply Nat.lt_of_not_le
          intro full
          exact counts ⟨full, policy, w, decode_eq_unknown_iff.1 decoded⟩
      | _ => exact refuseChecked_eq running _ d

/-- Where the count is full, the step breaks off. -/
theorem stepChecked_of_countFull (h : m.CountFull) (d : δ) :
    m.stepChecked d = .error (.overflow 64) := by
  obtain ⟨w, hw⟩ := h.unknown
  have hdecode : Instruction.decodeChecked m.memory.toArray m.pc.toNat =
      .answer (.error (.unknownOpcode w)) := by
    rw [Instruction.decodeChecked_eq m.storable]
    exact congrArg Guarded.answer (decode_eq_unknown_iff.2 hw)
  simp only [stepChecked, hw.isHalted_eq, hdecode, h.lenient, Guarded.run_answer, Except.ok_bind,
    Bool.false_eq_true, if_false]
  rw [skipChecked, Checked.add_of_le h.full]
  rfl

end Machine

namespace Rig

variable {δ : Type} [Device δ]

/-- A step counts one word at most. -/
theorem skipped_after_le (r : Rig δ) (n : Nat) :
    (r.after n).machine.skipped ≤ r.machine.skipped + n := by
  induction n with
  | zero => exact Nat.le_refl _
  | succ n ih =>
    rw [after_succ]
    rcases (r.after n).step_cases with ⟨m', d', h, -, hstep⟩ | ⟨f, d', h, -, hstep⟩
    · rw [hstep]
      rcases h.skipped_eq with ⟨hskipped, -⟩ | ⟨hskipped, -⟩
      · exact hskipped ▸ Nat.le_succ_of_le ih
      · exact hskipped ▸ Nat.succ_le_succ ih
    · rw [hstep]
      exact Nat.le_succ_of_le ih

/-- **No step of a run needs a check**, as long as the run is shorter than the count is. -/
theorem stepChecked_after {r : Rig δ} {n : Nat} (counts : r.machine.skipped + n + 1 < 2 ^ 64) :
    (r.after n).machine.stepChecked (r.after n).device =
      .ok ((r.after n).machine.step (r.after n).device) := by
  apply Machine.stepChecked_eq
  intro h
  have hle := r.skipped_after_le n
  have hfull := h.full
  omega

end Rig

/-- **No check fails.** In every state and on every device the step with all checks is the step of
the machine, unless it is to count one skipped word more than sixty-four bits can; no run comes to
that in fewer steps than there is still to count. Sums and products of any words fit into thirty-two
bits. From every list of words that can be stored, decoding and listing go through at every address
of sixty-four bits, and an opcode reads no operand word beyond its arity. -/
theorem no_check_fails {δ : Type} [Device δ] :
    (∀ (m : Machine) (d : δ),
      (¬ m.CountFull → m.stepChecked d = .ok (m.step d)) ∧
      (m.CountFull → m.stepChecked d = .error (.overflow 64))) ∧
    (∀ (r : Rig δ) (n : Nat), r.machine.skipped + n + 1 < 2 ^ 64 →
      (r.after n).machine.stepChecked (r.after n).device =
        .ok ((r.after n).machine.step (r.after n).device)) ∧
    (∀ a b, Arith.addChecked a b = .ok (Arith.add a b) ∧
      Arith.mulChecked a b = .ok (Arith.mul a b)) ∧
    (∀ memory, Storable memory → ∀ address : UInt64,
      let start := address.toNat
      (Instruction.decodeChecked memory start).run = .ok (Instruction.decode memory start) ∧
      Listing.Cursor.nextChecked ⟨memory, start⟩ = .ok (Listing.Cursor.next ⟨memory, start⟩) ∧
      Listing.Cursor.GivesChecked ⟨memory, start⟩ (Listing.lines memory start)) ∧
    ∀ (o : Opcode) (args : Array Word), args.size = o.arity →
      (Instruction.ofArgs o args).run = .ok (Instruction.ofWords o args.toList) := by
  refine ⟨?_, fun r n => Rig.stepChecked_after, ?_, ?_, ?_⟩
  · intro m d
    exact ⟨fun counts => Machine.stepChecked_eq counts d,
      fun full => Machine.stepChecked_of_countFull full d⟩
  · intro a b
    exact ⟨Arith.addChecked_eq a b, Arith.mulChecked_eq a b⟩
  · intro memory storable address start
    refine ⟨?_, Listing.Cursor.nextChecked_eq storable,
      Listing.Cursor.givesChecked_lines storable start⟩
    rw [Instruction.decodeChecked_eq storable, Guarded.run_answer]
  · intro o args full
    rw [Instruction.ofArgs_eq full, Guarded.run_answer]

/-- A word that is no opcode, with a count that has just begun and with one that is full; a list
that ends inside of an instruction, which is read at the instruction and listed from the last
address; and an addition with an operand that is none. -/
theorem no_check_fails_at_ends :
    let m := Machine.loaded .skip #[30]
    let r : Rig NullDevice := .after 5 ⟨m, .mk⟩
    let full : Machine := { m with skipped := 2 ^ 64 - 1 }
    let memory : Array Word := #[19, 21, 9, 32768]
    let last : UInt64 := .ofNat (2 ^ 64 - 1)
    ¬ m.CountFull ∧ m.stepChecked NullDevice.mk = .ok (m.step NullDevice.mk) ∧
      r.machine.stepChecked r.device = .ok (r.machine.step r.device) ∧
      full.CountFull ∧ full.stepChecked NullDevice.mk = .error (.overflow 64) ∧
      Storable memory ∧ (Instruction.decodeChecked memory 2).run = .ok (.error .truncated) ∧
      Listing.Cursor.GivesChecked ⟨memory, last.toNat⟩ [] ∧
      (Instruction.ofArgs .add #[32769, 5, 40000]).run = .ok (.error (.invalidOperand 40000)) := by
  intro m r full memory last
  obtain ⟨hstep, hrun, -, hread, hargs⟩ := no_check_fails (δ := NullDevice)
  have hunknown : m.AtUnknown 30 :=
    Machine.decode_eq_unknown_iff.1 (Instruction.decode_eq_unknownOpcode_iff.2
      ⟨Machine.getElem?_loaded .skip _ (by decide), by decide⟩)
  have hcounts : ¬ m.CountFull := fun h => absurd h.full (by decide)
  have hfull : full.CountFull := ⟨by decide, rfl, 30, hunknown.withSkipped _⟩
  have hstorable : Storable memory := by decide
  have hlast : Listing.lines memory last.toNat = [] := Listing.lines_of_le (by decide)
  have hshort : m.skipped + 5 + 1 < 2 ^ 64 := by decide
  exact ⟨hcounts, (hstep m _).1 hcounts, hrun ⟨m, .mk⟩ 5 hshort, hfull, (hstep full _).2 hfull,
    hstorable, (hread memory hstorable 2).1, hlast ▸ (hread memory hstorable last).2.2,
    hargs .add _ rfl⟩

end WordMachine
