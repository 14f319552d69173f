import WordMachine.Proofs.Action
import WordMachine.Proofs.Load
import WordMachine.Proofs.Step

/-!
# Why steps fail

A step fails for exactly one reason. The reasons are found in three layers: an instruction cannot be
read, or it asks for what cannot be done, or the device does not do what it is asked for. `Cause`
lists them all, by what they are about and not by where they are found.

* `target?` and `access?` — the words that an instruction takes for addresses, of code and of data;
* `Cause` — the reasons, each with its error;
* `step_faults_iff` — a step fails if and only if there is a reason, and then with that error, at
  the program counter, under the name of the opcode that stands there.
-/

namespace WordMachine

namespace Machine

variable {δ : Type} [Device δ] {m : Machine} {d d' : δ}

/-- The word that an instruction takes for the address where to go on, if it goes on elsewhere than
behind itself. -/
def target? (m : Machine) : Instruction → Option Word
  | .jmp a | .call a => some (m.value a)
  | .jt a b => if m.value a ≠ 0 then some (m.value b) else none
  | .jf a b => if m.value a = 0 then some (m.value b) else none
  | .ret => m.stack.top?
  | _ => none

/-- The word that an instruction takes for the address of data, if it reads or writes memory. -/
def access? (m : Machine) : Instruction → Option Word
  | .rmem _ a | .wmem a _ => some (m.value a)
  | _ => none

/-- The reasons why a step of a machine that has not halted fails. -/
inductive Cause (m : Machine) (d : δ) : Error → Prop
  /-- No instruction can be read; if that is because of an unknown opcode, the policy has to be to
  fail. -/
  | unreadable {e} (refused : m.decode m.pc = .error e)
      (strict : ∀ w, e = .unknownOpcode w → m.policy = .fault) : Cause m d e
  | emptyStack {dst} (decoded : m.decode m.pc = .ok (.pop dst)) (empty : m.stack.depth = 0) :
      Cause m d .stackUnderflow
  | zeroDivisor {dst a b} (decoded : m.decode m.pc = .ok (.binary .mod dst a b))
      (zero : m.value b = 0) : Cause m d .divideByZero
  | farTarget {i w} (decoded : m.decode m.pc = .ok i) (target : m.target? i = some w)
      (far : memorySize ≤ w.toNat) : Cause m d (.addressOutOfRange w.toNat)
  | farAccess {i w} (decoded : m.decode m.pc = .ok i) (access : m.access? i = some w)
      (far : memorySize ≤ w.toNat) : Cause m d (.addressOutOfRange w.toNat)
  | output {a c} (decoded : m.decode m.pc = .ok (.out a))
      (failed : (Device.output d (m.value a)).result = .error c) : Cause m d (.device c)
  | input {dst c} (decoded : m.decode m.pc = .ok (.inp dst))
      (failed : (Device.input d).result = .error c) : Cause m d (.device c)
  | noInput {dst} (decoded : m.decode m.pc = .ok (.inp dst))
      (nothing : (Device.input d).result = .ok none) : Cause m d .inputExhausted

/-! ### The opcode at the program counter -/

theorem opcode?_eq_some_iff {o : Opcode} :
    m.opcode? = some o ↔ m.readMemory m.pc = .ok o.word := by
  rw [readMemory_eq_ok_iff, Vector.getElem?_toArray, opcode?, Option.bind_eq_some_iff]
  constructor
  · rintro ⟨w, hw, ho⟩
    rw [hw, Opcode.ofWord?_eq_some_iff.1 ho]
  · intro h
    exact ⟨_, h, o.ofWord?_word⟩

theorem opcode?_of_decode {i : Instruction} (h : m.decode m.pc = .ok i) :
    m.opcode? = some i.opcode := by
  rw [opcode?_eq_some_iff, readMemory_eq_ok_iff]
  exact Instruction.getElem?_of_decode h i.size_pos

/-- There is no opcode at the program counter exactly if the word there is refused as unknown. -/
theorem opcode?_eq_none_iff (hrunning : m.isHalted = false) :
    m.opcode? = none ↔ ∃ w, m.decode m.pc = .error (.unknownOpcode w) := by
  have hlt := isHalted_eq_false_iff.1 hrunning
  have hword : m.memory.toArray[m.pc.toNat]? = some m.memory[m.pc.toNat] := by
    rw [Vector.getElem?_toArray, Vector.getElem?_eq_getElem hlt]
  rw [opcode?, Vector.getElem?_eq_getElem hlt, Option.bind_some]
  simp only [decode, Instruction.decode_eq_unknownOpcode_iff, hword, Option.some.injEq]
  constructor
  · intro hnone
    exact ⟨_, rfl, hnone⟩
  · rintro ⟨w, rfl, hnone⟩
    exact hnone

theorem mnemonic_ne (o : Opcode) : o.mnemonic ≠ "???" := by
  cases o <;> decide

/-! ### Reasons and failing steps -/

theorem Refuses.cause {i : Instruction} {e : Error} (h : m.Refuses i e)
    (decoded : m.decode m.pc = .ok i) : m.Cause d e := by
  cases h with
  | pop top => exact .emptyStack decoded (Stack.top?_eq_none_iff.1 top)
  | mod zero => exact .zeroDivisor decoded zero
  | jmp far => exact .farTarget decoded rfl far
  | jt test far => exact .farTarget decoded (if_pos test) far
  | jf test far => exact .farTarget decoded (if_pos test) far
  | call far => exact .farTarget decoded rfl far
  | ret top far => exact .farTarget decoded top far
  | rmem far => exact .farAccess decoded rfl far
  | wmem far => exact .farAccess decoded rfl far

theorem refuses_of_farTarget {i : Instruction} {w : Word} (target : m.target? i = some w)
    (far : memorySize ≤ w.toNat) : m.Refuses i (.addressOutOfRange w.toNat) := by
  cases i with
  | jmp a =>
    cases target
    exact .jmp far
  | call a =>
    cases target
    exact .call far
  | jt a b =>
    obtain ⟨test, htarget⟩ := Option.ite_none_right_eq_some.1 target
    cases htarget
    exact .jt test far
  | jf a b =>
    obtain ⟨test, htarget⟩ := Option.ite_none_right_eq_some.1 target
    cases htarget
    exact .jf test far
  | ret => exact .ret target far
  | _ => cases target

theorem refuses_of_farAccess {i : Instruction} {w : Word} (access : m.access? i = some w)
    (far : memorySize ≤ w.toNat) : m.Refuses i (.addressOutOfRange w.toNat) := by
  cases i with
  | rmem dst a =>
    cases access
    exact .rmem far
  | wmem a b =>
    cases access
    exact .wmem far
  | _ => cases access

/-- **A step that fails has a reason.** -/
theorem Fails.cause {f : Fault} (h : m.Fails d f d') :
    m.Cause d f.cause ∧ f.opcode = m.opcode? := by
  cases h with
  | decode running refused strict => exact ⟨.unreadable refused strict, rfl⟩
  | action running decoded refused =>
    exact ⟨(action_eq_error_iff.1 refused).cause decoded, (opcode?_of_decode decoded).symm⟩
  | @output i v c running decoded action failed =>
    refine ⟨?_, (opcode?_of_decode decoded).symm⟩
    cases action_eq_ok_iff.1 action with
    | out => exact .output decoded failed
  | @input i dst c running decoded action failed =>
    refine ⟨?_, (opcode?_of_decode decoded).symm⟩
    cases action_eq_ok_iff.1 action with
    | inp => exact .input decoded failed
  | @exhausted i dst running decoded action nothing =>
    refine ⟨?_, (opcode?_of_decode decoded).symm⟩
    cases action_eq_ok_iff.1 action with
    | inp => exact .noInput decoded nothing

/-- **Where there is a reason, the step fails.** -/
theorem Cause.fails {e : Error} (h : m.Cause d e) (hrunning : m.isHalted = false) :
    ∃ d', m.Fails d ⟨m.pc, m.opcode?, e⟩ d' := by
  -- once an instruction is read, its opcode is the one at the program counter
  have refused {i : Instruction} (decoded : m.decode m.pc = .ok i) (hr : m.Refuses i e) :
      ∃ d', m.Fails d ⟨m.pc, m.opcode?, e⟩ d' := by
    rw [opcode?_of_decode decoded]
    exact ⟨d, .action hrunning decoded hr.action_eq⟩
  cases h with
  | unreadable refused strict => exact ⟨d, .decode hrunning refused strict⟩
  | emptyStack decoded empty => exact refused decoded (.pop (Stack.top?_eq_none_iff.2 empty))
  | zeroDivisor decoded zero => exact refused decoded (.mod zero)
  | farTarget decoded target far => exact refused decoded (refuses_of_farTarget target far)
  | farAccess decoded access far => exact refused decoded (refuses_of_farAccess access far)
  | output decoded failed =>
    rw [opcode?_of_decode decoded]
    exact ⟨_, .output hrunning decoded Yields.out.action_eq failed⟩
  | input decoded failed =>
    rw [opcode?_of_decode decoded]
    exact ⟨_, .input hrunning decoded Yields.inp.action_eq failed⟩
  | noInput decoded nothing =>
    rw [opcode?_of_decode decoded]
    exact ⟨_, .exhausted hrunning decoded Yields.inp.action_eq nothing⟩

theorem Cause.unknownOpcode_iff {e : Error} (h : m.Cause d e) (hrunning : m.isHalted = false) :
    (∃ w, e = .unknownOpcode w) ↔ m.opcode? = none := by
  rw [opcode?_eq_none_iff hrunning]
  constructor
  · rintro ⟨w, rfl⟩
    cases h with
    | unreadable refused => exact ⟨w, refused⟩
  · rintro ⟨w, hw⟩
    -- nothing was read, so of all reasons only the first is left
    cases h with
    | unreadable refused =>
      rw [hw] at refused
      cases refused
      exact ⟨w, rfl⟩
    | _ decoded =>
      rw [hw] at decoded
      cases decoded

/-! ### Reasons that lie with the device -/

theorem decode_error_ne {pc : Word} {e : Error} (h : m.decode pc = .error e) :
    e ≠ .inputExhausted ∧ ∀ c, e ≠ .device c := by
  rcases Instruction.error_of_decode h with rfl | ⟨w, rfl⟩ | rfl | ⟨w, rfl⟩ | ⟨w, rfl⟩
  all_goals exact ⟨nofun, nofun⟩

/-- Input is exhausted only where it was asked for, and the device had none. -/
theorem Fails.of_inputExhausted {f : Fault} (h : m.Fails d f d') (hf : f.cause = .inputExhausted) :
    (Device.input d).result = .ok none ∧ d' = (Device.input d).device := by
  cases h with
  | decode running refused => exact absurd hf (decode_error_ne refused).1
  | action running decoded refused =>
    cases hf
    cases action_eq_error_iff.1 refused
  | output | input => cases hf
  | exhausted running decoded action nothing => exact ⟨nothing, rfl⟩

/-- A device is blamed only for its own failure. -/
theorem Fails.of_device {f : Fault} {c : DeviceError} (h : m.Fails d f d')
    (hf : f.cause = .device c) :
    (∃ w, (Device.output d w).result = .error c) ∨ (Device.input d).result = .error c := by
  cases h with
  | decode running refused => exact absurd hf ((decode_error_ne refused).2 c)
  | action running decoded refused =>
    cases hf
    cases action_eq_error_iff.1 refused
  | output running decoded action failed =>
    cases hf
    exact .inl ⟨_, failed⟩
  | input running decoded action failed =>
    cases hf
    exact .inr failed
  | exhausted => cases hf

end Machine

/-- **A step fails exactly if there is a reason**, with the error that goes with it. The fault is at
the program counter, and is named by the opcode there; it has no such name exactly if an unknown
opcode was the reason. -/
theorem step_faults_iff {δ : Type} [Device δ] (m : Machine) (d : δ) (f : Fault) :
    ((m.step d).result = .error f ↔
      m.isHalted = false ∧ m.Cause d f.cause ∧ f.pc = m.pc ∧ f.opcode = m.opcode?) ∧
    ((m.step d).result = .error f →
      (∀ o, m.readMemory m.pc = .ok (Opcode.word o) → f.mnemonic = o.mnemonic) ∧
      (f.mnemonic = "???" ↔ ∃ w, f.cause = .unknownOpcode w)) := by
  constructor
  · constructor
    · intro h
      have hfails := Machine.fails_of_error h
      obtain ⟨hcause, hopcode⟩ := hfails.cause
      exact ⟨hfails.isHalted_eq, hcause, hfails.pc_eq, hopcode⟩
    · rintro ⟨hrunning, hcause, hpc, hopcode⟩
      obtain ⟨d', hfails⟩ := hcause.fails hrunning
      obtain ⟨log, hs⟩ := hfails.step_eq
      rw [hs, ← hpc, ← hopcode]
  · intro h
    have hfails := Machine.fails_of_error h
    obtain ⟨hcause, hopcode⟩ := hfails.cause
    refine ⟨?_, ?_⟩
    · intro o ho
      rw [Fault.mnemonic, hopcode, Machine.opcode?_eq_some_iff.2 ho]
      rfl
    · rw [hcause.unknownOpcode_iff hfails.isHalted_eq, Fault.mnemonic, hopcode]
      cases m.opcode? with
      | none => exact ⟨fun _ => rfl, fun _ => rfl⟩
      | some o => simp [Machine.mnemonic_ne]

/-- A jump to where a register says, which holds no address. -/
theorem step_faults_iff_jump :
    let m := (Machine.loaded .skip #[6, 32768]).setRegister ⟨0⟩ 40000
    let f : Fault := ⟨0, some .jmp, .addressOutOfRange 40000⟩
    (m.step NullDevice.mk).result = .error f ∧ f.mnemonic = "jmp" ∧
      ¬ ∃ w, f.cause = .unknownOpcode w := by
  intro m f
  have hread : (Machine.loaded .skip #[6, 32768]).decode 0 = .ok (.jmp (.register ⟨0⟩)) :=
    Machine.decode_loaded (by decide) rfl
  have hjump : ∀ m₀ : Machine, m₀.pc = 0 → m₀.decode 0 = .ok (.jmp (.register ⟨0⟩)) →
      let m := m₀.setRegister ⟨0⟩ 40000
      (m.step NullDevice.mk).result = .error f ∧ f.mnemonic = "jmp" ∧
        ¬ ∃ w, f.cause = .unknownOpcode w := by
    intro m₀ hpc decoded m
    have hdecode : m.decode m.pc = .ok (.jmp (.register ⟨0⟩)) := by
      rw [← hpc] at decoded
      exact decoded
    have htarget : m.target? (.jmp (.register ⟨0⟩)) = some 40000 := by
      show some (m.register ⟨0⟩) = some 40000
      rw [Machine.register]
      exact congrArg some (Vector.getElem_set_self _)
    have hcause : m.Cause NullDevice.mk f.cause := .farTarget hdecode htarget (by decide)
    have hopcode : f.opcode = m.opcode? := (Machine.opcode?_of_decode hdecode).symm
    obtain ⟨hiff, hname⟩ := step_faults_iff m NullDevice.mk f
    have hfault := hiff.2 ⟨Machine.isHalted_of_decode hdecode, hcause, hpc.symm, hopcode⟩
    have hmnemonic := (hname hfault).1 .jmp (Machine.opcode?_eq_some_iff.1 hopcode.symm)
    refine ⟨hfault, hmnemonic, ?_⟩
    rw [← (hname hfault).2, hmnemonic]
    exact Machine.mnemonic_ne .jmp
  exact hjump _ rfl hread

end WordMachine
