import WordMachine.Machine.InOrder
import WordMachine.Proofs.Action
import WordMachine.Proofs.Load
import WordMachine.Proofs.Step

/-!
# Steps in order

Among the statements of an instruction, those that can fail come before those that change something:
if the instruction is refused, nothing has changed (`Statements.ofInstruction_of_refuses`), and
otherwise they do what it asks for (`Statements.ofInstruction_of_yields`). So the statements of a step
lead to what the step leads to (`Machine.stepInOrder_eq`), and if one of them fails, then the machine
is as it was (`Machine.stepInOrder_of_error`). Loading field by field leads to what loading leads to
(`Machine.loadInOrder_eq`).
-/

namespace WordMachine

namespace Statements

variable {ε δ α β : Type} {s s' : Workspace δ} {x : Statements ε δ α} {k : α → Statements ε δ β}

/-! ### One statement after the other -/

theorem bind_of_ok {a : α} (h : x s = .ok a s') : (x >>= k) s = k a s' := by
  show EStateM.bind x k s = _
  rw [EStateM.bind, h]

theorem bind_of_error {e : ε} (h : x s = .error e s') : (x >>= k) s = .error e s' := by
  show EStateM.bind x k s = _
  rw [EStateM.bind, h]

theorem demand_of_ok {r : Except ε α} {a : α} (h : r = .ok a) : demand r s = .ok a s := by
  rw [h]
  rfl

theorem demand_of_error {r : Except ε α} {e : ε} (h : r = .error e) : demand r s = .error e s := by
  rw [h]
  rfl

theorem pop_of_empty (h : s.machine.stack.top? = none) : pop s = .error .stackUnderflow s := by
  show (demand s.machine.stack.pop >>= fun p =>
    change (fun m => { m with stack := p.2 }) >>= fun _ => pure p.1) s = _
  exact bind_of_error (demand_of_error (by rw [Stack.pop, h]))

theorem pop_of_top {w : Word} (h : s.machine.stack.top? = some w) :
    pop s = .ok w { s with machine := { s.machine with stack := s.machine.stack.drop } } := by
  show (demand s.machine.stack.pop >>= fun p =>
    change (fun m => { m with stack := p.2 }) >>= fun _ => pure p.1) s = _
  rw [bind_of_ok (demand_of_ok (a := (w, s.machine.stack.drop)) (by rw [Stack.pop, h]))]
  rfl

theorem checkAddress_word (t : Address) : checkAddress t.word s = .ok () s :=
  bind_of_ok (demand_of_ok (Address.ofWord_word t))

theorem checkAddress_far {w : Word} (far : memorySize ≤ w.toNat) :
    checkAddress w s = .error (.addressOutOfRange w.toNat) s :=
  bind_of_error (demand_of_error (Address.ofWord_eq_error_iff.2 ⟨rfl, far⟩))

theorem readMemory_word (t : Address) : readMemory t.word s = .ok (s.machine.word t) s := by
  show demand (s.machine.readMemory t.word) s = _
  apply demand_of_ok
  rw [Machine.readMemory, Address.ofWord_word]
  rfl

theorem readMemory_far {w : Word} (far : memorySize ≤ w.toNat) :
    readMemory w s = .error (.addressOutOfRange w.toNat) s := by
  show demand (s.machine.readMemory w) s = _
  apply demand_of_error
  rw [Machine.readMemory, Address.ofWord_eq_error_iff.2 ⟨rfl, far⟩]
  rfl

theorem writeMemory_word (t : Address) (w : Word) :
    writeMemory t.word w s = .ok () { s with machine := s.machine.setWord t w } := by
  show (demand (s.machine.writeMemory t.word w) >>= fun m => change fun _ => m) s = _
  have hwrite : s.machine.writeMemory t.word w = .ok (s.machine.setWord t w) := by
    rw [Machine.writeMemory, Address.ofWord_word]
    rfl
  rw [bind_of_ok (demand_of_ok hwrite)]
  rfl

theorem writeMemory_far {address : Word} (far : memorySize ≤ address.toNat) (w : Word) :
    writeMemory address w s = .error (.addressOutOfRange address.toNat) s := by
  show (demand (s.machine.writeMemory address w) >>= fun m => change fun _ => m) s = _
  apply bind_of_error
  apply demand_of_error
  rw [Machine.writeMemory, Address.ofWord_eq_error_iff.2 ⟨rfl, far⟩]
  rfl

theorem target_word {a : Operand} {t : Address} (h : t.word = s.machine.value a) :
    target a s = .ok t.word s := by
  show (checkAddress (s.machine.value a) >>= fun _ => pure (s.machine.value a)) s = _
  rw [← h, bind_of_ok (checkAddress_word t)]
  rfl

theorem target_far {a : Operand} (far : memorySize ≤ (s.machine.value a).toNat) :
    target a s = .error (.addressOutOfRange (s.machine.value a).toNat) s := by
  show (checkAddress (s.machine.value a) >>= fun _ => pure (s.machine.value a)) s = _
  exact bind_of_error (checkAddress_far far)

theorem operate_mod {dst : Register} {a b : Operand} : operate dst a b .mod s =
    (if s.machine.value b = 0 then throw .divideByZero
      else value a >>= fun w => store dst (w % s.machine.value b)) s := rfl

theorem operate_of_ok {op : BinaryOp} {dst : Register} {a b : Operand} {v : Word}
    (h : op.eval (s.machine.value a) (s.machine.value b) = .ok v) :
    operate dst a b op s = .ok () { s with machine := s.machine.setRegister dst v } := by
  cases op with
  | mod =>
    rw [operate_mod]
    by_cases zero : s.machine.value b = 0
    · rw [BinaryOp.eval, Arith.rem?, if_pos zero] at h
      cases h
    · rw [BinaryOp.eval, Arith.rem?, if_neg zero] at h
      cases h
      rw [if_neg zero]
      rfl
  | _ =>
    cases h
    rfl

theorem operate_of_zero {dst : Register} {a b : Operand} (zero : s.machine.value b = 0) :
    operate dst a b .mod s = .error .divideByZero s := by
  rw [operate_mod, if_pos zero]
  rfl

theorem returnTo_some (w : Word) : returnTo (some w) s = (checkAddress w >>= fun _ => pop) s := rfl

/-- The workspace after a call of the device. -/
def called (s : Workspace δ) (reply : Reply δ α) : Workspace δ :=
  { s with device := reply.device, log := s.log ++ reply.log }

theorem call_of_ok {f : δ → Reply δ α} {a : α} (h : (f s.device).result = .ok a) :
    call f s = .ok a (called s (f s.device)) := by
  show demand ((f s.device).result.mapError Error.device) (called s (f s.device)) = _
  rw [h]
  rfl

theorem call_of_error {f : δ → Reply δ α} {e : DeviceError} (h : (f s.device).result = .error e) :
    call f s = .error (.device e) (called s (f s.device)) := by
  show demand ((f s.device).result.mapError Error.device) (called s (f s.device)) = _
  rw [h]
  rfl

theorem ofResult_status (s : Workspace δ) :
    Step.ofResult (status s) = s.machine.settle s.device s.log := by
  show Step.ofResult ((if s.machine.isHalted then report .halted >>= fun _ => pure .halted
    else pure .running : Statements Fault δ Status) s) = _
  rw [Machine.settle]
  split
  · rfl
  · rfl

/-! ### Instructions -/

section

variable [Device δ] {i : Instruction} {a b : Operand} {dst : Register}

theorem ofInstruction_pop : ofInstruction (.pop dst) s =
    (pop >>= fun w => store dst w >>= fun _ => pure (s.machine.next (.pop dst))) s := rfl

theorem ofInstruction_binary {op : BinaryOp} : ofInstruction (.binary op dst a b) s =
    (operate dst a b op >>= fun _ => pure (s.machine.next (.binary op dst a b))) s := rfl

theorem ofInstruction_jt : ofInstruction (.jt a b) s =
    (if s.machine.value a ≠ 0 then target b else pure (s.machine.next (.jt a b))) s := rfl

theorem ofInstruction_jf : ofInstruction (.jf a b) s =
    (if s.machine.value a = 0 then target b else pure (s.machine.next (.jf a b))) s := rfl

theorem ofInstruction_rmem : ofInstruction (.rmem dst a) s =
    (readMemory (s.machine.value a) >>= fun w => store dst w >>= fun _ =>
      pure (s.machine.next (.rmem dst a))) s := rfl

theorem ofInstruction_wmem : ofInstruction (.wmem a b) s =
    (writeMemory (s.machine.value a) (s.machine.value b) >>= fun _ =>
      pure (s.machine.next (.wmem a b))) s := rfl

theorem ofInstruction_call : ofInstruction (.call a) s =
    (target a >>= fun t => push (s.machine.next (.call a)) >>= fun _ => pure t) s := rfl

theorem ofInstruction_ret : ofInstruction .ret s = returnTo s.machine.stack.top? s := rfl

/-- **An instruction that is refused fails before it has changed anything.** -/
theorem ofInstruction_of_refuses {e : Error} (h : s.machine.Refuses i e) :
    ofInstruction i s = .error e s := by
  cases h with
  | pop top =>
    rw [ofInstruction_pop]
    exact bind_of_error (pop_of_empty top)
  | mod zero =>
    rw [ofInstruction_binary]
    exact bind_of_error (operate_of_zero zero)
  | jmp far => exact target_far far
  | jt test far =>
    rw [ofInstruction_jt, if_pos test]
    exact target_far far
  | jf test far =>
    rw [ofInstruction_jf, if_pos test]
    exact target_far far
  | rmem far =>
    rw [ofInstruction_rmem]
    exact bind_of_error (readMemory_far far)
  | wmem far =>
    rw [ofInstruction_wmem]
    exact bind_of_error (writeMemory_far far _)
  | call far =>
    rw [ofInstruction_call]
    exact bind_of_error (target_far far)
  | ret top far =>
    rw [ofInstruction_ret, top, returnTo_some]
    exact bind_of_error (checkAddress_far far)

/-- **An instruction that asks for an effect does it**, but for the program counter: it answers to
what that is to be set. -/
theorem ofInstruction_of_yields {e : Effect} (h : s.machine.Yields i (.effect e)) :
    let m := s.machine.apply (s.machine.next i) e
    ofInstruction i s =
      .ok m.pc { s with machine := { m with pc := s.machine.pc }, log := s.log ++ e.log } := by
  cases h
  all_goals simp only [Effect.log, List.append_nil]
  case pop top =>
    rw [ofInstruction_pop, bind_of_ok (pop_of_top top)]
    rfl
  case binary result =>
    rw [ofInstruction_binary, bind_of_ok (operate_of_ok result)]
    rfl
  case jmp target => exact target_word target
  case jt_taken test target =>
    rw [ofInstruction_jt, if_pos test]
    exact target_word target
  case jt_passed test =>
    rw [ofInstruction_jt, if_neg (Decidable.not_not.2 test)]
    rfl
  case jf_taken test target =>
    rw [ofInstruction_jf, if_pos test]
    exact target_word target
  case jf_passed test =>
    rw [ofInstruction_jf, if_neg test]
    rfl
  case rmem address =>
    rw [ofInstruction_rmem, ← address, bind_of_ok (readMemory_word _)]
    rfl
  case wmem address =>
    rw [ofInstruction_wmem, ← address, bind_of_ok (writeMemory_word _ _)]
    rfl
  case call target =>
    rw [ofInstruction_call, bind_of_ok (target_word target)]
    rfl
  case ret top =>
    rw [ofInstruction_ret, top, returnTo_some, bind_of_ok (checkAddress_word _), pop_of_top top]
    rfl
  case ret_empty top =>
    rw [ofInstruction_ret, top]
    rfl
  all_goals rfl

theorem ofInstruction_out (s : Workspace δ) (a : Operand) : ofInstruction (.out a) s =
    (call (Device.output · (s.machine.value a)) >>= fun _ => pure (s.machine.next (.out a))) s := rfl

theorem ofInstruction_inp (s : Workspace δ) (dst : Register) : ofInstruction (.inp dst) s =
    (call Device.input >>= fun w? => receive dst w? >>= fun _ =>
      pure (s.machine.next (.inp dst))) s := rfl

/-! ### Steps -/

theorem execute_eq : execute i s =
    ((ofInstruction i).adaptExcept (⟨s.machine.pc, i.opcode, ·⟩) >>= fun next =>
      change (fun m => { m with pc := next }) >>= fun _ => status)
      { s with log := s.log ++ [.trace (s.machine.trace i)] } := rfl

theorem execute_of_ok {next : Word}
    (h : ofInstruction i { s with log := s.log ++ [.trace (s.machine.trace i)] } = .ok next s') :
    execute i s = status { s' with machine := { s'.machine with pc := next } } := by
  rw [execute_eq, bind_of_ok]
  · rfl
  · rw [EStateM.adaptExcept, h]

theorem execute_of_error {e : Error}
    (h : ofInstruction i { s with log := s.log ++ [.trace (s.machine.trace i)] } = .error e s') :
    execute i s = .error ⟨s.machine.pc, i.opcode, e⟩ s' := by
  rw [execute_eq]
  apply bind_of_error
  rw [EStateM.adaptExcept, h]

/-- **The statements of an instruction lead to what it is executed to.** -/
theorem ofResult_execute (i : Instruction) (m : Machine) (d : δ) :
    Step.ofResult (execute i ⟨m, d, []⟩) = m.execute i d := by
  let start : Workspace δ := ⟨m, d, []⟩
  let s : Workspace δ := ⟨m, d, [.trace (m.trace i)]⟩
  cases action : m.action i with
  | error e =>
    have hfails : ofInstruction i s = .error e s :=
      ofInstruction_of_refuses (Machine.action_eq_error_iff.1 action)
    rw [execute_of_error (s := start) hfails]
    simp only [Machine.execute, action]
    rfl
  | ok action' =>
    have hyields := Machine.action_eq_ok_iff.1 action
    cases action' with
    | effect e =>
      have hdoes := ofInstruction_of_yields (s := s) hyields
      rw [execute_of_ok (s := start) hdoes, ofResult_status]
      simp only [Machine.execute, action]
      rfl
    | output v =>
      cases hyields with
      | @out a =>
        have hout := ofInstruction_out s a
        cases result : (Device.output d (m.value a)).result with
        | error e =>
          rw [bind_of_error (call_of_error result)] at hout
          rw [execute_of_error (s := start) hout]
          simp only [Machine.execute, action, result]
          rfl
        | ok u =>
          rw [bind_of_ok (call_of_ok result)] at hout
          rw [execute_of_ok (s := start) hout, ofResult_status]
          simp only [Machine.execute, action, result]
          rfl
    | input dst =>
      cases hyields with
      | inp =>
        have hinp := ofInstruction_inp s dst
        rcases result : (Device.input d).result with e | - | w
        · rw [bind_of_error (call_of_error result)] at hinp
          rw [execute_of_error (s := start) hinp]
          simp only [Machine.execute, action, result]
          rfl
        · rw [bind_of_ok (call_of_ok result)] at hinp
          rw [execute_of_error (s := start) hinp]
          simp only [Machine.execute, action, result]
          rfl
        · rw [bind_of_ok (call_of_ok result)] at hinp
          rw [execute_of_ok (s := start) hinp, ofResult_status]
          simp only [Machine.execute, action, result]
          rfl

theorem proceed_eq : proceed s =
    (match s.machine.decode s.machine.pc, s.machine.policy with
      | .ok i, _ => execute i
      | .error (.unknownOpcode w), .skip =>
        report (.unknownOpcode w s.machine.pc) >>= fun _ =>
          change (fun m => { m with skipped := m.skipped + 1 }) >>= fun _ =>
            change (fun m => { m with pc := s.machine.pc + 1 }) >>= fun _ => status
      | .error e, _ =>
        look (·.opcode?) >>= fun opcode => throw (⟨s.machine.pc, opcode, e⟩ : Fault)) s := rfl

theorem proceed_of_decode (decoded : s.machine.decode s.machine.pc = .ok i) :
    proceed s = execute i s := by
  rw [proceed_eq, decoded]

theorem proceed_of_unknown {w : Word}
    (unknown : s.machine.decode s.machine.pc = .error (.unknownOpcode w))
    (lenient : s.machine.policy = .skip) : Step.ofResult (proceed s) =
      { s.machine with pc := s.machine.pc + 1, skipped := s.machine.skipped + 1 }.settle s.device
        (s.log ++ [Record.unknownOpcode w s.machine.pc]) := by
  rw [proceed_eq, unknown, lenient]
  exact ofResult_status _

theorem proceed_of_refused {e : Error} (refused : s.machine.decode s.machine.pc = .error e)
    (strict : ∀ w, e = .unknownOpcode w → s.machine.policy = .fault) :
    proceed s = .error ⟨s.machine.pc, s.machine.opcode?, e⟩ s := by
  rw [proceed_eq, refused]
  cases e with
  | unknownOpcode w =>
    rw [strict w rfl]
    rfl
  | _ => rfl

theorem step_of_running (running : s.machine.isHalted = false) : step s = proceed s := by
  show (if s.machine.isHalted then pure .halted else proceed : Statements Fault δ Status) s = _
  rw [running]
  rfl

theorem step_of_halted (halted : s.machine.isHalted = true) : step s = .ok .halted s := by
  show (if s.machine.isHalted then pure .halted else proceed : Statements Fault δ Status) s = _
  rw [halted]
  rfl

end

end Statements

namespace Machine

variable {δ : Type} [Device δ]

/-- **The statements of a step lead to what the step leads to.** -/
theorem stepInOrder_eq (m : Machine) (d : δ) : Step.ofResult (m.stepInOrder d) = m.step d := by
  let s : Workspace δ := ⟨m, d, []⟩
  show Step.ofResult (Statements.step s) = _
  cases running : m.isHalted with
  | true =>
    rw [Statements.step_of_halted (s := s) running, step_of_isHalted running]
    rfl
  | false =>
    rw [Statements.step_of_running (s := s) running]
    cases decoded : m.decode m.pc with
    | ok i =>
      rw [Statements.proceed_of_decode (s := s) decoded, Statements.ofResult_execute,
        step_of_decode running decoded]
    | error e =>
      rcases m.lenient_or_strict e with ⟨w, rfl, lenient⟩ | strict
      · rw [Statements.proceed_of_unknown (s := s) decoded lenient,
          step_of_unknown running decoded lenient]
        rfl
      · rw [Statements.proceed_of_refused (s := s) decoded strict,
          step_of_refused running decoded strict]
        rfl

/-- **If a statement of a step fails, then none before has changed the machine**, and the step fails
with the fault. -/
theorem stepInOrder_of_error {m : Machine} {d : δ} {f : Fault} {s : Workspace δ}
    (h : m.stepInOrder d = .error f s) :
    s.machine = m ∧ s.device = (m.step d).device ∧ (m.step d).result = .error f ∧
      (m.step d).machine = m := by
  have hstep := m.stepInOrder_eq d
  rw [h] at hstep
  have hresult := (congrArg Step.result hstep).symm
  obtain ⟨log, hs⟩ := (fails_of_error hresult).step_eq
  have hmachine := congrArg Step.machine hs
  exact ⟨(congrArg Step.machine hstep).trans hmachine, congrArg Step.device hstep, hresult, hmachine⟩

/-! ### Loading -/

/-- Copying a program over memory and filling up with zeros leaves nothing of what was there. -/
theorem memory_overwritten (memory : Vector Word memorySize) (program : Array Word) :
    (memory.mapIdx fun i w => program.getD i w).mapIdx (fun i w => if i < program.size then w else 0) =
      .ofFn fun i => program.getD i 0 := by
  ext i hi
  simp only [Vector.getElem_mapIdx, Vector.getElem_ofFn]
  by_cases inside : i < program.size
  · simp [inside]
  · simp [inside]

/-- **Loading field by field** leads to what loading leads to, and a machine whose program is refused
is as it was. -/
theorem loadInOrder_eq (m : Machine) (program : Array Word) :
    m.loadInOrder program = match m.load program with
      | .ok m' => .ok () m'
      | .error e => .error e m := by
  rw [load_eq, loadInOrder, loading]
  cases Image.validate program with
  | error e => rfl
  | ok u =>
    let start (memory : Vector Word memorySize) : Machine :=
      ⟨memory, .replicate registerCount 0, .empty, 0, m.policy, 0⟩
    exact congrArg (fun memory => EStateM.Result.ok () (start memory))
      (memory_overwritten m.memory program)

end Machine

end WordMachine
