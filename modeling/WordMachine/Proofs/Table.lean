import WordMachine.Proofs.Action
import WordMachine.Proofs.Arith
import WordMachine.Proofs.Load
import WordMachine.Proofs.Session

/-!
# The instruction table over raw words

`Table.step` executes an instruction as the table of the instruction set describes it, one row for
each opcode word. It knows of no instructions and no operands: it reads the words behind the program
counter as they are needed, and everything goes through the raw accessors `readMemory`,
`writeMemory`, `resolve` and `writeRegister`. Its arithmetic is that of numbers.

The machine decodes instead, and then works on what it has decoded. Both come to the same wherever
the machine neither fails nor skips. What carries the proof is that the words behind the program
counter are those that the decoded instruction is written as, so a raw word and its operand have the
same value (`source_eq`, `store_eq`); the rest is one case for each row.
-/

namespace WordMachine

namespace Table

/-- How many operand words follow an opcode word. -/
def arity : Nat → Nat
  | 0 | 18 | 21 => 0
  | 2 | 3 | 6 | 17 | 19 | 20 => 1
  | 1 | 7 | 8 | 14 | 15 | 16 => 2
  | _ => 3

/-- What the rows with two sources compute. -/
def compute : Nat → Nat → Nat → Except Error Nat
  | 4, b, c => .ok (if b = c then 1 else 0)
  | 5, b, c => .ok (if b > c then 1 else 0)
  | 9, b, c => .ok ((b + c) % 32768)
  | 10, b, c => .ok (b * c % 32768)
  | 11, b, c => if c = 0 then .error .divideByZero else .ok (b % c)
  | 12, b, c => .ok ((b &&& c) % 32768)
  | 13, b, c => .ok ((b ||| c) % 32768)
  | op, _, _ => .error (.unknownOpcode (.ofNat op))

/-- The word that comes so many words after the opcode word. -/
def operandWord (m : Machine) (k : Nat) : Except Error Word := m.readMemory (m.pc + .ofNat k)

def source (m : Machine) (k : Nat) : Except Error Word := do m.resolve (← operandWord m k)

/-- The machine with a value in the register that the first operand word names. -/
def store (m : Machine) (v : Word) : Except Error Machine := do
  m.writeRegister (← operandWord m 1) v

/-- The address behind an instruction with the given opcode word. -/
def behind (m : Machine) (op : Nat) : Word := m.pc + .ofNat (1 + arity op)

def goto (m : Machine) (pc : Word) : Machine := { m with pc := pc }

/-- The rows that need no device. -/
def row (m : Machine) (op : Nat) : Except Error Machine := do
  match op with
  | 0 => return goto m 32768
  | 1 => return goto (← store m (← source m 2)) (behind m op)
  | 2 => return { goto m (behind m op) with stack := m.stack.push (← source m 1) }
  | 3 =>
    let (v, stack) ← m.stack.pop
    return { goto (← store m v) (behind m op) with stack := stack }
  | 4 | 5 | 9 | 10 | 11 | 12 | 13 =>
    let v ← compute op (← source m 2).toNat (← source m 3).toNat
    return goto (← store m (.ofNat v)) (behind m op)
  | 6 => return goto m (← source m 1)
  | 7 => if (← source m 1) ≠ 0 then return goto m (← source m 2) else return goto m (behind m op)
  | 8 => if (← source m 1) = 0 then return goto m (← source m 2) else return goto m (behind m op)
  | 14 => return goto (← store m (.ofNat (32767 - (← source m 2).toNat % 32768))) (behind m op)
  | 15 => return goto (← store m (← m.readMemory (← source m 2))) (behind m op)
  | 16 => return goto (← m.writeMemory (← source m 1) (← source m 2)) (behind m op)
  | 17 => return { goto m (← source m 1) with stack := m.stack.push (behind m op) }
  | 18 =>
    match m.stack.pop with
    | .ok (target, stack) => return { goto m target with stack := stack }
    | .error _ => return goto m 32768
  | 21 => return goto m (behind m op)
  | _ => throw (.unknownOpcode (.ofNat op))

/-- A step by the table. -/
def step {δ : Type} [Device δ] (m : Machine) (d : δ) : Except Error (Machine × δ) := do
  if m.isHalted then return (m, d)
  let op ← m.readMemory m.pc
  match op.toNat with
  | 19 =>
    let reply := Device.output d (← source m 1)
    match reply.result with
    | .ok () => return (goto m (behind m 19), reply.device)
    | .error e => throw (.device e)
  | 20 =>
    let reply : Reply δ (Option Word) := Device.input d
    match reply.result with
    | .ok (some v) => return (goto (← store m v) (behind m 20), reply.device)
    | .ok none => throw .inputExhausted
    | .error e => throw (.device e)
  | op => return (← row m op, d)

/-! ### Raw words and decoded operands -/

variable {m : Machine} {i : Instruction}

theorem operandWord_eq (h : m.decode m.pc = .ok i) {k : Nat} {w : Word}
    (hk : i.encode[k]? = some w) : operandWord m k = .ok w := by
  have hsize : k < i.size := by
    rw [← Instruction.length_encode]
    exact (List.getElem?_eq_some_iff.1 hk).1
  have hle := Machine.pc_add_size_le h
  have hnat : (m.pc + .ofNat k).toNat = m.pc.toNat + k := by
    rw [UInt16.toNat_add, UInt16.toNat_ofNat']
    simp only [memorySize] at hle
    omega
  rw [operandWord, Machine.readMemory_eq_ok_iff, hnat, Instruction.getElem?_of_decode h hsize]
  exact hk

/-- **A raw word has the value of the operand** that it was decoded as. -/
theorem source_eq (h : m.decode m.pc = .ok i) {k : Nat} {a : Operand}
    (hk : i.encode[k]? = some a.word) : source m k = .ok (m.value a) := by
  rw [source, operandWord_eq h hk]
  show m.value <$> Operand.ofWord a.word = _
  rw [Operand.ofWord_word]
  rfl

/-- **A raw destination is the register** that it was decoded as. -/
theorem store_eq (h : m.decode m.pc = .ok i) {r : Register} (hk : i.encode[1]? = some r.word)
    (v : Word) : store m v = .ok (m.setRegister r v) := by
  rw [store, operandWord_eq h hk]
  show (m.setRegister · v) <$> Register.ofWord r.word = _
  rw [Register.ofWord_word]
  rfl

theorem arity_word (o : Opcode) : arity o.word.toNat = o.arity := by
  cases o <;> rfl

theorem behind_eq (m : Machine) (i : Instruction) : behind m i.opcode.word.toNat = m.next i := by
  rw [behind, arity_word]
  rfl

theorem compute_eq {op : BinaryOp} {a b v : Word} (h : op.eval a b = .ok v) :
    compute op.opcode.word.toNat a.toNat b.toNat = .ok v.toNat := by
  cases op with
  | eq =>
    cases h
    show Except.ok (if a.toNat = b.toNat then 1 else 0) = Except.ok (Arith.truth (a == b)).toNat
    simp only [Arith.toNat_truth, beq_iff_eq, UInt16.toNat_inj]
  | gt =>
    cases h
    show Except.ok (if a.toNat > b.toNat then 1 else 0) = Except.ok (Arith.truth (b < a)).toNat
    simp only [Arith.toNat_truth, decide_eq_true_eq, UInt16.lt_iff_toNat_lt, gt_iff_lt]
  | add =>
    cases h
    rw [Arith.toNat_add]
    rfl
  | mult =>
    cases h
    rw [Arith.toNat_mul]
    rfl
  | mod =>
    simp only [BinaryOp.eval, Arith.rem?] at h
    split at h
    · next hr =>
      split at hr
      · cases hr
      · next hb =>
        cases hr
        cases h
        have hpos : b.toNat ≠ 0 := fun hz => hb (UInt16.toNat_inj.1 hz)
        show (if b.toNat = 0 then _ else Except.ok (a.toNat % b.toNat)) = _
        rw [if_neg hpos, UInt16.toNat_mod]
    · cases h
  | and =>
    cases h
    rw [Arith.toNat_and]
    rfl
  | or =>
    cases h
    rw [Arith.toNat_or]
    rfl

theorem row_binary (m : Machine) (op : BinaryOp) : row m op.opcode.word.toNat = (do
    let v ← compute op.opcode.word.toNat (← source m 2).toNat (← source m 3).toNat
    return goto (← store m (.ofNat v)) (behind m op.opcode.word.toNat)) := by
  cases op <;> rfl

/-- **The rows do what the effects do.** -/
theorem row_eq (h : m.decode m.pc = .ok i) {e : Effect} (hi : m.Yields i (.effect e)) :
    row m i.opcode.word.toNat = .ok (m.apply (m.next i) e) := by
  -- in each case `show` computes the opcode word, and the operand words are read back by `source_eq`
  -- and `store_eq` from where they stand in the encoded instruction
  cases hi with
  | halt => rfl
  | noop => rfl
  | @set dst a =>
    have ha : source m 2 = .ok (m.value a) := source_eq h rfl
    have hstore := store_eq h (r := dst) rfl (m.value a)
    show row m 1 = _
    simp only [row, ha, hstore, Except.ok_bind]
    rfl
  | @push a =>
    have ha : source m 1 = .ok (m.value a) := source_eq h rfl
    show row m 2 = _
    simp only [row, ha, Except.ok_bind]
    rfl
  | @pop dst w top =>
    have hpop : m.stack.pop = .ok (w, m.stack.drop) := by rw [Stack.pop, top]
    have hstore := store_eq h (r := dst) rfl w
    show row m 3 = _
    simp only [row, hpop, hstore, Except.ok_bind]
    rfl
  | @binary op dst a b v result =>
    have ha : source m 2 = .ok (m.value a) := source_eq h rfl
    have hb : source m 3 = .ok (m.value b) := source_eq h rfl
    have hstore := store_eq h (r := dst) rfl v
    have hbehind : behind m op.opcode.word.toNat = _ := behind_eq m (.binary op dst a b)
    show row m op.opcode.word.toNat = _
    simp only [row_binary, ha, hb, compute_eq result, UInt16.ofNat_toNat, hstore, hbehind,
      Except.ok_bind]
    rfl
  | @jmp a t target =>
    have ha : source m 1 = .ok (m.value a) := source_eq h rfl
    show row m 6 = _
    simp only [row, ha, Except.ok_bind, ← target]
    rfl
  | @jt_taken a b t test target =>
    have ha : source m 1 = .ok (m.value a) := source_eq h rfl
    have hb : source m 2 = .ok (m.value b) := source_eq h rfl
    show row m 7 = _
    simp only [row, ha, hb, Except.ok_bind, if_pos test, ← target]
    rfl
  | @jt_passed a b test =>
    have ha : source m 1 = .ok (m.value a) := source_eq h rfl
    show row m 7 = _
    simp only [row, ha, Except.ok_bind, if_neg (Decidable.not_not.2 test)]
    rfl
  | @jf_taken a b t test target =>
    have ha : source m 1 = .ok (m.value a) := source_eq h rfl
    have hb : source m 2 = .ok (m.value b) := source_eq h rfl
    show row m 8 = _
    simp only [row, ha, hb, Except.ok_bind, if_pos test, ← target]
    rfl
  | @jf_passed a b test =>
    have ha : source m 1 = .ok (m.value a) := source_eq h rfl
    show row m 8 = _
    simp only [row, ha, Except.ok_bind, if_neg test]
    rfl
  | @not dst a =>
    have ha : source m 2 = .ok (m.value a) := source_eq h rfl
    have hnot : UInt16.ofNat (32767 - (m.value a).toNat % 32768) = Arith.not (m.value a) := by
      rw [← UInt16.ofNat_toNat (x := Arith.not _), Arith.toNat_not]
      rfl
    have hstore := store_eq h (r := dst) rfl (Arith.not (m.value a))
    show row m 14 = _
    simp only [row, ha, hnot, hstore, Except.ok_bind]
    rfl
  | @rmem dst a t address =>
    have ha : source m 2 = .ok (m.value a) := source_eq h rfl
    have hread : m.readMemory (m.value a) = .ok (m.word t) := by
      rw [Machine.readMemory, ← address, Address.ofWord_word]
      rfl
    have hstore := store_eq h (r := dst) rfl (m.word t)
    show row m 15 = _
    simp only [row, ha, hread, hstore, Except.ok_bind]
    rfl
  | @wmem a b t address =>
    have ha : source m 1 = .ok (m.value a) := source_eq h rfl
    have hb : source m 2 = .ok (m.value b) := source_eq h rfl
    have hwrite : m.writeMemory (m.value a) (m.value b) = .ok (m.setWord t (m.value b)) := by
      rw [Machine.writeMemory, ← address, Address.ofWord_word]
      rfl
    show row m 16 = _
    simp only [row, ha, hb, hwrite, Except.ok_bind]
    rfl
  | @call a t target =>
    have ha : source m 1 = .ok (m.value a) := source_eq h rfl
    show row m 17 = _
    simp only [row, ha, Except.ok_bind, ← target]
    rfl
  | @ret t top =>
    have hpop : m.stack.pop = .ok (t.word, m.stack.drop) := by rw [Stack.pop, top]
    show row m 18 = _
    simp only [row, hpop]
    rfl
  | ret_empty top =>
    have hpop : m.stack.pop = .error .stackUnderflow := by rw [Stack.pop, top]
    show row m 18 = _
    simp only [row, hpop]
    rfl

/-- Only `out` and `in` have the two rows that need the device. -/
theorem word_ne_of_effect {e : Effect} (hi : m.Yields i (.effect e)) :
    i.opcode.word.toNat ≠ 19 ∧ i.opcode.word.toNat ≠ 20 := by
  have hword : ∀ o : Opcode, o ≠ .out → o ≠ .inp → o.word.toNat ≠ 19 ∧ o.word.toNat ≠ 20 := by
    intro o hout hin
    cases o with
    | out | inp => contradiction
    | _ => decide
  cases hi with
  | @binary op => cases op <;> exact hword _ nofun nofun
  | _ => exact hword _ nofun nofun

theorem step_of_performs {δ : Type} [Device δ] {d d' : δ} {e : Effect}
    (h : m.decode m.pc = .ok i) (hi : m.Performs d i e d') :
    step m d = .ok (m.apply (m.next i) e, d') := by
  have hrunning := Machine.isHalted_of_decode h
  have hop : m.readMemory m.pc = .ok i.opcode.word := by
    rw [Machine.readMemory_eq_ok_iff]
    exact Instruction.getElem?_of_decode h i.size_pos
  simp only [step, hrunning, hop, Except.ok_bind, Bool.false_eq_true, if_false]
  cases hi with
  | effect action =>
    have hyields := Machine.action_eq_ok_iff.1 action
    obtain ⟨hout, hin⟩ := word_ne_of_effect hyields
    -- the first two rows are those of `out` and `in`
    split
    · contradiction
    · contradiction
    · rw [row_eq h hyields]
      rfl
  | output action taken =>
    cases Machine.action_eq_ok_iff.1 action with
    | @out a =>
      have ha : source m 1 = .ok (m.value a) := source_eq h rfl
      have hword : (Instruction.out a).opcode.word.toNat = 19 := rfl
      simp only [hword, ha, Except.ok_bind, taken]
      rfl
  | @input dst w action given =>
    cases Machine.action_eq_ok_iff.1 action with
    | inp =>
      have hstore := store_eq h (r := dst) rfl w
      have hword : (Instruction.inp dst).opcode.word.toNat = 20 := rfl
      simp only [hword, given, hstore, Except.ok_bind]
      rfl

theorem step_of_advances {δ : Type} [Device δ] {m m' : Machine} {d d' : δ}
    (h : m.Advances d m' d') (hskip : m'.skipped = m.skipped) : step m d = .ok (m', d') := by
  cases h with
  | rest halted =>
    rw [step, if_pos halted]
    rfl
  | skip => exact absurd hskip (Nat.succ_ne_self _)
  | perform _ decoded performs => exact step_of_performs decoded performs

end Table

/-- **A step does what the table says**, with the raw words of the instruction and by the same calls
of the device, unless it fails or skips. -/
theorem step_eq_table {δ : Type} [Device δ] (m : Machine) (d : δ) {s : Status}
    (h : (m.step d).result = .ok s) (hskip : (m.step d).machine.skipped = m.skipped) :
    Table.step m d = .ok ((m.step d).machine, (m.step d).device) ∧
    Table.step m (⟨d, []⟩ : Watched δ) =
      .ok ((m.step d).machine, (m.step (⟨d, []⟩ : Watched δ)).device) := by
  have hplain := Table.step_of_advances (Machine.advances_of_ok h) hskip
  obtain ⟨hresult, hmachine, -⟩ :=
    Machine.step_alike (m := m) (d := (⟨d, []⟩ : Watched δ)) Watched.alike rfl
  have hadv := Machine.advances_of_ok (hresult.trans h)
  rw [hmachine] at hadv
  exact ⟨hplain, Table.step_of_advances hadv hskip⟩

/-- A program that overwrites its own first operand word. -/
theorem step_eq_table_overwrite :
    let m := Machine.loaded .skip #[16, 1, 7]
    (m.step NullDevice.mk).result = .ok .running ∧
      (m.step NullDevice.mk).machine.skipped = m.skipped ∧
      Table.step m NullDevice.mk =
        .ok ({ m.setWord ⟨1, by decide⟩ 7 with pc := 3 }, NullDevice.mk) := by
  have hstep : ∀ m : Machine, m.pc = 0 →
      m.decode 0 = .ok (.wmem (.literal ⟨1, by decide⟩) (.literal ⟨7, by decide⟩)) →
      (m.step NullDevice.mk).result = .ok .running ∧
      (m.step NullDevice.mk).machine.skipped = m.skipped ∧
      Table.step m NullDevice.mk =
        .ok ({ m.setWord ⟨1, by decide⟩ 7 with pc := 3 }, NullDevice.mk) := by
    intro m hpc decoded
    rw [← hpc] at decoded
    have hyields : m.Yields _ (.effect (.write ⟨1, by decide⟩ 7)) :=
      .wmem (a := .literal ⟨1, by decide⟩) (b := .literal ⟨7, by decide⟩) rfl
    have hadv : m.Advances NullDevice.mk
        { m.setWord ⟨1, by decide⟩ 7 with pc := m.pc + 3 } NullDevice.mk :=
      .perform (Machine.isHalted_of_decode decoded) decoded (.effect hyields.action_eq)
    rw [hpc] at hadv
    obtain ⟨log, hs⟩ := hadv.step_eq
    have hresult : (m.step NullDevice.mk).result = .ok .running := by
      rw [hs]
      rfl
    have hskip : (m.step NullDevice.mk).machine.skipped = m.skipped := by
      rw [hs]
      rfl
    have htable := (step_eq_table m NullDevice.mk hresult hskip).1
    rw [hs] at htable
    exact ⟨hresult, hskip, htable⟩
  exact hstep _ rfl (Machine.decode_loaded (by decide) rfl)

end WordMachine
