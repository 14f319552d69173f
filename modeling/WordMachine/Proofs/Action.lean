import WordMachine.Machine.Action

/-!
# What instructions ask for, and when they are refused

`Machine.action` as rules, one or two for each instruction:

* `Yields` — what an instruction asks for, and under which condition on the values of its operands
  and on the stack (`action_eq_ok_iff`);
* `Refuses` — the errors that are found before anything is done (`action_eq_error_iff`).

The two relations leave nothing out: an instruction with its values falls under exactly one rule.
-/

namespace WordMachine

namespace Machine

/-! ### The rules -/

/-- What an instruction asks for. -/
inductive Yields (m : Machine) : Instruction → Action → Prop
  | halt : Yields m .halt (.effect (.halt false))
  | set {dst a} : Yields m (.set dst a) (.effect (.store dst (m.value a)))
  | push {a} : Yields m (.push a) (.effect (.push (m.value a)))
  | pop {dst w} (top : m.stack.top? = some w) : Yields m (.pop dst) (.effect (.pop dst w))
  | binary {op dst a b v} (result : op.eval (m.value a) (m.value b) = .ok v) :
      Yields m (.binary op dst a b) (.effect (.store dst v))
  | jmp {a} {t : Address} (target : t.word = m.value a) : Yields m (.jmp a) (.effect (.jump t))
  | jt_taken {a b} {t : Address} (test : m.value a ≠ 0) (target : t.word = m.value b) :
      Yields m (.jt a b) (.effect (.jump t))
  | jt_passed {a b} (test : m.value a = 0) : Yields m (.jt a b) (.effect .next)
  | jf_taken {a b} {t : Address} (test : m.value a = 0) (target : t.word = m.value b) :
      Yields m (.jf a b) (.effect (.jump t))
  | jf_passed {a b} (test : m.value a ≠ 0) : Yields m (.jf a b) (.effect .next)
  | not {dst a} : Yields m (.not dst a) (.effect (.store dst (Arith.not (m.value a))))
  | rmem {dst a} {t : Address} (address : t.word = m.value a) :
      Yields m (.rmem dst a) (.effect (.store dst (m.word t)))
  | wmem {a b} {t : Address} (address : t.word = m.value a) :
      Yields m (.wmem a b) (.effect (.write t (m.value b)))
  | call {a} {t : Address} (target : t.word = m.value a) : Yields m (.call a) (.effect (.call t))
  | ret {t : Address} (top : m.stack.top? = some t.word) : Yields m .ret (.effect (.ret t))
  | ret_empty (top : m.stack.top? = none) : Yields m .ret (.effect (.halt true))
  | out {a} : Yields m (.out a) (.output (m.value a))
  | inp {dst} : Yields m (.inp dst) (.input dst)
  | noop : Yields m .noop (.effect .next)

/-- The errors that are found before anything is done. -/
inductive Refuses (m : Machine) : Instruction → Error → Prop
  | pop {dst} (top : m.stack.top? = none) : Refuses m (.pop dst) .stackUnderflow
  | mod {dst a b} (zero : m.value b = 0) : Refuses m (.binary .mod dst a b) .divideByZero
  | jmp {a} (far : memorySize ≤ (m.value a).toNat) :
      Refuses m (.jmp a) (.addressOutOfRange (m.value a).toNat)
  | jt {a b} (test : m.value a ≠ 0) (far : memorySize ≤ (m.value b).toNat) :
      Refuses m (.jt a b) (.addressOutOfRange (m.value b).toNat)
  | jf {a b} (test : m.value a = 0) (far : memorySize ≤ (m.value b).toNat) :
      Refuses m (.jf a b) (.addressOutOfRange (m.value b).toNat)
  | rmem {dst a} (far : memorySize ≤ (m.value a).toNat) :
      Refuses m (.rmem dst a) (.addressOutOfRange (m.value a).toNat)
  | wmem {a b} (far : memorySize ≤ (m.value a).toNat) :
      Refuses m (.wmem a b) (.addressOutOfRange (m.value a).toNat)
  | call {a} (far : memorySize ≤ (m.value a).toNat) :
      Refuses m (.call a) (.addressOutOfRange (m.value a).toNat)
  | ret {w} (top : m.stack.top? = some w) (far : memorySize ≤ w.toNat) :
      Refuses m .ret (.addressOutOfRange w.toNat)

/-! ### Rules and function agree -/

theorem Yields.action_eq {m : Machine} {i : Instruction} {a : Action} (h : m.Yields i a) :
    m.action i = .ok a := by
  -- an address that an operand has as its value is read back from that value
  have address {t : Address} {w : Word} (hw : t.word = w) : Address.ofWord w = .ok t :=
    Address.ofWord_eq_ok_iff.2 hw
  cases h with
  | pop top => rw [action, top]
  | binary result =>
    rw [action, result]
    rfl
  | jmp target =>
    rw [action, jump, address target]
    rfl
  | jt_taken test target =>
    rw [action, if_pos test, jump, address target]
    rfl
  | jt_passed test => rw [action, if_neg (Decidable.not_not.2 test)]
  | jf_taken test target =>
    rw [action, if_pos test, jump, address target]
    rfl
  | jf_passed test => rw [action, if_neg test]
  | rmem target =>
    rw [action, readMemory, address target]
    rfl
  | wmem target =>
    rw [action, address target]
    rfl
  | call target =>
    rw [action, address target]
    rfl
  | @ret t top =>
    rw [action, top]
    show (_ <$> Address.ofWord t.word) = _
    rw [Address.ofWord_word]
    rfl
  | ret_empty top => rw [action, top]
  | _ => rfl

theorem Refuses.action_eq {m : Machine} {i : Instruction} {e : Error} (h : m.Refuses i e) :
    m.action i = .error e := by
  have address {w : Word} (far : memorySize ≤ w.toNat) :
      Address.ofWord w = .error (.addressOutOfRange w.toNat) :=
    Address.ofWord_eq_error_iff.2 ⟨rfl, far⟩
  cases h with
  | pop top => rw [action, top]
  | mod zero =>
    rw [action, zero]
    rfl
  | jmp far =>
    rw [action, jump, address far]
    rfl
  | jt test far =>
    rw [action, if_pos test, jump, address far]
    rfl
  | jf test far =>
    rw [action, if_pos test, jump, address far]
    rfl
  | rmem far =>
    rw [action, readMemory, address far]
    rfl
  | wmem far =>
    rw [action, address far]
    rfl
  | call far =>
    rw [action, address far]
    rfl
  | @ret w top far =>
    rw [action, top]
    show (_ <$> Address.ofWord w) = _
    rw [address far]
    rfl

/-- A word is an address or is too large to be one. -/
theorem address_or_far (w : Word) : (∃ t : Address, t.word = w) ∨ memorySize ≤ w.toNat := by
  by_cases h : w.toNat < memorySize
  · exact .inl ⟨⟨w, h⟩, rfl⟩
  · exact .inr (Nat.not_lt.1 h)

theorem getElem?_word (m : Machine) (a : Address) :
    m.memory.toArray[a.word.toNat]? = some (m.word a) := by
  rw [Vector.getElem?_toArray, Vector.getElem?_eq_getElem a.isLt]
  rfl

theorem word_setWord (m : Machine) (a b : Address) (w : Word) :
    (m.setWord a w).word b = if a.word.toNat = b.word.toNat then w else m.word b :=
  Vector.getElem_set a.isLt b.isLt

theorem register_setRegister (m : Machine) (x y : Register) (w : Word) :
    (m.setRegister x w).register y = if x = y then w else m.register y := by
  simp only [register, setRegister, Register.ext_iff, Fin.ext_iff]
  exact Vector.getElem_set x.index.isLt y.index.isLt

theorem readMemory_eq_ok_iff {m : Machine} {a w : Word} :
    m.readMemory a = .ok w ↔ m.memory.toArray[a.toNat]? = some w := by
  rw [Vector.getElem?_toArray, readMemory]
  rcases address_or_far a with ⟨t, rfl⟩ | far
  · rw [Address.ofWord_word, Vector.getElem?_eq_getElem t.isLt, Option.some.injEq]
    show Except.ok (m.word t) = Except.ok w ↔ m.word t = w
    rw [Except.ok.injEq]
  · rw [Address.ofWord_eq_error_iff.2 ⟨rfl, far⟩, Vector.getElem?_eq_none far]
    exact ⟨nofun, nofun⟩

/-- Every binary operation has a result, but for a remainder with divisor zero. -/
theorem eval_or_zero (op : BinaryOp) (a b : Word) :
    (∃ v, op.eval a b = .ok v) ∨ op = .mod ∧ b = 0 := by
  cases op with
  | mod =>
    by_cases hb : b = 0
    · exact .inr ⟨rfl, hb⟩
    · refine .inl ⟨a % b, ?_⟩
      simp only [BinaryOp.eval, Arith.rem?, if_neg hb]
  | _ => exact .inl ⟨_, rfl⟩

/-- There is a rule for every instruction in every state. -/
theorem yields_or_refuses (m : Machine) (i : Instruction) :
    (∃ a, m.Yields i a) ∨ ∃ e, m.Refuses i e := by
  cases i with
  | halt => exact .inl ⟨_, .halt⟩
  | set dst a => exact .inl ⟨_, .set⟩
  | push a => exact .inl ⟨_, .push⟩
  | pop dst =>
    cases top : m.stack.top? with
    | none => exact .inr ⟨_, .pop top⟩
    | some w => exact .inl ⟨_, .pop top⟩
  | binary op dst a b =>
    rcases eval_or_zero op (m.value a) (m.value b) with ⟨v, result⟩ | ⟨rfl, zero⟩
    · exact .inl ⟨_, .binary result⟩
    · exact .inr ⟨_, .mod zero⟩
  | jmp a =>
    rcases address_or_far (m.value a) with ⟨t, ht⟩ | far
    · exact .inl ⟨_, .jmp ht⟩
    · exact .inr ⟨_, .jmp far⟩
  | jt a b =>
    by_cases test : m.value a = 0
    · exact .inl ⟨_, .jt_passed test⟩
    · rcases address_or_far (m.value b) with ⟨t, ht⟩ | far
      · exact .inl ⟨_, .jt_taken test ht⟩
      · exact .inr ⟨_, .jt test far⟩
  | jf a b =>
    by_cases test : m.value a = 0
    · rcases address_or_far (m.value b) with ⟨t, ht⟩ | far
      · exact .inl ⟨_, .jf_taken test ht⟩
      · exact .inr ⟨_, .jf test far⟩
    · exact .inl ⟨_, .jf_passed test⟩
  | not dst a => exact .inl ⟨_, .not⟩
  | rmem dst a =>
    rcases address_or_far (m.value a) with ⟨t, ht⟩ | far
    · exact .inl ⟨_, .rmem ht⟩
    · exact .inr ⟨_, .rmem far⟩
  | wmem a b =>
    rcases address_or_far (m.value a) with ⟨t, ht⟩ | far
    · exact .inl ⟨_, .wmem ht⟩
    · exact .inr ⟨_, .wmem far⟩
  | call a =>
    rcases address_or_far (m.value a) with ⟨t, ht⟩ | far
    · exact .inl ⟨_, .call ht⟩
    · exact .inr ⟨_, .call far⟩
  | ret =>
    cases top : m.stack.top? with
    | none => exact .inl ⟨_, .ret_empty top⟩
    | some w =>
      rcases address_or_far w with ⟨t, rfl⟩ | far
      · exact .inl ⟨_, .ret top⟩
      · exact .inr ⟨_, .ret top far⟩
  | out a => exact .inl ⟨_, .out⟩
  | inp dst => exact .inl ⟨_, .inp⟩
  | noop => exact .inl ⟨_, .noop⟩

/-- **What an instruction asks for is what its rule says.** -/
theorem action_eq_ok_iff {m : Machine} {i : Instruction} {a : Action} :
    m.action i = .ok a ↔ m.Yields i a := by
  constructor
  · intro h
    rcases yields_or_refuses m i with ⟨a', ha⟩ | ⟨e, he⟩
    · rw [ha.action_eq] at h
      cases h
      exact ha
    · rw [he.action_eq] at h
      cases h
  · exact Yields.action_eq

/-- **An instruction is refused exactly as its rule says.** -/
theorem action_eq_error_iff {m : Machine} {i : Instruction} {e : Error} :
    m.action i = .error e ↔ m.Refuses i e := by
  constructor
  · intro h
    rcases yields_or_refuses m i with ⟨a, ha⟩ | ⟨e', he⟩
    · rw [ha.action_eq] at h
      cases h
    · rw [he.action_eq] at h
      cases h
      exact he
  · exact Refuses.action_eq

end Machine

end WordMachine
