import WordMachine.Machine.Basic

/-!
# What decoding accepts and what it refuses

Decoding is a function; its reverse is `Instruction.encode`. The two are tied together by

* `decode_eq_ok_iff` — an instruction is read at an address exactly if the words from there on are
  the words it is written as;
* `decode_eq_error_iff` — the error is that of the first check that fails: no word at the address,
  a word that is no opcode, too few words behind it, and last the leftmost operand word that its
  slot refuses (`refusal?`).

Everything else in the library that needs to know what stands at the program counter goes through
these two, never through `decode` itself.
-/

namespace WordMachine

/-- What a slot answers to a word that may not stand there. -/
def Slot.refusal? : Slot → Word → Option Error
  | .destination, w =>
    if registerBase ≤ w.toNat ∧ w.toNat ≤ maxOperand then none else some (.notARegister w)
  | .source, w => if w.toNat ≤ maxOperand then none else some (.invalidOperand w)

namespace Instruction

/-- The leftmost refusal among operand words. -/
def refusal? : List Slot → List Word → Option Error
  | slot :: slots, w :: ws => (slot.refusal? w).or (refusal? slots ws)
  | _, _ => none

/-- A refusal names one of the words. -/
theorem refusal?_eq_some {slots : List Slot} {ws : List Word} {e : Error}
    (h : refusal? slots ws = some e) :
    ∃ w ∈ ws, e = .notARegister w ∨ e = .invalidOperand w ∧ maxOperand < w.toNat := by
  induction slots generalizing ws with
  | nil => cases h
  | cons slot slots ih =>
    cases ws with
    | nil => cases h
    | cons v ws =>
      rw [refusal?, Option.or_eq_some_iff] at h
      rcases h with h | ⟨-, h⟩
      · refine ⟨v, List.mem_cons_self, ?_⟩
        cases slot with
        | destination =>
          rw [Slot.refusal?] at h
          split at h
          · cases h
          · cases h
            exact .inl rfl
        | source =>
          rw [Slot.refusal?] at h
          split at h
          · cases h
          · next hv =>
            cases h
            exact .inr ⟨rfl, Nat.not_le.1 hv⟩
      · obtain ⟨w, hw, he⟩ := ih h
        exact ⟨w, List.mem_cons_of_mem _ hw, he⟩

/-- A reader of operand words **reads for** a slot if it fails exactly as the slot refuses. -/
def ReadsFor {α : Type} (read : Word → Except Error α) (slot : Slot) : Prop :=
  ∀ w e, read w = .error e ↔ slot.refusal? w = some e

theorem ReadsFor.refusal?_eq_none {α : Type} {read : Word → Except Error α} {slot : Slot}
    (h : ReadsFor read slot) {w : Word} {x : α} (hx : read w = .ok x) : slot.refusal? w = none := by
  rw [Option.eq_none_iff_forall_ne_some]
  intro e he
  rw [(h w e).2 he] at hx
  cases hx

theorem dst_readsFor : ReadsFor dst .destination := by
  intro w e
  rw [dst, Register.ofWord_eq_error_iff, Slot.refusal?]
  split
  · next h =>
    simp only [reduceCtorEq, iff_false]
    omega
  · next h =>
    rw [Option.some.injEq, eq_comm]
    exact ⟨And.left, fun he => ⟨he, by omega⟩⟩

theorem src_readsFor : ReadsFor src .source := by
  intro w e
  rw [src, Operand.ofWord_eq_error_iff, Slot.refusal?]
  split
  · next h =>
    simp only [reduceCtorEq, iff_false]
    omega
  · next h =>
    rw [Option.some.injEq, eq_comm]
    exact ⟨And.left, fun he => ⟨he, by omega⟩⟩

/-! ### Reading the operand words

One lemma for each number of operands. All three say the same: a wrong number of words is truncation,
and otherwise the leftmost refusal is the error. -/

theorem read0_eq_error_iff {i : Instruction} {ws : List Word} {e : Error} :
    read0 i ws = .error e ↔ ws.length ≠ 0 ∧ e = .truncated := by
  cases ws with
  | nil => simp [read0]
  | cons w ws => simp [read0, eq_comm]

theorem read1_eq_error_iff {α : Type} {first : Word → Except Error α} {slot : Slot}
    (hf : ReadsFor first slot) {make : α → Instruction} {ws : List Word} {e : Error} :
    read1 first make ws = .error e ↔
      ws.length ≠ 1 ∧ e = .truncated ∨ ws.length = 1 ∧ refusal? [slot] ws = some e := by
  match ws with
  | [] => simp [read1, eq_comm]
  | [a] =>
    have hr := hf a e
    cases ha : first a with
    | error e' => simp_all [read1, refusal?, bind, Except.bind]
    | ok x => simp_all [read1, refusal?, bind, Except.bind, pure, Except.pure]
  | _ :: _ :: _ => simp [read1, eq_comm]

theorem read2_eq_error_iff {α β : Type} {first : Word → Except Error α}
    {second : Word → Except Error β} {s₁ s₂ : Slot} (h₁ : ReadsFor first s₁)
    (h₂ : ReadsFor second s₂) {make : α → β → Instruction} {ws : List Word} {e : Error} :
    read2 first second make ws = .error e ↔
      ws.length ≠ 2 ∧ e = .truncated ∨ ws.length = 2 ∧ refusal? [s₁, s₂] ws = some e := by
  match ws with
  | [] => simp [read2, eq_comm]
  | [_] => simp [read2, eq_comm]
  | [a, b] =>
    cases ha : first a with
    | error e' =>
      have hr := (h₁ a e').1 ha
      simp [read2, refusal?, hr, ha, bind, Except.bind]
    | ok x =>
      -- the first word is accepted, so what is left is the case of one operand
      have hr := h₁.refusal?_eq_none ha
      have hrest : read1 second (make x) [b] = .error e ↔ _ := read1_eq_error_iff h₂
      simpa [read1, read2, refusal?, hr, ha, bind, Except.bind] using hrest
  | _ :: _ :: _ :: _ => simp [read2, eq_comm]

theorem read3_eq_error_iff {α β γ : Type} {first : Word → Except Error α}
    {second : Word → Except Error β} {third : Word → Except Error γ} {s₁ s₂ s₃ : Slot}
    (h₁ : ReadsFor first s₁) (h₂ : ReadsFor second s₂) (h₃ : ReadsFor third s₃)
    {make : α → β → γ → Instruction} {ws : List Word} {e : Error} :
    read3 first second third make ws = .error e ↔
      ws.length ≠ 3 ∧ e = .truncated ∨ ws.length = 3 ∧ refusal? [s₁, s₂, s₃] ws = some e := by
  match ws with
  | [] => simp [read3, eq_comm]
  | [_] => simp [read3, eq_comm]
  | [_, _] => simp [read3, eq_comm]
  | [a, b, c] =>
    cases ha : first a with
    | error e' =>
      have hr := (h₁ a e').1 ha
      simp [read3, refusal?, hr, ha, bind, Except.bind]
    | ok x =>
      have hr := h₁.refusal?_eq_none ha
      have hrest : read2 second third (make x) [b, c] = .error e ↔ _ := read2_eq_error_iff h₂ h₃
      simpa [read2, read3, refusal?, hr, ha, bind, Except.bind] using hrest
  | _ :: _ :: _ :: _ :: _ => simp [read3, eq_comm]

/-- **Why operand words are refused**: their number is wrong, or the leftmost bad one is at fault. -/
theorem ofWords_eq_error_iff {o : Opcode} {ws : List Word} {e : Error} :
    ofWords o ws = .error e ↔
      ws.length ≠ o.arity ∧ e = .truncated ∨
        ws.length = o.arity ∧ refusal? o.row.slots ws = some e := by
  cases o <;> simp only [ofWords]
  case halt | ret | noop =>
    rw [read0_eq_error_iff]
    simp [Opcode.arity, Opcode.row, refusal?]
  case push | jmp | call | out => exact read1_eq_error_iff src_readsFor
  case pop | inp => exact read1_eq_error_iff dst_readsFor
  case set | not | rmem => exact read2_eq_error_iff dst_readsFor src_readsFor
  case jt | jf | wmem => exact read2_eq_error_iff src_readsFor src_readsFor
  case eq | gt | add | mult | mod | and | or =>
    exact read3_eq_error_iff dst_readsFor src_readsFor src_readsFor

/-! ### Reading from memory -/

theorem toList_extract_cons {memory : Array Word} {pc n : Nat} {w : Word}
    (hw : memory[pc]? = some w) :
    (memory.extract pc (pc + 1 + n)).toList = w :: (memory.extract (pc + 1) (pc + 1 + n)).toList := by
  obtain ⟨hlt, rfl⟩ := Array.getElem?_eq_some_iff.1 hw
  rw [Array.toList_extract, Array.toList_extract, List.extract_eq_take_drop,
    List.extract_eq_take_drop, List.drop_eq_getElem_cons (by simpa using hlt)]
  rw [show pc + 1 + n - pc = n + 1 by omega, show pc + 1 + n - (pc + 1) = n by omega,
    List.take_succ_cons, Array.getElem_toList]

/-- **Decoding inverts encoding**: an instruction is read at an address exactly if the words from
there on are the words that it is written as. -/
theorem decode_eq_ok_iff {memory : Array Word} {pc : Nat} {i : Instruction} :
    decode memory pc = .ok i ↔ (memory.extract pc (pc + i.size)).toList = i.encode := by
  have hsize : pc + i.size = pc + 1 + i.opcode.arity := by
    rw [size, Nat.add_assoc]
  unfold decode
  constructor
  · intro h
    split at h
    · cases h
    · next w hw =>
      split at h
      · cases h
      · next o ho =>
        obtain ⟨rfl, hws⟩ := ofWords_eq_ok_iff.1 h
        rw [hsize, toList_extract_cons hw, encode, hws, Opcode.ofWord?_eq_some_iff.1 ho]
  · intro h
    -- the words are there at all, since an instruction is written as at least one word
    have hw : memory[pc]? = some i.opcode.word := by
      have hhead : (memory.extract pc (pc + i.size)).toList[0]? = some i.opcode.word := by
        rw [h, encode, List.getElem?_cons_zero]
      rw [Array.getElem?_toList, Array.getElem?_extract] at hhead
      split at hhead
      · exact hhead
      · cases hhead
    rw [hsize, toList_extract_cons hw, encode, List.cons.injEq] at h
    rw [hw]
    simp only [Opcode.ofWord?_word]
    exact ofWords_eq_ok_iff.2 ⟨rfl, h.2.symm⟩

/-- **Why no instruction is read**: the error is that of the first check that fails. -/
theorem decode_eq_error_iff {memory : Array Word} {pc : Nat} {e : Error} :
    decode memory pc = .error e ↔
      memory.size ≤ pc ∧ e = .addressOutOfRange pc ∨
      ∃ w, memory[pc]? = some w ∧
        (Opcode.ofWord? w = none ∧ e = .unknownOpcode w ∨
          ∃ o, Opcode.ofWord? w = some o ∧
            (memory.size < pc + 1 + o.arity ∧ e = .truncated ∨
              pc + 1 + o.arity ≤ memory.size ∧
                refusal? o.row.slots (memory.extract (pc + 1) (pc + 1 + o.arity)).toList =
                  some e)) := by
  unfold decode
  split
  · next hw =>
    have hle := Array.getElem?_eq_none_iff.1 hw
    simp [hle, eq_comm]
  · next w hw =>
    obtain ⟨hlt, -⟩ := Array.getElem?_eq_some_iff.1 hw
    split
    · next ho => simp [hw, ho, Nat.not_le.2 hlt, eq_comm]
    · next o ho =>
      have hlen : (memory.extract (pc + 1) (pc + 1 + o.arity)).toList.length = o.arity ↔
          pc + 1 + o.arity ≤ memory.size := by
        rw [Array.length_toList, Array.size_extract]
        omega
      rw [ofWords_eq_error_iff, Ne, hlen, Nat.not_le]
      constructor
      · intro h
        exact .inr ⟨w, hw, .inr ⟨o, ho, h⟩⟩
      · rintro (⟨hle, -⟩ | ⟨w', hw', ⟨ho', -⟩ | ⟨o', ho', h⟩⟩)
        · omega
        · rw [hw] at hw'
          cases hw'
          rw [ho] at ho'
          cases ho'
        · rw [hw] at hw'
          cases hw'
          rw [ho] at ho'
          cases ho'
          exact h

/-- The errors of reading an instruction. -/
theorem error_of_decode {memory : Array Word} {pc : Nat} {e : Error}
    (h : decode memory pc = .error e) :
    e = .addressOutOfRange pc ∨ (∃ w, e = .unknownOpcode w) ∨ e = .truncated ∨
      (∃ w, e = .notARegister w) ∨ ∃ w, e = .invalidOperand w := by
  rcases decode_eq_error_iff.1 h with ⟨-, he⟩ | ⟨w, -, ⟨-, he⟩ | ⟨o, -, ⟨-, he⟩ | ⟨-, h⟩⟩⟩
  · exact .inl he
  · exact .inr (.inl ⟨w, he⟩)
  · exact .inr (.inr (.inl he))
  · obtain ⟨w, -, he | ⟨he, -⟩⟩ := refusal?_eq_some h
    · exact .inr (.inr (.inr (.inl ⟨w, he⟩)))
    · exact .inr (.inr (.inr (.inr ⟨w, he⟩)))

/-- A word is refused as unknown exactly if it is there and is no opcode; later checks are of words
behind an opcode. -/
theorem decode_eq_unknownOpcode_iff {memory : Array Word} {pc : Nat} {w : Word} :
    decode memory pc = .error (.unknownOpcode w) ↔
      memory[pc]? = some w ∧ Opcode.ofWord? w = none := by
  rw [decode_eq_error_iff]
  constructor
  · rintro (⟨-, he⟩ | ⟨v, hv, ⟨hnone, he⟩ | ⟨o, -, ⟨-, he⟩ | ⟨-, h⟩⟩⟩)
    · cases he
    · cases he
      exact ⟨hv, hnone⟩
    · cases he
    · obtain ⟨_, -, he | ⟨he, -⟩⟩ := refusal?_eq_some h
      · cases he
      · cases he
  · rintro ⟨hw, hnone⟩
    exact .inr ⟨w, hw, .inl ⟨hnone, rfl⟩⟩

theorem size_pos (i : Instruction) : 0 < i.size := by
  rw [size]
  omega

/-- The words of an instruction all lie in memory. -/
theorem add_size_le_of_decode {memory : Array Word} {pc : Nat} {i : Instruction}
    (h : decode memory pc = .ok i) : pc + i.size ≤ memory.size := by
  have hlen := congrArg List.length (decode_eq_ok_iff.1 h)
  rw [length_encode, Array.length_toList, Array.size_extract] at hlen
  have hpos := i.size_pos
  omega

/-- The words of an instruction are the words that it is written as, one by one. -/
theorem getElem?_of_decode {memory : Array Word} {pc k : Nat} {i : Instruction}
    (h : decode memory pc = .ok i) (hk : k < i.size) : memory[pc + k]? = i.encode[k]? := by
  rw [← decode_eq_ok_iff.1 h, Array.getElem?_toList, Array.getElem?_extract]
  have hle := add_size_le_of_decode h
  rw [if_pos (by omega)]

/-- Where the words are those of an instruction, it is read. -/
theorem decode_of_getElem? {memory : Array Word} {pc : Nat} {i : Instruction}
    (h : ∀ k < i.size, memory[pc + k]? = i.encode[k]?) : decode memory pc = .ok i := by
  -- the last word of the instruction is there, so all of them lie in memory
  have hsize : pc + i.size ≤ memory.size := by
    have hpos := i.size_pos
    have hlast := h (i.size - 1) (by omega)
    rw [List.getElem?_eq_getElem (by rw [length_encode]; omega)] at hlast
    have hlt := (Array.getElem?_eq_some_iff.1 hlast).1
    omega
  apply decode_eq_ok_iff.2
  apply List.ext_getElem?
  intro k
  rw [Array.getElem?_toList, Array.getElem?_extract, Nat.min_eq_left hsize]
  by_cases hk : k < i.size
  · rw [if_pos (by omega), h k hk]
  · rw [if_neg (by omega), List.getElem?_eq_none (by rw [length_encode]; omega)]

end Instruction

end WordMachine
