import WordMachine.Proofs.Causes
import WordMachine.Proofs.Load
import WordMachine.Proofs.Session

/-!
# What a step reads of memory

A step reads the words of one instruction, and one more word if that is `rmem`. All other words of
memory could be different.

* `Machine.Reads` — the addresses that a step reads.
* `Machine.SameBut` — machines that differ at most in memory, at given addresses; a step keeps them
  so if it reads none of these (`Rig.SameBut.step`), and then it also answers the same.
* `unread_memory_never_matters` — so do any number of steps.
-/

namespace WordMachine

/-- What is read at an address is decided by the word there and by the operand words behind it. -/
theorem Instruction.decode_congr {memory memory' : Array Word} {pc : Nat}
    (size : memory.size = memory'.size) (first : memory[pc]? = memory'[pc]?)
    (operands : ∀ w o, memory[pc]? = some w → Opcode.ofWord? w = some o →
      ∀ k < o.arity, memory[pc + 1 + k]? = memory'[pc + 1 + k]?) :
    decode memory pc = decode memory' pc := by
  unfold decode
  rw [← first]
  cases hw : memory[pc]? with
  | none => rfl
  | some w =>
    cases ho : Opcode.ofWord? w with
    | none => simp only [ho]
    | some o =>
      have hextract : memory.extract (pc + 1) (pc + 1 + o.arity) =
          memory'.extract (pc + 1) (pc + 1 + o.arity) := by
        apply Array.ext_getElem?
        intro k
        rw [Array.getElem?_extract, Array.getElem?_extract, size]
        by_cases hk : k < o.arity
        · rw [operands w o hw ho k hk]
        · rw [if_neg (by omega), if_neg (by omega)]
      simp only [ho, hextract]

namespace Machine

/-! ### The addresses that are read -/

/-- The addresses at which the instruction at the program counter is read: that of its opcode, and
as many behind it as the opcode has operands, as far as memory goes. -/
inductive Fetches (m : Machine) (a : Address) : Prop
  | opcode (here : a.word.toNat = m.pc.toNat)
  | operand {o k} (opcode : m.opcode? = some o) (inside : k < o.arity)
      (there : a.word.toNat = m.pc.toNat + 1 + k)

/-- The addresses that a step reads. -/
inductive Reads (m : Machine) (a : Address) : Prop
  | fetch (fetched : m.Fetches a)
  | rmem {dst b} (decoded : m.decode m.pc = .ok (.rmem dst b)) (address : a.word = m.value b)

variable {D : Address → Prop} {m m' : Machine}

/-- Machines that differ at most in memory, and there only at addresses in `D`. -/
structure SameBut (D : Address → Prop) (m m' : Machine) : Prop where
  word (a : Address) (outside : ¬D a) : m.word a = m'.word a
  registers : m.registers = m'.registers
  stack : m.stack = m'.stack
  pc : m.pc = m'.pc
  policy : m.policy = m'.policy
  skipped : m.skipped = m'.skipped

namespace SameBut

/-! ### What such machines agree on -/

theorem getElem?_eq (h : m.SameBut D m') {i : Nat}
    (outside : ∀ a : Address, a.word.toNat = i → ¬D a) :
    m.memory.toArray[i]? = m'.memory.toArray[i]? := by
  by_cases hi : i < memorySize
  · have hword : (UInt16.ofNat i).toNat = i := by
      rw [UInt16.toNat_ofNat', Nat.mod_eq_of_lt (Nat.lt_trans hi (by decide))]
    have hsame := h.word ⟨.ofNat i, hword.symm ▸ hi⟩ (outside _ hword)
    rw [← hword]
    exact (m.getElem?_word _).trans ((congrArg some hsame).trans (m'.getElem?_word _).symm)
  · rw [Array.getElem?_eq_none (by simpa using hi), Array.getElem?_eq_none (by simpa using hi)]

theorem isHalted_eq (h : m.SameBut D m') : m.isHalted = m'.isHalted := by
  rw [isHalted, isHalted, h.pc]

theorem opcode?_eq (h : m.SameBut D m') (unread : ∀ a, m.Fetches a → ¬D a) :
    m.opcode? = m'.opcode? := by
  have hword := h.getElem?_eq fun a ha => unread a (.opcode ha)
  rw [Vector.getElem?_toArray, Vector.getElem?_toArray] at hword
  rw [opcode?, opcode?, hword, h.pc]

theorem decode_eq (h : m.SameBut D m') (unread : ∀ a, m.Fetches a → ¬D a) :
    m.decode m.pc = m'.decode m'.pc := by
  rw [← h.pc]
  apply Instruction.decode_congr
  · rw [Vector.size_toArray, Vector.size_toArray]
  · exact h.getElem?_eq fun a ha => unread a (.opcode ha)
  · intro w o hw ho k hk
    have hopcode : m.opcode? = some o := by
      rw [opcode?, ← Vector.getElem?_toArray, hw]
      exact ho
    exact h.getElem?_eq fun a ha => unread a (.operand hopcode hk ha)

theorem value_eq (h : m.SameBut D m') : m.value = m'.value := by
  funext a
  cases a with
  | literal v => rfl
  | register r => rw [value, value, register, register, h.registers]

theorem readMemory_eq (h : m.SameBut D m') {w : Word}
    (outside : ∀ a : Address, a.word = w → ¬D a) : m.readMemory w = m'.readMemory w := by
  rw [readMemory, readMemory]
  rcases address_or_far w with ⟨a, rfl⟩ | far
  · rw [Address.ofWord_word]
    exact congrArg Except.ok (h.word a (outside a rfl))
  · rw [Address.ofWord_eq_error_iff.2 ⟨rfl, far⟩]
    rfl

/-- **No instruction but `rmem` reads memory.** -/
theorem action_eq (h : m.SameBut D m') {i : Instruction}
    (unread : ∀ dst b, i = .rmem dst b → ∀ a : Address, a.word = m.value b → ¬D a) :
    m.action i = m'.action i := by
  cases i with
  | rmem dst b => rw [action, action, h.readMemory_eq (unread dst b rfl), h.value_eq]
  | _ => simp only [action, jump, h.value_eq, h.stack]

/-- Programs that differ at some addresses lead to such machines. -/
theorem loaded {policy : Policy} {program program' : Array Word}
    (h : ∀ a : Address, ¬D a → program.getD a.word.toNat 0 = program'.getD a.word.toNat 0) :
    (loaded policy program).SameBut D (loaded policy program') where
  word a outside := by
    have hword := (Machine.loaded policy program).getElem?_word a
    have hword' := (Machine.loaded policy program').getElem?_word a
    rw [getElem?_loaded _ _ a.isLt, Option.some.injEq] at hword hword'
    rw [← hword, ← hword', h a outside]
  registers := by rw [Machine.loaded, Machine.loaded]
  stack := by rw [Machine.loaded, Machine.loaded]
  pc := by rw [Machine.loaded, Machine.loaded]
  policy := by rw [Machine.loaded, Machine.loaded]
  skipped := by rw [Machine.loaded, Machine.loaded]

/-! ### How such machines stay so -/

theorem setRegister (h : m.SameBut D m') (r : Register) (w : Word) :
    (m.setRegister r w).SameBut D (m'.setRegister r w) where
  word := h.word
  registers := congrArg (·.set r.index w) h.registers
  stack := h.stack
  pc := h.pc
  policy := h.policy
  skipped := h.skipped

/-- A write may be anywhere. -/
theorem setWord (h : m.SameBut D m') (a : Address) (w : Word) :
    (m.setWord a w).SameBut D (m'.setWord a w) where
  word b outside := by rw [word_setWord, word_setWord, h.word b outside]
  registers := h.registers
  stack := h.stack
  pc := h.pc
  policy := h.policy
  skipped := h.skipped

theorem withStack (h : m.SameBut D m') {s s' : Stack} (hs : s = s') :
    { m with stack := s }.SameBut D { m' with stack := s' } :=
  ⟨h.word, h.registers, hs, h.pc, h.policy, h.skipped⟩

theorem withPc (h : m.SameBut D m') (pc : Word) :
    { m with pc := pc }.SameBut D { m' with pc := pc } :=
  ⟨h.word, h.registers, h.stack, rfl, h.policy, h.skipped⟩

theorem apply (h : m.SameBut D m') (next : Word) (e : Effect) :
    (m.apply next e).SameBut D (m'.apply next e) := by
  cases e with
  | next => exact h.withPc _
  | store dst v => exact (h.setRegister dst v).withPc _
  | write a v => exact (h.setWord a v).withPc _
  | push v => exact (h.withStack (congrArg (·.push v) h.stack)).withPc _
  | pop dst v =>
    exact ((h.setRegister dst v).withStack (congrArg Stack.drop h.stack)).withPc _
  | jump t => exact h.withPc _
  | call t => exact (h.withStack (congrArg (·.push next) h.stack)).withPc _
  | ret t => exact (h.withStack (congrArg Stack.drop h.stack)).withPc _
  | halt e => exact h.withPc _

end SameBut

/-! ### Steps -/

variable {δ : Type} [Device δ] {n : Machine} {d d' : δ}

theorem Performs.congr {i : Instruction} {e : Effect} (h : m.Performs d i e d')
    (same : m.action i = m'.action i) : m'.Performs d i e d' := by
  cases h with
  | effect action => exact .effect (same ▸ action)
  | output action taken => exact .output (same ▸ action) taken
  | input action given => exact .input (same ▸ action) given

/-- What the operand of an `rmem` says, a step reads. -/
theorem unread_of_reads (unread : ∀ a, m.Reads a → ¬D a) {i : Instruction}
    (decoded : m.decode m.pc = .ok i) :
    ∀ dst b, i = .rmem dst b → ∀ a : Address, a.word = m.value b → ¬D a := by
  rintro dst b rfl a ha
  exact unread a (.rmem decoded ha)

theorem Advances.sameBut (h : m.Advances d n d') (same : m.SameBut D m')
    (unread : ∀ a, m.Reads a → ¬D a) : ∃ n', m'.Advances d n' d' ∧ n.SameBut D n' := by
  have hdecode := same.decode_eq fun a ha => unread a (.fetch ha)
  have hhalted := same.isHalted_eq
  cases h with
  | rest halted => exact ⟨m', .rest (hhalted ▸ halted), same⟩
  | skip running unknown lenient =>
    refine ⟨_, .skip (hhalted ▸ running) (hdecode ▸ unknown) (same.policy ▸ lenient), ?_⟩
    exact ⟨same.word, same.registers, same.stack, congrArg (· + 1) same.pc, same.policy,
      congrArg (· + 1) same.skipped⟩
  | @perform i e _ running decoded performs =>
    have haction := same.action_eq (unread_of_reads unread decoded)
    refine ⟨_, .perform (hhalted ▸ running) (hdecode ▸ decoded) (performs.congr haction), ?_⟩
    rw [next, next, same.pc]
    exact same.apply _ e

theorem Fails.sameBut {f : Fault} (h : m.Fails d f d') (same : m.SameBut D m')
    (unread : ∀ a, m.Reads a → ¬D a) : m'.Fails d f d' := by
  have hfetch := fun a ha => unread a (.fetch ha)
  have hdecode := same.decode_eq hfetch
  have hhalted := same.isHalted_eq
  cases h with
  | decode running refused strict =>
    rw [same.pc, same.opcode?_eq hfetch]
    exact .decode (hhalted ▸ running) (hdecode ▸ refused) fun w hw => same.policy ▸ strict w hw
  | action running decoded refused =>
    have haction := same.action_eq (unread_of_reads unread decoded)
    rw [same.pc]
    exact .action (hhalted ▸ running) (hdecode ▸ decoded) (haction ▸ refused)
  | output running decoded action failed =>
    have haction := same.action_eq (unread_of_reads unread decoded)
    rw [same.pc]
    exact .output (hhalted ▸ running) (hdecode ▸ decoded) (haction ▸ action) failed
  | input running decoded action failed =>
    have haction := same.action_eq (unread_of_reads unread decoded)
    rw [same.pc]
    exact .input (hhalted ▸ running) (hdecode ▸ decoded) (haction ▸ action) failed
  | exhausted running decoded action nothing =>
    have haction := same.action_eq (unread_of_reads unread decoded)
    rw [same.pc]
    exact .exhausted (hhalted ▸ running) (hdecode ▸ decoded) (haction ▸ action) nothing

end Machine

/-- Rigs with machines that differ at most in memory, at addresses in `D`, and with one device. -/
structure Rig.SameBut {δ : Type} (D : Address → Prop) (r s : Rig δ) : Prop where
  machine : r.machine.SameBut D s.machine
  device : r.device = s.device

namespace Rig.SameBut

variable {δ : Type} [Device δ] {D : Address → Prop} {r s : Rig δ}

/-- **A step that reads none of the addresses** does the same with either machine. -/
theorem step (h : r.SameBut D s) (unread : ∀ a, r.machine.Reads a → ¬D a) :
    r.answer = s.answer ∧ r.step.SameBut D s.step := by
  obtain ⟨m, d⟩ := r
  obtain ⟨m', e⟩ := s
  obtain rfl : d = e := h.device
  rcases Machine.advances_or_fails m d with ⟨n, d', hr⟩ | ⟨f, d', hr⟩
  · obtain ⟨n', hs, hsame⟩ := hr.sameBut h.machine unread
    rw [(step_of_advances hr).1, (step_of_advances hr).2, (step_of_advances hs).1,
      (step_of_advances hs).2, Machine.status, Machine.status, hsame.isHalted_eq]
    exact ⟨rfl, hsame, rfl⟩
  · have hs := hr.sameBut h.machine unread
    rw [(step_of_fails hr).1, (step_of_fails hr).2, (step_of_fails hs).1, (step_of_fails hs).2]
    exact ⟨rfl, h.machine, rfl⟩

theorem after (h : r.SameBut D s) {n : Nat}
    (unread : ∀ k < n, ∀ a, (r.after k).machine.Reads a → ¬D a) :
    (r.after n).SameBut D (s.after n) := by
  induction n with
  | zero => exact h
  | succ n ih =>
    have hn := ih fun k hk => unread k (Nat.lt_succ_of_lt hk)
    exact (hn.step (unread n (Nat.lt_succ_self n))).2

end Rig.SameBut

/-- **Memory that is never read never matters.** Let two machines differ at most in memory, at
addresses in `D`. If the first steps of one of them read no address in `D`, neither for an
instruction nor by an `rmem`, then the first steps of both answer the same and make the same calls
of the device, and after each of them the machines still differ at most in memory, at addresses in
`D`, whatever was written. -/
theorem unread_memory_never_matters {δ : Type} [Device δ] (D : Address → Prop) (m m' : Machine)
    (same : m.SameBut D m') (d : δ) (n : Nat) :
    let r : Rig (Watched δ) := ⟨m, ⟨d, []⟩⟩
    let s : Rig (Watched δ) := ⟨m', ⟨d, []⟩⟩
    (∀ k < n, ∀ a, (r.after k).machine.Reads a → ¬D a) →
      (∀ k < n, (r.after k).answer = (s.after k).answer) ∧
      ∀ k ≤ n, (r.after k).machine.SameBut D (s.after k).machine ∧
        (r.after k).device = (s.after k).device := by
  intro r s unread
  have hsame : r.SameBut D s := ⟨same, rfl⟩
  have hafter : ∀ k ≤ n, (r.after k).SameBut D (s.after k) := by
    intro k hk
    exact hsame.after fun j hj => unread j (Nat.lt_of_lt_of_le hj hk)
  refine ⟨?_, ?_⟩
  · intro k hk
    exact ((hafter k (Nat.le_of_lt hk)).step (unread k hk)).1
  · intro k hk
    exact ⟨(hafter k hk).machine, (hafter k hk).device⟩

/-- A word behind the program is written before it was ever read. -/
theorem unread_memory_never_matters_write :
    let D : Address → Prop := fun a => a.word = 4
    let m := Machine.loaded .fault #[16, 4, 7, 0, 1]
    let m' := Machine.loaded .fault #[16, 4, 7, 0, 2]
    let r : Rig (Watched NullDevice) := ⟨m, ⟨.mk, []⟩⟩
    let s : Rig (Watched NullDevice) := ⟨m', ⟨.mk, []⟩⟩
    m.SameBut D m' ∧ (∀ a, m.Reads a → ¬D a) ∧ r.answer = s.answer ∧
      r.step.machine.SameBut D s.step.machine ∧ r.step.device = s.step.device := by
  -- of the first machine only the instruction matters, and of the other that it is the same
  have hwrite : ∀ (D : Address → Prop) (m m' : Machine) (a b : Operand), (∀ a, D a → a.word = 4) →
      m.pc = 0 → m.decode 0 = .ok (.wmem a b) → m.SameBut D m' →
      let r : Rig (Watched NullDevice) := ⟨m, ⟨.mk, []⟩⟩
      let s : Rig (Watched NullDevice) := ⟨m', ⟨.mk, []⟩⟩
      m.SameBut D m' ∧ (∀ a, m.Reads a → ¬D a) ∧ r.answer = s.answer ∧
        r.step.machine.SameBut D s.step.machine ∧ r.step.device = s.step.device := by
    intro D m m' a b hD hm decoded same r s
    rw [← hm] at decoded
    have unread : ∀ a, m.Reads a → ¬D a := by
      intro a ha hDa
      have hword := hD a hDa
      cases ha with
      | fetch fetched =>
        cases fetched with
        | opcode here =>
          rw [hword, hm] at here
          cases here
        | @operand o k opcode inside there =>
          cases opcode.symm.trans (Machine.opcode?_of_decode decoded)
          rw [hword, hm] at there
          change 4 = 0 + 1 + k at there
          change k < 2 at inside
          omega
      | rmem decoded' => cases decoded.symm.trans decoded'
    have unread' : ∀ k < 1, ∀ a, (r.after k).machine.Reads a → ¬D a := by
      intro k hk
      cases Nat.lt_one_iff.1 hk
      exact unread
    obtain ⟨hanswer, hafter⟩ := unread_memory_never_matters D m m' same NullDevice.mk 1 unread'
    exact ⟨same, unread, hanswer 0 Nat.zero_lt_one, hafter 1 (Nat.le_refl 1)⟩
  intro D m m' r s
  refine hwrite D m m' (.literal ⟨4, by decide⟩) (.literal ⟨7, by decide⟩) (fun _ h => h) rfl
    (Machine.decode_loaded (by decide) rfl) (Machine.SameBut.loaded ?_)
  intro a outside
  have hne : a.word.toNat ≠ 4 := fun h => outside (UInt16.toNat_inj.1 h)
  match a.word.toNat, hne with
  | 0, _ | 1, _ | 2, _ | 3, _ => rfl
  | _ + 5, _ => rfl

end WordMachine
