import WordMachine.Console.Basic
import WordMachine.Proofs.Arith
import WordMachine.Proofs.Calls
import WordMachine.Proofs.Image

/-!
# Words stay in range

A program has no word above `maxOperand`. Words flow between memory, registers and stack, and
programs write over themselves, but no word above that bound ever comes up: sums and products are
reduced, a remainder is no larger than what is divided, and the largest address that a call pushes is
that of the first word behind memory.

* `Machine.InRange` — the invariant, for memory, registers and stack at once;
* `Effect.words`, `Action.words` — the words that an instruction moves, all of them in range;
* `Advances.inRange` — a step keeps the invariant;
* `words_stay_in_range` — so does a whole session, with what follows for faults, images and output.
-/

namespace WordMachine

/-- **The range invariant**: every word that the machine holds may stand in a program. -/
structure Machine.InRange (m : Machine) : Prop where
  memory : ∀ w ∈ m.memory, w.toNat ≤ maxOperand
  registers : ∀ w ∈ m.registers, w.toNat ≤ maxOperand
  stack : ∀ w ∈ m.stack.toList, w.toNat ≤ maxOperand

/-- The words of input that a device can give, now and after any calls, are in range. -/
def Device.InputsInRange {δ : Type} [Device δ] (d : δ) : Prop :=
  ∀ d' w, Device.Leads d d' → (Device.input d').result = .ok (some w) → w.toNat ≤ maxOperand

/-- The words that an effect puts somewhere, the return address of a call apart. -/
def Effect.words : Effect → List Word
  | .store _ value | .write _ value | .push value | .pop _ value => [value]
  | .next | .jump _ | .call _ | .ret _ | .halt _ => []

/-- The words that an instruction moves. -/
def Action.words : Action → List Word
  | .effect e => e.words
  | .output value => [value]
  | .input _ => []

/-! ### Devices -/

namespace Device

variable {δ ε : Type} [Device δ] [Device ε] {R : δ → ε → Prop} {d d' : δ} {e : ε}

theorem Leads.trans {d₁ d₂ d₃ : δ} (h : Leads d₁ d₂) (h' : Leads d₂ d₃) : Leads d₁ d₃ := by
  induction h' with
  | refl => exact h
  | output w _ ih => exact ih.output w
  | input _ ih => exact ih.input

theorem InputsInRange.leads (h : InputsInRange d) (hd : Leads d d') : InputsInRange d' :=
  fun d'' w hd'' hw => h d'' w (hd.trans hd'') hw

theorem Leads.alike (hR : Alike R) (h : Leads d d') (hd : R d e) : ∃ e', Leads e e' ∧ R d' e' := by
  induction h with
  | refl => exact ⟨e, .refl, hd⟩
  | output w _ ih =>
    obtain ⟨e', he, hd'⟩ := ih
    exact ⟨_, he.output w, (hR.output hd' w).2⟩
  | input _ ih =>
    obtain ⟨e', he, hd'⟩ := ih
    exact ⟨_, he.input, (hR.input hd').2⟩

theorem InputsInRange.alike (hR : Alike R) (hd : R d e) (h : InputsInRange e) :
    InputsInRange d := by
  intro d' w hd' hw
  obtain ⟨e', he, hde⟩ := hd'.alike hR hd
  exact h e' w he ((hR.input hde).1 ▸ hw)

end Device

/-- The console reads bytes. -/
theorem Console.inputsInRange (c : Console) : Device.InputsInRange c := by
  have byte (b : UInt8) : b.toUInt16.toNat ≤ maxOperand := by
    rw [UInt8.toNat_toUInt16]
    exact Nat.le_trans (Nat.le_of_lt b.toNat_lt) (by decide)
  intro c' w _ hw
  change c'.input.result = _ at hw
  unfold Console.input at hw
  split at hw
  · cases hw
    exact byte _
  · split at hw
    · cases hw
      exact byte _
    · cases hw

/-! ### What a step does to the invariant -/

namespace Machine

variable {m m' : Machine}

namespace InRange

theorem value_le (h : m.InRange) (a : Operand) : (m.value a).toNat ≤ maxOperand := by
  cases a with
  | literal v => exact Nat.le_trans (Nat.le_of_lt v.isLt) (by decide)
  | register r => exact h.registers _ (Vector.getElem_mem _)

theorem top_le (h : m.InRange) {w : Word} (top : m.stack.top? = some w) :
    w.toNat ≤ maxOperand := by
  rw [Stack.top?_eq] at top
  exact h.stack w (List.mem_of_getLast? top)

theorem word_le (h : m.InRange) (a : Address) : (m.word a).toNat ≤ maxOperand :=
  h.memory _ (Vector.getElem_mem _)

theorem setRegister (h : m.InRange) (r : Register) {w : Word} (hw : w.toNat ≤ maxOperand) :
    (m.setRegister r w).InRange where
  memory := h.memory
  registers := by
    intro v (hv : v ∈ m.registers.set r.index w)
    rcases Vector.mem_or_eq_of_mem_set hv with hv | rfl
    · exact h.registers v hv
    · exact hw
  stack := h.stack

theorem setWord (h : m.InRange) (a : Address) {w : Word} (hw : w.toNat ≤ maxOperand) :
    (m.setWord a w).InRange where
  memory := by
    intro v (hv : v ∈ m.memory.set a.word.toNat w a.isLt)
    rcases Vector.mem_or_eq_of_mem_set hv with hv | rfl
    · exact h.memory v hv
    · exact hw
  registers := h.registers
  stack := h.stack

theorem withStack (h : m.InRange) {s : Stack} (hs : ∀ w ∈ s.toList, w.toNat ≤ maxOperand) :
    { m with stack := s }.InRange :=
  ⟨h.memory, h.registers, hs⟩

theorem withPc (h : m.InRange) (pc : Word) : { m with pc := pc }.InRange :=
  ⟨h.memory, h.registers, h.stack⟩

theorem push (h : m.InRange) {w : Word} (hw : w.toNat ≤ maxOperand) :
    ∀ v ∈ (m.stack.push w).toList, v.toNat ≤ maxOperand := by
  intro v hv
  rw [Stack.toList_push, List.mem_append, List.mem_singleton] at hv
  rcases hv with hv | rfl
  · exact h.stack v hv
  · exact hw

theorem drop (h : m.InRange) : ∀ v ∈ m.stack.drop.toList, v.toNat ≤ maxOperand := by
  intro v hv
  rw [Stack.toList_drop] at hv
  exact h.stack v (List.dropLast_subset _ hv)

/-- The words that an instruction moves are in range if the words are that it finds. -/
theorem action_words (h : m.InRange) {i : Instruction} {a : Action} (ha : m.Yields i a) :
    ∀ w ∈ a.words, w.toNat ≤ maxOperand := by
  -- every rule moves one word at most, which comes from one place
  cases ha with
  | set | push | wmem | out => simpa [Action.words, Effect.words] using h.value_le _
  | pop top => simpa [Action.words, Effect.words] using h.top_le top
  | rmem => simpa [Action.words, Effect.words] using h.word_le _
  | @binary op dst a b v result =>
    have ha := h.value_le a
    have hv : v.toNat ≤ maxOperand := by
      rcases BinaryOp.toNat_eval_le result with hlt | hle
      · exact Nat.le_trans (Nat.le_of_lt hlt) (by decide)
      · exact Nat.le_trans hle ha
    simpa [Action.words, Effect.words] using hv
  | @not dst a =>
    have hv : (Arith.not (m.value a)).toNat ≤ maxOperand := by
      rw [Arith.toNat_not]
      simp only [modulus, maxOperand, registerBase, registerCount, memorySize]
      omega
    simpa [Action.words, Effect.words] using hv
  | _ => simp [Action.words, Effect.words]

/-- An effect keeps the invariant if its words are in range, and so is the address of the next
instruction, which a call pushes. -/
theorem apply (h : m.InRange) {next : Word} (hnext : next.toNat ≤ maxOperand) {e : Effect}
    (he : ∀ w ∈ e.words, w.toNat ≤ maxOperand) : (m.apply next e).InRange := by
  cases e with
  | next => exact h.withPc _
  | store dst v => exact (h.setRegister dst (he v (by simp [Effect.words]))).withPc _
  | write a v => exact (h.setWord a (he v (by simp [Effect.words]))).withPc _
  | push v => exact (h.withStack (h.push (he v (by simp [Effect.words])))).withPc _
  | pop dst v =>
    have hr := h.setRegister dst (he v (by simp [Effect.words]))
    exact (hr.withStack h.drop).withPc _
  | jump t => exact h.withPc _
  | call t => exact (h.withStack (h.push hnext)).withPc _
  | ret t => exact (h.withStack h.drop).withPc _
  | halt b => exact h.withPc _

end InRange

variable {δ : Type} [Device δ] {d d' : δ}

/-- **A step keeps the invariant**, if the device gives words in range. -/
theorem Advances.inRange (hm : m.InRange) (hd : Device.InputsInRange d) (h : m.Advances d m' d') :
    m'.InRange := by
  cases h with
  | rest => exact hm
  | skip => exact ⟨hm.memory, hm.registers, hm.stack⟩
  | @perform i e _ running decoded performs =>
    have hnext : (m.next i).toNat ≤ maxOperand := by
      have hle := pc_add_size_le decoded
      rw [toNat_next decoded]
      exact Nat.le_trans hle (by decide)
    apply hm.apply hnext
    cases performs with
    | effect action => exact hm.action_words (action_eq_ok_iff.1 action)
    | output => simp [Effect.words]
    | @input dst w action given => simpa [Effect.words] using hd d w .refl given

theorem step_inRange (hm : m.InRange) (hd : Device.InputsInRange d) :
    (m.step d).machine.InRange := by
  rcases step_cases m d with ⟨m', d', log, h, hs⟩ | ⟨f, d', log, h, hs⟩
  · rw [hs]
    exact h.inRange hm hd
  · rw [hs]
    exact hm

/-! ### What follows for faults -/

theorem InRange.decode_ne_invalidOperand (hm : m.InRange) (pc w : Word) :
    m.decode pc ≠ .error (.invalidOperand w) := by
  intro h
  rcases Instruction.decode_eq_error_iff.1 h with ⟨-, he⟩ | ⟨_, -, ⟨-, he⟩ | ⟨o, -, h⟩⟩
  · cases he
  · cases he
  · rcases h with ⟨-, he⟩ | ⟨-, h⟩
    · cases he
    · obtain ⟨v, hmem, he | ⟨he, hlt⟩⟩ := Instruction.refusal?_eq_some h
      · cases he
      · cases he
        rw [Array.toList_extract, List.extract_eq_take_drop] at hmem
        have hw : w ∈ m.memory.toArray.toList := List.mem_of_mem_drop (List.mem_of_mem_take hmem)
        have hle := hm.memory w (by simpa using hw)
        omega

/-- An address that is refused as too large is a word that the machine holds. -/
theorem InRange.far_address_le (hm : m.InRange) {i : Instruction} {a : Nat}
    (h : m.Refuses i (.addressOutOfRange a)) : memorySize ≤ a ∧ a ≤ maxOperand := by
  cases h with
  | jmp far | jt _ far | jf _ far | rmem far | wmem far | call far => exact ⟨far, hm.value_le _⟩
  | ret top far => exact ⟨far, hm.top_le top⟩

/-- **What faults say about a machine in range**: its operands are all valid, and an address that is
refused is the name of a register. -/
theorem InRange.fault (hm : m.InRange) {f : Fault} (h : (m.step d).result = .error f) :
    (∀ w, f.cause ≠ .invalidOperand w) ∧
      ∀ a, f.cause = .addressOutOfRange a → memorySize ≤ a ∧ a ≤ maxOperand := by
  have hf := fails_of_error h
  generalize (m.step d).device = d' at hf
  cases hf with
  | @decode e running refused strict =>
    refine ⟨fun w he => hm.decode_ne_invalidOperand m.pc w (he ▸ refused), ?_⟩
    rintro a rfl
    -- the program counter of a running machine is an address
    rw [isHalted_eq_false_iff] at running
    rcases Instruction.decode_eq_error_iff.1 refused with ⟨hle, -⟩ | ⟨_, -, ⟨-, he⟩ | ⟨o, -, h⟩⟩
    · rw [Vector.size_toArray] at hle
      omega
    · cases he
    · rcases h with ⟨-, he⟩ | ⟨-, h⟩
      · cases he
      · obtain ⟨v, -, he | ⟨he, -⟩⟩ := Instruction.refusal?_eq_some h
        · cases he
        · cases he
  | @action i e running decoded refused =>
    have hr := action_eq_error_iff.1 refused
    refine ⟨?_, ?_⟩
    · rintro w rfl
      cases hr
    · rintro a rfl
      exact hm.far_address_le hr
  | output | input | exhausted => exact ⟨fun w he => (by cases he), fun a he => (by cases he)⟩

/-! ### What follows for images -/

theorem InRange.validate (hm : m.InRange) : Image.validate m.memory.toArray = .ok () := by
  refine Image.validate_eq_ok_iff.2 ⟨?_, ?_⟩
  · exact Nat.le_of_eq (Vector.size_toArray _)
  · intro w hw
    exact hm.memory w ((Vector.mem_toArray_iff _ _).1 hw)

/-- A program that is loaded makes a machine in range: what is not the program is zero. -/
theorem loaded_inRange (policy : Policy) {program : Array Word}
    (h : Image.validate program = .ok ()) : (loaded policy program).InRange := by
  obtain ⟨-, hwords⟩ := Image.validate_eq_ok_iff.1 h
  refine ⟨?_, ?_, ?_⟩
  · intro w hw
    obtain ⟨i, hi, rfl⟩ := Vector.getElem_of_mem hw
    rw [loaded, Vector.getElem_ofFn, Array.getD_eq_getD_getElem?]
    by_cases hlt : i < program.size
    · rw [Array.getElem?_eq_getElem hlt]
      exact hwords _ (Array.getElem_mem hlt)
    · rw [Array.getElem?_eq_none (Nat.not_lt.1 hlt)]
      exact Nat.zero_le _
  · intro w hw
    rw [Vector.eq_of_mem_replicate hw]
    exact Nat.zero_le _
  · intro w hw
    cases hw

end Machine

/-! ### Sessions -/

namespace Rig

variable {δ : Type} [Device δ] {r : Rig δ}

/-- The invariant of a session: machine and device are in range. -/
def InRange (r : Rig δ) : Prop := r.machine.InRange ∧ Device.InputsInRange r.device

theorem InRange.serve (h : r.InRange) (q : Request) : (r.serve q).InRange := by
  cases q with
  | load program =>
    rw [Rig.serve]
    split
    · next m hm =>
      obtain ⟨hv, rfl⟩ := Machine.load_eq_ok_iff.1 hm
      exact ⟨Machine.loaded_inRange _ hv, h.2⟩
    · exact h
  | setPolicy policy => exact ⟨⟨h.1.memory, h.1.registers, h.1.stack⟩, h.2⟩
  | step => exact ⟨Machine.step_inRange h.1 h.2, h.2.leads r.leads_step⟩

/-- The words that were put out are in range. -/
def OutputsInRange (r : Rig (Watched δ)) : Prop :=
  ∀ v a, .output v a ∈ r.device.calls → v.toNat ≤ maxOperand

theorem OutputsInRange.serve {r : Rig (Watched δ)} (h : r.OutputsInRange) (hr : r.InRange)
    (q : Request) : (r.serve q).OutputsInRange := by
  cases q with
  | load program =>
    rw [Rig.serve]
    split
    · exact h
    · exact h
  | setPolicy policy => exact h
  | step =>
    intro v a hv
    have hv : _ ∈ r.step.device.calls := hv
    rw [calls_step, List.mem_append, Option.mem_toList] at hv
    rcases hv with hv | hv
    · exact h v a hv
    · rcases r.call_cases with ⟨b, hout⟩ | ⟨dst, hinp⟩ | hnone
      · cases hv.symm.trans (call?_of_out hout)
        exact hr.1.value_le b
      · cases hv.symm.trans (call?_of_inp hinp)
      · cases hv.symm.trans hnone

end Rig

theorem toNat_characterOf {w : Word} (hw : w.toNat ≤ maxOperand) :
    (characterOf w).toNat = w.toNat := by
  have hvalid : w.toNat.isValidChar := .inl (Nat.lt_of_le_of_lt hw (by decide))
  rw [characterOf, dif_pos hvalid]
  rfl

/-- **No word above `maxOperand` ever comes up**, from any program that is loaded, against any
device that gives words in range (so does every console), under any changes of policy, and across
any faults. So no operand is ever invalid, memory is always an image again, an address that is refused names a
register, and what is put out is always a character. -/
theorem words_stay_in_range {δ : Type} [Device δ] {m₀ m : Machine} {program : Array Word} {d : δ}
    (hload : m₀.load program = .ok m) (hd : Device.InputsInRange d) (requests : List Request) :
    let r := Rig.session ⟨m, d⟩ requests
    let watched := Rig.session ⟨m, (⟨d, []⟩ : Watched δ)⟩ requests
    r.machine.InRange ∧
      (∀ (ε : Type) [Device ε] (e : ε) f, (r.machine.step e).result = .error f →
        (∀ w, f.cause ≠ .invalidOperand w) ∧
          ∀ a, f.cause = .addressOutOfRange a → memorySize ≤ a ∧ a ≤ maxOperand) ∧
      Image.validate r.machine.memory.toArray = .ok () ∧
      Image.decode (Image.encode r.machine.memory.toArray) = .ok r.machine.memory.toArray ∧
      (watched.machine = r.machine ∧ watched.device.device = r.device ∧
        ∀ v a, .output v a ∈ watched.device.calls →
          v.toNat < 0xD800 ∧ characterOf v ≠ replacementCharacter) ∧
      ∀ c : Console, Device.InputsInRange c := by
  intro r watched
  have hm : m.InRange := by
    obtain ⟨hvalid, rfl⟩ := Machine.load_eq_ok_iff.1 hload
    exact Machine.loaded_inRange _ hvalid
  have hr : r.InRange := Rig.session_induction (fun r q h => h.serve q) ⟨hm, hd⟩ requests
  -- the words of output are in range along with the rest
  have hcalls : watched.OutputsInRange := by
    have hstart : Device.InputsInRange (⟨d, []⟩ : Watched δ) := hd.alike Watched.alike rfl
    have hboth := Rig.session_induction
      (P := fun r : Rig (Watched δ) => r.InRange ∧ r.OutputsInRange)
      (fun r q h => ⟨h.1.serve q, h.2.serve h.1 q⟩)
      (r := ⟨m, ⟨d, []⟩⟩) ⟨⟨hm, hstart⟩, fun v a hv => by cases hv⟩ requests
    exact hboth.2
  obtain ⟨hsame, hdevice⟩ := Rig.session_watched ⟨m, (⟨d, []⟩ : Watched δ)⟩ requests
  refine ⟨hr.1, ?_, hr.1.validate, ?_, ⟨hsame, hdevice, ?_⟩, Console.inputsInRange⟩
  · intro ε _ e f hf
    exact hr.1.fault hf
  · rw [Image.decode_encode, hr.1.validate]
    rfl
  · intro v a hv
    have hle := hcalls v a hv
    refine ⟨Nat.lt_of_le_of_lt hle (by decide), ?_⟩
    intro heq
    have hcode := toNat_characterOf hle
    rw [heq] at hcode
    have hlarge : maxOperand < replacementCharacter.toNat := by decide
    omega

/-- A program that reads a byte, writes it over memory at its own address and puts it out. -/
theorem words_stay_in_range_echo :
    let program : Array Word := #[20, 32768, 16, 32768, 32768, 19, 32768]
    let console : Console := { mode := .interactive, source := [65] }
    ∃ m, (Machine.blank .skip).load program = .ok m ∧ Device.InputsInRange console ∧
      (Rig.session ⟨m, console⟩
        [.step, .setPolicy .fault, .step, .step, .step]).machine.InRange := by
  intro program console
  have hvalid : Image.validate program = .ok () := by
    have hall : program.toList.all (fun w => w.toNat ≤ maxOperand) = true := by decide
    refine Image.validate_eq_ok_iff.2 ⟨by decide, fun w hw => ?_⟩
    exact of_decide_eq_true (List.all_eq_true.1 hall w (Array.mem_toList_iff.2 hw))
  have hload : (Machine.blank .skip).load program = .ok (.loaded .skip program) :=
    Machine.load_eq_ok_iff.2 ⟨hvalid, rfl⟩
  have hconsole := console.inputsInRange
  exact ⟨_, hload, hconsole, (words_stay_in_range hload hconsole _).1⟩

end WordMachine
