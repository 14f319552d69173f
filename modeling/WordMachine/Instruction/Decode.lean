import WordMachine.Instruction.Basic

/-!
# Reading instructions from memory

`decode memory pc` reads the instruction whose opcode word stands at `pc`. It first needs a word
there, then an opcode, then as many further words as the opcode has operands, and then reads the
operands from left to right; the error is that of the first of these that fails.
-/

namespace WordMachine.Instruction

/-! ### Operand words -/

/-- Reads a destination. -/
abbrev dst := Register.ofWord

/-- Reads a source. -/
abbrev src := Operand.ofWord

/-- Reads the words of an instruction without operands. -/
def read0 (i : Instruction) : List Word → Except Error Instruction
  | [] => .ok i
  | _ => .error .truncated

/-- Reads the word of an instruction with one operand. -/
def read1 {α : Type} (first : Word → Except Error α) (make : α → Instruction) :
    List Word → Except Error Instruction
  | [a] => return make (← first a)
  | _ => .error .truncated

/-- Reads the words of an instruction with two operands. -/
def read2 {α β : Type} (first : Word → Except Error α) (second : Word → Except Error β)
    (make : α → β → Instruction) : List Word → Except Error Instruction
  | [a, b] => return make (← first a) (← second b)
  | _ => .error .truncated

/-- Reads the words of an instruction with three operands. -/
def read3 {α β γ : Type} (first : Word → Except Error α) (second : Word → Except Error β)
    (third : Word → Except Error γ) (make : α → β → γ → Instruction) :
    List Word → Except Error Instruction
  | [a, b, c] => return make (← first a) (← second b) (← third c)
  | _ => .error .truncated

/-- The instruction with a given opcode and operand words. -/
def ofWords : Opcode → List Word → Except Error Instruction
  | .halt => read0 halt
  | .set => read2 dst src set
  | .push => read1 src push
  | .pop => read1 dst pop
  | .eq => read3 dst src src (binary .eq)
  | .gt => read3 dst src src (binary .gt)
  | .jmp => read1 src jmp
  | .jt => read2 src src jt
  | .jf => read2 src src jf
  | .add => read3 dst src src (binary .add)
  | .mult => read3 dst src src (binary .mult)
  | .mod => read3 dst src src (binary .mod)
  | .and => read3 dst src src (binary .and)
  | .or => read3 dst src src (binary .or)
  | .not => read2 dst src not
  | .rmem => read2 dst src rmem
  | .wmem => read2 src src wmem
  | .call => read1 src call
  | .ret => read0 ret
  | .out => read1 src out
  | .inp => read1 dst inp
  | .noop => read0 noop

/-- Operand words are read back as the operands that they were written for. -/
theorem ofWords_operands (i : Instruction) :
    ofWords i.opcode (i.operands.map Operand.word) = .ok i := by
  have source (a : Operand) : src a.word = .ok a := a.ofWord_word
  have destination (r : Register) : dst (Operand.register r).word = .ok r := r.ofWord_word
  cases i with
  | binary op d a b =>
    cases op <;> simp only [opcode, BinaryOp.opcode, operands, List.map, ofWords, read3, source,
      destination] <;> rfl
  | _ =>
    simp only [opcode, operands, List.map, ofWords, read0, read1, read2, source, destination] <;> rfl

theorem read1_eq_ok {α : Type} {first : Word → Except Error α} {make : α → Instruction}
    {ws : List Word} {i : Instruction} (h : read1 first make ws = .ok i) :
    ∃ a x, ws = [a] ∧ first a = .ok x ∧ make x = i := by
  unfold read1 at h
  split at h
  · next a =>
    cases ha : first a with
    | error e => simp [ha, bind, Except.bind] at h
    | ok x =>
      simp only [ha, bind, Except.bind, pure, Except.pure, Except.ok.injEq] at h
      exact ⟨a, x, rfl, ha, h⟩
  · cases h

theorem read2_eq_ok {α β : Type} {first : Word → Except Error α} {second : Word → Except Error β}
    {make : α → β → Instruction} {ws : List Word} {i : Instruction}
    (h : read2 first second make ws = .ok i) :
    ∃ a b x y, ws = [a, b] ∧ first a = .ok x ∧ second b = .ok y ∧ make x y = i := by
  unfold read2 at h
  split at h
  · next a b =>
    cases ha : first a with
    | error e => simp [ha, bind, Except.bind] at h
    | ok x =>
      have rest : read1 second (make x) [b] = .ok i := by simpa [read1, ha, bind, Except.bind] using h
      obtain ⟨_, y, hw, hb, hy⟩ := read1_eq_ok rest
      cases hw
      exact ⟨a, b, x, y, rfl, ha, hb, hy⟩
  · cases h

theorem read3_eq_ok {α β γ : Type} {first : Word → Except Error α} {second : Word → Except Error β}
    {third : Word → Except Error γ} {make : α → β → γ → Instruction} {ws : List Word}
    {i : Instruction} (h : read3 first second third make ws = .ok i) :
    ∃ a b c x y z, ws = [a, b, c] ∧ first a = .ok x ∧ second b = .ok y ∧ third c = .ok z ∧
      make x y z = i := by
  unfold read3 at h
  split at h
  · next a b c =>
    cases ha : first a with
    | error e => simp [ha, bind, Except.bind] at h
    | ok x =>
      have rest : read2 second third (make x) [b, c] = .ok i := by
        simpa [read2, ha, bind, Except.bind] using h
      obtain ⟨_, _, y, z, hw, hb, hc, hz⟩ := read2_eq_ok rest
      cases hw
      exact ⟨a, b, c, x, y, z, rfl, ha, hb, hc, hz⟩
  · cases h

/-- Reading an instruction succeeds exactly on the words that it is written as. -/
theorem ofWords_eq_ok_iff {o : Opcode} {ws : List Word} {i : Instruction} :
    ofWords o ws = .ok i ↔ i.opcode = o ∧ i.operands.map Operand.word = ws := by
  constructor
  · intro h
    have noOperands {j : Instruction} (h : read0 j ws = .ok i) : ws = [] ∧ i = j := by
      unfold read0 at h
      split at h <;> simp_all
    have destination {w : Word} {r : Register} (h : dst w = .ok r) :
        (Operand.register r).word = w := Register.ofWord_eq_ok_iff.1 h
    have source {w : Word} {a : Operand} (h : src w = .ok a) : a.word = w :=
      Operand.ofWord_eq_ok_iff.1 h
    cases o <;> simp only [ofWords] at h
    case halt | ret | noop =>
      obtain ⟨rfl, rfl⟩ := noOperands h
      exact ⟨rfl, rfl⟩
    case push | jmp | call | out =>
      obtain ⟨a, x, rfl, ha, rfl⟩ := read1_eq_ok h
      exact ⟨rfl, by simp only [operands, List.map, source ha]⟩
    case pop | inp =>
      obtain ⟨a, x, rfl, ha, rfl⟩ := read1_eq_ok h
      exact ⟨rfl, by simp only [operands, List.map, destination ha]⟩
    case set | not | rmem =>
      obtain ⟨a, b, x, y, rfl, ha, hb, rfl⟩ := read2_eq_ok h
      exact ⟨rfl, by simp only [operands, List.map, destination ha, source hb]⟩
    case jt | jf | wmem =>
      obtain ⟨a, b, x, y, rfl, ha, hb, rfl⟩ := read2_eq_ok h
      exact ⟨rfl, by simp only [operands, List.map, source ha, source hb]⟩
    case eq | gt | add | mult | mod | and | or =>
      obtain ⟨a, b, c, x, y, z, rfl, ha, hb, hc, rfl⟩ := read3_eq_ok h
      exact ⟨rfl, by simp only [operands, List.map, destination ha, source hb, source hc]⟩
  · rintro ⟨rfl, rfl⟩
    exact ofWords_operands i

/-! ### Instructions in memory -/

/-- The instruction at an address of memory. -/
def decode (memory : Array Word) (pc : Nat) : Except Error Instruction :=
  match memory[pc]? with
  | none => .error (.addressOutOfRange pc)
  | some w =>
    match Opcode.ofWord? w with
    | none => .error (.unknownOpcode w)
    | some o => ofWords o (memory.extract (pc + 1) (pc + 1 + o.arity)).toList

end WordMachine.Instruction
