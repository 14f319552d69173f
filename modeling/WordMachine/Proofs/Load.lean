import WordMachine.Proofs.Decode

/-!
# Machines with programs

Loading leaves nothing of the machine before but its policy. So a machine that a program was loaded
into can be written down (`Machine.loaded`), and instructions can be read off the program instead of
memory (`decode_loaded`).
-/

namespace WordMachine.Machine

/-- The machine that a program is loaded into, at the start. -/
def loaded (policy : Policy) (program : Array Word) : Machine :=
  { blank policy with memory := .ofFn fun i => program.getD i 0 }

@[simp] theorem loaded_stack (policy : Policy) (program : Array Word) :
    (loaded policy program).stack = .empty := rfl

@[simp] theorem isHalted_loaded (policy : Policy) (program : Array Word) :
    (loaded policy program).isHalted = false := rfl

/-- **Loading erases**: of the machine before, only the policy is left. -/
theorem load_eq (m : Machine) (program : Array Word) :
    m.load program = (Image.validate program).map fun _ => loaded m.policy program := by
  show (Image.validate program >>= fun _ => pure (loaded m.policy program)) = _
  cases Image.validate program with
  | error e => rfl
  | ok u => rfl

theorem load_eq_ok_iff {m m' : Machine} {program : Array Word} :
    m.load program = .ok m' ↔ Image.validate program = .ok () ∧ loaded m.policy program = m' := by
  rw [load_eq]
  cases Image.validate program with
  | error e => simp [Except.map]
  | ok u => simp [Except.map]

/-- In memory the program comes first, and zeros follow it. -/
theorem getElem?_loaded (policy : Policy) (program : Array Word) {a : Nat} (ha : a < memorySize) :
    (loaded policy program).memory.toArray[a]? = some (program.getD a 0) := by
  rw [loaded, Vector.getElem?_toArray, Vector.getElem?_eq_getElem ha, Vector.getElem_ofFn]

theorem word_loaded (policy : Policy) (program : Array Word) (a : Address) :
    (loaded policy program).word a = program.getD a.word.toNat 0 :=
  Vector.getElem_ofFn a.isLt

/-- **Instructions of a program are instructions of the machine** that it is loaded into. -/
theorem decode_loaded {policy : Policy} {program : Array Word} {pc : Word} {i : Instruction}
    (hsize : program.size ≤ memorySize) (h : Instruction.decode program pc.toNat = .ok i) :
    (loaded policy program).decode pc = .ok i := by
  apply Instruction.decode_of_getElem?
  intro k hk
  have hle := Instruction.add_size_le_of_decode h
  rw [getElem?_loaded policy program (by omega), ← Instruction.getElem?_of_decode h hk,
    Array.getD_eq_getD_getElem?, Array.getElem?_eq_getElem (by omega)]
  rfl

end WordMachine.Machine
