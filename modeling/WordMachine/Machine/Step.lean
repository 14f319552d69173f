import WordMachine.Device
import WordMachine.Machine.Action

/-!
# Single steps

A step executes the instruction at the program counter. It answers whether the machine can go on or
has halted, or with a fault, and gives the machine and the device as they are then, and the records
of what happened. A fault leaves the machine as it was.
-/

namespace WordMachine

/-- How a machine stands after a step. -/
inductive Status
  | running
  | halted
  deriving DecidableEq, Repr

/-- An error together with the instruction that it happened at. -/
structure Fault where
  pc : Word
  opcode : Option Opcode
  cause : Error
  deriving DecidableEq, Repr

namespace Fault

/-- The name of the instruction that failed. -/
def mnemonic (f : Fault) : String := f.opcode.elim "???" Opcode.mnemonic

/-- The text of a fault. -/
def message (f : Fault) : String := s!"{f.cause.message} at pc {f.pc} (`{f.mnemonic}`)"

end Fault

/-- What a step leads to. -/
structure Step (δ : Type) where
  /-- How the machine stands, or why the step failed. -/
  result : Except Fault Status
  machine : Machine
  device : δ
  /-- What happened, in order. -/
  log : List Record

namespace Machine

variable {δ : Type}

/-- The address behind an instruction at the program counter. -/
def next (m : Machine) (i : Instruction) : Word := m.pc + .ofNat i.size

/-- The end of a step that did not fail: the machine halts if it has come past the end of memory. -/
def settle (m : Machine) (device : δ) (log : List Record) : Step δ :=
  if m.isHalted then ⟨.ok .halted, m, device, log ++ [.halted]⟩
  else ⟨.ok .running, m, device, log⟩

/-- The end of a step that failed at an instruction with the given opcode. -/
def fail (m : Machine) (opcode : Option Opcode) (cause : Error) (device : δ) (log : List Record) :
    Step δ :=
  ⟨.error ⟨m.pc, opcode, cause⟩, m, device, log⟩

/-- Executes an instruction. -/
def execute [Device δ] (m : Machine) (i : Instruction) (device : δ) : Step δ :=
  let trace := Record.trace (m.trace i)
  match m.action i with
  | .error e => m.fail i.opcode e device [trace]
  | .ok (.effect e) => (m.apply (m.next i) e).settle device (trace :: e.log)
  | .ok (.output value) =>
    let reply := Device.output device value
    match reply.result with
    | .error e => m.fail i.opcode (.device e) reply.device (trace :: reply.log)
    | .ok () => (m.apply (m.next i) .next).settle reply.device (trace :: reply.log)
  | .ok (.input dst) =>
    let reply : Reply δ (Option Word) := Device.input device
    match reply.result with
    | .error e => m.fail i.opcode (.device e) reply.device (trace :: reply.log)
    | .ok none => m.fail i.opcode .inputExhausted reply.device (trace :: reply.log)
    | .ok (some w) => (m.apply (m.next i) (.store dst w)).settle reply.device (trace :: reply.log)

/-- Skips the word at the program counter, which is no opcode. -/
def skip (m : Machine) (w : Word) (device : δ) : Step δ :=
  let log := [.unknownOpcode w m.pc]
  { m with pc := m.pc + 1, skipped := m.skipped + 1 }.settle device log

/-- Executes the instruction at the program counter, unless the machine has halted. -/
def step [Device δ] (m : Machine) (device : δ) : Step δ :=
  if m.isHalted then ⟨.ok .halted, m, device, []⟩
  else match m.decode m.pc with
    | .ok i => m.execute i device
    | .error (.unknownOpcode w) =>
      match m.policy with
      | .skip => m.skip w device
      | .fault => m.fail m.opcode? (.unknownOpcode w) device []
    | .error e => m.fail m.opcode? e device []

end Machine

end WordMachine
