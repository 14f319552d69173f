import WordMachine.Word

/-!
# Errors of the machine and of its device

An error names its cause; `message` is the one place that words it.
-/

namespace WordMachine

/-- Why a device could not do what it was asked. -/
inductive DeviceError
  /-- A sink took only part of what was written to it. -/
  | sinkFull
  | flushFailed
  | deviceFull
  /-- Any other failure, in its own words. -/
  | other (message : String)
  deriving DecidableEq, Repr, Inhabited

/-- The text of a device's error. -/
def DeviceError.message : DeviceError → String
  | .sinkFull => "sink full"
  | .flushFailed => "flush failed"
  | .deviceFull => "device full"
  | .other message => message

/-- Why an instruction cannot be decoded or executed. -/
inductive Error
  /-- A source operand is neither a literal nor the name of a register. -/
  | invalidOperand (word : Word)
  | notARegister (word : Word)
  | addressOutOfRange (address : Nat)
  /-- The operands of an instruction run past the end of memory. -/
  | truncated
  | unknownOpcode (word : Word)
  | stackUnderflow
  | inputExhausted
  | divideByZero
  | device (cause : DeviceError)
  deriving DecidableEq, Repr, Inhabited

/-- The text of an error. -/
def Error.message : Error → String
  | .invalidOperand word => s!"operand {word} is neither a literal nor a register"
  | .notARegister word => s!"operand {word} does not name a register"
  | .addressOutOfRange address => s!"address {address} is outside of memory"
  | .truncated => "instruction is truncated by the end of memory"
  | .unknownOpcode word => s!"unknown opcode {word}"
  | .stackUnderflow => "stack underflow"
  | .inputExhausted => "input exhausted"
  | .divideByZero => "division by zero"
  | .device cause => s!"device error: {cause.message}"

/-- A computation goes on with what its first part gives. -/
@[simp] theorem Except.ok_bind {ε α β : Type} (a : α) (f : α → Except ε β) :
    (Except.ok a >>= f) = f a := rfl

end WordMachine
