import WordMachine.Instruction.Basic
import WordMachine.Text.Quoted

/-!
# The log

What happens is reported as records. A record says what happened, and from that follow its level,
the part of the program that it comes from, and its text. A `Filter` chooses the records that are
shown: those up to a level, and on request all that come from the machine.
-/

namespace WordMachine

/-- How serious a record is, the most serious first. -/
inductive Level
  | error | warn | info | debug | trace
  deriving DecidableEq, Repr

namespace Level

/-- A level's place in the order, the most serious first. -/
def rank : Level → Nat
  | error => 0
  | warn => 1
  | info => 2
  | debug => 3
  | trace => 4

/-- The name of a level. -/
def name : Level → String
  | error => "ERROR"
  | warn => "WARN"
  | info => "INFO"
  | debug => "DEBUG"
  | trace => "TRACE"

/-- The level that is shown up to, by its name; `off` shows no level. -/
def limitOf? (name : String) : Option (Option Level) :=
  if name = "off" then some none
  else if name = "error" then some (some error)
  else if name = "warn" then some (some warn)
  else if name = "info" then some (some info)
  else if name = "debug" then some (some debug)
  else if name = "trace" then some (some trace)
  else none

end Level

/-- The part of the program that a record comes from. -/
inductive Origin
  | machine | console | command
  deriving DecidableEq, Repr

/-- The machine as it is just before an instruction. -/
structure Trace where
  pc : Word
  instruction : Instruction
  registers : Vector Word registerCount
  depth : Nat
  top : Option Word
  deriving DecidableEq, Repr

/-- The top of a stack as a trace shows it. -/
def Trace.topText : Option Word → String
  | none => "None"
  | some w => s!"Some({w})"

/-- A trace as one line: address and instruction in columns, then registers and stack. -/
def Trace.text (t : Trace) : String :=
  let registers := ", ".intercalate (t.registers.toList.map toString)
  Text.alignRight 5 (toString t.pc) ++ ": " ++ Text.alignLeft 24 t.instruction.text ++
    " reg: [" ++ registers ++ "] stack: " ++ toString t.depth ++ " " ++ topText t.top

/-- What the log reports. -/
inductive Record
  /-- An instruction is about to be executed. -/
  | trace (t : Trace)
  /-- The machine skips a word that is no opcode. -/
  | unknownOpcode (word address : Word)
  /-- The machine returns with an empty stack, which halts it. -/
  | emptyReturn
  | halted
  /-- The console got scripted input. -/
  | scriptQueued (bytes : Nat)
  /-- The console handed out the last byte of its scripted input. -/
  | scriptFinished
  | loaded (words : Nat) (path : String)
  /-- So many words were skipped during a run. -/
  | skipped (count : Nat)
  /-- A run came to its end. -/
  | finished
  deriving DecidableEq, Repr

namespace Record

/-- The level of a record. -/
def level : Record → Level
  | trace _ => .trace
  | unknownOpcode .. | skipped _ => .warn
  | emptyReturn | halted | scriptQueued _ | scriptFinished => .debug
  | loaded .. | finished => .info

/-- Where a record comes from. -/
def origin : Record → Origin
  | trace _ | unknownOpcode .. | emptyReturn | halted => .machine
  | scriptQueued _ | scriptFinished => .console
  | loaded .. | skipped _ | finished => .command

/-- The text of a record. -/
def message : Record → String
  | trace t => t.text
  | unknownOpcode word address => s!"unknown opcode {word} at {address}, skipping"
  | emptyReturn => "return with an empty stack"
  | halted => "halted"
  | scriptQueued bytes => s!"queued {bytes} bytes of scripted input"
  | scriptFinished => "scripted input finished"
  | loaded words path => s!"loaded {words} words from {Text.quote path}"
  | skipped count => s!"skipped {count} unknown opcodes"
  | finished => "halted after"

/-- A record as a line, its level in front. -/
def line (r : Record) : String := r.level.name ++ " " ++ r.message

end Record

/-- Which records are shown. -/
structure Filter where
  /-- The least serious level that is shown; without one, no record is shown for its level. -/
  upTo : Option Level
  /-- Whether every record of the machine is shown. -/
  machine : Bool
  deriving DecidableEq, Repr

namespace Filter

/-- Whether a record is shown. -/
def shows (f : Filter) (r : Record) : Bool :=
  f.upTo.any (r.level.rank ≤ ·.rank) || (f.machine && r.origin = .machine)

end Filter

end WordMachine
