import WordMachine.CommandLine.Arguments
import WordMachine.CommandLine.Failure
import WordMachine.Listing.Text
import WordMachine.Machine.Run

/-!
# Reports

What a command does is told by a `Report`: what it writes to standard output, the records that it
shows, and why it failed if it did. `report` gives the report of any arguments in a given
environment. The report of a run is made of three parts, so that a run can also be made bit by bit:
`startRun` makes machine and console ready, the machine runs, and `conclude` ends the run.
-/

namespace WordMachine.CommandLine

/-- What a file holds. -/
inductive Content
  | bytes (bytes : Array UInt8)
  /-- The file is standard input: it holds what is left of it, and reading takes that away. -/
  | standardInput
  deriving DecidableEq, Repr

/-- What surrounds a command. -/
structure Environment where
  /-- What the files hold that can be read. -/
  read : String → Except ReadError Content
  stdin : List UInt8
  /-- The least serious level of the records that are shown; without one, none are. -/
  level : Option Level

/-- Reads a file. The environment changes if the file is standard input, which is then used up. -/
def Environment.readFile (env : Environment) (path : String) :
    Except ReadError (Array UInt8 × Environment) :=
  match env.read path with
  | .error e => .error e
  | .ok (.bytes bytes) => .ok (bytes, env)
  | .ok .standardInput => .ok (env.stdin.toArray, { env with stdin := [] })

/-- What a command leads to. -/
structure Report where
  stdout : Array UInt8
  /-- The records that it shows, in order. -/
  log : List Record
  failure : Option Failure
  deriving DecidableEq, Repr

/-- The exit code of a command. -/
def Report.exitCode (r : Report) : Nat := r.failure.elim 0 Failure.exitCode

/-- The report of a command that fails before it writes anything. -/
def Report.failed (log : List Record) (f : Failure) : Report := ⟨#[], log, some f⟩

/-- Reads a program from a file. -/
def Environment.readProgram (env : Environment) (path : String) :
    Except Failure (Array Word × Environment) := do
  let (image, env) ← (env.readFile path).mapError (.unreadableRom path)
  let program ← (Image.decode image).mapError (.undecodableRom path)
  return (program, env)

/-! ### Showing programs -/

/-- Lines as they are written, each with a line feed behind it. -/
def linesText (lines : List String) : Array UInt8 :=
  (String.join (lines.map (· ++ "\n"))).toUTF8.data

/-- The report of a command that shows the program in a file as lines. -/
def showProgram (env : Environment) (path : String) (lines : Array Word → List String) : Report :=
  match env.readProgram path with
  | .error f => .failed [] f
  | .ok (program, _) =>
    let filter : Filter := ⟨env.level, false⟩
    let log := [Record.loaded program.size path]
    ⟨linesText (lines program), log.filter filter.shows, none⟩

/-- The lines of `dis`. -/
def disLines (program : Array Word) : List String :=
  (Listing.lines program 0).map Line.text

/-- The lines of `dump`. -/
def dumpLines (o : DumpOptions) (program : Array Word) : List String :=
  (Dump.rows o.width program).map (·.render o.style)

/-! ### Running programs -/

/-- The records that a run shows. -/
def RunOptions.filter (o : RunOptions) (level : Option Level) : Filter := ⟨level, o.debug⟩

/-- A program that is ready to run, and what there is to report until then. -/
structure Ready where
  machine : Machine
  /-- The console that the program talks to. -/
  console : Console
  log : List Record

/-- Makes machine and console ready to run a program. -/
def prepare (env : Environment) (o : RunOptions) (program : Array Word) : Except Failure Ready := do
  let machine ← ((Machine.blank o.policy).load program).mapError .refusedProgram
  match o.script with
  | none => return ⟨machine, { mode := o.mode, source := env.stdin }, []⟩
  | some path =>
    let (script, env) ← (env.readFile path).mapError (.unreadableScript path)
    let console : Console := { mode := o.mode, source := env.stdin }
    let (console, queued) := console.queue script.toList
    return ⟨machine, console, queued⟩

/-- Begins a run, or reports why it cannot begin. -/
def startRun (env : Environment) (o : RunOptions) : Except Report Ready :=
  let shown (log : List Record) := log.filter (o.filter env.level).shows
  match env.readProgram o.rom with
  | .error f => .error (.failed [] f)
  | .ok (program, env) =>
    let loaded := Record.loaded program.size o.rom
    match prepare env o program with
    | .error f => .error (.failed (shown [loaded]) f)
    | .ok ready => .ok { ready with log := shown (loaded :: ready.log) }

/-- Ends a run: held back output is written, and the outcome decides what is reported. -/
def conclude (filter : Filter) (outcome : Outcome) (machine : Machine) (console : Console) :
    Report :=
  match console.finish with
  | (.error e, console) => ⟨console.sink.bytes, [], some (.unwritableOutput e)⟩
  | (.ok (), console) =>
    let skipped : List Record := if 0 < machine.skipped then [.skipped machine.skipped] else []
    match outcome with
    | .faulted fault =>
      ⟨console.sink.bytes, skipped.filter filter.shows, some (.program fault)⟩
    | _ => ⟨console.sink.bytes, (skipped ++ [Record.finished]).filter filter.shows, none⟩

/-- The report of a run, unless the fuel is used up. -/
def reportRun (fuel : Nat) (env : Environment) (o : RunOptions) : Option Report :=
  match startRun env o with
  | .error report => some report
  | .ok ready =>
    let filter := o.filter env.level
    let run := ready.machine.run filter.shows fuel ready.console
    if run.outcome = .unfinished then none
    else
      let report := conclude filter run.outcome run.machine run.device
      some { report with log := ready.log ++ run.log.toList ++ report.log }

/-- The report of the command that the arguments ask for, unless the fuel is used up. -/
def report (fuel : Nat) (env : Environment) (args : List String) : Option Report :=
  match Command.ofList? args with
  | none => some (.failed [] .arguments)
  | some (.run options) => reportRun fuel env options
  | some (.dis rom) => some (showProgram env rom disLines)
  | some (.dump options) => some (showProgram env options.rom (dumpLines options))

end WordMachine.CommandLine
