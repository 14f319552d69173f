import WordMachine.CommandLine.Interaction

/-!
# The program

The command line in the world: files, standard input and output, and the log on standard error. A
program that runs is talked to: it is run in turns and gets standard input as it arrives.
-/

namespace WordMachine.CommandLine

/-- What is written about arguments that are refused. -/
def usage : String :=
  "usage: run ROM [--debug] [--strict] [--unknown-opcode skip|fault] [--script FILE]\n" ++
  "       dis ROM\n" ++
  "       dump ROM [--width N] [--text]"

/-- Whether an error code, which may come negated, is the given one. -/
def isCode (expected code : UInt32) : Bool := code == expected || code == -expected

/-- Reads a file. -/
def readFile (path : String) : IO (Except ReadError Content) := do
  try return .ok (.bytes (← IO.FS.readBinFile path).data)
  catch e =>
    return .error <| match e with
      | .noFileOrDirectory .. => .notFound
      | .noSuchThing .. => .noDevice
      | .inappropriateType _ code _ => if isCode 20 code then .notADirectory else .isADirectory
      | .invalidArgument _ code _ =>
        if isCode 36 code then .nameTooLong
        else if isCode 40 code then .tooManyLinks
        else .other (toString e)
      | _ => .other (toString e)

/-- Shows a record, and with the last one the time since the start. -/
def showRecord (start : Nat) (r : Record) : IO Unit := do
  let stderr ← IO.getStderr
  if r = .finished then
    stderr.putStrLn s!"[{r.level.name}] {r.message} {(← IO.monoMsNow) - start}ms"
  else stderr.putStrLn s!"[{r.level.name}] {r.message}"

/-- Writes bytes to standard output. -/
def writeOut (bytes : Array UInt8) : IO Unit := do
  let stdout ← IO.getStdout
  unless bytes.isEmpty do
    stdout.write ⟨bytes⟩
    stdout.flush

/-- Carries a report out and answers the exit code. -/
def carryOut (start : Nat) (r : Report) : IO UInt32 := do
  r.log.forM (showRecord start)
  writeOut r.stdout
  if let some f := r.failure then
    (← IO.getStderr).putStrLn (if f = .arguments then usage else f.message)
  return .ofNat r.exitCode

/-- Runs a program turn by turn and answers the exit code. -/
partial def converse (start : Nat) (filter : Filter) (i : Interaction) : IO UInt32 := do
  let turn := i.turn filter 1000
  turn.log.forM (showRecord start)
  writeOut turn.stdout
  match turn.next with
  | .goOn rest => converse start filter rest
  | .ask rest => converse start filter (rest.give (← (← IO.getStdin).read 4096).data.toList)
  | .done failure => carryOut start ⟨#[], [], failure⟩

/-- Does what the arguments ask for. -/
def perform (args : List String) : IO UInt32 := do
  let start ← IO.monoMsNow
  let files := ((Command.ofList? args).map Command.files).getD []
  let contents ← files.mapM fun path => return (path, ← readFile path)
  let limit := ((← IO.getEnv "SYNACOR_LOG").bind Level.limitOf?).getD (some .info)
  let env : Environment := {
    read := fun path => (contents.lookup path).getD (.error .notFound)
    stdin := []
    level := limit }
  match Command.ofList? args with
  | some (.run options) =>
    match startRun env options with
    | .error report => carryOut start report
    | .ok ready =>
      ready.log.forM (showRecord start)
      converse start (options.filter limit) ⟨ready.machine, ready.console, false⟩
  | _ => carryOut start ((report 0 env args).getD (.failed [] .arguments))

end WordMachine.CommandLine

/-- The program. -/
def main (args : List String) : IO UInt32 := WordMachine.CommandLine.perform args
