import WordMachine.Image
import WordMachine.Machine.Step
import WordMachine.Text.Quoted

/-!
# Failures of commands

A failure says what a command could not do and what caused that, the outermost cause first. Its text
has a line for what failed and, if there are causes, one for each of them; several causes are
numbered.
-/

namespace WordMachine.CommandLine

/-- Why a file cannot be read. -/
inductive ReadError
  | notFound
  /-- The file stands for a device that is not there. -/
  | noDevice
  /-- A path goes on behind a file. -/
  | notADirectory
  | isADirectory
  /-- A name or a path is longer than any can be. -/
  | nameTooLong
  /-- A path leads over more links than any may. -/
  | tooManyLinks
  /-- Any other failure, in its own words. -/
  | other (message : String)
  deriving DecidableEq, Repr

/-- The text of a read error. -/
def ReadError.message : ReadError → String
  | .notFound => "No such file or directory (os error 2)"
  | .noDevice => "No such device or address (os error 6)"
  | .notADirectory => "Not a directory (os error 20)"
  | .isADirectory => "Is a directory (os error 21)"
  | .nameTooLong => "File name too long (os error 36)"
  | .tooManyLinks => "Too many levels of symbolic links (os error 40)"
  | .other message => message

/-- Why a command fails. -/
inductive Failure
  | arguments
  | unreadableRom (path : String) (cause : ReadError)
  /-- The file with the program is no image. -/
  | undecodableRom (path : String) (cause : ImageError)
  | refusedProgram (cause : ImageError)
  | unreadableScript (path : String) (cause : ReadError)
  | unwritableOutput (cause : DeviceError)
  | program (fault : Fault)
  deriving DecidableEq, Repr

/-- The errors that a fault comes from, the outermost first. -/
def faultCauses (f : Fault) : List String :=
  f.message :: f.cause.message ::
    match f.cause with
    | .device cause => [cause.message]
    | _ => []

namespace Failure

/-- What could not be done. -/
def headline : Failure → String
  | arguments => "invalid arguments"
  | unreadableRom path _ => s!"failed to read {Text.quote path}"
  | undecodableRom path _ => s!"failed to decode {Text.quote path}"
  | refusedProgram cause => cause.message
  | unreadableScript path _ => s!"failed to read script {Text.quote path}"
  | unwritableOutput _ => "failed to write output"
  | program _ => "program failed"

/-- What caused it. -/
def causes : Failure → List String
  | arguments | refusedProgram _ => []
  | unreadableRom _ cause | unreadableScript _ cause => [cause.message]
  | undecodableRom _ cause => [cause.message]
  | unwritableOutput cause => [cause.message]
  | program fault => faultCauses fault

/-- The exit code of a command that fails. -/
def exitCode : Failure → Nat
  | arguments => 2
  | _ => 1

/-- The lines that list causes. -/
def causeLines : List String → List String
  | [] => []
  | [cause] => ["", "Caused by:", "    " ++ cause]
  | causes => "" :: "Caused by:" :: causes.mapIdx fun i cause => s!"    {i}: {cause}"

/-- The text of a failure. -/
def message (f : Failure) : String :=
  "\n".intercalate (("Error: " ++ f.headline) :: causeLines f.causes)

end Failure

end WordMachine.CommandLine
