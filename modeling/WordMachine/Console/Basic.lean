import WordMachine.Console.Sink
import WordMachine.Device
import WordMachine.Text.Basic

/-!
# The console

The console is the device through which programs talk to people. Words put out are characters, which
go to a sink in UTF-8: each at once, with a flush, in interactive mode, and all together on `finish`
in buffered mode. Words read are bytes: first those that were queued by `script`, then those of the
console's own source.
-/

namespace WordMachine

/-- When the console writes to its sink. -/
inductive Console.Mode
  /-- Every character is written and flushed at once. -/
  | interactive
  /-- Output is held back until the console is finished. -/
  | buffered
  deriving DecidableEq, Repr, Inhabited

/-- A device that writes characters and reads bytes. -/
structure Console where
  mode : Console.Mode
  sink : Sink := {}
  pending : Array UInt8 := #[]
  /-- Scripted input, which is read first. -/
  script : List UInt8 := []
  source : List UInt8 := []
  deriving DecidableEq, Repr, Inhabited

namespace Console

/-- The bytes that a word is put out as. -/
def encode (w : Word) : List UInt8 := String.utf8EncodeChar (characterOf w)

/-- Puts out a character. -/
def output (c : Console) (w : Word) : Reply Console Unit :=
  match c.mode with
  | .interactive =>
    let (result, sink) := c.sink.writeThrough (encode w)
    ⟨result, { c with sink }, []⟩
  | .buffered => ⟨.ok (), { c with pending := c.pending.appendList (encode w) }, []⟩

/-- Reads a byte. -/
def input (c : Console) : Reply Console (Option Word) :=
  match c.script with
  | b :: script =>
    ⟨.ok (some b.toUInt16), { c with script }, if script.isEmpty then [.scriptFinished] else []⟩
  | [] =>
    match c.source with
    | b :: source => ⟨.ok (some b.toUInt16), { c with source }, []⟩
    | [] => ⟨.ok none, c, []⟩

instance : Device Console where
  output := output
  input := input

/-- Queues scripted input behind what is queued already. -/
def queue (c : Console) (bytes : List UInt8) : Console × List Record :=
  ({ c with script := c.script ++ bytes }, [.scriptQueued bytes.length])

/-- Writes the output that is held back, if there is any, and flushes the sink. -/
def finish (c : Console) : Except DeviceError Unit × Console :=
  if c.pending.isEmpty then
    let (result, sink) := c.sink.flush
    (result, { c with sink })
  else
    match c.sink.write c.pending.toList with
    | (.ok (), sink) =>
      let (result, sink) := sink.flush
      (result, { c with sink, pending := #[] })
    | (.error e, sink) => (.error e, { c with sink })

end Console

end WordMachine
