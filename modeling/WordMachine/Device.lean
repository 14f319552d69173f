import WordMachine.Log

/-!
# Devices

A device is what the machine reads from and writes to. It takes words one at a time and gives words
one at a time, and either may fail. Each call answers with the device as it is afterwards, also if
the call failed, and with what the device has to report.
-/

namespace WordMachine

/-- A device's answer to a call. -/
structure Reply (δ α : Type) where
  /-- What the call gives, or why it failed. -/
  result : Except DeviceError α
  device : δ
  log : List Record := []

/-- A source and a sink of words. -/
class Device (δ : Type) where
  output : δ → Word → Reply δ Unit
  /-- Asks for a word; the answer `none` says that there will be no more. -/
  input : δ → Reply δ (Option Word)

/-- The device that is not there: it takes every word and gives none. -/
structure NullDevice where
  deriving DecidableEq, Repr

instance : Device NullDevice where
  output d _ := ⟨.ok (), d, []⟩
  input d := ⟨.ok none, d, []⟩

/-! ### The recorder -/

/-- What a recorder answers to a call for input. -/
inductive Recorder.Supply
  | word (w : Word)
  /-- That there is no word. -/
  | nothing
  | failure (message : String)
  deriving DecidableEq, Repr

/-- A device with prepared input that notes its output. -/
structure Recorder where
  /-- The answers to the calls for input that are still to come. -/
  supplies : List Recorder.Supply := []
  /-- How many words can be noted in all; any number if there is no limit. -/
  room : Option Nat := none
  recorded : Array Word := #[]
  deriving DecidableEq, Repr, Inhabited

namespace Recorder

/-- Whether a recorder can note another word. -/
def hasRoom (r : Recorder) : Bool := r.room.all (r.recorded.size < ·)

/-- Notes a word. -/
def output (r : Recorder) (w : Word) : Reply Recorder Unit :=
  if r.hasRoom then ⟨.ok (), { r with recorded := r.recorded.push w }, []⟩
  else ⟨.error .deviceFull, r, []⟩

/-- Hands out the next supply. -/
def input (r : Recorder) : Reply Recorder (Option Word) :=
  match r.supplies with
  | [] => ⟨.ok none, r, []⟩
  | s :: rest =>
    let result := match s with
      | .word w => .ok (some w)
      | .nothing => .ok none
      | .failure message => .error (.other message)
    ⟨result, { r with supplies := rest }, []⟩

instance : Device Recorder where
  output := output
  input := input

end Recorder

end WordMachine
