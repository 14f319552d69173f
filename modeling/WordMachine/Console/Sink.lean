import WordMachine.Error

/-!
# Sinks

A sink takes bytes and can be flushed. It may have room for only so many bytes, and may allow only
so many flushes. A write for which there is no room puts as much into the sink as fits and then
fails.
-/

namespace WordMachine

/-- Where bytes go. -/
structure Sink where
  bytes : Array UInt8 := #[]
  /-- How many bytes can be taken in all; any number if there is no limit. -/
  room : Option Nat := none
  flushes : Nat := 0
  /-- How many times the sink can be flushed in all; any number of times if there is no limit. -/
  flushRoom : Option Nat := none
  deriving DecidableEq, Repr, Inhabited

namespace Sink

/-- How many of `n` further bytes find room. -/
def fitting (s : Sink) (n : Nat) : Nat :=
  match s.room with
  | none => n
  | some room => min n (room - s.bytes.size)

/-- Writes bytes. -/
def write (s : Sink) (bytes : List UInt8) : Except DeviceError Unit × Sink :=
  let fits := s.fitting bytes.length
  (if fits = bytes.length then .ok () else .error .sinkFull,
    { s with bytes := s.bytes.appendList (bytes.take fits) })

/-- Flushes the sink. -/
def flush (s : Sink) : Except DeviceError Unit × Sink :=
  if s.flushRoom.all (s.flushes < ·) then (.ok (), { s with flushes := s.flushes + 1 })
  else (.error .flushFailed, s)

/-- Writes bytes and, if that succeeds, flushes. -/
def writeThrough (s : Sink) (bytes : List UInt8) : Except DeviceError Unit × Sink :=
  match s.write bytes with
  | (.ok (), s) => s.flush
  | (.error e, s) => (.error e, s)

end Sink

end WordMachine
