import WordMachine.CommandLine.Report

/-!
# Programs that are talked to

Someone who talks to a program wants to see what it puts out before it ends, and gives it input when
it asks. So the program is run in turns. A turn makes so many steps at most and passes on what was
written and what is to be shown (`Interaction.turn`); if the program waits for input, it is given some
before the next turn (`Interaction.give`). `Interaction.report` is the report of all turns together.
-/

namespace WordMachine.CommandLine

/-- A program between two turns. -/
structure Interaction where
  machine : Machine
  /-- The console, with the input that has come and was not read yet. What was written is not on it
  any more. -/
  console : Console
  /-- Whether there is no more input to come. -/
  closed : Bool := false

/-- What there is to do after a turn. -/
inductive Next
  | goOn (i : Interaction)
  /-- The program waits for input. -/
  | ask (i : Interaction)
  | done (failure : Option Failure)

/-- What a turn leads to. -/
structure Turn where
  stdout : Array UInt8
  /-- The records that it shows, in order. -/
  log : List Record
  next : Next

/-- Whether a run has ended for want of input. -/
def wantsInput : Outcome → Bool
  | .faulted ⟨_, _, .inputExhausted⟩ => true
  | _ => false

/-- The records of a turn in which the program came to wait. The instruction that waits is made again
when there is input, and is traced then. -/
def beforeWaiting (log : List Record) : List Record :=
  match log.getLast? with
  | some (.trace _) => log.dropLast
  | _ => log

/-- A report with what was written and shown before it in front. -/
def Report.behind (r : Report) (stdout : Array UInt8) (log : List Record) : Report :=
  { r with stdout := stdout ++ r.stdout, log := log ++ r.log }

namespace Interaction

/-- Makes a turn. -/
def turn (filter : Filter) (steps : Nat) (i : Interaction) : Turn :=
  let run := i.machine.run filter.shows steps i.console
  let bytes := run.device.sink.bytes
  let rest : Interaction := ⟨run.machine, { run.device with sink.bytes := #[] }, i.closed⟩
  if run.outcome = .unfinished then ⟨bytes, run.log.toList, .goOn rest⟩
  else if wantsInput run.outcome && !i.closed then
    ⟨bytes, beforeWaiting run.log.toList, .ask rest⟩
  else
    let last := conclude filter run.outcome run.machine run.device
    ⟨last.stdout, run.log.toList ++ last.log, .done last.failure⟩

/-- Gives the program input, of which there is no more to come if it is empty. -/
def give (i : Interaction) (bytes : List UInt8) : Interaction :=
  { i with console.source := bytes, closed := bytes.isEmpty }

/-- The report of at most the given number of turns, unless they do not suffice. When the program
waits for input, it is given the next of the chunks, and when there are none left, nothing. -/
def report (filter : Filter) (steps : Nat) :
    (turns : Nat) → (chunks : List (List UInt8)) → Interaction → Option Report
  | 0, _, _ => none
  | turns + 1, chunks, i =>
    let turn := i.turn filter steps
    match turn.next with
    | .goOn rest =>
      (rest.report filter steps turns chunks).map (·.behind turn.stdout turn.log)
    | .ask rest =>
      ((rest.give (chunks.headD [])).report filter steps turns chunks.tail).map
        (·.behind turn.stdout turn.log)
    | .done failure => some ⟨turn.stdout, turn.log, failure⟩

end Interaction

end WordMachine.CommandLine
