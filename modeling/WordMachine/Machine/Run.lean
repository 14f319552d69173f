import WordMachine.Machine.Step

/-!
# Runs

A run makes steps until the machine halts or faults (`run`), or until it is stopped (`runUntil`):
after each step that leaves the machine running, a condition on the machine and the number of steps is
tried. Programs need not end, so a run is given how many steps it may make (`fuel`), and if they do
not suffice it ends `unfinished`. Of the records of its steps a run keeps those that it is asked to
keep. A run without a condition goes like one with a condition that never holds (`run_eq_runUntil`).
-/

namespace WordMachine

/-- How a run ends. -/
inductive Outcome
  | halted
  /-- The condition for stopping held. -/
  | stopped
  | faulted (fault : Fault)
  /-- The fuel was used up. -/
  | unfinished
  deriving DecidableEq, Repr

/-- What a run leads to. -/
structure Run (δ : Type) where
  outcome : Outcome
  /-- How many steps left the machine running; after each, the condition for stopping was tried, if
  there is one. -/
  tries : Nat
  machine : Machine
  device : δ
  /-- The records kept, in order. -/
  log : Array Record

namespace Machine

variable {δ : Type} [Device δ]

/-- Continues a run in which the condition was tried `tries` times and `log` was kept. -/
def runFrom (keep : Record → Bool) (stop : Machine → Nat → Bool) :
    (fuel : Nat) → (tries : Nat) → (log : Array Record) → Machine → δ → Run δ
  | 0, tries, log, m, device => ⟨.unfinished, tries, m, device, log⟩
  | fuel + 1, tries, log, m, device =>
    match m.step device with
    | ⟨.error fault, m, device, records⟩ =>
      ⟨.faulted fault, tries, m, device, log.appendList (records.filter keep)⟩
    | ⟨.ok .halted, m, device, records⟩ =>
      ⟨.halted, tries, m, device, log.appendList (records.filter keep)⟩
    | ⟨.ok .running, m, device, records⟩ =>
      let log := log.appendList (records.filter keep)
      if stop m (tries + 1) then ⟨.stopped, tries + 1, m, device, log⟩
      else runFrom keep stop fuel (tries + 1) log m device

/-- Runs the machine until it halts, faults or is stopped. -/
def runUntil (keep : Record → Bool) (stop : Machine → Nat → Bool) (fuel : Nat) (m : Machine)
    (device : δ) : Run δ :=
  m.runFrom keep stop fuel 0 #[] device

/-- Continues a run without a condition, in which `tries` steps left the machine running and `log`
was kept. -/
def goOn (keep : Record → Bool) :
    (fuel : Nat) → (tries : Nat) → (log : Array Record) → Machine → δ → Run δ
  | 0, tries, log, m, device => ⟨.unfinished, tries, m, device, log⟩
  | fuel + 1, tries, log, m, device =>
    match m.step device with
    | ⟨.error fault, m, device, records⟩ =>
      ⟨.faulted fault, tries, m, device, log.appendList (records.filter keep)⟩
    | ⟨.ok .halted, m, device, records⟩ =>
      ⟨.halted, tries, m, device, log.appendList (records.filter keep)⟩
    | ⟨.ok .running, m, device, records⟩ =>
      goOn keep fuel (tries + 1) (log.appendList (records.filter keep)) m device

/-- Runs the machine until it halts or faults. -/
def run (keep : Record → Bool) (fuel : Nat) (m : Machine) (device : δ) : Run δ :=
  m.goOn keep fuel 0 #[] device

/-! ### Runs without a condition -/

theorem goOn_eq_runFrom (keep : Record → Bool) (fuel tries : Nat) (log : Array Record) (m : Machine)
    (device : δ) :
    m.goOn keep fuel tries log device = m.runFrom keep (fun _ _ => false) fuel tries log device := by
  induction fuel generalizing tries log m device with
  | zero => rfl
  | succ fuel ih =>
    rw [goOn, runFrom]
    rcases m.step device with ⟨result, m', device', records⟩
    cases result with
    | error f => rfl
    | ok status =>
      cases status with
      | halted => rfl
      | running => exact ih (tries + 1) _ m' device'

/-- **A run without a condition** goes like one with a condition that never holds. -/
theorem run_eq_runUntil (keep : Record → Bool) (fuel : Nat) (m : Machine) (device : δ) :
    m.run keep fuel device = m.runUntil keep (fun _ _ => false) fuel device :=
  goOn_eq_runFrom keep fuel 0 #[] m device

end Machine

end WordMachine
