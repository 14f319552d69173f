import WordMachine.Proofs.ConsoleSession
import WordMachine.Proofs.LogText

/-!
# The order of what is read

A console reads from two suppliers. What is queued by scripts comes first, also if it is queued only
when part of the source has been read, or all of it. So the number of bytes read so far does not tell
which one is next; it takes an account of where they came from.

* `Ledger` — such an account: what was queued, and what was read and from where. It is kept from the
  requests alone (`Ledger.enter`).
* `Ledger.next?` — the byte that is due: the first one queued that has not been read, otherwise the
  first one of the source that has not.
* `Balanced` — a ledger agrees with a console if what was read from a supplier and what is left there
  are all that was supplied. `Balanced.serve` shows that every request keeps it so.
-/

namespace WordMachine

namespace Console

/-- Where a byte can come from. -/
inductive Supplier
  | script
  | source
  deriving DecidableEq, Repr

/-- An account of what was queued and what was read. -/
structure Ledger where
  queued : List UInt8 := []
  read : List (Supplier × UInt8) := []
  deriving DecidableEq, Repr

namespace Ledger

/-- The bytes that were read from a supplier. -/
def readFrom (l : Ledger) (s : Supplier) : List UInt8 :=
  l.read.filterMap fun entry => if entry.1 = s then some entry.2 else none

/-- The byte that is due, and from where. -/
def next? (source : List UInt8) (l : Ledger) : Option (Supplier × UInt8) :=
  match l.queued[(l.readFrom .script).length]? with
  | some b => some (.script, b)
  | none => source[(l.readFrom .source).length]?.map (.source, ·)

/-- Enters a request. -/
def enter (source : List UInt8) (l : Ledger) : Request → Ledger
  | .script bytes => { l with queued := l.queued ++ bytes }
  | .input => { l with read := l.read ++ (l.next? source).toList }
  | .output _ | .finish => l

/-- The ledger of a session that starts with nothing queued. -/
def ofSession (source : List UInt8) (requests : List Request) : Ledger :=
  requests.foldl (enter source) {}

variable {source : List UInt8} {l : Ledger}

theorem ofSession_concat (source : List UInt8) (qs : List Request) (q : Request) :
    ofSession source (qs ++ [q]) = (ofSession source qs).enter source q := by
  rw [ofSession, List.foldl_append]
  rfl

theorem queued_enter (source : List UInt8) (l : Ledger) (q : Request) :
    (l.enter source q).queued = l.queued ++ q.queues := by
  cases q with
  | script bytes => rfl
  | output w => exact (List.append_nil _).symm
  | input => exact (List.append_nil _).symm
  | finish => exact (List.append_nil _).symm

theorem queued_ofSession (source : List UInt8) (qs : List Request) :
    (ofSession source qs).queued = qs.flatMap Request.queues := by
  induction qs using List.reverseRecOn with
  | nil => rfl
  | append_singleton qs q ih =>
    rw [ofSession_concat, queued_enter, ih, List.flatMap_append, List.flatMap_singleton]

theorem read_enter {q : Request} (hq : q ≠ .input) : (l.enter source q).read = l.read := by
  cases q with
  | input => exact absurd rfl hq
  | script bytes => rfl
  | output w => rfl
  | finish => rfl

/-- Reading adds to what was read from the supplier of the byte. -/
theorem readFrom_enter_input {s : Supplier} {b : UInt8} (h : l.next? source = some (s, b)) :
    (l.enter source .input).readFrom s = l.readFrom s ++ [b] := by
  rw [readFrom, enter, List.filterMap_append, h]
  simp [readFrom]

/-- What was read from another supplier stays the same. -/
theorem readFrom_enter_input_of_ne {s : Supplier} (h : ∀ b, l.next? source ≠ some (s, b)) :
    (l.enter source .input).readFrom s = l.readFrom s := by
  rw [readFrom, enter, List.filterMap_append]
  cases hnext : l.next? source with
  | none => exact List.append_nil _
  | some entry =>
    have hother : entry.1 ≠ s := by
      rintro rfl
      exact h entry.2 hnext
    simp [readFrom, hother]

end Ledger

variable {source : List UInt8} {l : Ledger} {c : Console} {q : Request}

/-- Only reading takes from the suppliers, and scripts are put behind what is left. -/
theorem serve_unread (hq : q ≠ .input) :
    (c.serve q).device.script = c.script ++ q.queues ∧
      (c.serve q).device.source = c.source := by
  obtain ⟨mode, sink, pending, script, source⟩ := c
  cases q with
  | input => exact absurd rfl hq
  | script bytes => exact ⟨rfl, rfl⟩
  | output w =>
    cases mode with
    | interactive => exact ⟨(List.append_nil _).symm, rfl⟩
    | buffered => exact ⟨(List.append_nil _).symm, rfl⟩
  | finish =>
    rw [serve, finish]
    split
    · exact ⟨(List.append_nil _).symm, rfl⟩
    · split
      · exact ⟨(List.append_nil _).symm, rfl⟩
      · exact ⟨(List.append_nil _).symm, rfl⟩

/-- Only reading gives a word. -/
theorem serve_gives_none (hq : q ≠ .input) : (c.serve q).result.toOption.join = none := by
  have hnone {α : Type} (result : Except DeviceError α) :
      (result.map fun _ => (none : Option Word)).toOption.join = none := by
    cases result with
    | ok a => rfl
    | error e => rfl
  cases q with
  | input => exact absurd rfl hq
  | script bytes => rfl
  | output w => exact hnone _
  | finish => exact hnone _

/-- Only reading finishes a script. -/
theorem not_mem_log_serve (hq : q ≠ .input) : .scriptFinished ∉ (c.serve q).log := by
  cases q with
  | input => exact absurd rfl hq
  | script bytes => simp [serve, queue]
  | output w =>
    obtain ⟨mode, sink, pending, script, source⟩ := c
    cases mode with
    | interactive => exact List.not_mem_nil
    | buffered => exact List.not_mem_nil
  | finish => exact List.not_mem_nil

/-- **None of what was supplied is lost, and none is read twice.** -/
structure Balanced (source : List UInt8) (l : Ledger) (c : Console) : Prop where
  scripted : l.readFrom .script ++ c.script = l.queued
  sourced : l.readFrom .source ++ c.source = source

namespace Balanced

theorem next?_of_script (h : Balanced source l c) {b : UInt8} {script : List UInt8}
    (hscript : c.script = b :: script) : l.next? source = some (.script, b) := by
  have hdue : l.queued[(l.readFrom .script).length]? = some b := by
    rw [← h.scripted, hscript]
    simp
  rw [Ledger.next?, hdue]

theorem next?_of_script_nil (h : Balanced source l c) (hscript : c.script = []) :
    l.next? source = c.source.head?.map (.source, ·) := by
  have hnone : l.queued[(l.readFrom .script).length]? = none := by
    rw [← h.scripted, hscript]
    simp
  have hdue : source[(l.readFrom .source).length]? = c.source.head? := by
    nth_rewrite 1 [← h.sourced]
    rw [List.getElem?_append_right (Nat.le_refl _), Nat.sub_self, List.head?_eq_getElem?]
  simp only [Ledger.next?, hnone, hdue]

/-- **The console reads what is due**, and takes it from where the ledger says. -/
theorem input_cases (h : Balanced source l c) :
    (l.next? source = none ∧ c.script = [] ∧ c.input = ⟨.ok none, c, []⟩) ∨
    (∃ b script, l.next? source = some (.script, b) ∧ c.script = b :: script ∧
      c.input = ⟨.ok (some b.toUInt16), { c with script },
        if script.isEmpty then [.scriptFinished] else []⟩) ∨
    ∃ b rest, l.next? source = some (.source, b) ∧ c.script = [] ∧ c.source = b :: rest ∧
      c.input = ⟨.ok (some b.toUInt16), { c with source := rest }, []⟩ := by
  cases hscript : c.script with
  | cons b script =>
    right; left
    refine ⟨b, script, h.next?_of_script hscript, rfl, ?_⟩
    rw [input, hscript]
  | nil =>
    have hnext := h.next?_of_script_nil hscript
    cases hsource : c.source with
    | nil =>
      rw [hsource] at hnext
      refine .inl ⟨hnext, rfl, input_of_unread_nil ?_⟩
      rw [unread, hscript, hsource]
      rfl
    | cons b rest =>
      rw [hsource] at hnext
      right; right
      refine ⟨b, rest, hnext, rfl, rfl, ?_⟩
      rw [input, hscript, hsource]

theorem input_result (h : Balanced source l c) :
    c.input.result = .ok ((l.next? source).map (·.2.toUInt16)) := by
  rcases h.input_cases with ⟨hnext, -, hinput⟩ | ⟨b, script, hnext, -, hinput⟩ |
    ⟨b, rest, hnext, -, -, hinput⟩
  · rw [hnext, hinput]
    rfl
  · rw [hnext, hinput]
    rfl
  · rw [hnext, hinput]
    rfl

theorem serve_input (h : Balanced source l c) :
    Balanced source (l.enter source .input) (c.serve .input).device := by
  have hscripted := h.scripted
  have hsourced := h.sourced
  rw [serve]
  rcases h.input_cases with ⟨hnext, -, hinput⟩ | ⟨b, script, hnext, hscript, hinput⟩ |
    ⟨b, rest, hnext, -, hsource, hinput⟩
  · rw [hinput]
    constructor
    · rwa [Ledger.readFrom_enter_input_of_ne (by simp [hnext])]
    · rwa [Ledger.readFrom_enter_input_of_ne (by simp [hnext])]
  · rw [hinput]
    rw [hscript] at hscripted
    constructor
    · rw [Ledger.readFrom_enter_input hnext]
      exact (List.append_assoc _ [b] script).trans hscripted
    · rwa [Ledger.readFrom_enter_input_of_ne (by simp [hnext])]
  · rw [hinput]
    rw [hsource] at hsourced
    constructor
    · rwa [Ledger.readFrom_enter_input_of_ne (by simp [hnext])]
    · rw [Ledger.readFrom_enter_input hnext]
      exact (List.append_assoc _ [b] rest).trans hsourced

/-- **Every request keeps the balance.** -/
theorem serve (h : Balanced source l c) (q : Request) :
    Balanced source (l.enter source q) (c.serve q).device := by
  by_cases hq : q = .input
  · rw [hq]
    exact h.serve_input
  · obtain ⟨hscript, hsource⟩ := serve_unread (c := c) hq
    constructor
    · rw [Ledger.readFrom, Ledger.read_enter hq, hscript, Ledger.queued_enter, ← List.append_assoc]
      exact congrArg (· ++ _) h.scripted
    · rw [Ledger.readFrom, Ledger.read_enter hq, hsource]
      exact h.sourced

/-- **The end of a script is reported with its last byte.** -/
theorem mem_log_serve_iff (h : Balanced source l c) (q : Request) :
    .scriptFinished ∈ (c.serve q).log ↔
      q = .input ∧ ∃ b, l.queued = l.readFrom .script ++ [b] := by
  by_cases hq : q = .input
  · have hlast : (∃ b, l.queued = l.readFrom .script ++ [b]) ↔ ∃ b, c.script = [b] := by
      simp only [← h.scripted, List.append_right_inj]
    rw [hq, hlast, Console.serve, and_iff_right rfl]
    rcases h.input_cases with ⟨-, hscript, hinput⟩ | ⟨b, script, -, hscript, hinput⟩ |
      ⟨b, rest, -, hscript, -, hinput⟩
    · rw [hinput, hscript]
      simp
    · rw [hinput, hscript]
      cases script with
      | nil => simp
      | cons b' script => simp
    · rw [hinput, hscript]
      simp
  · exact iff_of_false (not_mem_log_serve hq) fun hinput => hq hinput.1

/-- What is given is what the ledger has as read. -/
theorem given_serve (h : Balanced source l c) (q : Request) :
    (l.read.map fun entry => entry.2.toUInt16) ++ (c.serve q).result.toOption.join.toList =
      (l.enter source q).read.map fun entry => entry.2.toUInt16 := by
  by_cases hq : q = .input
  · rw [hq, Console.serve, h.input_result, Ledger.enter, List.map_append]
    cases l.next? source with
    | none => rfl
    | some entry => rfl
  · rw [serve_gives_none hq, Ledger.read_enter hq]
    exact List.append_nil _

/-- A session on a console of which nothing has been read keeps the balance, and what is given in it is
what the ledger has as read. -/
theorem session (hscript : c.script = []) (qs : List Request) :
    Balanced c.source (.ofSession c.source qs) (c.session qs) ∧
      c.given qs = (Ledger.ofSession c.source qs).read.map fun entry => entry.2.toUInt16 := by
  refine session_induction
    (P := fun qs e => Balanced c.source (.ofSession c.source qs) e ∧
      c.given qs = (Ledger.ofSession c.source qs).read.map fun entry => entry.2.toUInt16) ?_ ?_ qs
  · exact ⟨⟨hscript, rfl⟩, rfl⟩
  · rintro qs q ⟨hbalanced, hgiven⟩
    rw [Ledger.ofSession_concat, given_concat, hgiven]
    exact ⟨hbalanced.serve q, hbalanced.given_serve q⟩

end Balanced

end Console

/-- **The order of what is read** from a console with a source, in any session. Next comes the byte
that is due: the first one queued that has not been read, if there is one, otherwise the first one of
the source that has not, and if there is none of them either, nothing. So what was read from the
scripts is a beginning of all that was queued, what was read from the source is a beginning of the
source, and nothing is lost or read twice. The attempt to read when nothing is left does not change the
console, and a script queued then can be read. A word that is read is a byte. That scripted input is
finished is reported when its last byte is read, and only then. -/
theorem input_in_order (mode : Console.Mode) (sink : Sink) (source : List UInt8)
    (requests : List Console.Request) :
    let start : Console := { mode, sink, source }
    let c := start.session requests
    let l := Console.Ledger.ofSession source requests
    l.queued = requests.flatMap Console.Request.queues ∧
    start.given requests = (l.read.map fun entry => entry.2.toUInt16) ∧
    c.input.result = .ok ((l.next? source).map fun entry => entry.2.toUInt16) ∧
    l.readFrom .script ++ c.script = l.queued ∧
    l.readFrom .source ++ c.source = source ∧
    (l.next? source = none → c.input = ⟨.ok none, c, []⟩ ∧
      ∀ b bytes, (c.queue (b :: bytes)).1.input.result = .ok (some b.toUInt16)) ∧
    (∀ w ∈ start.given requests, w.toNat ≤ 255) ∧
    ∀ q,
      (.scriptFinished ∈ (c.serve q).log ↔
        q = .input ∧ ∃ b, l.queued = l.readFrom .script ++ [b]) ∧
      ("DEBUG scripted input finished" ∈ (c.serve q).log.map Record.line ↔
        q = .input ∧ ∃ b, l.queued = l.readFrom .script ++ [b]) := by
  intro start c l
  obtain ⟨hbalanced, hgiven⟩ := Console.Balanced.session (c := start) rfl requests
  refine ⟨Console.Ledger.queued_ofSession source requests, hgiven, hbalanced.input_result,
    hbalanced.scripted, hbalanced.sourced, ?_, ?_, fun q => ⟨hbalanced.mem_log_serve_iff q,
      Record.scriptFinished_mem_lines_iff.trans (hbalanced.mem_log_serve_iff q)⟩⟩
  · intro hnone
    rcases hbalanced.input_cases with ⟨-, hscript, hinput⟩ | ⟨b, script, hnext, -⟩ |
      ⟨b, rest, hnext, -⟩
    · refine ⟨hinput, fun b bytes => ?_⟩
      have hqueue : (c.queue (b :: bytes)).1.script = b :: bytes :=
        congrArg (· ++ b :: bytes) hscript
      rw [Console.input, hqueue]
    · cases hnone.symm.trans hnext
    · cases hnone.symm.trans hnext
  · rw [hgiven, List.forall_mem_map]
    intro entry _
    rw [UInt8.toNat_toUInt16]
    exact Nat.le_of_lt_succ entry.2.toNat_lt

/-- Scripts in the middle of the source and behind its end. -/
theorem input_in_order_interleaved :
    let start : Console := { mode := .buffered, sink := {}, source := [1] }
    let requests : List Console.Request :=
      [.input, .input, .script [], .script [2, 3], .input, .output 65, .script [4], .input]
    start.given requests = [1, 2, 3] ∧
    (start.session requests).input.result = .ok (some 4) ∧
    .scriptFinished ∈ ((start.session requests).serve .input).log ∧
    "DEBUG scripted input finished" ∈
      ((start.session requests).serve .input).log.map Record.line ∧
    (Console.Ledger.ofSession [1] [.input]).next? [1] = none ∧
    (start.session [.input]).input = ⟨.ok none, start.session [.input], []⟩ := by
  intro start requests
  obtain ⟨-, hgiven, hnext, -, -, -, -, hlog⟩ := input_in_order .buffered {} [1] requests
  obtain ⟨-, -, -, -, -, hnothing, -⟩ := input_in_order .buffered {} [1] [.input]
  have hnone : (Console.Ledger.ofSession [1] [.input]).next? [1] = none := by decide
  obtain ⟨hrecord, hline⟩ := hlog .input
  have hlast : ∃ b, (Console.Ledger.ofSession [1] requests).queued =
      (Console.Ledger.ofSession [1] requests).readFrom .script ++ [b] := ⟨4, by decide⟩
  exact ⟨hgiven.trans (by decide), hnext.trans (by decide), hrecord.2 ⟨rfl, hlast⟩,
    hline.2 ⟨rfl, hlast⟩, hnone, (hnothing hnone).1⟩

end WordMachine
