import WordMachine.Console.Basic
import WordMachine.Device
import WordMachine.Proofs.Session

/-!
# What the console reads and writes

Of a console it matters what there is left to read (`unread`), however much of it is scripted, and
what was written, however much of it is held back. Reading takes the first byte away from the one
(`input_eq`), and writing puts bytes behind the other: into the sink in interactive mode
(`output_interactive`), behind what is held back in buffered mode (`output_buffered`), from where
`finish` takes them to the sink (`finish_eq`).

Next to a console stands a recorder with the same input. The console **renders** the recorder
(`Renders`) if it has written the recorded words as characters, and so it goes on
(`Renders.alike`): to a machine the two are the same.
-/

namespace WordMachine

/-! ### Sinks without limits -/

namespace Sink

/-- A sink that never fails. -/
structure Unlimited (s : Sink) : Prop where
  room : s.room = none
  flushRoom : s.flushRoom = none

/-- A sink after further bytes and flushes. -/
def after (s : Sink) (bytes : List UInt8) (flushes : Nat) : Sink :=
  { s with bytes := s.bytes.appendList bytes, flushes := s.flushes + flushes }

variable {s : Sink}

@[simp] theorem toList_after (s : Sink) (bytes : List UInt8) (n : Nat) :
    (s.after bytes n).bytes.toList = s.bytes.toList ++ bytes := by
  simp [after]

theorem size_after (s : Sink) (bytes : List UInt8) (flushes : Nat) :
    (s.after bytes flushes).bytes.size = s.bytes.size + bytes.length := by
  rw [← Array.length_toList, toList_after, List.length_append, Array.length_toList]

theorem after_after (s : Sink) (xs ys : List UInt8) (m n : Nat) :
    (s.after xs m).after ys n = s.after (xs ++ ys) (m + n) := by
  have hbytes : (s.bytes.appendList xs).appendList ys = s.bytes.appendList (xs ++ ys) :=
    Array.toList_inj.1 (by simp)
  simp only [after, hbytes, Nat.add_assoc]

theorem Unlimited.after (h : s.Unlimited) (bytes : List UInt8) (n : Nat) :
    (s.after bytes n).Unlimited :=
  ⟨h.room, h.flushRoom⟩

theorem Unlimited.write_eq (h : s.Unlimited) (bytes : List UInt8) :
    s.write bytes = (.ok (), s.after bytes 0) := by
  have hfits : s.fitting bytes.length = bytes.length := by
    rw [fitting, h.room]
  rw [write, hfits, if_pos rfl, List.take_length]
  rfl

theorem Unlimited.flush_eq (h : s.Unlimited) : s.flush = (.ok (), s.after [] 1) := by
  simp [flush, Sink.after, h.flushRoom]

theorem Unlimited.writeThrough_eq (h : s.Unlimited) (bytes : List UInt8) :
    s.writeThrough bytes = (.ok (), s.after bytes 1) := by
  rw [writeThrough, h.write_eq]
  show flush (s.after bytes 0) = _
  rw [(h.after bytes 0).flush_eq, after_after, List.append_nil, Nat.zero_add]

end Sink

namespace Console

variable {c : Console}

/-- What there is left to read. -/
def unread (c : Console) : List UInt8 := c.script ++ c.source

/-- **Reading takes the first byte away** from what is left, and touches nothing else. -/
theorem input_eq (c : Console) : ∃ script source log,
    c.input = ⟨.ok (c.unread.head?.map UInt8.toUInt16), { c with script, source }, log⟩ ∧
      script ++ source = c.unread.tail := by
  obtain ⟨mode, sink, pending, script, source⟩ := c
  cases script with
  | cons b script => exact ⟨script, source, _, rfl, rfl⟩
  | nil =>
    cases source with
    | cons b source => exact ⟨[], source, _, rfl, rfl⟩
    | nil => exact ⟨[], [], _, rfl, rfl⟩

/-- A console that has nothing left to read is not changed by the attempt. -/
theorem input_of_unread_nil (h : c.unread = []) : c.input = ⟨.ok none, c, []⟩ := by
  obtain ⟨hscript, hsource⟩ := List.append_eq_nil_iff.1 h
  rw [input, hscript]
  simp only [hsource]

theorem output_interactive (hmode : c.mode = .interactive) (hs : c.sink.Unlimited) (w : Word) :
    c.output w = ⟨.ok (), { c with sink := c.sink.after (encode w) 1 }, []⟩ := by
  rw [output, hmode]
  simp only [hs.writeThrough_eq]

theorem output_buffered (hmode : c.mode = .buffered) (w : Word) :
    c.output w = ⟨.ok (), { c with pending := c.pending.appendList (encode w) }, []⟩ := by
  rw [output, hmode]

theorem finish_eq (hs : c.sink.Unlimited) : ∃ flushes,
    c.finish =
      (.ok (), { c with sink := c.sink.after c.pending.toList flushes, pending := #[] }) := by
  rw [finish]
  split
  · next hempty =>
    have hpending : c.pending = #[] := Array.isEmpty_iff.1 hempty
    rw [hs.flush_eq, hpending]
    exact ⟨1, rfl⟩
  · rw [hs.write_eq]
    simp only [(hs.after _ 0).flush_eq, Sink.after_after, List.append_nil]
    exact ⟨_, rfl⟩

end Console

/-! ### Consoles and recorders -/

/-- A recorder that has bytes to give. -/
def Recorder.ofBytes (bytes : List UInt8) : Recorder :=
  { supplies := bytes.map fun b => .word b.toUInt16 }

/-- The recorded words as characters, in UTF-8. -/
def Recorder.text (r : Recorder) : List UInt8 := r.recorded.toList.flatMap Console.encode

/-- A console **renders** a recorder in a mode, from a sink on: both have the same left to read, and
what was recorded, the console has put out in the way of its mode. -/
structure Console.Renders (mode : Console.Mode) (s : Sink) (r : Recorder) (c : Console) : Prop where
  mode_eq : c.mode = mode
  unlimited : s.Unlimited
  room : r.room = none
  supplies : r.supplies = c.unread.map fun b => .word b.toUInt16
  interactive : mode = .interactive → c.pending = #[] ∧ ∃ flushes, c.sink = s.after r.text flushes
  buffered : mode = .buffered → c.pending.toList = r.text ∧ c.sink = s

namespace Console.Renders

variable {mode : Mode} {s : Sink} {r : Recorder} {c : Console}

theorem start (hs : s.Unlimited) (mode : Mode) (script source : List UInt8) :
    Renders mode s (.ofBytes (script ++ source)) { mode, sink := s, script, source } where
  mode_eq := rfl
  unlimited := hs
  room := rfl
  supplies := rfl
  interactive _ := ⟨rfl, 0, by simp [Sink.after, Recorder.text, Recorder.ofBytes]⟩
  buffered _ := ⟨rfl, rfl⟩

theorem sink_unlimited (h : Renders mode s r c) : c.sink.Unlimited := by
  cases mode with
  | interactive =>
    obtain ⟨-, flushes, hsink⟩ := h.interactive rfl
    rw [hsink]
    exact h.unlimited.after _ _
  | buffered =>
    rw [(h.buffered rfl).2]
    exact h.unlimited

theorem output (h : Renders mode s r c) (w : Word) :
    (r.output w).result = .ok () ∧ (c.output w).result = .ok () ∧
      Renders mode s (r.output w).device (c.output w).device := by
  have hroom : r.hasRoom = true := by
    rw [Recorder.hasRoom, h.room]
    rfl
  have hr : r.output w = ⟨.ok (), { r with recorded := r.recorded.push w }, []⟩ := by
    rw [Recorder.output, if_pos hroom]
  have htext : Recorder.text { r with recorded := r.recorded.push w } = r.text ++ encode w := by
    simp [Recorder.text]
  rw [hr]
  cases mode with
  | interactive =>
    obtain ⟨hpending, flushes, hsink⟩ := h.interactive rfl
    rw [output_interactive h.mode_eq h.sink_unlimited]
    refine ⟨rfl, rfl, h.mode_eq, h.unlimited, h.room, h.supplies, ?_, nofun⟩
    intro _
    refine ⟨hpending, flushes + 1, ?_⟩
    rw [htext, hsink, Sink.after_after]
  | buffered =>
    obtain ⟨hpending, hsink⟩ := h.buffered rfl
    rw [output_buffered h.mode_eq]
    refine ⟨rfl, rfl, h.mode_eq, h.unlimited, h.room, h.supplies, nofun, ?_⟩
    intro _
    refine ⟨?_, hsink⟩
    rw [htext, ← hpending]
    exact Array.toList_appendList

theorem input (h : Renders mode s r c) :
    r.input.result = .ok (c.unread.head?.map UInt8.toUInt16) ∧ r.input.result = c.input.result ∧
      Renders mode s r.input.device c.input.device := by
  obtain ⟨script, source, log, hc, hrest⟩ := c.input_eq
  rw [hc, Recorder.input, h.supplies]
  cases hunread : c.unread with
  | nil =>
    rw [hunread] at hrest
    refine ⟨rfl, rfl, h.mode_eq, h.unlimited, h.room, ?_, h.interactive, h.buffered⟩
    show r.supplies = (script ++ source).map _
    rw [h.supplies, hunread, hrest]
    rfl
  | cons b bs =>
    rw [hunread] at hrest
    refine ⟨rfl, rfl, h.mode_eq, h.unlimited, h.room, ?_, h.interactive, h.buffered⟩
    show bs.map _ = (script ++ source).map _
    rw [hrest]
    rfl

/-- **A machine cannot tell a console from the recorder that it renders.** -/
theorem alike (mode : Mode) (s : Sink) : Device.Alike (Renders mode s) where
  output h w := by
    obtain ⟨hr, hc, hnext⟩ := h.output w
    exact ⟨hr.trans hc.symm, hnext⟩
  input h := by
    obtain ⟨-, hresult, hnext⟩ := h.input
    exact ⟨hresult, hnext⟩

/-- **Once finished, a console has written what was recorded**, whatever its mode. -/
theorem finish (h : Renders mode s r c) :
    c.finish.1 = .ok () ∧ c.finish.2.sink.bytes.toList = s.bytes.toList ++ r.text := by
  obtain ⟨flushes, hfinish⟩ := finish_eq h.sink_unlimited
  rw [hfinish]
  refine ⟨rfl, ?_⟩
  rw [Sink.toList_after]
  cases mode with
  | interactive =>
    obtain ⟨hpending, flushes, hsink⟩ := h.interactive rfl
    rw [hsink, hpending, Sink.toList_after, List.append_nil]
  | buffered =>
    obtain ⟨hpending, hsink⟩ := h.buffered rfl
    rw [hsink, hpending]

end Console.Renders

end WordMachine
