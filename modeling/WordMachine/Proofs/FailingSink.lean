import WordMachine.Proofs.ConsoleSession

/-!
# What becomes of output when the sink fails

A sink can fail in two ways. A write takes only part of its bytes, and then the sink has no room for
any more; or a flush fails, which does nothing to the bytes. So a console is in one of two conditions,
and there is only one way from the one to the other.

* `Intact` — as long as no write has failed: what is in the sink and what is held back are together
  all that was put out.
* `Stuck` — from the first write that fails: the sink is full and stays as it is, and what is held
  back stays held back.

`Intact.serve` and `Stuck.serve` say where a request leads from there, and `Intact.session` and
`Stuck.session` where a session leads.
-/

namespace WordMachine

namespace Sink

/-- There is no more in the sink than it has room for. -/
def Within (s : Sink) : Prop := ∀ n, s.room = some n → s.bytes.size ≤ n

/-- There is as much in the sink as it has room for. -/
def Full (s : Sink) : Prop := s.room = some s.bytes.size

variable {s : Sink} {bytes : List UInt8}

theorem after_nil (s : Sink) : s.after [] 0 = s := by
  simp [after]

/-- **A write takes all of its bytes, or it fills the sink.** -/
theorem write_cases (within : s.Within) (bytes : List UInt8) :
    (s.write bytes = (.ok (), s.after bytes 0) ∧ (s.after bytes 0).Within) ∨
      ∃ k, s.write bytes = (.error .sinkFull, s.after (bytes.take k) 0) ∧ (s.after (bytes.take k) 0).Full := by
  have hwrite (k : Nat) (hk : s.fitting bytes.length = k) : s.write bytes =
      (if k = bytes.length then .ok () else .error .sinkFull, s.after (bytes.take k) 0) := by
    rw [write, hk]
    rfl
  cases hroom : s.room with
  | none =>
    left
    rw [hwrite bytes.length (by rw [fitting, hroom]), if_pos rfl, List.take_length]
    refine ⟨rfl, ?_⟩
    intro n hn
    cases hroom.symm.trans hn
  | some room =>
    have hsize : s.bytes.size ≤ room := within room hroom
    have hfit : s.fitting bytes.length = min bytes.length (room - s.bytes.size) := by
      rw [fitting, hroom]
    by_cases hall : s.bytes.size + bytes.length ≤ room
    · left
      rw [hwrite bytes.length (by omega), if_pos rfl, List.take_length]
      refine ⟨rfl, ?_⟩
      intro n hn
      cases hroom.symm.trans hn
      rwa [size_after]
    · right
      have hk : s.fitting bytes.length = room - s.bytes.size := by omega
      refine ⟨room - s.bytes.size, ?_, ?_⟩
      · rw [hwrite _ hk, if_neg (by omega)]
      · show s.room = some _
        rw [size_after, List.length_take, hroom]
        congr 1
        omega

/-- A full sink takes nothing. -/
theorem Full.write_eq (full : s.Full) (hbytes : bytes ≠ []) :
    s.write bytes = (.error .sinkFull, s) := by
  have hfit : s.fitting bytes.length = 0 := by
    rw [fitting, full]
    simp
  have hlength : ¬ 0 = bytes.length := fun h => hbytes (List.length_eq_zero_iff.1 h.symm)
  rw [write, hfit, if_neg hlength]
  exact congrArg (Prod.mk _) s.after_nil

/-- A flush does nothing to the bytes, and its failure is not that of a write. -/
theorem flush_cases (s : Sink) :
    ∃ result flushes, result ≠ .error .sinkFull ∧ s.flush = (result, s.after [] flushes) := by
  rw [flush]
  split
  · exact ⟨.ok (), 1, by simp, by simp [after]⟩
  · exact ⟨.error .flushFailed, 0, by simp, by rw [after_nil]⟩

/-- Writing through to the end, all bytes are taken, whether or not the flush fails, or the sink is
filled. -/
theorem writeThrough_cases (within : s.Within) (bytes : List UInt8) :
    (∃ result flushes, result ≠ .error .sinkFull ∧
      s.writeThrough bytes = (result, s.after bytes flushes) ∧
      (s.after bytes flushes).Within) ∨
    ∃ k, s.writeThrough bytes = (.error .sinkFull, s.after (bytes.take k) 0) ∧
      (s.after (bytes.take k) 0).Full := by
  rcases write_cases within bytes with ⟨hwrite, hwithin⟩ | ⟨k, hwrite, hfull⟩
  · left
    obtain ⟨result, flushes, hresult, hflush⟩ := (s.after bytes 0).flush_cases
    rw [after_after, List.append_nil, Nat.zero_add] at hflush
    refine ⟨result, flushes, hresult, ?_, hwithin⟩
    rw [writeThrough, hwrite]
    exact hflush
  · right
    refine ⟨k, ?_, hfull⟩
    rw [writeThrough, hwrite]

theorem Full.writeThrough_eq (full : s.Full) (hbytes : bytes ≠ []) :
    s.writeThrough bytes = (.error .sinkFull, s) := by
  rw [writeThrough, full.write_eq hbytes]

end Sink

namespace Console

variable {c : Console} {emitted : List UInt8} {qs : List Request}

theorem encode_ne_nil (w : Word) : encode w ≠ [] := String.utf8EncodeChar_ne_nil

theorem finish_of_nothing (h : c.pending = #[]) :
    c.finish = (c.sink.flush.1, { c with sink := c.sink.flush.2 }) := by
  rw [finish, h]
  rfl

/-- **Finishing writes all that is held back, or it fills the sink** and goes on holding all of it
back. -/
theorem finish_cases (within : c.sink.Within) :
    (∃ result flushes, result ≠ .error .sinkFull ∧
      c.finish =
        (result, { c with sink := c.sink.after c.pending.toList flushes, pending := #[] }) ∧
      (c.sink.after c.pending.toList flushes).Within) ∨
    ∃ k, c.finish = (.error .sinkFull, { c with sink := c.sink.after (c.pending.toList.take k) 0 }) ∧
      (c.sink.after (c.pending.toList.take k) 0).Full := by
  by_cases hpending : c.pending = #[]
  · left
    obtain ⟨result, flushes, hresult, hflush⟩ := c.sink.flush_cases
    refine ⟨result, flushes, hresult, ?_, ?_⟩
    · rw [finish_of_nothing hpending, hflush, hpending]
    · rw [hpending]
      intro n hn
      rw [Sink.size_after]
      exact within n hn
  · rw [finish, if_neg (mt Array.isEmpty_iff.1 hpending)]
    rcases Sink.write_cases within c.pending.toList with ⟨hwrite, hwithin⟩ | ⟨k, hwrite, hfull⟩
    · left
      obtain ⟨result, flushes, hresult, hflush⟩ := (c.sink.after c.pending.toList 0).flush_cases
      rw [Sink.after_after, List.append_nil, Nat.zero_add] at hflush
      refine ⟨result, flushes, hresult, ?_, hwithin⟩
      simp only [hwrite, hflush]
    · right
      refine ⟨k, ?_, hfull⟩
      simp only [hwrite]

/-! ### Intact and stuck -/

/-- As long as no write has failed, all that was put out is in the sink or held back. -/
structure Intact (emitted : List UInt8) (c : Console) : Prop where
  within : c.sink.Within
  tidy : c.mode = .interactive → c.pending = #[]
  accounted : c.sink.bytes.toList ++ c.pending.toList = emitted

/-- Once a write has failed, the sink is full; it has the first bytes that were put out, and those
held back are the last. -/
structure Stuck (emitted : List UInt8) (c : Console) : Prop where
  full : c.sink.Full
  tidy : c.mode = .interactive → c.pending = #[]
  written : c.sink.bytes.toList <+: emitted
  held : c.pending.toList <:+ emitted

/-- Nothing was put out so far. -/
structure Fresh (c : Console) : Prop where
  sink : c.sink.bytes = #[]
  pending : c.pending = #[]

theorem Fresh.intact (h : c.Fresh) : Intact [] c where
  within n _ := by
    rw [h.sink]
    exact Nat.zero_le n
  tidy _ := h.pending
  accounted := by
    rw [h.sink, h.pending]
    rfl

/-- A failure is passed on as it is. -/
theorem map_eq_error_iff {α β : Type} {result : Except DeviceError α} {f : α → β}
    {e : DeviceError} : result.map f = .error e ↔ result = .error e := by
  cases result with
  | ok a => exact ⟨nofun, nofun⟩
  | error e' => simp [Except.map]

theorem serve_output_interactive (hmode : c.mode = .interactive) {w : Word}
    {result : Except DeviceError Unit} {s : Sink}
    (hwrite : c.sink.writeThrough (encode w) = (result, s)) :
    c.serve (.output w) = ⟨result.map fun _ => none, { c with sink := s }, []⟩ := by
  rw [serve, output, hmode]
  simp only [hwrite]

theorem serve_output_buffered (hmode : c.mode = .buffered) (w : Word) :
    c.serve (.output w) =
      ⟨.ok none, { c with pending := c.pending.appendList (encode w) }, []⟩ := by
  rw [serve, output_buffered hmode]
  rfl

/-- What a request leads to that does its writing, if there is any, without failing. -/
structure Kept (emitted : List UInt8) (reply : Reply Console (Option Word)) : Prop where
  fine : reply.result ≠ .error .sinkFull
  intact : Intact emitted reply.device

/-- What a request leads to that fails in its writing. -/
structure Lost (emitted : List UInt8) (reply : Reply Console (Option Word)) : Prop where
  failed : reply.result = .error .sinkFull
  stuck : Stuck emitted reply.device

/-- In interactive mode all is in the sink. -/
theorem Intact.toList_bytes (h : Intact emitted c) (hmode : c.mode = .interactive) :
    c.sink.bytes.toList = emitted := by
  rw [← h.accounted, h.tidy hmode]
  exact (List.append_nil _).symm

theorem Intact.serve_output (h : Intact emitted c) (w : Word) :
    Kept (emitted ++ encode w) (c.serve (.output w)) ∨
      Lost (emitted ++ encode w) (c.serve (.output w)) := by
  cases hmode : c.mode with
  | interactive =>
    have hpending := h.tidy hmode
    have hsink := h.toList_bytes hmode
    rcases Sink.writeThrough_cases h.within (encode w) with
      ⟨result, flushes, hresult, hwrite, hwithin⟩ | ⟨k, hwrite, hfull⟩
    · rw [serve_output_interactive hmode hwrite]
      refine .inl ⟨mt map_eq_error_iff.1 hresult, hwithin, h.tidy, ?_⟩
      show (c.sink.after _ _).bytes.toList ++ c.pending.toList = _
      rw [Sink.toList_after, hsink, hpending]
      exact List.append_nil _
    · rw [serve_output_interactive hmode hwrite]
      refine .inr ⟨rfl, hfull, h.tidy, ?_, ?_⟩
      · show (c.sink.after _ _).bytes.toList <+: _
        rw [Sink.toList_after, hsink]
        exact (List.prefix_append_right_inj emitted).2 (List.take_prefix k _)
      · show c.pending.toList <:+ _
        rw [hpending]
        exact List.nil_suffix
  | buffered =>
    rw [serve_output_buffered hmode]
    refine .inl ⟨nofun, h.within, ?_, ?_⟩
    · intro hinteractive
      cases hmode.symm.trans hinteractive
    · show c.sink.bytes.toList ++ (c.pending.appendList _).toList = _
      rw [Array.appendList_eq_append, Array.toList_appendList, ← List.append_assoc, h.accounted]

theorem Intact.serve_finish (h : Intact emitted c) :
    Kept emitted (c.serve .finish) ∨ Lost emitted (c.serve .finish) := by
  rcases finish_cases h.within with ⟨result, flushes, hresult, hfinish, hwithin⟩ | ⟨k, hfinish, hfull⟩
  · rw [serve, hfinish]
    refine .inl ⟨mt map_eq_error_iff.1 hresult, hwithin, fun _ => rfl, ?_⟩
    show (c.sink.after _ _).bytes.toList ++ [] = _
    rw [Sink.toList_after, List.append_nil, h.accounted]
  · rw [serve, hfinish]
    refine .inr ⟨rfl, hfull, h.tidy, ?_, ?_⟩
    · show (c.sink.after _ _).bytes.toList <+: _
      rw [Sink.toList_after, ← h.accounted]
      exact (List.prefix_append_right_inj _).2 (List.take_prefix k _)
    · show c.pending.toList <:+ _
      rw [← h.accounted]
      exact List.suffix_append _ _

/-- **Where a request leads from an intact console**: it stays so, or a write has failed. -/
theorem Intact.serve (h : Intact emitted c) (q : Request) :
    Kept (emitted ++ q.emits) (c.serve q) ∨ Lost (emitted ++ q.emits) (c.serve q) := by
  cases q with
  | output w => exact h.serve_output w
  | input =>
    obtain ⟨script, source, log, hinput, -⟩ := c.input_eq
    rw [Console.serve, hinput, Request.emits, List.append_nil]
    exact .inl ⟨by simp, h.within, h.tidy, h.accounted⟩
  | script bytes =>
    rw [Console.serve, Request.emits, List.append_nil]
    exact .inl ⟨by simp, h.within, h.tidy, h.accounted⟩
  | finish =>
    rw [Request.emits, List.append_nil]
    exact h.serve_finish

/-- A console that is stuck fails to write, and is not changed by the attempt. -/
theorem Stuck.serve_output (h : Stuck emitted c) (w : Word) :
    Stuck (emitted ++ encode w) (c.serve (.output w)).device ∧
      (c.serve (.output w)).device.sink = c.sink := by
  cases hmode : c.mode with
  | interactive =>
    rw [serve_output_interactive hmode (h.full.writeThrough_eq (encode_ne_nil w))]
    refine ⟨⟨h.full, h.tidy, h.written.trans (List.prefix_append _ _), ?_⟩, rfl⟩
    show c.pending.toList <:+ _
    rw [h.tidy hmode]
    exact List.nil_suffix
  | buffered =>
    rw [serve_output_buffered hmode]
    refine ⟨⟨h.full, ?_, h.written.trans (List.prefix_append _ _), ?_⟩, rfl⟩
    · intro hinteractive
      cases hmode.symm.trans hinteractive
    · show (c.pending.appendList _).toList <:+ _
      rw [Array.appendList_eq_append, Array.toList_appendList]
      obtain ⟨before, hbefore⟩ := h.held
      exact ⟨before, by rw [← List.append_assoc, hbefore]⟩

/-- **Finishing a console that is stuck** writes nothing and goes on holding back what it holds
back. -/
theorem Stuck.finish_eq (h : Stuck emitted c) :
    ∃ result flushes, c.finish = (result, { c with sink := c.sink.after [] flushes }) := by
  by_cases hpending : c.pending = #[]
  · obtain ⟨result, flushes, -, hflush⟩ := c.sink.flush_cases
    exact ⟨result, flushes, by rw [finish_of_nothing hpending, hflush]⟩
  · have hheld : c.pending.toList ≠ [] := mt Array.toList_eq_nil_iff.1 hpending
    refine ⟨.error .sinkFull, 0, ?_⟩
    rw [finish, if_neg (mt Array.isEmpty_iff.1 hpending), h.full.write_eq hheld, Sink.after_nil]

/-- **A console that is stuck stays stuck**, and its sink stays as it is. -/
theorem Stuck.serve (h : Stuck emitted c) (q : Request) :
    Stuck (emitted ++ q.emits) (c.serve q).device ∧
      (c.serve q).device.sink.bytes = c.sink.bytes := by
  cases q with
  | output w =>
    obtain ⟨hstuck, hsink⟩ := h.serve_output w
    exact ⟨hstuck, congrArg Sink.bytes hsink⟩
  | input =>
    obtain ⟨script, source, log, hinput, -⟩ := c.input_eq
    rw [Console.serve, hinput, Request.emits, List.append_nil]
    exact ⟨⟨h.full, h.tidy, h.written, h.held⟩, rfl⟩
  | script bytes =>
    rw [Request.emits, List.append_nil]
    exact ⟨⟨h.full, h.tidy, h.written, h.held⟩, rfl⟩
  | finish =>
    obtain ⟨result, flushes, hfinish⟩ := h.finish_eq
    have hbytes : (c.sink.after [] flushes).bytes = c.sink.bytes := by
      rw [← Array.toList_inj, Sink.toList_after, List.append_nil]
    have hfull : (c.sink.after [] flushes).Full := by
      show c.sink.room = some (c.sink.after [] flushes).bytes.size
      rw [hbytes]
      exact h.full
    rw [Console.serve, hfinish, Request.emits, List.append_nil]
    refine ⟨⟨hfull, h.tidy, ?_, h.held⟩, hbytes⟩
    show (c.sink.after [] flushes).bytes.toList <+: emitted
    rw [hbytes]
    exact h.written

/-! ### Sessions -/

/-- **Where a session leads from an intact console.** -/
theorem Intact.session (h : Intact [] c) (qs : List Request) :
    (¬ c.WriteFailed qs ∧ Intact (qs.flatMap Request.emits) (c.session qs)) ∨
      c.WriteFailed qs ∧ Stuck (qs.flatMap Request.emits) (c.session qs) := by
  refine session_induction
    (P := fun qs e => (¬ c.WriteFailed qs ∧ Intact (qs.flatMap Request.emits) e) ∨
      c.WriteFailed qs ∧ Stuck (qs.flatMap Request.emits) e) ?_ ?_ qs
  · exact .inl ⟨not_writeFailed_nil, h⟩
  · intro qs q hqs
    have hemits : (qs ++ [q]).flatMap Request.emits = qs.flatMap Request.emits ++ q.emits := by
      rw [List.flatMap_append, List.flatMap_singleton]
    rw [hemits, writeFailed_concat_iff]
    rcases hqs with ⟨hnone, hintact⟩ | ⟨hfailed, hstuck⟩
    · rcases hintact.serve q with hkept | hlost
      · exact .inl ⟨not_or.2 ⟨hnone, hkept.fine⟩, hkept.intact⟩
      · exact .inr ⟨.inr hlost.failed, hlost.stuck⟩
    · exact .inr ⟨.inl hfailed, (hstuck.serve q).1⟩

theorem Stuck.session (h : Stuck emitted c) (qs : List Request) :
    (c.session qs).sink.bytes = c.sink.bytes := by
  have hsession := session_induction
    (P := fun qs e => Stuck (emitted ++ qs.flatMap Request.emits) e ∧
      e.sink.bytes = c.sink.bytes) ⟨by simpa using h, rfl⟩ ?_ qs
  · exact hsession.2
  · rintro qs q ⟨hstuck, hbytes⟩
    obtain ⟨hstuck', hbytes'⟩ := hstuck.serve q
    rw [List.append_assoc] at hstuck'
    rw [List.flatMap_append, List.flatMap_singleton]
    exact ⟨hstuck', hbytes'.trans hbytes⟩

end Console

/-- **What becomes of the output of a console** whose sink has room for only so many bytes and can be
flushed only so many times, in any session. What is in the sink is always a beginning of what was put
out. In interactive mode nothing is held back, and as long as no write has failed, all is in the sink.
In buffered mode putting out never fails and never touches the sink, what is held back is the end of
what was put out, and as long as no write has failed, that and what is in the sink are all of it,
also after flushes that failed. Once a write has failed, the sink is full and stays as it is, whatever
is asked for; and finishing never loses what it cannot write. -/
theorem output_accounted_for (mode : Console.Mode) (room flushRoom : Option Nat)
    (source : List UInt8) (requests : List Console.Request) :
    let start : Console := { mode, sink := { room, flushRoom }, source }
    let c := start.session requests
    let emitted := requests.flatMap Console.Request.emits
    c.sink.bytes.toList <+: emitted ∧
    (mode = .interactive → c.pending = #[] ∧
      (¬ start.WriteFailed requests → c.sink.bytes.toList = emitted)) ∧
    (mode = .buffered →
      (∀ w, (c.output w).result = .ok () ∧ (c.output w).device.sink = c.sink) ∧
      c.pending.toList <:+ emitted ∧
      (¬ start.WriteFailed requests → c.sink.bytes.toList ++ c.pending.toList = emitted)) ∧
    (start.WriteFailed requests →
      room = some c.sink.bytes.size ∧
      (∀ more, (c.session more).sink.bytes = c.sink.bytes) ∧
      c.finish.2.pending = c.pending) ∧
    (c.finish.1 = .error .sinkFull → c.finish.2.pending = c.pending) := by
  intro start c emitted
  obtain ⟨hmode, hroom⟩ := start.session_keeps requests
  have hbuffered (h : mode = .buffered) (w : Word) :
      (c.output w).result = .ok () ∧ (c.output w).device.sink = c.sink := by
    rw [Console.output_buffered (hmode.trans h)]
    exact ⟨rfl, rfl⟩
  have hstart : start.Fresh := ⟨rfl, rfl⟩
  rcases hstart.intact.session requests with ⟨hnone, hintact⟩ | ⟨hfailed, hstuck⟩
  · refine ⟨⟨_, hintact.accounted⟩, ?_, ?_, fun h => absurd h hnone, ?_⟩
    · intro hinteractive
      have hmode' := hmode.trans hinteractive
      exact ⟨hintact.tidy hmode', fun _ => hintact.toList_bytes hmode'⟩
    · intro h
      exact ⟨hbuffered h, ⟨_, hintact.accounted⟩, fun _ => hintact.accounted⟩
    · intro hfull
      rcases Console.finish_cases hintact.within with ⟨result, flushes, hfine, hfinish, -⟩ | ⟨k, hfinish, -⟩
      · exact absurd ((congrArg Prod.fst hfinish).symm.trans hfull) hfine
      · exact congrArg (·.2.pending) hfinish
  · obtain ⟨result, flushes, hfinish⟩ := hstuck.finish_eq
    have hpending : c.finish.2.pending = c.pending := congrArg (·.2.pending) hfinish
    refine ⟨hstuck.written, ?_, ?_, fun _ => ⟨?_, hstuck.session, hpending⟩, fun _ => hpending⟩
    · intro hinteractive
      exact ⟨hstuck.tidy (hmode.trans hinteractive), fun h => absurd hfailed h⟩
    · intro h
      exact ⟨hbuffered h, hstuck.held, fun h => absurd hfailed h⟩
    · exact hroom.symm.trans hstuck.full

/-- A sink with room for one byte that cannot be flushed. The first byte gets there although the
flush fails, and the second never does. -/
theorem output_accounted_for_unflushed :
    let start : Console := { mode := .buffered, sink := { room := some 1, flushRoom := some 0 } }
    let before : List Console.Request := [.output 65, .finish, .output 66]
    (¬ start.WriteFailed before ∧ (start.session before).sink.bytes.toList ++
      (start.session before).pending.toList = [65, 66]) ∧
    start.WriteFailed (before ++ [.finish]) ∧
    some 1 = some (start.session (before ++ [.finish])).sink.bytes.size ∧
    ∀ more, ((start.session (before ++ [.finish])).session more).sink.bytes =
      (start.session (before ++ [.finish])).sink.bytes := by
  intro start before
  have hnone : ¬ start.WriteFailed before := by decide
  have hfailed : start.WriteFailed (before ++ [.finish]) := by decide
  have hemitted : before.flatMap Console.Request.emits = [65, 66] := by decide
  obtain ⟨-, -, hbuffered, -⟩ := output_accounted_for .buffered (some 1) (some 0) [] before
  obtain ⟨-, -, haccounted⟩ := hbuffered rfl
  obtain ⟨-, -, -, hstuck, -⟩ :=
    output_accounted_for .buffered (some 1) (some 0) [] (before ++ [.finish])
  obtain ⟨hroom, hstays, -⟩ := hstuck hfailed
  exact ⟨⟨hnone, (haccounted hnone).trans hemitted⟩, hfailed, hroom, hstays⟩

end WordMachine
