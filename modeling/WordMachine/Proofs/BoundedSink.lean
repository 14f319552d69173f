import WordMachine.Proofs.Action
import WordMachine.Proofs.Console
import WordMachine.Proofs.Range
import WordMachine.Proofs.RunSteps

/-!
# Consoles with sinks that get full

A sink with room for so many bytes takes the same bytes as one without a limit, as many as there is
room for, and fails once more are written. What that means for a run depends on when the console
writes: in interactive mode the run goes as without a limit up to the first `out` that finds no room
for all its bytes, and fails there; in buffered mode the run does not notice, and finishing fails.

* `Console.limit` — the console with a limit for its sink.
* `Machine.step_map`, `Machine.step_limit` — a step is the same with another device if that gives
  the same answer to the call of the step, and with a limited console if its sink has room.
* `Machine.runUntil_limit`, `Machine.runUntil_cut` — the run with a limit, where the output fits and
  where it does not.
* `bounded_sink_cuts_output` — both modes together, and what the sink holds in the end.
-/

namespace WordMachine

/-! ### Devices instead of others -/

/-- The same answer from another device. -/
def Reply.map {δ ε α : Type} (f : δ → ε) (reply : Reply δ α) : Reply ε α :=
  { reply with device := f reply.device }

/-- The same step with another device. -/
def Step.map {δ ε : Type} (f : δ → ε) (step : Step δ) : Step ε :=
  { step with device := f step.device }

/-- The same run with another device. -/
def Run.map {δ ε : Type} (f : δ → ε) (run : Run δ) : Run ε :=
  { run with device := f run.device }

theorem Machine.settle_map {δ ε : Type} (f : δ → ε) (m : Machine) (d : δ) (log : List Record) :
    m.settle (f d) log = (m.settle d log).map f := by
  unfold settle
  split
  · rfl
  · rfl

/-- **A step is the same with another device** if that answers the call of the step the same. -/
theorem Machine.step_map {δ ε : Type} [Device δ] [Device ε] (f : δ → ε) {m : Machine} {d : δ}
    (output : ∀ i w, m.decode m.pc = .ok i → m.action i = .ok (.output w) →
      Device.output (f d) w = (Device.output d w).map f)
    (input : Device.input (f d) = (Device.input d).map f) : m.step (f d) = (m.step d).map f := by
  unfold Machine.step
  split
  · rfl
  · split
    · next i decoded =>
      unfold Machine.execute
      cases action : m.action i with
      | error e => rfl
      | ok a =>
        cases a with
        | effect e => exact settle_map f _ d _
        | output w =>
          simp only [output i w decoded action]
          rcases Device.output d w with ⟨- | ⟨⟩, d', log⟩
          · rfl
          · exact settle_map f _ d' _
        | input dst =>
          simp only [input]
          rcases (Device.input d : Reply δ (Option Word)) with ⟨- | - | w, d', log⟩
          · rfl
          · rfl
          · exact settle_map f _ d' _
    · next w refused =>
      cases m.policy with
      | skip => exact settle_map f _ d _
      | fault => rfl
    · rfl

/-! ### Sinks with a limit -/

namespace Sink

/-- The sink with room for `n` bytes. -/
def limit (n : Nat) (s : Sink) : Sink := { s with room := some n }

/-- The sink with only the first `n` of its bytes. -/
def crop (n : Nat) (s : Sink) : Sink := { s with bytes := s.bytes.take n }

variable {n : Nat} {s : Sink}

theorem toList_crop (n : Nat) (s : Sink) : (s.crop n).bytes.toList = s.bytes.toList.take n := by
  simp [crop]

theorem crop_of_le (h : s.bytes.size ≤ n) : s.crop n = s := by
  rw [crop, Array.take_eq_extract, Array.extract_eq_self_of_le h]

/-- **A sink with a limit takes what fits**, and fails if that is not all. -/
theorem write_limit (within : s.bytes.size ≤ n) (bytes : List UInt8) :
    (s.limit n).write bytes =
      (if s.bytes.size + bytes.length ≤ n then .ok () else .error .sinkFull,
        ((s.after bytes 0).crop n).limit n) := by
  have hfits : (s.limit n).fitting bytes.length = min bytes.length (n - s.bytes.size) := rfl
  have hall : min bytes.length (n - s.bytes.size) = bytes.length ↔
      s.bytes.size + bytes.length ≤ n := by
    omega
  have hbytes : (s.limit n).bytes.appendList (bytes.take (min bytes.length (n - s.bytes.size))) =
      ((s.after bytes 0).crop n).bytes := by
    have hsize : s.bytes.toList.length = s.bytes.size := Array.length_toList
    have hsink : s.bytes.toList.take n = s.bytes.toList := List.take_of_length_le (hsize ▸ within)
    rw [← Array.toList_inj, toList_crop, toList_after, List.take_append, hsink, hsize,
      Array.appendList_eq_append, Array.toList_appendList, Nat.min_comm, ← List.take_take,
      List.take_length]
    rfl
  rw [write, hfits, hbytes]
  simp only [hall]
  rfl

theorem Unlimited.flush_limit (h : s.Unlimited) (n : Nat) :
    (s.limit n).flush = (.ok (), (s.after [] 1).limit n) := by
  simp [flush, limit, Sink.after, h.flushRoom]

theorem Unlimited.writeThrough_limit (h : s.Unlimited) {bytes : List UInt8}
    (fits : s.bytes.size + bytes.length ≤ n) :
    (s.limit n).writeThrough bytes = (.ok (), (s.after bytes 1).limit n) := by
  have hcrop : (s.after bytes 0).crop n = s.after bytes 0 :=
    crop_of_le (by rwa [size_after])
  rw [writeThrough, write_limit (by omega), if_pos fits, hcrop]
  show flush ((s.after bytes 0).limit n) = _
  rw [(h.after bytes 0).flush_limit, after_after, List.append_nil, Nat.zero_add]

/-- What does not fit is cut, and there is no flush. -/
theorem writeThrough_limit_of_lt (within : s.bytes.size ≤ n) {bytes : List UInt8}
    (beyond : n < s.bytes.size + bytes.length) :
    (s.limit n).writeThrough bytes = (.error .sinkFull, ((s.after bytes 0).crop n).limit n) := by
  rw [writeThrough, write_limit within, if_neg (Nat.not_le.2 beyond)]

end Sink

/-! ### Consoles with a limit -/

namespace Console

variable {n : Nat} {c c' : Console}

/-- The console with room for `n` bytes in its sink. -/
def limit (n : Nat) (c : Console) : Console := { c with sink := c.sink.limit n }

/-- The console that has put out the bytes of a word, but for those that are past the first `n`. -/
def cut (n : Nat) (c : Console) (w : Word) : Console :=
  { c with sink := (c.sink.after (encode w) 0).crop n }

theorem toList_cut (n : Nat) (c : Console) (w : Word) :
    (c.cut n w).sink.bytes.toList = (c.sink.bytes.toList ++ encode w).take n := by
  rw [cut, Sink.toList_crop, Sink.toList_after]

/-- Nothing is written to read. -/
theorem input_limit (n : Nat) (c : Console) : (c.limit n).input = c.input.map (limit n) := by
  obtain ⟨mode, sink, pending, script, source⟩ := c
  cases script with
  | cons b script => rfl
  | nil =>
    cases source with
    | cons b source => rfl
    | nil => rfl

/-- **While there is room**, a limit makes no difference. -/
theorem output_limit (hs : c.sink.Unlimited) {w : Word}
    (fits : (c.output w).device.sink.bytes.size ≤ n) :
    (c.limit n).output w = (c.output w).map (limit n) := by
  cases hmode : c.mode with
  | buffered =>
    have hmode' : (c.limit n).mode = .buffered := hmode
    rw [output_buffered hmode, output_buffered hmode']
    rfl
  | interactive =>
    rw [output_interactive hmode hs, Sink.size_after] at fits
    rw [output_interactive hmode hs, output]
    simp only [limit, hmode, hs.writeThrough_limit fits]
    rfl

/-- **When there is no more room**, the console fails, and the sink is full. -/
theorem output_limit_of_lt (hmode : c.mode = .interactive) (within : c.sink.bytes.size ≤ n)
    {w : Word} (beyond : n < c.sink.bytes.size + (encode w).length) :
    (c.limit n).output w = ⟨.error .sinkFull, (c.cut n w).limit n, []⟩ := by
  rw [output]
  simp only [limit, cut, hmode, Sink.writeThrough_limit_of_lt within beyond]

/-- Finishing with a limit: what is held back is written as far as there is room. -/
theorem finish_limit (hs : c.sink.Unlimited) (within : c.sink.bytes.size ≤ n) :
    (c.limit n).finish.1 =
        (if c.sink.bytes.size + c.pending.size ≤ n then .ok () else .error .sinkFull) ∧
      (c.limit n).finish.2.sink.bytes.toList =
        (c.sink.bytes.toList ++ c.pending.toList).take n := by
  have htake (fits : c.sink.bytes.size + c.pending.size ≤ n) :
      (c.sink.bytes.toList ++ c.pending.toList).take n =
        c.sink.bytes.toList ++ c.pending.toList := by
    apply List.take_of_length_le
    rwa [List.length_append, Array.length_toList, Array.length_toList]
  rw [finish]
  split
  · next hempty =>
    have hpending : c.pending = #[] := Array.isEmpty_iff.1 hempty
    have fits : c.sink.bytes.size + c.pending.size ≤ n := by
      rw [hpending]
      exact within
    have hflush : (c.limit n).sink.flush = _ := hs.flush_limit n
    rw [hflush, if_pos fits, htake fits, hpending]
    exact ⟨rfl, c.sink.toList_after [] 1⟩
  · have hwrite : (c.limit n).sink.write (c.limit n).pending.toList = _ :=
      Sink.write_limit within c.pending.toList
    rw [hwrite, Array.length_toList]
    by_cases fits : c.sink.bytes.size + c.pending.size ≤ n
    · have hcrop : (c.sink.after c.pending.toList 0).crop n = c.sink.after c.pending.toList 0 := by
        apply Sink.crop_of_le
        rwa [Sink.size_after, Array.length_toList]
      have hflush := (hs.after c.pending.toList 0).flush_limit n
      rw [if_pos fits, htake fits, hcrop]
      simp only [hflush, Sink.after_after, List.append_nil]
      exact ⟨trivial, c.sink.toList_after _ 1⟩
    · rw [if_neg fits]
      refine ⟨rfl, ?_⟩
      rw [← c.sink.toList_after c.pending.toList 0]
      exact Sink.toList_crop n _

/-- A console that is cut and finished has written what it would have written, as far as there is
room. -/
theorem finish_cut (hmode : c.mode = .interactive) (hs : c.sink.Unlimited)
    (hpending : c.pending = #[]) (n : Nat) (w : Word) :
    ((c.cut n w).limit n).finish.2.sink.bytes.toList =
      (c.output w).device.sink.bytes.toList.take n := by
  have hcut : (c.cut n w).sink.Unlimited := ⟨hs.room, hs.flushRoom⟩
  have within : (c.cut n w).sink.bytes.size ≤ n := by
    rw [← Array.length_toList, toList_cut]
    exact List.length_take_le n _
  have hheld : (c.cut n w).pending = #[] := hpending
  rw [(finish_limit hcut within).2, hheld, List.append_nil, toList_cut, List.take_take,
    Nat.min_self, output_interactive hmode hs, Sink.toList_after]

/-- What calls do to a console: they write to the sink, or behind what is held back. -/
theorem eq_of_leads (h : Device.Leads c c') (hs : c.sink.Unlimited) :
    c'.mode = c.mode ∧ (c.mode = .interactive → c'.pending = c.pending) ∧
      ∃ bytes flushes, c'.sink = c.sink.after bytes flushes := by
  induction h with
  | refl => exact ⟨rfl, fun _ => rfl, [], 0, by simp [Sink.after]⟩
  | @output c' w _ ih =>
    obtain ⟨hmode, hpending, bytes, flushes, hsink⟩ := ih
    have hs' : c'.sink.Unlimited := hsink ▸ hs.after bytes flushes
    cases hmode' : c'.mode with
    | interactive =>
      have houtput : Device.output c' w = _ := output_interactive hmode' hs' w
      rw [houtput]
      refine ⟨hmode, hpending, bytes ++ encode w, flushes + 1, ?_⟩
      rw [← Sink.after_after, ← hsink]
    | buffered =>
      have houtput : Device.output c' w = _ := output_buffered hmode' w
      rw [houtput]
      refine ⟨hmode, ?_, bytes, flushes, hsink⟩
      intro hinteractive
      cases hmode'.symm.trans (hmode.trans hinteractive)
  | @input c' _ ih =>
    obtain ⟨script, source, log, hinput, -⟩ := c'.input_eq
    have hinput' : Device.input c' = _ := hinput
    rw [hinput']
    exact ih

theorem unlimited_of_leads (h : Device.Leads c c') (hs : c.sink.Unlimited) :
    c'.sink.Unlimited := by
  obtain ⟨-, -, bytes, flushes, hsink⟩ := eq_of_leads h hs
  exact hsink ▸ hs.after bytes flushes

end Console
/-! ### Steps -/

theorem Rig.leads_after {δ : Type} [Device δ] (r : Rig δ) {j k : Nat} (h : j ≤ k) :
    Device.Leads (r.after j).device (r.after k).device := by
  induction k with
  | zero =>
    cases Nat.le_zero.1 h
    exact .refl
  | succ k ih =>
    rcases Nat.lt_or_eq_of_le h with hlt | rfl
    · exact (ih (Nat.le_of_lt_succ hlt)).trans (Rig.leads_step _)
    · exact .refl

namespace Machine

variable {n : Nat} {m : Machine} {c : Console}

/-- **While there is room**, a step does not notice the limit. -/
theorem step_limit (hs : c.sink.Unlimited) (fits : (m.step c).device.sink.bytes.size ≤ n) :
    m.step (c.limit n) = (m.step c).map (Console.limit n) := by
  apply step_map
  · intro i w decoded action
    cases action_eq_ok_iff.1 action with
    | out =>
      have hdevice : (m.step c).device = _ := (Rig.step_out (r := ⟨m, c⟩) decoded).1
      rw [hdevice] at fits
      exact Console.output_limit hs fits
  · exact Console.input_limit n c

/-- **Only an `out` writes.** -/
theorem step_writes (m : Machine) (c : Console) :
    (m.step c).device.sink = c.sink ∨ ∃ a, m.decode m.pc = .ok (.out a) ∧
      (m.step c).device = (c.output (m.value a)).device := by
  rcases Rig.call_cases ⟨m, c⟩ with ⟨a, h⟩ | ⟨dst, h⟩ | h
  · exact .inr ⟨a, h, (Rig.step_out h).1⟩
  · obtain ⟨script, source, log, hinput, -⟩ := c.input_eq
    have hdevice : (m.step c).device = c.input.device := (Rig.step_inp h).1
    rw [hdevice, hinput]
    exact .inl rfl
  · exact .inl (congrArg Console.sink (Rig.step_of_call?_eq_none h).1)

/-- **A step for which there is no more room** is an `out`, and it fails. -/
theorem fails_of_lt (hmode : c.mode = .interactive) (hs : c.sink.Unlimited)
    (within : c.sink.bytes.size ≤ n) (beyond : n < (m.step c).device.sink.bytes.size) :
    ∃ a, m.decode m.pc = .ok (.out a) ∧
      m.Fails (c.limit n) ⟨m.pc, some .out, .device .sinkFull⟩ ((c.cut n (m.value a)).limit n) := by
  rcases step_writes m c with hsink | ⟨a, decoded, hdevice⟩
  · rw [hsink] at beyond
    omega
  · rw [hdevice, Console.output_interactive hmode hs, Sink.size_after] at beyond
    have hfull : Device.output (c.limit n) (m.value a) = _ :=
      Console.output_limit_of_lt hmode within beyond
    have hfails : m.Fails (c.limit n) _ _ := .output (isHalted_of_decode decoded) decoded rfl
      (congrArg Reply.result hfull)
    rw [hfull] at hfails
    exact ⟨a, decoded, hfails⟩

end Machine

/-! ### Runs -/

/-- How a run with room for `n` bytes ends that is **cut**: at a step that the run without a limit
makes after `k` others, and for which there is no more room. -/
structure Run.CutAt (run : Run Console) (n : Nat) (r : Rig Console) (k : Nat) : Prop where
  /-- There was room for all output before. -/
  fits (j : Nat) (before : j ≤ k) : (r.after j).device.sink.bytes.size ≤ n
  /-- There is none for the output of this step. -/
  beyond : n < (r.after (k + 1)).device.sink.bytes.size
  outcome : run.outcome = .faulted ⟨(r.after k).machine.pc, some .out, .device .sinkFull⟩
  tries : run.tries = k
  machine : run.machine = (r.after k).machine
  instruction : ∃ a, (r.after k).machine.decode (r.after k).machine.pc = .ok (.out a) ∧
    run.device = ((r.after k).device.cut n ((r.after k).machine.value a)).limit n

/-- A step for which there is room may come before a run that is cut. -/
theorem Run.CutAt.behind {run : Run Console} {n : Nat} {r : Rig Console} {k : Nat}
    (h : run.CutAt n r.step k) (within : r.device.sink.bytes.size ≤ n) (log : Array Record) :
    (run.behind 1 log).CutAt n r (k + 1) where
  fits j before := by
    cases j with
    | zero => exact within
    | succ j =>
      rw [Rig.after_succ_left]
      exact h.fits j (Nat.le_of_succ_le_succ before)
  beyond := by
    rw [Rig.after_succ_left]
    exact h.beyond
  outcome := by
    rw [Rig.after_succ_left]
    exact h.outcome
  tries := by rw [Run.behind, h.tries, Nat.add_comm]
  machine := by
    rw [Rig.after_succ_left]
    exact h.machine
  instruction := by
    rw [Rig.after_succ_left]
    exact h.instruction

namespace Machine

variable {n : Nat} {c : Console}

/-- A run only adds to what is in the sink. -/
theorem size_le_runUntil (hs : c.sink.Unlimited) (keep : Record → Bool)
    (stop : Machine → Nat → Bool) (fuel : Nat) (m : Machine) :
    c.sink.bytes.size ≤ (m.runUntil keep stop fuel c).device.sink.bytes.size := by
  obtain ⟨k, hrig, -⟩ := (runUntil_follows keep stop fuel m c).exists_after
  have hleads := Rig.leads_after ⟨m, c⟩ (Nat.zero_le k)
  rw [← hrig] at hleads
  obtain ⟨-, -, bytes, flushes, hsink⟩ := Console.eq_of_leads hleads hs
  show _ ≤ (m.runUntil keep stop fuel c).rig.device.sink.bytes.size
  rw [hsink, Sink.size_after]
  exact Nat.le_add_right _ _

/-- **While there is room**, a run does not notice the limit. -/
theorem runUntil_limit (hs : c.sink.Unlimited) (keep : Record → Bool)
    (stop : Machine → Nat → Bool) (fuel : Nat) (m : Machine)
    (fits : (m.runUntil keep stop fuel c).device.sink.bytes.size ≤ n) :
    m.runUntil keep stop fuel (c.limit n) =
      (m.runUntil keep stop fuel c).map (Console.limit n) := by
  induction fuel generalizing stop m c with
  | zero => rfl
  | succ fuel ih =>
    rcases hstep : m.step c with ⟨result, m', c', records⟩
    have hleads : Device.Leads c (m.step c).device := Rig.leads_step ⟨m, c⟩
    rw [hstep] at hleads
    have limited (room : c'.sink.bytes.size ≤ n) :
        m.step (c.limit n) = ⟨result, m', c'.limit n, records⟩ := by
      rw [step_limit hs (by rwa [hstep]), hstep]
      rfl
    cases result with
    | error f =>
      rw [runUntil_of_error hstep] at fits ⊢
      rw [runUntil_of_error (limited fits)]
      rfl
    | ok status =>
      cases status with
      | halted =>
        rw [runUntil_of_halted hstep] at fits ⊢
        rw [runUntil_of_halted (limited fits)]
        rfl
      | running =>
        cases tried : stop m' 1 with
        | true =>
          rw [runUntil_of_hit hstep tried] at fits ⊢
          rw [runUntil_of_hit (limited fits) tried]
          rfl
        | false =>
          rw [runUntil_of_missed hstep tried] at fits ⊢
          have hs' := Console.unlimited_of_leads hleads hs
          have room := Nat.le_trans (size_le_runUntil hs' keep _ fuel m') fits
          rw [runUntil_of_missed (limited room) tried, ih hs' _ m' fits]
          rfl

/-- **When there is no more room**, a run in interactive mode is cut. -/
theorem runUntil_cut (hmode : c.mode = .interactive) (hs : c.sink.Unlimited)
    (within : c.sink.bytes.size ≤ n) (keep : Record → Bool) (stop : Machine → Nat → Bool)
    (fuel : Nat) (m : Machine)
    (beyond : n < (m.runUntil keep stop fuel c).device.sink.bytes.size) :
    ∃ k, (m.runUntil keep stop fuel (c.limit n)).CutAt n ⟨m, c⟩ k := by
  induction fuel generalizing stop m c with
  | zero => exact absurd within (Nat.not_le.2 beyond)
  | succ fuel ih =>
    rcases hstep : m.step c with ⟨result, m', c', records⟩
    have hrig : Rig.step ⟨m, c⟩ = ⟨m', c'⟩ := by rw [Rig.step, hstep]
    have hleads : Device.Leads c (m.step c).device := Rig.leads_step ⟨m, c⟩
    rw [hstep] at hleads
    have hs' := Console.unlimited_of_leads hleads hs
    have hmode' := (Console.eq_of_leads hleads hs).1.trans hmode
    by_cases room : c'.sink.bytes.size ≤ n
    · have limited : m.step (c.limit n) = ⟨result, m', c'.limit n, records⟩ := by
        rw [step_limit hs (by rwa [hstep]), hstep]
        rfl
      have ended (last : (m.runUntil keep stop (fuel + 1) c).device = c') : False := by
        rw [last] at beyond
        exact absurd room (Nat.not_le.2 beyond)
      cases result with
      | error f => exact (ended (by rw [runUntil_of_error hstep])).elim
      | ok status =>
        cases status with
        | halted => exact (ended (by rw [runUntil_of_halted hstep])).elim
        | running =>
          cases tried : stop m' 1 with
          | true => exact (ended (by rw [runUntil_of_hit hstep tried])).elim
          | false =>
            rw [runUntil_of_missed hstep tried] at beyond
            obtain ⟨k, hk⟩ := ih hmode' hs' room _ m' beyond
            rw [← hrig] at hk
            rw [runUntil_of_missed limited tried]
            exact ⟨k + 1, hk.behind within _⟩
    · have hbeyond : n < (m.step c).device.sink.bytes.size := by
        rw [hstep]
        exact Nat.not_le.1 room
      obtain ⟨a, decoded, hfails⟩ := fails_of_lt hmode hs within hbeyond
      obtain ⟨log, hlimited⟩ := hfails.step_eq
      rw [runUntil_of_error hlimited]
      refine ⟨0, ?_, hbeyond, rfl, rfl, rfl, a, decoded, rfl⟩
      intro j hj
      cases Nat.le_zero.1 hj
      exact within

end Machine

/-- What a run has written once its console is finished. -/
def Run.written (run : Run Console) : List UInt8 := run.device.finish.2.sink.bytes.toList

/-- **What a run that is cut has written** is what there was room for, of all that was written and
what the step would have written. -/
theorem Run.CutAt.written_eq {run : Run Console} {n : Nat} {r : Rig Console} {k : Nat}
    (h : run.CutAt n r k) (hmode : (r.after k).device.mode = .interactive)
    (hs : (r.after k).device.sink.Unlimited) (hpending : (r.after k).device.pending = #[]) :
    run.written = (r.after (k + 1)).device.sink.bytes.toList.take n := by
  obtain ⟨a, decoded, hdevice⟩ := h.instruction
  have hnext : (r.after (k + 1)).device = _ := (Rig.step_out decoded).1
  rw [Run.written, hdevice, hnext]
  exact Console.finish_cut hmode hs hpending n _

/-- **A run that has more output than there is room for** is cut at a step that it makes without a
limit, and has then written as much of its output as there was room for. -/
theorem Machine.cut_runUntil {c : Console} (hmode : c.mode = .interactive) (hs : c.sink.Unlimited)
    (hpending : c.pending = #[]) {n : Nat} (within : c.sink.bytes.size ≤ n) (keep : Record → Bool)
    (stop : Machine → Nat → Bool) (fuel : Nat) (m : Machine) :
    let whole := m.runUntil keep stop fuel c
    let run := m.runUntil keep stop fuel (c.limit n)
    n < whole.device.sink.bytes.size → ∃ k ≤ whole.tries,
      run.CutAt n ⟨m, c⟩ k ∧ run.written = whole.device.sink.bytes.toList.take n := by
  intro whole run beyond
  obtain ⟨k, hk⟩ := runUntil_cut hmode hs within keep stop fuel m beyond
  let r : Rig Console := ⟨m, c⟩
  obtain ⟨e, hrig, he⟩ := (runUntil_follows keep stop fuel m c).exists_after
  have hlast : whole.device = (r.after e).device := congrArg Rig.device hrig
  -- the whole run makes the step at which the other is cut, since it has more bytes in the end
  have hke : k < e := by
    apply Nat.lt_of_not_le
    intro hek
    have hfits := hk.fits e hek
    rw [← hlast] at hfits
    exact absurd hfits (Nat.not_le.2 beyond)
  have hunlimited (j : Nat) : (r.after j).device.sink.Unlimited :=
    Console.unlimited_of_leads (r.leads_after (Nat.zero_le j)) hs
  obtain ⟨hmode', hpending', -⟩ := Console.eq_of_leads (r.leads_after (Nat.zero_le k)) hs
  have hwritten := hk.written_eq (hmode'.trans hmode) (hunlimited k)
    ((hpending' hmode).trans hpending)
  obtain ⟨-, -, bytes, flushes, hsink⟩ :=
    Console.eq_of_leads (r.leads_after hke) (hunlimited (k + 1))
  have hlonger : n ≤ (r.after (k + 1)).device.sink.bytes.toList.length := Nat.le_of_lt hk.beyond
  refine ⟨k, Nat.le_of_lt_succ (Nat.lt_of_lt_of_le hke he), hk, ?_⟩
  rw [hwritten, hlast, hsink, Sink.toList_after, List.take_append_of_le_length hlonger]

/-- **Where a limit was not noticed**, it is when the console is finished. -/
theorem Run.finish_limit {run : Run Console} {n : Nat} (hs : run.device.sink.Unlimited)
    (within : run.device.sink.bytes.size ≤ n) :
    (run.map (Console.limit n)).device.finish.1 =
        (if run.written.length ≤ n then .ok () else .error .sinkFull) ∧
      (run.map (Console.limit n)).written = run.written.take n := by
  obtain ⟨flushes, hfinish⟩ := Console.finish_eq hs
  have hwritten : run.written = run.device.sink.bytes.toList ++ run.device.pending.toList := by
    rw [written, hfinish]
    exact Sink.toList_after _ _ flushes
  rw [hwritten, List.length_append, Array.length_toList, Array.length_toList]
  exact Console.finish_limit hs within

/-- In either mode a run without a limit writes the text that a recorder records. -/
theorem Machine.exists_renders (keep : Record → Bool) (stop : Machine → Nat → Bool) (fuel : Nat)
    (m : Machine) (input : List UInt8) : ∃ recorder, ∀ mode, Console.Renders mode {} recorder
      (m.runUntil keep stop fuel ({ mode, source := input } : Console)).device := by
  refine ⟨(m.runUntil keep stop fuel (Recorder.ofBytes input)).device, ?_⟩
  intro mode
  have hstart : Rig.Related (Console.Renders mode {}) ⟨m, .ofBytes input⟩
      ⟨m, { mode, source := input }⟩ := ⟨rfl, Console.Renders.start ⟨rfl, rfl⟩ mode [] input⟩
  have hrun := hstart.runFrom (Console.Renders.alike mode {}) keep keep stop fuel 0 #[] #[]
  exact hrun.2.2.device

/-- **A sink with room for so many bytes cuts the output short**, at the same byte in either mode;
the modes differ in when that is noticed. In interactive mode a run goes as without a limit if there
is room for all of its output, and is otherwise cut at the first `out` that finds no room. In
buffered mode it always goes as without a limit, and finishing fails if there is not enough room. -/
theorem bounded_sink_cuts_output (keep : Record → Bool) (stop : Machine → Nat → Bool) (fuel : Nat)
    (m : Machine) (input : List UInt8) (n : Nat) :
    let console (mode : Console.Mode) (room : Option Nat) : Console :=
      { mode, sink := { room }, source := input }
    let run (mode : Console.Mode) (room : Option Nat) : Run Console :=
      m.runUntil keep stop fuel (console mode room)
    let all := (run .interactive none).written
    (run .buffered none).written = all ∧
    (all.length ≤ n →
      run .interactive (some n) = (run .interactive none).map (Console.limit n)) ∧
    (n < all.length → ∃ k ≤ (run .interactive none).tries,
      (run .interactive (some n)).CutAt n ⟨m, console .interactive none⟩ k) ∧
    run .buffered (some n) = (run .buffered none).map (Console.limit n) ∧
    (run .buffered (some n)).device.finish.1 =
      (if all.length ≤ n then .ok () else .error .sinkFull) ∧
    ∀ mode, (run mode (some n)).written = all.take (min n all.length) := by
  intro console run all
  obtain ⟨recorder, hrenders⟩ := Machine.exists_renders keep stop fuel m input
  have hunlimited (mode : Console.Mode) : (console mode none).sink.Unlimited := ⟨rfl, rfl⟩
  have hlimit (mode : Console.Mode) : run mode (some n) =
      m.runUntil keep stop fuel ((console mode none).limit n) := rfl
  -- all output is in the sink at once in the one mode, and held back in the other
  have hwritten : (run .buffered none).written = all :=
    (hrenders .buffered).finish.2.trans (hrenders .interactive).finish.2.symm
  obtain ⟨-, flushes, hsink⟩ := (hrenders .interactive).interactive rfl
  have hbytes : (run .interactive none).device.sink.bytes.toList = all :=
    (congrArg (·.bytes.toList) hsink).trans
      ((Sink.toList_after {} _ flushes).trans (hrenders .interactive).finish.2.symm)
  have hsize : (run .interactive none).device.sink.bytes.size = all.length := by
    rw [← hbytes, Array.length_toList]
  have hroom : (run .buffered none).device.sink.bytes.size ≤ n := by
    have hempty : (run .buffered none).device.sink = {} := ((hrenders .buffered).buffered rfl).2
    rw [hempty]
    exact Nat.zero_le n
  have hcut (beyond : n < all.length) :=
    Machine.cut_runUntil rfl (hunlimited .interactive) rfl (Nat.zero_le n) keep stop fuel m
      (hsize.symm ▸ beyond)
  have hfits (fits : all.length ≤ n) :
      run .interactive (some n) = (run .interactive none).map (Console.limit n) := by
    rw [hlimit]
    exact Machine.runUntil_limit (hunlimited _) keep stop fuel m (hsize ▸ fits)
  have hbuffered : run .buffered (some n) = (run .buffered none).map (Console.limit n) := by
    rw [hlimit]
    exact Machine.runUntil_limit (hunlimited _) keep stop fuel m hroom
  refine ⟨hwritten, hfits, ?_, hbuffered, ?_, ?_⟩
  · intro beyond
    obtain ⟨k, hk, hkcut, -⟩ := hcut beyond
    exact ⟨k, hk, hkcut⟩
  · rw [hbuffered, ← hwritten]
    exact (Run.finish_limit (hrenders .buffered).sink_unlimited hroom).1
  · intro mode
    rw [← List.take_take, List.take_length]
    cases mode with
    | interactive =>
      rcases Nat.lt_or_ge n all.length with beyond | fits
      · obtain ⟨k, -, -, hkwritten⟩ := hcut beyond
        rw [hbytes] at hkwritten
        exact hkwritten
      · rw [hfits fits]
        exact (Run.finish_limit (hrenders .interactive).sink_unlimited (hsize ▸ fits)).2
    | buffered =>
      rw [hbuffered, ← hwritten]
      exact (Run.finish_limit (hrenders .buffered).sink_unlimited hroom).2

/-- A sink with room for the first byte of a character that takes two. -/
theorem bounded_sink_cuts_output_letter :
    let m := Machine.loaded .fault #[19, 233, 0]
    let run (mode : Console.Mode) (room : Option Nat) : Run Console :=
      m.runUntil (fun _ => true) (fun _ _ => true) 1 { mode, sink := { room } }
    (run .interactive none).written = [195, 169] ∧
      (∃ k ≤ (run .interactive none).tries,
        (run .interactive (some 1)).CutAt 1 ⟨m, { mode := .interactive }⟩ k) ∧
      (run .buffered (some 1)).device.finish.1 = .error .sinkFull ∧
      ∀ mode, (run mode (some 1)).written = [195] := by
  -- of the machine only the instruction matters
  have hletter : ∀ m : Machine, m.pc = 0 → m.decode 0 = .ok (.out (.literal ⟨233, by decide⟩)) →
      (m.runUntil (fun _ => true) (fun _ _ => true) 1
        ({ mode := .interactive } : Console)).written = [195, 169] := by
    intro m hm decoded
    rw [← hm] at decoded
    have hadv : m.Advances ({ mode := .interactive } : Console) _ _ :=
      .perform (Machine.isHalted_of_decode decoded) decoded (.output rfl rfl)
    have hstatus : (m.apply (m.next (.out (.literal ⟨233, by decide⟩))) .next).status =
        .running := by
      rw [Machine.status_eq_running_iff, Machine.isHalted_eq_false_iff, Machine.apply,
        Machine.toNat_next decoded, hm]
      decide
    obtain ⟨log, hs⟩ := hadv.step_eq
    rw [hstatus] at hs
    rw [Machine.runUntil_of_hit hs rfl]
    show (Console.output { mode := .interactive } 233).device.finish.2.sink.bytes.toList = _
    decide
  have hwritten := hletter (Machine.loaded .fault #[19, 233, 0]) rfl
    (Machine.decode_loaded (by decide) rfl)
  obtain ⟨-, -, hcut, -, hfinish, hall⟩ := bounded_sink_cuts_output (fun _ => true)
    (fun _ _ => true) 1 (Machine.loaded .fault #[19, 233, 0]) [] 1
  rw [hwritten] at hcut hfinish hall
  exact ⟨hwritten, hcut (by decide), hfinish, hall⟩

end WordMachine
