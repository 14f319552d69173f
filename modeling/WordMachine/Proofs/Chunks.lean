import WordMachine.Proofs.Causes
import WordMachine.Proofs.Console
import WordMachine.Proofs.Run

/-!
# Input in chunks

A program that waits for input need not be given all of it at the start. When a run ends for want of
input, more can be queued on the console and the machine run again (`Machine.runChunks`), which goes
on as if the input had been there: failing to read changes neither the machine nor the console.

The proof runs the machine against two consoles, one of which is **ahead** of the other: it has the
same behind it and more to read. The chunks that are still to come are what it has more. As long as
there is something to read the consoles answer alike (`Ahead.covers`); the run that has less comes
to a stop where it has read all, and the next chunk brings it closer to the other (`Ahead.queue`).
-/

namespace WordMachine

/-! ### Consoles with more to read -/

/-- One console is **ahead** of another by some bytes if it has these more to read, and the two are
the same otherwise. -/
structure Console.Ahead (more : List UInt8) (c e : Console) : Prop where
  mode : e.mode = c.mode
  sink : e.sink = c.sink
  pending : e.pending = c.pending
  unread : e.unread = c.unread ++ more

namespace Console.Ahead

variable {more : List UInt8} {c e : Console}

theorem output (h : Ahead more c e) (w : Word) :
    (c.output w).result = (e.output w).result ∧
      Ahead more (c.output w).device (e.output w).device := by
  rw [Console.output, Console.output, h.mode, h.sink, h.pending]
  cases c.mode with
  | interactive => exact ⟨rfl, rfl, rfl, rfl, h.unread⟩
  | buffered => exact ⟨rfl, rfl, rfl, rfl, h.unread⟩

/-- Reading does not tell the two apart, unless the one has read all and the other has not. -/
theorem input (h : Ahead more c e) (left : c.unread ≠ [] ∨ more = []) :
    c.input.result = e.input.result ∧ Ahead more c.input.device e.input.device := by
  have hunread : e.unread.head? = c.unread.head? ∧ e.unread.tail = c.unread.tail ++ more := by
    rw [h.unread]
    rcases left with hc | rfl
    · obtain ⟨b, bs, hcons⟩ := List.exists_cons_of_ne_nil hc
      rw [hcons]
      exact ⟨rfl, rfl⟩
    · rw [List.append_nil, List.append_nil]
      exact ⟨rfl, rfl⟩
  obtain ⟨script, source, log, hc, hrest⟩ := c.input_eq
  obtain ⟨script', source', log', he, hrest'⟩ := e.input_eq
  rw [hc, he, hunread.1]
  refine ⟨rfl, h.mode, h.sink, h.pending, ?_⟩
  show script' ++ source' = script ++ source ++ more
  rw [hrest, hrest', hunread.2]

theorem covers (more : List UInt8) : Device.Covers (Ahead more) where
  output h w := h.output w
  input {c _} h hmore := by
    apply h.input
    left
    intro hnil
    apply hmore
    show c.input.result = .ok none
    rw [input_of_unread_nil hnil]

theorem alike : Device.Alike (Ahead []) where
  output h w := h.output w
  input h := h.input (.inr rfl)

/-- A console that has read all comes closer by what is queued. -/
theorem queue {chunk : List UInt8} (h : Ahead (chunk ++ more) c e) (hc : c.unread = []) :
    Ahead more (c.queue chunk).1 e := by
  obtain ⟨hscript, hsource⟩ := List.append_eq_nil_iff.1 hc
  refine ⟨h.mode, h.sink, h.pending, ?_⟩
  show e.unread = (c.script ++ chunk) ++ c.source ++ more
  rw [h.unread, hc, hscript, hsource, List.append_nil, List.nil_append, List.nil_append]

end Console.Ahead

/-- Where input is wanted and there is none, machine and console stay as they are. -/
theorem Rig.step_of_exhausted {r : Rig Console} {f : Fault} (h : r.answer = .error f)
    (hf : f.cause = .inputExhausted) : r.device.unread = [] ∧ r.step = r := by
  obtain ⟨m, c⟩ := r
  have hfails := Machine.fails_of_error h
  obtain ⟨hnothing, hdevice⟩ := hfails.of_inputExhausted hf
  have hread : c.unread = [] := by
    obtain ⟨script, source, log, hinput, -⟩ := c.input_eq
    have hresult : c.input.result = .ok none := hnothing
    rw [hinput] at hresult
    simpa using hresult
  refine ⟨hread, ?_⟩
  have hsame : (Device.input c).device = c := by
    show c.input.device = c
    rw [Console.input_of_unread_nil hread]
  rw [(Rig.step_of_fails hfails).2, hdevice, hsame]

/-! ### Runs that are given more -/

namespace Machine

/-- Runs the machine and, each time that this ends for want of input, queues the next of the chunks
and runs it again. The result is the last of the runs, with the chunks that were not needed. -/
def runChunks (keep : Record → Bool) (fuel : Nat) :
    (chunks : List (List UInt8)) → Machine → Console → Run Console × List (List UInt8)
  | [], m, c => (m.run keep fuel c, [])
  | chunk :: chunks, m, c =>
    let run := m.run keep fuel c
    match run.outcome with
    | .faulted ⟨_, _, .inputExhausted⟩ =>
      runChunks keep fuel chunks run.machine (run.device.queue chunk).1
    | _ => (run, chunk :: chunks)

variable {keep : Record → Bool} {fuel : Nat} {chunk : List UInt8} {chunks : List (List UInt8)}
  {m : Machine} {c e : Console}

theorem runChunks_of_exhausted {f : Fault} (h : (m.run keep fuel c).outcome = .faulted f)
    (hf : f.cause = .inputExhausted) :
    m.runChunks keep fuel (chunk :: chunks) c =
      (m.run keep fuel c).machine.runChunks keep fuel chunks
        ((m.run keep fuel c).device.queue chunk).1 := by
  obtain ⟨pc, opcode, cause⟩ := f
  obtain rfl : cause = .inputExhausted := hf
  rw [runChunks, h]

theorem runChunks_of_ended
    (h : ∀ f, (m.run keep fuel c).outcome = .faulted f → f.cause ≠ .inputExhausted) :
    m.runChunks keep fuel (chunk :: chunks) c = (m.run keep fuel c, chunk :: chunks) := by
  rw [runChunks]
  split
  · next pc opcode hrun => exact absurd rfl (h _ hrun)
  · rfl

/-- A run against a console, with the rules and a count that starts anywhere. -/
theorem run_goes (h : (m.run keep fuel c).outcome ≠ .unfinished) (n : Nat) :
    ∃ n', RunsTo (fun _ _ => false) n ⟨m, c⟩ (m.run keep fuel c).outcome n'
      (m.run keep fuel c).rig :=
  (runsTo_of_run h).recount n

/-- **A run in chunks goes the way of a run that has them all**, and comes to the same end. -/
theorem runChunks_goes (chunks : List (List UInt8)) (h : c.Ahead chunks.flatten e) (n : Nat) :
    let last := m.runChunks keep fuel chunks c
    last.1.outcome ≠ .unfinished → ∃ n' r,
      RunsTo (fun _ _ => false) n ⟨m, e⟩ last.1.outcome n' r ∧
        last.1.rig.Related (Console.Ahead last.2.flatten) r := by
  induction chunks generalizing m c e n with
  | nil =>
    intro last hended
    have hrelated : Rig.Related (Console.Ahead []) ⟨m, c⟩ ⟨m, e⟩ := ⟨rfl, h⟩
    obtain ⟨houtcome, -, hend⟩ :=
      hrelated.run Console.Ahead.alike keep keep fuel
    have hended' : (m.run keep fuel e).outcome ≠ .unfinished := by
      intro hun
      exact hended (houtcome.trans hun)
    obtain ⟨n', hgoes⟩ := run_goes hended' n
    refine ⟨n', _, ?_, hend⟩
    show RunsTo _ n ⟨m, e⟩ (m.run keep fuel c).outcome n' _
    rw [show (m.run keep fuel c).outcome = (m.run keep fuel e).outcome from houtcome]
    exact hgoes
  | cons chunk chunks ih =>
    have hrelated : Rig.Related (Console.Ahead (chunk :: chunks).flatten) ⟨m, c⟩ ⟨m, e⟩ := ⟨rfl, h⟩
    have hcovers := Console.Ahead.covers (chunk :: chunks).flatten
    by_cases hf : ∃ f, (m.run keep fuel c).outcome = .faulted f ∧ f.cause = .inputExhausted
    · obtain ⟨f, houtcome, hcause⟩ := hf
      rw [runChunks_of_exhausted houtcome hcause]
      intro last hended
      have hended' : (m.run keep fuel c).outcome ≠ .unfinished := by
        rw [houtcome]
        exact nofun
      obtain ⟨n₁, hgoes⟩ := run_goes hended' n
      rw [houtcome] at hgoes
      -- the other run is under way at `s₀`, with the chunks before it that are still to come
      obtain ⟨r₀, s₀, hs₀, hfails, hend, hon⟩ := hgoes.under_way hcovers hrelated
      obtain ⟨hread, hstays⟩ := Rig.step_of_exhausted hfails hcause
      rw [hstays] at hend
      subst hend
      obtain ⟨m₀, e₀⟩ := s₀
      obtain rfl : (m.run keep fuel c).machine = m₀ := hs₀.machine
      obtain ⟨n', r, hgoes', hr⟩ := ih (hs₀.device.queue hread) n₁ hended
      exact ⟨n', r, hon _ _ _ hgoes', hr⟩
    · rw [runChunks_of_ended fun f houtcome hcause => hf ⟨f, houtcome, hcause⟩]
      intro last hended
      obtain ⟨n', hgoes⟩ := run_goes hended n
      obtain ⟨r, hr, hgoes'⟩ :=
        hgoes.covers hcovers hrelated fun f houtcome hcause => hf ⟨f, houtcome, hcause⟩
      exact ⟨n', r, hgoes', hr⟩

end Machine

/-- **Input may come in any chunks.** If running a machine with chunks of input comes to an end, so
does running it with all of the input, and the ends are the same: the outcome, the machine, what was
written, what is held back, and what has not been read. -/
theorem input_in_chunks (keep : Record → Bool) (fuel : Nat) (m : Machine) (mode : Console.Mode)
    (s : Sink) (first : List UInt8) (chunks : List (List UInt8)) :
    let console (bytes : List UInt8) : Console := { mode, sink := s, source := bytes }
    let last := m.runChunks keep fuel chunks (console first)
    last.1.outcome ≠ .unfinished → ∃ least, ∀ fuel' keep', least ≤ fuel' →
      let whole := m.run keep' fuel' (console (first ++ chunks.flatten))
      whole.outcome = last.1.outcome ∧ whole.machine = last.1.machine ∧
        whole.device.sink = last.1.device.sink ∧ whole.device.pending = last.1.device.pending ∧
        whole.device.unread = last.1.device.unread ++ last.2.flatten := by
  intro console last hended
  have hahead : (console first).Ahead chunks.flatten (console (first ++ chunks.flatten)) :=
    ⟨rfl, rfl, rfl, rfl⟩
  obtain ⟨n', r, hgoes, hr⟩ := Machine.runChunks_goes chunks hahead 0 hended
  refine ⟨n' + 1, ?_⟩
  intro fuel' keep' hfuel whole
  obtain ⟨houtcome, -, hmachine, hdevice⟩ := hgoes.run_of_fuel keep' hfuel
  have hdevice : whole.device = r.device := hdevice
  rw [hdevice]
  exact ⟨houtcome, hmachine.trans hr.machine.symm, hr.device.sink, hr.device.pending,
    hr.device.unread⟩

/-- A program that reads a byte, which comes only when it is waited for. -/
theorem input_in_chunks_byte :
    let m := Machine.loaded .skip #[20, 32768, 0]
    let console (bytes : List UInt8) : Console := { mode := .buffered, source := bytes }
    ∃ fuel, (m.runChunks (fun _ => true) fuel [[65]] (console [])).1.outcome = .halted ∧
      ∃ least, ∀ fuel', least ≤ fuel' →
        (m.run (fun _ => true) fuel' (console [65])).outcome = .halted := by
  intro m console
  have reads : m.decode 0 = .ok (.inp ⟨0⟩) := Machine.decode_loaded (by decide) rfl
  have halts : m.decode 2 = .ok .halt := Machine.decode_loaded (by decide) rfl
  have hlast : ∀ m : Machine, m.pc = 0 → m.decode 0 = .ok (.inp ⟨0⟩) → m.decode 2 = .ok .halt →
      ∃ fuel, (m.runChunks (fun _ => true) fuel [[65]] (console [])).1.outcome = .halted := by
    intro m hpc reads halts
    have hreads : m.decode m.pc = .ok (.inp ⟨0⟩) := by rw [hpc, reads]
    have hrunning := Machine.isHalted_of_decode hreads
    have haction : m.action (.inp ⟨0⟩) = .ok (.input ⟨0⟩) := Machine.Yields.inp.action_eq
    -- first there is nothing to read
    have hwaits : m.Fails (console []) ⟨m.pc, some .inp, .inputExhausted⟩ (console []) :=
      .exhausted hrunning hreads haction rfl
    -- then there is a byte, and the program halts
    have hgoes : m.Advances ((console []).queue [65]).1
        (m.apply (m.next (.inp ⟨0⟩)) (.store ⟨0⟩ 65)) (console []) :=
      .perform hrunning hreads (.input haction rfl)
    generalize hm₁ : m.apply (m.next (.inp ⟨0⟩)) (.store ⟨0⟩ 65) = m₁ at hgoes
    have hhalts : m₁.decode m₁.pc = .ok .halt := by
      rw [← hm₁]
      show m.decode (m.next (.inp ⟨0⟩)) = _
      rw [Machine.next, hpc]
      exact halts
    have hrunning₁ := Machine.isHalted_of_decode hhalts
    have hends : m₁.Advances (console []) (m₁.apply (m₁.next .halt) (.halt false)) (console []) :=
      .perform hrunning₁ hhalts (.effect Machine.Yields.halt.action_eq)
    have hrest := RunsTo.of_advances hgoes hrunning₁ (.of_halts hends rfl 1)
    refine ⟨2, ?_⟩
    obtain ⟨hwaited, -, hmachine, hdevice⟩ :=
      (RunsTo.of_fails hwaits 0).run_of_fuel (fun _ => true) (show 0 < 2 by decide)
    obtain ⟨hhalted, -⟩ := hrest.run_of_fuel (fun _ => true) (show 1 < 2 by decide)
    rw [Machine.runChunks_of_exhausted hwaited rfl]
    show (Machine.run _ _ (Machine.run _ _ m _).machine _).outcome = _
    rw [show (Machine.run _ _ m _).machine = m from hmachine,
      show (Machine.run _ _ m _).device = console [] from hdevice]
    exact hhalted
  obtain ⟨fuel, hhalted⟩ := hlast m rfl reads halts
  have hended : (m.runChunks (fun _ => true) fuel [[65]] (console [])).1.outcome ≠ .unfinished := by
    intro hun
    cases hhalted.symm.trans hun
  obtain ⟨least, hwhole⟩ := input_in_chunks (fun _ => true) fuel m .buffered {} [] [[65]] hended
  refine ⟨fuel, hhalted, least, ?_⟩
  intro fuel' hfuel'
  exact (hwhole fuel' (fun _ => true) hfuel').1.trans hhalted

end WordMachine
