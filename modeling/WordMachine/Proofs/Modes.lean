import WordMachine.Proofs.Console
import WordMachine.Proofs.Load
import WordMachine.Proofs.Action

/-!
# The modes of the console

Whether a console writes at once or holds its output back is nothing that a program could notice. A
machine goes through the same states and gives the same answers against a console in either mode,
and against a recorder with the same input; after every step the two consoles have written and held
back, respectively, what the recorder has recorded. Faults and the end of input make no exception:
both are a matter of what is left to read, which is the same for all three.
-/

namespace WordMachine

/-- **The modes are interchangeable**, with each other and with a recorder. -/
theorem modes_interchangeable {s : Sink} (hs : s.Unlimited) (m : Machine) (input : List UInt8)
    (n : Nat) :
    let a : Rig Recorder := .after n ⟨m, .ofBytes input⟩
    let b : Rig Console := .after n ⟨m, { mode := .interactive, sink := s, source := input }⟩
    let c : Rig Console := .after n ⟨m, { mode := .buffered, sink := s, source := input }⟩
    (b.machine = a.machine ∧ c.machine = a.machine) ∧
    (b.answer = a.answer ∧ c.answer = a.answer) ∧
    (b.device.sink.bytes.toList = s.bytes.toList ++ a.device.text ∧ b.device.pending = #[]) ∧
    (c.device.pending.toList = a.device.text ∧ c.device.sink = s) ∧
    b.device.finish.1 = .ok () ∧ c.device.finish.1 = .ok () ∧
      b.device.finish.2.sink.bytes = c.device.finish.2.sink.bytes := by
  intro a b c
  have hstart (mode : Console.Mode) : Rig.Related (Console.Renders mode s)
      ⟨m, .ofBytes input⟩ ⟨m, { mode, sink := s, source := input }⟩ :=
    ⟨rfl, Console.Renders.start hs mode [] input⟩
  have hb : a.Related (Console.Renders .interactive s) b :=
    (hstart .interactive).after (Console.Renders.alike .interactive s) n
  have hc : a.Related (Console.Renders .buffered s) c :=
    (hstart .buffered).after (Console.Renders.alike .buffered s) n
  obtain ⟨hpending, flushes, hsink⟩ := hb.device.interactive rfl
  obtain ⟨hbok, hbbytes⟩ := hb.device.finish
  obtain ⟨hcok, hcbytes⟩ := hc.device.finish
  refine ⟨⟨hb.machine.symm, hc.machine.symm⟩, ?_, ⟨?_, hpending⟩, hc.device.buffered rfl, hbok,
    hcok, ?_⟩
  · exact ⟨(hb.answer_eq (Console.Renders.alike _ s)).symm,
      (hc.answer_eq (Console.Renders.alike _ s)).symm⟩
  · rw [hsink, Sink.toList_after]
  · rw [← Array.toList_inj, hbbytes, hcbytes]

/-- A program that puts out a letter: one mode has written it, the other holds it back. -/
theorem modes_interchangeable_letter :
    let m := Machine.loaded .skip #[19, 104, 0]
    ({} : Sink).Unlimited ∧
      (Rig.after 1 ⟨m, ({ mode := .interactive } : Console)⟩).device.sink.bytes.toList = [104] ∧
      (Rig.after 1 ⟨m, ({ mode := .buffered } : Console)⟩).device.pending.toList = [104] := by
  intro m
  have hs : ({} : Sink).Unlimited := ⟨rfl, rfl⟩
  have decoded : m.decode 0 = .ok (.out (.literal ⟨104, by decide⟩)) :=
    Machine.decode_loaded (by decide) rfl
  have hletter : ∀ m : Machine, m.pc = 0 → m.decode 0 = .ok (.out (.literal ⟨104, by decide⟩)) →
      (Rig.after 1 ⟨m, ({ mode := .interactive } : Console)⟩).device.sink.bytes.toList = [104] ∧
      (Rig.after 1 ⟨m, ({ mode := .buffered } : Console)⟩).device.pending.toList = [104] := by
    intro m hpc decoded
    rw [← hpc] at decoded
    have hrunning := Machine.isHalted_of_decode decoded
    have hadv : m.Advances (Recorder.ofBytes []) _ _ :=
      .perform hrunning decoded (.output Machine.Yields.out.action_eq rfl)
    have htext : (Rig.after 1 ⟨m, Recorder.ofBytes []⟩).device.text = [104] := by
      rw [Rig.after_succ, Rig.after_zero, (Rig.step_of_advances hadv).2]
      rfl
    obtain ⟨-, -, ⟨hsink, -⟩, ⟨hpending, -⟩, -⟩ := modes_interchangeable hs m [] 1
    exact ⟨hsink.trans htext, hpending.trans htext⟩
  exact ⟨hs, hletter m rfl decoded⟩

end WordMachine
