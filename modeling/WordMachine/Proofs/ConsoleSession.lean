import Mathlib.Data.List.Induction
import WordMachine.Proofs.Console

/-!
# Consoles at work

A console does not only serve a machine. Its host queues scripts and finishes it, in any order and
as often as it likes, also after a failure. This module has the vocabulary for that, as `Session` has
it for machines.

* `Request` — what is asked of a console; what it is to put out and what it is given to read.
* `Console.serve`, `Console.session` — what one request and what many lead to.
* `Console.replies` — how the console has replied, and from that, whether a write has failed.
-/

namespace WordMachine

namespace Sink

theorem room_flush (s : Sink) : s.flush.2.room = s.room := by
  rw [flush]
  split
  · rfl
  · rfl

theorem room_writeThrough (s : Sink) (bytes : List UInt8) :
    (s.writeThrough bytes).2.room = s.room := by
  have hwrite : (s.write bytes).2.room = s.room := rfl
  rw [writeThrough]
  split
  · next s' h =>
    rw [h] at hwrite
    exact s'.room_flush.trans hwrite
  · next e s' h =>
    rw [h] at hwrite
    exact hwrite

end Sink

namespace Console

/-- What is asked of a console. -/
inductive Request
  | output (w : Word)
  | input
  | script (bytes : List UInt8)
  | finish
  deriving DecidableEq, Repr

/-- The bytes that a request is to put out. -/
def Request.emits : Request → List UInt8
  | .output w => encode w
  | .input | .script _ | .finish => []

/-- The bytes that a request gives to read. -/
def Request.queues : Request → List UInt8
  | .script bytes => bytes
  | .output _ | .input | .finish => []

/-- The reply to a request; only the one to `input` can hold a word. -/
def serve (c : Console) : Request → Reply Console (Option Word)
  | .output w => ⟨(c.output w).result.map fun _ => none, (c.output w).device, (c.output w).log⟩
  | .input => c.input
  | .script bytes => ⟨.ok none, (c.queue bytes).1, (c.queue bytes).2⟩
  | .finish => ⟨c.finish.1.map fun _ => none, c.finish.2, []⟩

/-- The console after requests. -/
def session (c : Console) (requests : List Request) : Console :=
  requests.foldl (fun c q => (c.serve q).device) c

/-- The replies to requests, in order. -/
def replies (c : Console) : List Request → List (Reply Console (Option Word))
  | [] => []
  | q :: qs => c.serve q :: (c.serve q).device.replies qs

/-- A write has failed if there is a reply that the sink is full; a flush that fails is replied to
in other words. -/
def WriteFailed (c : Console) (requests : List Request) : Prop :=
  ∃ reply ∈ c.replies requests, reply.result = .error .sinkFull

instance (c : Console) (requests : List Request) : Decidable (c.WriteFailed requests) :=
  inferInstanceAs (Decidable (∃ reply ∈ c.replies requests, reply.result = .error .sinkFull))

/-- The words that were given to read, in order. -/
def given (c : Console) (requests : List Request) : List Word :=
  (c.replies requests).filterMap fun reply => reply.result.toOption.join

variable {c : Console} {qs : List Request} {q : Request}

theorem session_append (c : Console) (qs qs' : List Request) :
    c.session (qs ++ qs') = (c.session qs).session qs' :=
  List.foldl_append

@[simp] theorem session_concat (c : Console) (qs : List Request) (q : Request) :
    c.session (qs ++ [q]) = ((c.session qs).serve q).device :=
  c.session_append qs [q]

/-- The reply to a request depends on the requests before it. -/
theorem replies_concat (c : Console) (qs : List Request) (q : Request) :
    c.replies (qs ++ [q]) = c.replies qs ++ [(c.session qs).serve q] := by
  induction qs generalizing c with
  | nil => rfl
  | cons q' qs ih => exact congrArg (c.serve q' :: ·) (ih (c.serve q').device)

theorem not_writeFailed_nil : ¬ c.WriteFailed [] := nofun

theorem writeFailed_concat_iff :
    c.WriteFailed (qs ++ [q]) ↔
      c.WriteFailed qs ∨ ((c.session qs).serve q).result = .error .sinkFull := by
  simp [WriteFailed, replies_concat, or_and_right, exists_or]

theorem given_concat (c : Console) (qs : List Request) (q : Request) :
    c.given (qs ++ [q]) =
      c.given qs ++ ((c.session qs).serve q).result.toOption.join.toList := by
  rw [given, replies_concat, List.filterMap_append]
  cases h : ((c.session qs).serve q).result.toOption.join with
  | none => simp [given, h]
  | some w => simp [given, h]

/-- **What holds at the start and what every request keeps, holds after every session.** It may speak
of the requests so far. -/
theorem session_induction {P : List Request → Console → Prop} (start : P [] c)
    (keeps : ∀ qs q, P qs (c.session qs) → P (qs ++ [q]) ((c.session qs).serve q).device)
    (qs : List Request) : P qs (c.session qs) := by
  -- the last request comes last in a history, so the induction is from the end of the list
  induction qs using List.reverseRecOn with
  | nil => exact start
  | append_singleton qs q ih =>
    rw [session_concat]
    exact keeps qs q ih

/-! ### What never changes -/

/-- **A request changes neither the mode of the console nor how much room its sink has.** -/
theorem serve_keeps (c : Console) (q : Request) :
    (c.serve q).device.mode = c.mode ∧ (c.serve q).device.sink.room = c.sink.room := by
  cases q with
  | output w =>
    obtain ⟨mode, sink, pending, script, source⟩ := c
    cases mode with
    | interactive => exact ⟨rfl, sink.room_writeThrough (encode w)⟩
    | buffered => exact ⟨rfl, rfl⟩
  | input =>
    obtain ⟨script, source, log, hinput, -⟩ := c.input_eq
    rw [serve, hinput]
    exact ⟨rfl, rfl⟩
  | script bytes => exact ⟨rfl, rfl⟩
  | finish =>
    have hwrite : (c.sink.write c.pending.toList).2.room = c.sink.room := rfl
    rw [serve, finish]
    split
    · exact ⟨rfl, c.sink.room_flush⟩
    · split
      · next s h =>
        rw [h] at hwrite
        exact ⟨rfl, s.room_flush.trans hwrite⟩
      · next e s h =>
        rw [h] at hwrite
        exact ⟨rfl, hwrite⟩

theorem session_keeps (c : Console) (qs : List Request) :
    (c.session qs).mode = c.mode ∧ (c.session qs).sink.room = c.sink.room := by
  apply session_induction (P := fun _ e => e.mode = c.mode ∧ e.sink.room = c.sink.room) ⟨rfl, rfl⟩
  rintro qs q ⟨hmode, hroom⟩
  obtain ⟨hmode', hroom'⟩ := (c.session qs).serve_keeps q
  exact ⟨hmode'.trans hmode, hroom'.trans hroom⟩

end Console

end WordMachine
