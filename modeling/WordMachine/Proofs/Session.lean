import WordMachine.Proofs.Load
import WordMachine.Proofs.Step

/-!
# Machines at work

A machine is not looked at alone: it is attached to a device, and its host loads programs, changes
the policy and asks for steps, in any order and as often as it likes, also after a fault. This
module has the vocabulary for that.

* `Rig` — a machine with its device; `Rig.after` makes steps, `Rig.session` serves requests.
* `Watched` — a device that notes every call and its answer, and passes it on. What a machine asks
  of its device is what it is seen to ask of the watched one.
* `Device.Alike`, `Device.Covers` — devices that cannot be told apart, at all or as long as one of
  them has input. With devices that answer alike, rigs stay related (`Rig.Related`). If they also
  report alike (`Device.ReportsAlike`), neither can they by the records that are kept.
* `Device.Leads` — the devices that calls lead to, in any order and number.
-/

namespace WordMachine

/-! ### Devices that are watched -/

/-- A call of a device, with the answer. -/
inductive Device.Call
  | output (w : Word) (answer : Except DeviceError Unit)
  | input (answer : Except DeviceError (Option Word))

/-- A device that notes the calls it passes on. -/
structure Watched (δ : Type) where
  device : δ
  calls : List Device.Call := []

instance {δ : Type} [Device δ] : Device (Watched δ) where
  output s w :=
    let reply := Device.output s.device w
    ⟨reply.result, ⟨reply.device, s.calls ++ [.output w reply.result]⟩, reply.log⟩
  input s :=
    let reply : Reply δ (Option Word) := Device.input s.device
    ⟨reply.result, ⟨reply.device, s.calls ++ [.input reply.result]⟩, reply.log⟩

/-- The devices that calls can lead to. -/
inductive Device.Leads {δ : Type} [Device δ] (d : δ) : δ → Prop
  | refl : Leads d d
  | output {d'} (w : Word) (h : Leads d d') : Leads d (Device.output d' w).device
  | input {d'} (h : Leads d d') : Leads d (Device.input d').device

/-! ### Devices that answer alike -/

/-- Two kinds of devices **answer alike** along a relation: related devices give the same results
and are related afterwards. What they log may differ. -/
structure Device.Alike {δ ε : Type} [Device δ] [Device ε] (R : δ → ε → Prop) : Prop where
  output {d : δ} {e : ε} (h : R d e) (w : Word) :
    (Device.output d w).result = (Device.output e w).result ∧
      R (Device.output d w).device (Device.output e w).device
  input {d : δ} {e : ε} (h : R d e) :
    (Device.input d).result = (Device.input e).result ∧
      R (Device.input d).device (Device.input e).device

/-- Devices of one kind **cover** devices of another along a relation if they answer alike until the
covered device has no more input. The covering device may then have some. -/
structure Device.Covers {δ ε : Type} [Device δ] [Device ε] (R : δ → ε → Prop) : Prop where
  output {d : δ} {e : ε} (h : R d e) (w : Word) :
    (Device.output d w).result = (Device.output e w).result ∧
      R (Device.output d w).device (Device.output e w).device
  input {d : δ} {e : ε} (h : R d e) (more : (Device.input d).result ≠ .ok none) :
    (Device.input d).result = (Device.input e).result ∧
      R (Device.input d).device (Device.input e).device

theorem Device.Alike.covers {δ ε : Type} [Device δ] [Device ε] {R : δ → ε → Prop}
    (hR : Device.Alike R) : Device.Covers R where
  output := hR.output
  input h _ := hR.input h

/-- Devices that answer alike along a relation and also **report alike**: of what they log, the same
records are kept. -/
structure Device.ReportsAlike {δ ε : Type} [Device δ] [Device ε] (keep : Record → Bool)
    (R : δ → ε → Prop) : Prop extends Device.Alike R where
  outputLog {d : δ} {e : ε} (h : R d e) (w : Word) :
    (Device.output d w).log.filter keep = (Device.output e w).log.filter keep
  inputLog {d : δ} {e : ε} (h : R d e) :
    (Device.input d).log.filter keep = (Device.input e).log.filter keep

/-- Watching changes nothing that the machine could see. -/
theorem Watched.alike {δ : Type} [Device δ] :
    Device.Alike (fun (s : Watched δ) (d : δ) => s.device = d) where
  output := by
    rintro s d rfl w
    exact ⟨rfl, rfl⟩
  input := by
    rintro s d rfl
    exact ⟨rfl, rfl⟩

namespace Machine

variable {δ ε : Type} [Device δ] [Device ε] {R : δ → ε → Prop} {m m' : Machine} {d d' : δ} {e : ε}

theorem Advances.covers (hR : Device.Covers R) (hd : R d e) (h : m.Advances d m' d') :
    ∃ e', R d' e' ∧ m.Advances e m' e' := by
  cases h with
  | rest halted => exact ⟨e, hd, .rest halted⟩
  | skip running unknown lenient => exact ⟨e, hd, .skip running unknown lenient⟩
  | perform running decoded performs =>
    cases performs with
    | effect action => exact ⟨e, hd, .perform running decoded (.effect action)⟩
    | @output v action taken =>
      obtain ⟨hresult, hdevice⟩ := hR.output hd v
      exact ⟨_, hdevice, .perform running decoded (.output action (hresult ▸ taken))⟩
    | input action given =>
      have hmore : (Device.input d).result ≠ .ok none := by
        rw [given]
        exact nofun
      obtain ⟨hresult, hdevice⟩ := hR.input hd hmore
      exact ⟨_, hdevice, .perform running decoded (.input action (hresult ▸ given))⟩

theorem Advances.alike (hR : Device.Alike R) (hd : R d e) (h : m.Advances d m' d') :
    ∃ e', R d' e' ∧ m.Advances e m' e' :=
  h.covers hR.covers hd

/-- A step that fails, fails with another device as well, if that gives the same answer to the call
of the step. Nothing need be known of input where there is none, unless the step fails for that. -/
theorem Fails.related {f : Fault} (h : m.Fails d f d')
    (houtput : ∀ v, (Device.output d v).result = (Device.output e v).result ∧
      R (Device.output d v).device (Device.output e v).device)
    (hinput : f.cause = .inputExhausted ∨ (Device.input d).result ≠ .ok none →
      (Device.input d).result = (Device.input e).result ∧
        R (Device.input d).device (Device.input e).device)
    (hd : R d e) : ∃ e', R d' e' ∧ m.Fails e f e' := by
  cases h with
  | decode running refused strict => exact ⟨e, hd, .decode running refused strict⟩
  | action running decoded refused => exact ⟨e, hd, .action running decoded refused⟩
  | @output i v c running decoded action failed =>
    obtain ⟨hresult, hdevice⟩ := houtput v
    exact ⟨_, hdevice, .output running decoded action (hresult ▸ failed)⟩
  | input running decoded action failed =>
    have hmore : (Device.input d).result ≠ .ok none := by
      intro hnone
      cases failed.symm.trans hnone
    obtain ⟨hresult, hdevice⟩ := hinput (.inr hmore)
    exact ⟨_, hdevice, .input running decoded action (hresult ▸ failed)⟩
  | exhausted running decoded action nothing =>
    obtain ⟨hresult, hdevice⟩ := hinput (.inl rfl)
    exact ⟨_, hdevice, .exhausted running decoded action (hresult ▸ nothing)⟩

theorem Fails.covers (hR : Device.Covers R) (hd : R d e) {f : Fault} (h : m.Fails d f d')
    (hf : f.cause ≠ .inputExhausted) : ∃ e', R d' e' ∧ m.Fails e f e' := by
  apply h.related (hR.output hd) _ hd
  rintro (hexhausted | hmore)
  · exact absurd hexhausted hf
  · exact hR.input hd hmore

theorem Fails.alike (hR : Device.Alike R) (hd : R d e) {f : Fault} (h : m.Fails d f d') :
    ∃ e', R d' e' ∧ m.Fails e f e' :=
  h.related (hR.output hd) (fun _ => hR.input hd) hd

/-- **Devices that answer alike cannot be told apart** by a step. -/
theorem step_alike (hR : Device.Alike R) (hd : R d e) :
    (m.step d).result = (m.step e).result ∧ (m.step d).machine = (m.step e).machine ∧
      R (m.step d).device (m.step e).device := by
  rcases advances_or_fails m d with ⟨m', d', h⟩ | ⟨f, d', h⟩
  · obtain ⟨e', hd', h'⟩ := h.alike hR hd
    obtain ⟨log, hs⟩ := h.step_eq
    obtain ⟨log', hs'⟩ := h'.step_eq
    rw [hs, hs']
    exact ⟨rfl, rfl, hd'⟩
  · obtain ⟨e', hd', h'⟩ := h.alike hR hd
    obtain ⟨log, hs⟩ := h.step_eq
    obtain ⟨log', hs'⟩ := h'.step_eq
    rw [hs, hs']
    exact ⟨rfl, rfl, hd'⟩

omit [Device δ] in
theorem log_settle (m : Machine) (d : δ) (log : List Record) :
    (m.settle d log).log = log ++ if m.isHalted then [.halted] else [] := by
  unfold settle
  split <;> simp_all

/-- **Of devices that report alike**, a step reports the same. -/
theorem step_log {keep : Record → Bool} (hR : Device.ReportsAlike keep R) (hd : R d e) :
    (m.step d).log.filter keep = (m.step e).log.filter keep := by
  unfold step
  split
  · rfl
  · split
    · next i decoded =>
      cases action : m.action i with
      | error c => simp [execute, action, fail]
      | ok a =>
        cases a with
        | effect c => simp [execute, action, log_settle]
        | output v =>
          have hlog := hR.outputLog hd v
          simp only [execute, action, (hR.output hd v).1]
          cases (Device.output e v).result with
          | error c => simp [fail, List.filter_cons, hlog]
          | ok u => simp [log_settle, List.filter_cons, hlog]
        | input dst =>
          have hlog := hR.inputLog hd
          simp only [execute, action, (hR.input hd).1]
          rcases (Device.input e).result with c | - | w
          · simp [fail, List.filter_cons, hlog]
          · simp [fail, List.filter_cons, hlog]
          · simp [log_settle, List.filter_cons, hlog]
    · next w refused =>
      cases m.policy with
      | skip => simp [skip, log_settle]
      | fault => rfl
    · rfl

end Machine

/-! ### Machines with devices -/

/-- A machine with a device attached. -/
structure Rig (δ : Type) where
  machine : Machine
  device : δ

/-- What the host asks for; a program that is refused is not loaded and changes nothing. -/
inductive Request
  | load (program : Array Word)
  | setPolicy (policy : Policy)
  | step
  deriving DecidableEq, Repr

namespace Rig

variable {δ : Type} [Device δ]

def answer (r : Rig δ) : Except Fault Status := (r.machine.step r.device).result

/-- Makes a step, whatever it answers. -/
def step (r : Rig δ) : Rig δ :=
  ⟨(r.machine.step r.device).machine, (r.machine.step r.device).device⟩

def after : Nat → Rig δ → Rig δ
  | 0, r => r
  | n + 1, r => (after n r).step

def serve (r : Rig δ) : Request → Rig δ
  | .load program =>
    match r.machine.load program with
    | .ok m => { r with machine := m }
    | .error _ => r
  | .setPolicy policy => { r with machine.policy := policy }
  | .step => r.step

def session (r : Rig δ) (requests : List Request) : Rig δ := requests.foldl serve r

@[simp] theorem after_zero (r : Rig δ) : r.after 0 = r := rfl

theorem after_succ (r : Rig δ) (n : Nat) : r.after (n + 1) = (r.after n).step := rfl

theorem after_succ_left (r : Rig δ) (n : Nat) : r.after (n + 1) = r.step.after n := by
  induction n with
  | zero => rfl
  | succ n ih => rw [after_succ, ih, after_succ]

theorem step_of_answer {r : Rig δ} {result : Except Fault Status} (h : r.answer = result) :
    r.machine.step r.device =
      ⟨result, r.step.machine, r.step.device, (r.machine.step r.device).log⟩ := by
  rw [← h]
  rfl

theorem step_of_advances {m m' : Machine} {d d' : δ} (h : m.Advances d m' d') :
    answer ⟨m, d⟩ = .ok m'.status ∧ step ⟨m, d⟩ = ⟨m', d'⟩ := by
  obtain ⟨log, hs⟩ := h.step_eq
  rw [answer, step, hs]
  exact ⟨rfl, rfl⟩

theorem step_of_fails {m : Machine} {d d' : δ} {f : Fault} (h : m.Fails d f d') :
    answer ⟨m, d⟩ = .error f ∧ step ⟨m, d⟩ = ⟨m, d'⟩ := by
  obtain ⟨log, hs⟩ := h.step_eq
  rw [answer, step, hs]
  exact ⟨rfl, rfl⟩

/-- **What a step does**: it advances or it fails, and answers so. -/
theorem step_cases (r : Rig δ) :
    (∃ m' d', r.machine.Advances r.device m' d' ∧ r.answer = .ok m'.status ∧ r.step = ⟨m', d'⟩) ∨
      ∃ f d', r.machine.Fails r.device f d' ∧ r.answer = .error f ∧ r.step = ⟨r.machine, d'⟩ := by
  rcases Machine.advances_or_fails r.machine r.device with ⟨m', d', h⟩ | ⟨f, d', h⟩
  · exact .inl ⟨m', d', h, step_of_advances h⟩
  · exact .inr ⟨f, d', h, step_of_fails h⟩

/-- A step that leaves the machine running has not halted it. -/
theorem isHalted_step {r : Rig δ} (h : r.answer = .ok .running) : r.step.machine.isHalted = false := by
  rcases r.step_cases with ⟨m', d', -, hanswer, hstep⟩ | ⟨f, d', -, hanswer, -⟩
  · rw [hstep]
    exact Machine.status_eq_running_iff.1 (Except.ok.inj (hanswer.symm.trans h))
  · cases h.symm.trans hanswer

/-- A machine that is running is halted by the steps that say so. -/
theorem isHalted_step_iff {r : Rig δ} (running : r.machine.isHalted = false) :
    r.step.machine.isHalted = true ↔ r.answer = .ok .halted := by
  rcases r.step_cases with ⟨m', d', -, hanswer, hstep⟩ | ⟨f, d', -, hanswer, hstep⟩
  · rw [hanswer, hstep, Machine.status]
    cases m'.isHalted with
    | false => simp
    | true => simp
  · rw [hanswer, hstep, running]
    simp

/-- **What every request keeps, a session keeps.** -/
theorem session_induction {P : Rig δ → Prop} (keeps : ∀ r q, P r → P (r.serve q)) {r : Rig δ}
    (hr : P r) (qs : List Request) : P (r.session qs) := by
  induction qs generalizing r with
  | nil => exact hr
  | cons q qs ih => exact ih (keeps r q hr)

/-! ### Rigs with devices that answer alike -/

/-- Two rigs are **related** if they have the same machine, and devices that are related. -/
structure Related {ε : Type} (R : δ → ε → Prop) (r : Rig δ) (s : Rig ε) : Prop where
  machine : r.machine = s.machine
  device : R r.device s.device

namespace Related

variable {ε : Type} [Device ε] {R : δ → ε → Prop} {r : Rig δ} {s : Rig ε}

theorem answer_eq (hR : Device.Alike R) (h : r.Related R s) : r.answer = s.answer := by
  rw [answer, answer, ← h.machine]
  exact (Machine.step_alike hR h.device).1

theorem step (hR : Device.Alike R) (h : r.Related R s) : r.step.Related R s.step := by
  obtain ⟨-, hmachine, hdevice⟩ := Machine.step_alike (m := r.machine) hR h.device
  rw [Rig.step, Rig.step, ← h.machine]
  exact ⟨hmachine, hdevice⟩

/-- With a device that covers the other, a step is the same unless it fails for want of input. -/
theorem step_covers (hR : Device.Covers R) (h : r.Related R s)
    (hinput : ∀ f, r.answer = .error f → f.cause ≠ .inputExhausted) :
    s.answer = r.answer ∧ r.step.Related R s.step := by
  obtain ⟨m, d⟩ := r
  obtain ⟨m', e⟩ := s
  obtain rfl : m = m' := h.machine
  rcases Machine.advances_or_fails m d with ⟨m', d', hr⟩ | ⟨f, d', hr⟩
  · obtain ⟨e', hdevice, hs⟩ := hr.covers hR h.device
    rw [(step_of_advances hr).1, (step_of_advances hs).1, (step_of_advances hr).2,
      (step_of_advances hs).2]
    exact ⟨rfl, rfl, hdevice⟩
  · obtain ⟨e', hdevice, hs⟩ := hr.covers hR h.device (hinput f (step_of_fails hr).1)
    rw [(step_of_fails hr).1, (step_of_fails hs).1, (step_of_fails hr).2, (step_of_fails hs).2]
    exact ⟨rfl, rfl, hdevice⟩

theorem step_covers_of_ok (hR : Device.Covers R) (h : r.Related R s) {status : Status}
    (hr : r.answer = .ok status) : s.answer = .ok status ∧ r.step.Related R s.step := by
  have hinput : ∀ f, r.answer = .error f → f.cause ≠ .inputExhausted := by
    intro f hf
    cases hr.symm.trans hf
  obtain ⟨hanswer, hstep⟩ := h.step_covers hR hinput
  exact ⟨hanswer.trans hr, hstep⟩

/-- As long as the machine is running, it does so with a device that covers the other. -/
theorem after_covers (hR : Device.Covers R) (h : r.Related R s) {n : Nat}
    (running : ∀ k < n, (r.after k).answer = .ok .running) :
    (r.after n).Related R (s.after n) ∧ ∀ k < n, (s.after k).answer = .ok .running := by
  induction n with
  | zero => exact ⟨h, fun k hk => absurd hk (Nat.not_lt_zero k)⟩
  | succ n ih =>
    obtain ⟨hrelated, hbefore⟩ := ih fun k hk => running k (Nat.lt_succ_of_lt hk)
    obtain ⟨hanswer, hstep⟩ := hrelated.step_covers_of_ok hR (running n (Nat.lt_succ_self n))
    refine ⟨hstep, ?_⟩
    intro k hk
    rcases Nat.lt_succ_iff_lt_or_eq.1 hk with hk | rfl
    · exact hbefore k hk
    · exact hanswer

theorem after (hR : Device.Alike R) (h : r.Related R s) (n : Nat) :
    (r.after n).Related R (s.after n) := by
  induction n with
  | zero => exact h
  | succ n ih => exact ih.step hR

theorem serve (hR : Device.Alike R) (h : r.Related R s) (q : Request) :
    (r.serve q).Related R (s.serve q) := by
  cases q with
  | load program =>
    rw [Rig.serve, Rig.serve, ← h.machine]
    cases r.machine.load program with
    | ok m => exact ⟨rfl, h.device⟩
    | error e => exact h
  | setPolicy policy => exact ⟨congrArg (fun m : Machine => { m with policy }) h.machine, h.device⟩
  | step => exact h.step hR

/-- **Devices that answer alike cannot be told apart** by a session. -/
theorem session (hR : Device.Alike R) (h : r.Related R s) (qs : List Request) :
    (r.session qs).Related R (s.session qs) := by
  induction qs generalizing r s with
  | nil => exact h
  | cons q qs ih => exact ih (h.serve hR q)

end Related

/-- **A session leads to the same machine whether its device is watched or not.** -/
theorem session_watched (r : Rig (Watched δ)) (qs : List Request) :
    (r.session qs).machine = (session ⟨r.machine, r.device.device⟩ qs).machine ∧
      (r.session qs).device.device = (session ⟨r.machine, r.device.device⟩ qs).device := by
  have hrelated : r.Related (fun s d => s.device = d) ⟨r.machine, r.device.device⟩ := ⟨rfl, rfl⟩
  have hsession := hrelated.session Watched.alike qs
  exact ⟨hsession.machine, hsession.device⟩

end Rig

end WordMachine
