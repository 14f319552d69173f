import WordMachine.Proofs.Console
import WordMachine.Proofs.Image
import WordMachine.Proofs.InOrder
import WordMachine.Proofs.Run

/-!
# Loading once more

A machine that has been at work can be given another program. If that is accepted, nothing is left
of what was there before but the policy: neither words behind the end of the new program nor the
count of skipped opcodes. If it is refused, nothing has happened.

* `Rig.transcript` — all that a host gets to see of a machine that it puts to work;
* `Machine.JustLoaded` — the state at the start of a program, written down field by field;
* `load_erases_history` — loading makes two machines the same, so that what a host sees from there
  on is the same, and is what it would see of a machine that has never run.
-/

namespace WordMachine

/-! ### Hosts -/

/-- What a host lets a machine do. -/
inductive Task
  | load (program : Array Word)
  | step
  | run (fuel : Nat)
  | runUntil (stop : Machine → Nat → Bool) (fuel : Nat)

/-- What a host is told about a task. -/
inductive Task.Answer
  | load (result : Except ImageError Unit)
  | step (result : Except Fault Status)
  | run (outcome : Outcome) (tries : Nat)

/-- A task done: what was told, what was logged, and how machine and device are then. -/
structure Task.Report (δ : Type) where
  answer : Task.Answer
  log : Array Record
  rig : Rig δ

/-- What a host is told about a run. -/
def Run.report {δ : Type} (run : Run δ) : Task.Report δ :=
  ⟨.run run.outcome run.tries, run.log, run.rig⟩

namespace Rig

variable {δ : Type} [Device δ]

def perform (r : Rig δ) : Task → Task.Report δ
  | .load program =>
    ⟨.load ((r.machine.load program).map fun _ => ()), #[], r.serve (.load program)⟩
  | .step => ⟨.step r.answer, (r.machine.step r.device).log.toArray, r.step⟩
  | .run fuel => (r.machine.run (fun _ => true) fuel r.device).report
  | .runUntil stop fuel => (r.machine.runUntil (fun _ => true) stop fuel r.device).report

/-- What a host gets to see that lets a machine do one task after the other. -/
def transcript (r : Rig δ) : List Task → List (Task.Report δ)
  | [] => []
  | task :: tasks => r.perform task :: transcript (r.perform task).rig tasks

end Rig

/-! ### The state at the start of a program -/

/-- A machine is as it is **just after loading** a program: the program and then zeros in memory,
and everything else at its start, but for the policy. -/
structure Machine.JustLoaded (m : Machine) (policy : Policy) (program : Array Word) : Prop where
  memory : m.memory.toList = program.toList ++ List.replicate (memorySize - program.size) 0
  registers : ∀ r, m.register r = 0
  stack : m.stack.toList = []
  pc : m.pc = 0
  skipped : m.skipped = 0
  policy : m.policy = policy

namespace Machine

variable {policy : Policy} {program : Array Word}

/-- In memory a program comes first, and nothing but zeros comes behind it. -/
theorem toList_memory_loaded (fits : program.size ≤ memorySize) :
    (loaded policy program).memory.toList =
      program.toList ++ List.replicate (memorySize - program.size) 0 := by
  apply List.ext_getElem
  · rw [Vector.length_toList, List.length_append, Array.length_toList, List.length_replicate]
    omega
  · intro a ha hlast
    rw [Vector.length_toList] at ha
    have hword := getElem?_loaded policy program ha
    rw [Vector.getElem?_toArray, Vector.getElem?_eq_getElem ha, Option.some.injEq] at hword
    rw [Vector.getElem_toList, hword, Array.getD_eq_getD_getElem?]
    by_cases hin : a < program.size
    · rw [List.getElem_append_left (by simpa using hin), Array.getElem?_eq_getElem hin]
      rfl
    · rw [List.getElem_append_right (by simpa using hin), Array.getElem?_eq_none (Nat.not_lt.1 hin),
        List.getElem_replicate]
      rfl

theorem justLoaded_loaded (fits : program.size ≤ memorySize) :
    (loaded policy program).JustLoaded policy program where
  memory := toList_memory_loaded fits
  registers _ := Vector.getElem_replicate _
  stack := rfl
  pc := rfl
  skipped := rfl
  policy := rfl

/-- Of a machine only the policy has a part in what loading leads to. -/
theorem load_congr {m m' : Machine} (h : m.policy = m'.policy) (program : Array Word) :
    m.load program = m'.load program := by
  rw [load_eq, load_eq, h]

end Machine

namespace Rig

variable {δ : Type} [Device δ] {r s : Rig δ} {program : Array Word}

theorem serve_load_of_error {e : ImageError} (h : r.machine.load program = .error e) :
    r.serve (.load program) = r := by
  rw [serve, h]

theorem serve_load_of_ok {m : Machine} (h : r.machine.load program = .ok m) :
    r.serve (.load program) = ⟨m, r.device⟩ := by
  rw [serve, h]

/-- **Once a program is loaded, a host sees the same**, whatever the machine did before. -/
theorem transcript_load {m : Machine} (hr : r.machine.load program = .ok m)
    (hs : s.machine.load program = .ok m) (device : r.device = s.device) (tasks : List Task) :
    r.transcript (.load program :: tasks) = s.transcript (.load program :: tasks) := by
  have hperform : r.perform (.load program) = s.perform (.load program) := by
    rw [perform, perform, serve_load_of_ok hr, serve_load_of_ok hs, hr, hs, device]
  rw [transcript, transcript, hperform]

end Rig

/-- **Loading erases what was before.** Two machines with the same policy answer the same when the
same program is loaded into them. If it is refused, both stay as they are. If it is accepted, both
are the same from then on, with the program, zeros and their policy, also if they are loaded field by
field; a host that has equal devices attached to them cannot tell them apart by anything that it lets
them do, nor from a machine that is new. -/
theorem load_erases_history {δ : Type} [Device δ] {r s : Rig δ}
    (policy : r.machine.policy = s.machine.policy) (device : r.device = s.device)
    (program : Array Word) :
    r.machine.load program = s.machine.load program ∧
    (∀ e, r.machine.load program = .error e →
      r.serve (.load program) = r ∧ s.serve (.load program) = s ∧
      r.machine.loadInOrder program = .error e r.machine ∧
      s.machine.loadInOrder program = .error e s.machine) ∧
    ∀ m, r.machine.load program = .ok m →
      m.JustLoaded r.machine.policy program ∧
      r.machine.loadInOrder program = .ok () m ∧ s.machine.loadInOrder program = .ok () m ∧
      r.serve (.load program) = ⟨m, r.device⟩ ∧ s.serve (.load program) = ⟨m, s.device⟩ ∧
      ∀ tasks, r.transcript (.load program :: tasks) = s.transcript (.load program :: tasks) ∧
        r.transcript (.load program :: tasks) =
          Rig.transcript ⟨.blank r.machine.policy, r.device⟩ (.load program :: tasks) := by
  have hload := Machine.load_congr policy program
  refine ⟨hload, ?_, ?_⟩
  · intro e he
    have hs : s.machine.load program = .error e := hload ▸ he
    refine ⟨Rig.serve_load_of_error he, Rig.serve_load_of_error hs, ?_, ?_⟩
    · rw [Machine.loadInOrder_eq, he]
    · rw [Machine.loadInOrder_eq, hs]
  · intro m hm
    have hs : s.machine.load program = .ok m := hload ▸ hm
    -- a machine that has never run, with the policy of the others
    let new : Rig δ := ⟨.blank r.machine.policy, r.device⟩
    have hnew : new.machine.load program = .ok m := (Machine.load_congr rfl program).trans hm
    refine ⟨?_, ?_, ?_, Rig.serve_load_of_ok hm, Rig.serve_load_of_ok hs, ?_⟩
    · obtain ⟨hvalid, rfl⟩ := Machine.load_eq_ok_iff.1 hm
      exact Machine.justLoaded_loaded (Image.validate_eq_ok_iff.1 hvalid).1
    · rw [Machine.loadInOrder_eq, hm]
    · rw [Machine.loadInOrder_eq, hs]
    · intro tasks
      exact ⟨Rig.transcript_load hm hs device tasks,
        Rig.transcript_load (s := new) hm hnew rfl tasks⟩

/-- A machine that was used and a new one: one program is refused by both, another one is loaded and
sees nothing of what was there. -/
theorem load_erases_history_used :
    let used : Rig Recorder :=
      ⟨{ (Machine.loaded .fault #[20, 32769, 65]).setRegister ⟨1⟩ 9 with
        stack := Stack.empty.push 7, pc := 2, skipped := 3 }, .ofBytes [33]⟩
    let new : Rig Recorder := ⟨.blank .fault, .ofBytes [33]⟩
    used.machine.policy = new.machine.policy ∧
      used.serve (.load #[21, 40000]) = used ∧
      (used.serve (.load #[19, 32769])).machine = (new.serve (.load #[19, 32769])).machine ∧
      ∀ tasks, used.transcript (.load #[19, 32769] :: tasks) =
        new.transcript (.load #[19, 32769] :: tasks) := by
  intro used new
  obtain ⟨-, hrefused, -⟩ := load_erases_history (r := used) (s := new) rfl rfl #[21, 40000]
  obtain ⟨-, -, haccepted⟩ := load_erases_history (r := used) (s := new) rfl rfl #[19, 32769]
  have hinvalid : Image.validate #[21, 40000] = .error (.invalidWord 1 40000) := by cbv
  have hbad : used.machine.load #[21, 40000] = .error (.invalidWord 1 40000) := by
    rw [Machine.load_eq, hinvalid]
    rfl
  have hgood : used.machine.load #[19, 32769] = .ok (.loaded .fault #[19, 32769]) :=
    Machine.load_eq_ok_iff.2 ⟨Image.validate_eq_ok_of_all (by decide) rfl, rfl⟩
  obtain ⟨-, -, -, hused, hnew, hsame⟩ := haccepted _ hgood
  refine ⟨rfl, (hrefused _ hbad).1, ?_, fun tasks => (hsame tasks).1⟩
  rw [hused, hnew]

end WordMachine
