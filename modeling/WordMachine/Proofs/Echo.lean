import WordMachine.Proofs.Action
import WordMachine.Proofs.Console
import WordMachine.Proofs.Image
import WordMachine.Proofs.RunSteps

/-!
# A program that echoes a line

`echo` reads bytes and puts out each of them as a character, up to the first line feed.

```text
0: in r0
2: out r0
4: eq r1 r0 10
8: jf r1 0
11: halt
```

A round of the loop (`Echoing.round`) takes four steps, reads one byte and puts it out. After it the
program is where the round began, unless the byte was a line feed. So by induction on the bytes that
come before the first line feed, the program has put them all out (`Echoing.rounds`), and either goes
on with the line feed and halts, or finds that there is nothing more to read.

All this is shown of a recorder, from which a machine cannot tell the console that renders it.
-/

namespace WordMachine

/-- Reads bytes and puts each of them out, up to and with the first line feed. -/
def echo : Array Word := #[20, 32768, 19, 32768, 4, 32769, 32768, 10, 8, 32769, 0, 0]

/-! ### Runs that are under way -/

/-- With so many steps, none of which ends the run, a run **comes** from one rig to another. -/
def Rig.ComesTo {δ : Type} [Device δ] (r : Rig δ) (k : Nat) (r' : Rig δ) : Prop :=
  ∀ ⦃n o n' s⦄, RunsTo (fun _ _ => false) (n + k) r' o n' s →
    RunsTo (fun _ _ => false) n r o n' s

namespace Rig.ComesTo

variable {δ : Type} [Device δ] {r r' r'' : Rig δ} {m : Machine} {d d' : δ} {k l : Nat}

theorem refl (r : Rig δ) : r.ComesTo 0 r := fun _ _ _ _ h => h

theorem trans (h : r.ComesTo k r') (h' : r'.ComesTo l r'') : r.ComesTo (k + l) r'' := by
  intro n o n' s rest
  rw [← Nat.add_assoc] at rest
  exact h (h' rest)

/-- A run that ends where it has come to ends with that. -/
theorem runsTo {o : Outcome} (h : r.ComesTo k r') (rest : RunsTo (fun _ _ => false) k r' o k r'') :
    RunsTo (fun _ _ => false) 0 r o k r'' := by
  have hrun := @h 0 o k r''
  rw [Nat.zero_add] at hrun
  exact hrun rest

/-- An instruction is a step. -/
theorem of_performs {i : Instruction} {e : Effect} {next : Word} (decoded : m.decode m.pc = .ok i)
    (hnext : m.next i = next) (performs : m.Performs d i e d')
    (running : (m.apply next e).isHalted = false) : ComesTo ⟨m, d⟩ 1 ⟨m.apply next e, d'⟩ := by
  intro n o n' s rest
  rw [← hnext] at running rest
  exact .of_advances (.perform (Machine.isHalted_of_decode decoded) decoded performs) running rest

end Rig.ComesTo

/-! ### The program in memory -/

/-- The program is in memory. -/
structure Echoing (m : Machine) : Prop where
  reads : m.decode 0 = .ok (.inp ⟨0⟩)
  puts : m.decode 2 = .ok (.out (.register ⟨0⟩))
  tests : m.decode 4 = .ok (.binary .eq ⟨1⟩ (.register ⟨0⟩) (.literal ⟨10, by decide⟩))
  branches : m.decode 8 = .ok (.jf (.register ⟨1⟩) (.literal ⟨0, by decide⟩))
  halts : m.decode 11 = .ok .halt

theorem echoing_loaded (policy : Policy) : Echoing (.loaded policy echo) where
  reads := Machine.decode_loaded (by decide) rfl
  puts := Machine.decode_loaded (by decide) rfl
  tests := Machine.decode_loaded (by decide) rfl
  branches := Machine.decode_loaded (by decide) rfl
  halts := Machine.decode_loaded (by decide) rfl

/-- A recorder that has recorded bytes and has others to give. -/
def Recorder.between (past future : List UInt8) : Recorder :=
  { Recorder.ofBytes future with recorded := (past.map UInt8.toUInt16).toArray }

namespace Echoing

variable {m m' : Machine} {past bytes rest : List UInt8} {b : UInt8}

theorem of_memory_eq (h : Echoing m) (hmemory : m'.memory = m.memory) : Echoing m' := by
  have hdecode (pc : Word) : m'.decode pc = m.decode pc := by
    rw [Machine.decode, Machine.decode, hmemory]
  exact ⟨(hdecode _).trans h.reads, (hdecode _).trans h.puts, (hdecode _).trans h.tests,
    (hdecode _).trans h.branches, (hdecode _).trans h.halts⟩

/-! ### The instructions of the loop -/

theorem read (h : Echoing m) (hpc : m.pc = 0) (past rest : List UInt8) (b : UInt8) :
    ∃ m', Echoing m' ∧ m'.pc = 2 ∧ m'.register ⟨0⟩ = b.toUInt16 ∧
      Rig.ComesTo ⟨m, Recorder.between past (b :: rest)⟩ 1 ⟨m', Recorder.between past rest⟩ := by
  have hnext : m.next (.inp ⟨0⟩) = 2 := by
    rw [Machine.next, hpc]
    rfl
  refine ⟨m.apply 2 (.store ⟨0⟩ b.toUInt16), h.of_memory_eq rfl, rfl, ?_, ?_⟩
  · exact (Machine.register_setRegister m ⟨0⟩ ⟨0⟩ _).trans (if_pos rfl)
  · exact .of_performs (hpc ▸ h.reads) hnext (.input Machine.Yields.inp.action_eq rfl) rfl

theorem put (h : Echoing m) (hpc : m.pc = 2) (hb : m.register ⟨0⟩ = b.toUInt16)
    (past rest : List UInt8) :
    ∃ m', Echoing m' ∧ m'.pc = 4 ∧ m'.register ⟨0⟩ = b.toUInt16 ∧
      Rig.ComesTo ⟨m, Recorder.between past rest⟩ 1
        ⟨m', Recorder.between (past ++ [b]) rest⟩ := by
  have hnext : m.next (.out (.register ⟨0⟩)) = 4 := by
    rw [Machine.next, hpc]
    rfl
  have hrecorded : Recorder.between (past ++ [b]) rest =
      (Recorder.between past rest |>.output (m.value (.register ⟨0⟩))).device := by
    have hvalue : m.value (.register ⟨0⟩) = b.toUInt16 := hb
    rw [hvalue]
    simp [Recorder.between, Recorder.output, Recorder.hasRoom, Recorder.ofBytes]
  refine ⟨m.apply 4 .next, h.of_memory_eq rfl, rfl, hb, ?_⟩
  rw [hrecorded]
  exact .of_performs (hpc ▸ h.puts) hnext (.output Machine.Yields.out.action_eq rfl) rfl

theorem test {δ : Type} [Device δ] (h : Echoing m) (hpc : m.pc = 4)
    (hb : m.register ⟨0⟩ = b.toUInt16) (d : δ) :
    ∃ m', Echoing m' ∧ m'.pc = 8 ∧ m'.register ⟨0⟩ = b.toUInt16 ∧
      m'.register ⟨1⟩ = (if b = 10 then 1 else 0) ∧ Rig.ComesTo ⟨m, d⟩ 1 ⟨m', d⟩ := by
  have hnext : m.next (.binary .eq ⟨1⟩ (.register ⟨0⟩) (.literal ⟨10, by decide⟩)) = 8 := by
    rw [Machine.next, hpc]
    rfl
  have htruth : Arith.eq (m.register ⟨0⟩) 10 = if b = 10 then 1 else 0 := by
    have hequal : b.toUInt16 = (10 : UInt8).toUInt16 ↔ b = 10 := UInt8.toUInt16_inj
    simp [hb, Arith.eq, Arith.truth, ← hequal]
  refine ⟨m.apply 8 (.store ⟨1⟩ (Arith.eq (m.register ⟨0⟩) 10)), h.of_memory_eq rfl, rfl, ?_, ?_, ?_⟩
  · exact (Machine.register_setRegister m ⟨1⟩ ⟨0⟩ _).trans ((if_neg (by decide)).trans hb)
  · exact (Machine.register_setRegister m ⟨1⟩ ⟨1⟩ _).trans ((if_pos rfl).trans htruth)
  · exact .of_performs (hpc ▸ h.tests) hnext (.effect (Machine.Yields.binary rfl).action_eq) rfl

theorem branch {δ : Type} [Device δ] (h : Echoing m) (hpc : m.pc = 8)
    (hb : m.register ⟨1⟩ = if b = 10 then 1 else 0) (d : δ) :
    ∃ m', Echoing m' ∧ m'.pc = (if b = 10 then 11 else 0) ∧ m'.registers = m.registers ∧
      Rig.ComesTo ⟨m, d⟩ 1 ⟨m', d⟩ := by
  have hnext : m.next (.jf (.register ⟨1⟩) (.literal ⟨0, by decide⟩)) = 11 := by
    rw [Machine.next, hpc]
    rfl
  by_cases hfeed : b = 10
  · rw [if_pos hfeed] at hb ⊢
    have htest : m.value (.register ⟨1⟩) ≠ 0 := by
      show m.register ⟨1⟩ ≠ 0
      rw [hb]
      decide
    exact ⟨m.apply 11 .next, h.of_memory_eq rfl, rfl, rfl, .of_performs (hpc ▸ h.branches) hnext
      (.effect (Machine.Yields.jf_passed htest).action_eq) rfl⟩
  · rw [if_neg hfeed] at hb ⊢
    have htest : m.value (.register ⟨1⟩) = 0 := hb
    exact ⟨m.apply 11 (.jump ⟨0, by decide⟩), h.of_memory_eq rfl, rfl, rfl,
      .of_performs (hpc ▸ h.branches) hnext
        (.effect (Machine.Yields.jf_taken htest rfl).action_eq) rfl⟩

/-- **A round of the loop** reads a byte and puts it out. -/
theorem round (h : Echoing m) (hpc : m.pc = 0) (past rest : List UInt8) (b : UInt8) :
    ∃ m', Echoing m' ∧ m'.pc = (if b = 10 then 11 else 0) ∧ m'.register ⟨0⟩ = b.toUInt16 ∧
      m'.register ⟨1⟩ = (if b = 10 then 1 else 0) ∧
      Rig.ComesTo ⟨m, Recorder.between past (b :: rest)⟩ 4
        ⟨m', Recorder.between (past ++ [b]) rest⟩ := by
  obtain ⟨m₁, h₁, hpc₁, hb₁, hread⟩ := h.read hpc past rest b
  obtain ⟨m₂, h₂, hpc₂, hb₂, hput⟩ := h₁.put hpc₁ hb₁ past rest
  obtain ⟨m₃, h₃, hpc₃, hb₃, htruth, htest⟩ := h₂.test hpc₂ hb₂ (Recorder.between (past ++ [b]) rest)
  obtain ⟨m₄, h₄, hpc₄, hregisters, hbranch⟩ :=
    h₃.branch hpc₃ htruth (Recorder.between (past ++ [b]) rest)
  have hsame (r : Register) : m₄.register r = m₃.register r := by
    rw [Machine.register, hregisters]
    rfl
  exact ⟨m₄, h₄, hpc₄, (hsame _).trans hb₃, (hsame _).trans htruth,
    ((hread.trans hput).trans htest).trans hbranch⟩

/-- **Before the first line feed** all bytes are read and put out, and each takes four steps. -/
theorem rounds (h : Echoing m) (hpc : m.pc = 0) (past rest : List UInt8) (hfeed : 10 ∉ bytes) :
    ∃ m', Echoing m' ∧ m'.pc = 0 ∧
      Rig.ComesTo ⟨m, Recorder.between past (bytes ++ rest)⟩ (4 * bytes.length)
        ⟨m', Recorder.between (past ++ bytes) rest⟩ := by
  induction bytes generalizing m past with
  | nil =>
    rw [List.append_nil]
    exact ⟨m, h, hpc, .refl _⟩
  | cons b bytes ih =>
    rw [List.mem_cons, not_or] at hfeed
    obtain ⟨m₁, h₁, hpc₁, -, -, hround⟩ := h.round hpc past (bytes ++ rest) b
    rw [if_neg fun hb => hfeed.1 hb.symm] at hpc₁
    obtain ⟨m', h', hpc', hrounds⟩ := ih h₁ hpc₁ (past ++ [b]) hfeed.2
    rw [List.append_assoc] at hrounds
    have hall := hround.trans hrounds
    rw [Nat.add_comm, ← Nat.mul_succ] at hall
    exact ⟨m', h', hpc', hall⟩

/-- **With the first line feed the program halts.** -/
theorem halts_at_feed (h : Echoing m) (hpc : m.pc = 0) (rest : List UInt8) (hfeed : 10 ∉ bytes) :
    ∃ m', m'.register ⟨0⟩ = 10 ∧ m'.register ⟨1⟩ = 1 ∧
      RunsTo (fun _ _ => false) 0 ⟨m, Recorder.ofBytes (bytes ++ 10 :: rest)⟩ .halted
        (4 * (bytes.length + 1)) ⟨m', Recorder.between (bytes ++ [10]) rest⟩ := by
  obtain ⟨m₁, h₁, hpc₁, hrounds⟩ := h.rounds hpc [] (10 :: rest) hfeed
  obtain ⟨m₂, h₂, hpc₂, hzero, hone, hround⟩ := h₁.round hpc₁ ([] ++ bytes) rest 10
  rw [if_pos rfl] at hpc₂ hone
  have decoded := h₂.halts
  rw [← hpc₂] at decoded
  have hadv : m₂.Advances (Recorder.between (bytes ++ [10]) rest)
      (m₂.apply (m₂.next .halt) (.halt false)) (Recorder.between (bytes ++ [10]) rest) :=
    .perform (Machine.isHalted_of_decode decoded) decoded
      (.effect Machine.Yields.halt.action_eq)
  exact ⟨m₂.apply (m₂.next .halt) (.halt false), hzero, hone,
    (hrounds.trans hround).runsTo (.of_halts hadv rfl _)⟩

/-- **Without a line feed it fails** when there is nothing more to read. -/
theorem fails_without_feed (h : Echoing m) (hpc : m.pc = 0) (hfeed : 10 ∉ bytes) :
    ∃ m', RunsTo (fun _ _ => false) 0 ⟨m, Recorder.ofBytes bytes⟩
      (.faulted ⟨0, some .inp, .inputExhausted⟩) (4 * bytes.length)
      ⟨m', Recorder.between bytes []⟩ := by
  obtain ⟨m', h', hpc', hrounds⟩ := h.rounds hpc [] [] hfeed
  have decoded := h'.reads
  rw [← hpc'] at decoded
  have hfails : m'.Fails (Recorder.between bytes []) ⟨m'.pc, some .inp, .inputExhausted⟩
      (Recorder.between bytes []) :=
    .exhausted (Machine.isHalted_of_decode decoded) decoded Machine.Yields.inp.action_eq rfl
  rw [List.append_nil] at hrounds
  rw [← hpc']
  exact ⟨m', hrounds.runsTo (.of_fails hfails _)⟩

end Echoing

/-! ### On a console -/

/-- The characters that bytes are the numbers of, in UTF-8. -/
def utf8Of (bytes : List UInt8) : List UInt8 :=
  bytes.flatMap fun b => String.utf8EncodeChar (Char.ofUInt8 b)

theorem characterOf_byte (b : UInt8) : characterOf b.toUInt16 = Char.ofUInt8 b := by
  have hvalid : b.toUInt16.toNat.isValidChar := by
    left
    rw [UInt8.toNat_toUInt16]
    exact Nat.lt_trans b.toNat_lt (by decide)
  rw [characterOf, dif_pos hvalid]
  apply Char.ext
  rfl

theorem Recorder.text_between (past future : List UInt8) :
    (Recorder.between past future).text = utf8Of past := by
  have hencode (b : UInt8) :
      Console.encode b.toUInt16 = String.utf8EncodeChar (Char.ofUInt8 b) := by
    rw [Console.encode, characterOf_byte]
  simp [text, between, utf8Of, List.flatMap_map, hencode]

/-- A console **shows** bytes behind what its sink was given with: they are written or held back, as
its mode has it, and once it is finished they are written in any case. -/
structure Console.Shows (c : Console) (s : Sink) (bytes : List UInt8) : Prop where
  interactive : c.mode = .interactive →
    c.sink.bytes.toList = s.bytes.toList ++ bytes ∧ c.pending = #[]
  buffered : c.mode = .buffered → c.pending.toList = bytes ∧ c.sink = s
  finished : c.finish.1 = .ok () ∧ c.finish.2.sink.bytes.toList = s.bytes.toList ++ bytes

namespace Console.Renders

variable {mode : Mode} {s : Sink} {r : Recorder} {c : Console} {past future : List UInt8}

theorem shows_text (h : Renders mode s r c) : c.Shows s r.text where
  interactive hmode := by
    obtain ⟨hpending, flushes, hsink⟩ := h.interactive (h.mode_eq.symm.trans hmode)
    rw [hsink, Sink.toList_after]
    exact ⟨rfl, hpending⟩
  buffered hmode := h.buffered (h.mode_eq.symm.trans hmode)
  finished := h.finish

theorem unread_eq (h : Renders mode s (.between past future) c) : c.unread = future := by
  have hsame : ∀ b b' : UInt8,
      Recorder.Supply.word b.toUInt16 = .word b'.toUInt16 → b = b' := by
    intro b b' hb
    exact UInt8.toUInt16_inj.1 (Recorder.Supply.word.inj hb)
  exact ((List.map_inj_right hsame).1 h.supplies).symm

end Console.Renders

/-- **A run on a recorder is one on a console**, which shows what was recorded. -/
theorem RunsTo.on_console {m m' : Machine} {script source past future : List UInt8} {o : Outcome}
    {k fuel : Nat}
    (h : RunsTo (fun _ _ => false) 0 ⟨m, Recorder.ofBytes (script ++ source)⟩ o k
      ⟨m', Recorder.between past future⟩)
    (mode : Console.Mode) {s : Sink} (hs : s.Unlimited) (keep : Record → Bool) (enough : k < fuel) :
    let run := m.run keep fuel ({ mode, sink := s, script, source } : Console)
    run.outcome = o ∧ run.tries = k ∧ run.machine = m' ∧ run.device.Shows s (utf8Of past) ∧
      run.device.unread = future := by
  intro run
  have hstart : Rig.Related (Console.Renders mode s) ⟨m, Recorder.ofBytes (script ++ source)⟩
      ⟨m, { mode, sink := s, script, source }⟩ :=
    ⟨rfl, Console.Renders.start hs mode script source⟩
  obtain ⟨houtcome, htries, hend⟩ := hstart.run (Console.Renders.alike mode s) keep keep fuel
  obtain ⟨ho, hk, hmachine, hdevice⟩ := h.run_of_fuel keep enough
  have hrenders : Console.Renders mode s (.between past future) run.device := by
    have hrenders := hend.device
    rw [Run.rig, hdevice] at hrenders
    exact hrenders
  refine ⟨houtcome.symm.trans ho, htries.symm.trans hk, hend.machine.symm.trans hmachine, ?_,
    hrenders.unread_eq⟩
  rw [← Recorder.text_between past future]
  exact hrenders.shows_text

/-- **The program echoes what it reads up to the first line feed**, under either policy, on a console
of either mode, whether the bytes come from a script or from the source. With four steps for every
byte and one to halt it has put out the characters of these bytes, the line feed with them, and what
comes behind is left to read. If there is no line feed, all is put out, and then the program fails
for there is nothing more to read. -/
theorem echo_echoes_first_line (policy : Policy) (mode : Console.Mode) {s : Sink}
    (hs : s.Unlimited) (script source : List UInt8) :
    let input := script ++ source
    let c : Console := { mode, sink := s, script, source }
    ∃ m, (Machine.blank policy).load echo = .ok m ∧
    (∀ j, input[j]? = some 10 → 10 ∉ input.take j → ∀ keep fuel, 4 * (j + 1) < fuel →
      let run := m.run keep fuel c
      run.outcome = .halted ∧ run.steps = 4 * (j + 1) + 1 ∧
      run.machine.register ⟨0⟩ = 10 ∧ run.machine.register ⟨1⟩ = 1 ∧
      run.device.Shows s (utf8Of (input.take (j + 1))) ∧
      run.device.unread = input.drop (j + 1)) ∧
    (10 ∉ input → ∀ keep fuel, 4 * input.length < fuel →
      let run := m.run keep fuel c
      ∃ f, run.outcome = .faulted f ∧ f.pc = 0 ∧ f.mnemonic = "in" ∧ f.cause = .inputExhausted ∧
      run.device.Shows s (utf8Of input) ∧ run.device.unread = []) := by
  intro input c
  have hvalid : Image.validate echo = .ok () :=
    Image.validate_eq_ok_of_all (by decide) (by decide)
  have hechoing := echoing_loaded policy
  refine ⟨.loaded policy echo, Machine.load_eq_ok_iff.2 ⟨hvalid, rfl⟩, ?_, ?_⟩
  · intro j hfeed hfirst keep fuel hfuel run
    obtain ⟨hj, hat⟩ := List.getElem?_eq_some_iff.1 hfeed
    have hinput : input = input.take j ++ 10 :: input.drop (j + 1) := by
      rw [← hat, ← List.drop_eq_getElem_cons hj, List.take_append_drop]
    have hlength : (input.take j).length = j := List.length_take_of_le (Nat.le_of_lt hj)
    have htake : input.take (j + 1) = input.take j ++ [10] := by
      rw [List.take_add_one, hfeed]
      rfl
    obtain ⟨m', hzero, hone, hruns⟩ := hechoing.halts_at_feed rfl (input.drop (j + 1)) hfirst
    rw [← hinput, hlength, ← htake] at hruns
    obtain ⟨houtcome, htries, hmachine, hshows, hunread⟩ := hruns.on_console mode hs keep hfuel
    refine ⟨houtcome, ?_, ?_, ?_, hshows, hunread⟩
    · rw [Run.steps, htries, houtcome]
      rfl
    · rw [hmachine, hzero]
    · rw [hmachine, hone]
  · intro hnone keep fuel hfuel run
    obtain ⟨m', hruns⟩ := hechoing.fails_without_feed rfl hnone
    obtain ⟨houtcome, -, -, hshows, hunread⟩ := hruns.on_console mode hs keep hfuel
    exact ⟨_, houtcome, rfl, rfl, rfl, hshows, hunread⟩

/-- A line that begins in a script, with a letter of two bytes in it, and one more byte behind it. -/
theorem echo_echoes_first_line_of_script :
    let c : Console := { mode := .buffered, script := [116], source := [228, 10, 9] }
    ({} : Sink).Unlimited ∧ ∃ m, (Machine.blank .skip).load echo = .ok m ∧
      let run := m.run (fun _ => true) 13 c
      run.outcome = .halted ∧ run.steps = 13 ∧ run.device.Shows {} [116, 195, 164, 10] ∧
      run.device.unread = [9] := by
  intro c
  have hs : ({} : Sink).Unlimited := ⟨rfl, rfl⟩
  obtain ⟨m, hload, hhalts, -⟩ := echo_echoes_first_line .skip .buffered hs [116] [228, 10, 9]
  obtain ⟨houtcome, hsteps, -, -, hshows, hunread⟩ :=
    hhalts 2 rfl (by decide) (fun _ => true) 13 (by decide)
  exact ⟨hs, m, hload, houtcome, hsteps, hshows, hunread⟩

end WordMachine
