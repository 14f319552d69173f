import WordMachine.CommandLine.Interaction
import WordMachine.Proofs.RunCommand
import WordMachine.Proofs.StandIn

/-!
# Programs that are talked to

A program that is run in turns, and gets its input in chunks as it asks for it, is reported like one
that has all of its input from the start (`Interaction.report_iff`).

The proof follows the run that has it all. The turns are **amid** it (`Interaction.Amid`): what they
have on their console stands for what that run has on its own. Each turn leads to where the run is
after some more steps, with the records of just these steps (`Interaction.turn_cases`), also if its
last step fails for want of input: that step changes nothing and is made again, so its trace is not
among them. The turns come to an end since each makes a step or uses up a chunk.
-/

namespace WordMachine.CommandLine

theorem wantsInput_iff {o : Outcome} :
    wantsInput o = true ↔ ∃ f, o = .faulted f ∧ f.cause = .inputExhausted := by
  constructor
  · intro h
    unfold wantsInput at h
    split at h
    · exact ⟨_, rfl, rfl⟩
    · cases h
  · rintro ⟨⟨pc, opcode, cause⟩, rfl, rfl⟩
    rfl

/-- Traces are shown or not all alike, so the last record of a run that comes to wait is the trace of
its last step if any record is a trace. -/
theorem beforeWaiting_append (filter : Filter) (records : List Record) (t : Trace) :
    beforeWaiting (records.filter filter.shows ++ [Record.trace t].filter filter.shows) =
      records.filter filter.shows := by
  rw [beforeWaiting]
  have same : ∀ t', filter.shows (.trace t') = filter.shows (.trace t) := fun _ => rfl
  cases shown : filter.shows (.trace t) with
  | true =>
    have hone : [Record.trace t].filter filter.shows = [.trace t] := by simp [shown]
    rw [hone, List.getLast?_concat]
    exact List.dropLast_concat
  | false =>
    have hnone : [Record.trace t].filter filter.shows = [] := by simp [shown]
    rw [hnone, List.append_nil]
    split
    · next t' hlast =>
      have hshown := (List.mem_filter.1 (List.mem_of_getLast? hlast)).2
      rw [same t', shown] at hshown
      cases hshown
    · rfl

/-! ### Reports of runs that begin anywhere -/

/-- The report of a run to its end, if the fuel suffices. -/
def reportFrom (filter : Filter) (fuel : Nat) (r : Rig Console) : Option Report :=
  let run := r.machine.run filter.shows fuel r.device
  if run.outcome = .unfinished then none
  else some ((conclude filter run.outcome run.machine run.device).behind #[] run.log.toList)

theorem Report.behind_behind (r : Report) (bytes bytes' : Array UInt8) (log log' : List Record) :
    (r.behind bytes' log').behind bytes log = r.behind (bytes ++ bytes') (log ++ log') := by
  simp only [behind, Array.append_assoc, List.append_assoc]

theorem reportRun_eq_reportFrom {o : RunOptions} {env : Environment} {ready : Ready}
    (h : startRun env o = .ok ready) (fuel : Nat) :
    reportRun fuel env o = (reportFrom (o.filter env.level) fuel ⟨ready.machine, ready.console⟩).map
      (·.behind #[] ready.log) := by
  rw [reportRun_of_startRun h rfl, reportFrom]
  split
  · rfl
  · simp [Report.behind]

/-- **A report may begin after some steps**, if these are put in front of it. -/
theorem reportFrom_add {filter : Filter} {r : Rig Console} {n : Nat}
    (running : ∀ k < n, (r.after k).answer = .ok .running) (fuel : Nat) :
    reportFrom filter (n + fuel) r =
      (reportFrom filter fuel (r.after n)).map (·.behind #[] (r.kept filter.shows n)) := by
  simp only [reportFrom, Rig.run_add filter.shows running, Run.behind]
  split
  · rfl
  · simp [Report.behind]

/-- A report that comes to an end does so after the steps that leave the machine running. -/
theorem reportFrom_after {filter : Filter} {r : Rig Console} {n fuel : Nat} {report : Report}
    (running : ∀ k < n, (r.after k).answer = .ok .running)
    (h : reportFrom filter fuel r = some report) :
    ∃ fuel' report', fuel = n + fuel' ∧ reportFrom filter fuel' (r.after n) = some report' := by
  rcases Nat.le_total n fuel with hle | hle
  · obtain ⟨fuel', rfl⟩ := Nat.exists_eq_add_of_le hle
    rw [reportFrom_add running, Option.map_eq_some_iff] at h
    obtain ⟨report', h', -⟩ := h
    exact ⟨fuel', report', rfl, h'⟩
  · -- so little fuel does not suffice
    have hless : ∀ k < fuel, (r.after k).answer = .ok .running :=
      fun k hk => running k (Nat.lt_of_lt_of_le hk hle)
    rw [← Nat.add_zero fuel, reportFrom_add hless] at h
    cases h

theorem reportFrom_of_le {filter : Filter} {r : Rig Console} {fuel fuel' : Nat} {report : Report}
    (h : reportFrom filter fuel r = some report) (hle : fuel ≤ fuel') :
    reportFrom filter fuel' r = some report := by
  have ended : (r.machine.run filter.shows fuel r.device).outcome ≠ .unfinished := by
    intro unfinished
    rw [reportFrom, if_pos unfinished] at h
    cases h
  rw [reportFrom, Machine.run_of_le ended hle]
  exact h

theorem reportFrom_unique {filter : Filter} {r : Rig Console} {fuel fuel' : Nat} {a b : Report}
    (ha : reportFrom filter fuel r = some a) (hb : reportFrom filter fuel' r = some b) : a = b := by
  have ha := reportFrom_of_le ha (Nat.le_max_left fuel fuel')
  have hb := reportFrom_of_le hb (Nat.le_max_right fuel fuel')
  exact Option.some.inj (ha.symm.trans hb)

/-- What was passed on of a console is all that its report lacks. -/
theorem conclude_standsFor {passed : Array UInt8} {coming : List UInt8} {c e : Console}
    (h : c.StandsFor passed coming e) (filter : Filter) (outcome : Outcome) (m : Machine) :
    conclude filter outcome m e = (conclude filter outcome m c).behind passed [] := by
  obtain ⟨n, hc⟩ := Console.finish_eq h.unlimited
  obtain ⟨k, he⟩ := Console.finish_eq h.unlimited'
  rw [conclude, conclude, hc, he, h.pending]
  have hbytes := h.bytes_after c.pending.toList k n
  cases outcome with
  | _ => simp [Report.behind, hbytes]

/-- **If a run that stands for part of another ends as that does**, it is reported like it, but for
what was passed on. -/
theorem reportFrom_of_ended {passed : Array UInt8} {coming : List UInt8} {r s : Rig Console}
    {filter : Filter} {fuel : Nat} {run : Run Console}
    (h : r.Related (Console.StandsFor passed coming) s)
    (hrun : r.machine.run filter.shows fuel r.device = run) (ended : run.outcome ≠ .unfinished)
    (last : coming = [] ∨ ∀ f, run.outcome = .faulted f → f.cause ≠ .inputExhausted) :
    ∃ fuel', reportFrom filter fuel' s = some
      ((conclude filter run.outcome run.machine run.device).behind passed run.log.toList) := by
  obtain ⟨fuel', hwhole⟩ := Run.exists_of_ended h hrun ended last
  obtain ⟨houtcome, hlog, hrelated⟩ := hwhole _ rfl
  refine ⟨fuel', ?_⟩
  have hmachine : run.machine = (s.machine.run filter.shows fuel' s.device).machine :=
    hrelated.machine
  have hdevice : run.device.StandsFor passed coming
      (s.machine.run filter.shows fuel' s.device).device := hrelated.device
  rw [reportFrom, houtcome, if_neg ended, ← hmachine, hlog, conclude_standsFor hdevice]
  simp [Report.behind_behind]

/-! ### Turns -/

/-- A turn **covers** the first steps of a run: they leave the machine running, and their records are
what it shows. -/
structure Turn.Covers (t : Turn) (filter : Filter) (s : Rig Console) (n : Nat) : Prop where
  running : ∀ k < n, (s.after k).answer = .ok .running
  log : t.log = s.kept filter.shows n

namespace Interaction

variable {i rest : Interaction} {passed : Array UInt8} {chunks : List (List UInt8)}
  {s : Rig Console} {filter : Filter} {steps turns : Nat} {t : Turn}

/-- The input that is to come in chunks; an empty chunk is the end of it. -/
def coming (i : Interaction) (chunks : List (List UInt8)) : List UInt8 :=
  if i.closed then [] else (chunks.takeWhile (! ·.isEmpty)).flatten

/-- An interaction is **amid** a run: the run is in the same state, but has on its console also what
was passed on and what is to come. -/
def Amid (i : Interaction) (passed : Array UInt8) (chunks : List (List UInt8)) (s : Rig Console) :
    Prop :=
  Rig.Related (Console.StandsFor passed (i.coming chunks)) ⟨i.machine, i.console⟩ s

theorem coming_give (i : Interaction) (chunks : List (List UInt8)) :
    chunks.headD [] ++ (i.give (chunks.headD [])).coming chunks.tail =
      (chunks.takeWhile (! ·.isEmpty)).flatten := by
  cases chunks with
  | nil => rfl
  | cons chunk chunks =>
    cases chunk with
    | nil => rfl
    | cons b bs => rfl

/-- **What a turn leads to.** Some steps of the whole run are made, and it goes on from there, with
new input if the program waits for some; or it has ended, and its report is that of the turn with what
was passed on before. -/
theorem turn_cases (h : i.Amid passed chunks s) (ht : i.turn filter steps = t) :
    (∃ rest, t.next = .goOn rest ∧ rest.closed = i.closed ∧ t.Covers filter s steps ∧
      rest.Amid (passed ++ t.stdout) chunks (s.after steps)) ∨
    (∃ rest n, t.next = .ask rest ∧ i.closed = false ∧ t.Covers filter s n ∧
      (rest.give (chunks.headD [])).Amid (passed ++ t.stdout) chunks.tail (s.after n)) ∨
    ∃ failure fuel, t.next = .done failure ∧
      reportFrom filter fuel s = some (Report.behind ⟨t.stdout, t.log, failure⟩ passed []) := by
  generalize hrun : i.machine.run filter.shows steps i.console = run
  simp only [turn, hrun] at ht
  split at ht
  · next unfinished =>
    subst ht
    obtain ⟨running, hlog, hrelated⟩ := Run.amid_of_unfinished h hrun unfinished
    exact .inl ⟨_, rfl, rfl, ⟨running, hlog⟩, hrelated.machine, hrelated.device.passOn⟩
  · next ended =>
    split at ht
    · next waits =>
      rw [Bool.and_eq_true, wantsInput_iff, Bool.not_eq_true'] at waits
      obtain ⟨⟨f, faulted, exhausted⟩, opened⟩ := waits
      subst ht
      obtain ⟨n, t, running, hlog, hread, hrelated⟩ :=
        Run.amid_of_exhausted h hrun faulted exhausted
      refine .inr (.inl ⟨_, n, rfl, opened, ⟨running, ?_⟩, hrelated.machine, ?_⟩)
      · rw [hlog]
        exact beforeWaiting_append filter _ t
      · have hdevice := hrelated.device.passOn
        have hcoming : i.coming chunks = (chunks.takeWhile (! ·.isEmpty)).flatten := by
          rw [coming, opened]
          rfl
        rw [hcoming, ← coming_give i chunks] at hdevice
        exact hdevice.give (List.append_eq_nil_iff.1 hread).2
    · next closed =>
      subst ht
      have hlast : i.coming chunks = [] ∨
          ∀ f, run.outcome = .faulted f → f.cause ≠ .inputExhausted := by
        cases hclosed : i.closed with
        | true => exact .inl (if_pos hclosed)
        | false =>
          right
          intro f faulted exhausted
          apply closed
          rw [wantsInput_iff.2 ⟨f, faulted, exhausted⟩, hclosed]
          rfl
      obtain ⟨fuel, hfuel⟩ := reportFrom_of_ended h hrun ended hlast
      refine .inr (.inr ⟨_, fuel, rfl, ?_⟩)
      rw [hfuel]
      rfl

theorem report_of_goOn (ht : i.turn filter steps = t) (h : t.next = .goOn rest) :
    i.report filter steps (turns + 1) chunks =
      (rest.report filter steps turns chunks).map (·.behind t.stdout t.log) := by
  subst ht
  rw [report]
  simp only [h]

theorem report_of_ask (ht : i.turn filter steps = t) (h : t.next = .ask rest) :
    i.report filter steps (turns + 1) chunks =
      ((rest.give (chunks.headD [])).report filter steps turns chunks.tail).map
        (·.behind t.stdout t.log) := by
  subst ht
  rw [report]
  simp only [h]

theorem report_of_done {failure : Option Failure} (ht : i.turn filter steps = t)
    (h : t.next = .done failure) :
    i.report filter steps (turns + 1) chunks = some ⟨t.stdout, t.log, failure⟩ := by
  subst ht
  rw [report]
  simp only [h]

/-- **Turns report what the whole run reports**, from where they begin. -/
theorem reportFrom_of_report {r : Report} (h : i.Amid passed chunks s)
    (hr : i.report filter steps turns chunks = some r) :
    ∃ fuel, reportFrom filter fuel s = some (r.behind passed []) := by
  induction turns generalizing i passed chunks s r with
  | zero => cases hr
  | succ turns ih =>
    generalize ht : i.turn filter steps = t
    -- the turns to come report the rest of the run
    have goesOn {rest : Interaction} {chunks' : List (List UInt8)} {n : Nat}
        (hrest : rest.Amid (passed ++ t.stdout) chunks' (s.after n)) (covers : t.Covers filter s n)
        (hr : (rest.report filter steps turns chunks').map (·.behind t.stdout t.log) = some r) :
        ∃ fuel, reportFrom filter fuel s = some (r.behind passed []) := by
      obtain ⟨r', hr', rfl⟩ := Option.map_eq_some_iff.1 hr
      obtain ⟨fuel, hfuel⟩ := ih hrest hr'
      refine ⟨n + fuel, ?_⟩
      rw [reportFrom_add covers.running, hfuel, ← covers.log]
      simp [Report.behind_behind]
    rcases turn_cases h ht with
      ⟨rest, hnext, -, covers, hrest⟩ | ⟨rest, n, hnext, -, covers, hrest⟩ |
        ⟨failure, fuel, hnext, hfuel⟩
    · rw [report_of_goOn ht hnext] at hr
      exact goesOn hrest covers hr
    · rw [report_of_ask ht hnext] at hr
      exact goesOn hrest covers hr
    · rw [report_of_done ht hnext] at hr
      obtain rfl := Option.some.inj hr
      exact ⟨fuel, hfuel⟩

/-- **If the whole run comes to an end, so do the turns**, of which each makes a step of it or uses up
a chunk. -/
theorem exists_report (positive : 0 < steps) {fuel size : Nat} {r : Report}
    (h : i.Amid passed chunks s) (hr : reportFrom filter fuel s = some r)
    (hsize : fuel + chunks.length + (!i.closed).toNat ≤ size) :
    ∃ turns r', i.report filter steps turns chunks = some r' := by
  induction size generalizing i passed chunks s fuel r with
  | zero =>
    obtain rfl : fuel = 0 := by omega
    cases hr
  | succ size ih =>
    generalize ht : i.turn filter steps = t
    rcases turn_cases h ht with
      ⟨rest, hnext, hclosed, covers, hrest⟩ | ⟨rest, n, hnext, hclosed, covers, hrest⟩ |
        ⟨failure, fuel, hnext, hfuel⟩
    · obtain ⟨fuel', r', rfl, hr'⟩ := reportFrom_after covers.running hr
      have hless : fuel' + chunks.length + (!rest.closed).toNat ≤ size := by
        rw [hclosed]
        omega
      obtain ⟨turns, r'', hturns⟩ := ih hrest hr' hless
      refine ⟨turns + 1, r''.behind t.stdout t.log, ?_⟩
      rw [report_of_goOn ht hnext, hturns]
      rfl
    · obtain ⟨fuel', r', rfl, hr'⟩ := reportFrom_after covers.running hr
      have hless : fuel' + chunks.tail.length + (!(rest.give (chunks.headD [])).closed).toNat ≤
          size := by
        rw [hclosed, Bool.not_false, Bool.toNat_true] at hsize
        cases chunks with
        | nil =>
          show fuel' + 0 + 0 ≤ size
          omega
        | cons chunk chunks =>
          have hle := Bool.toNat_le (!(rest.give chunk).closed)
          rw [List.length_cons] at hsize
          rw [List.tail_cons, List.headD_cons]
          omega
      obtain ⟨turns, r'', hturns⟩ := ih hrest hr' hless
      refine ⟨turns + 1, r''.behind t.stdout t.log, ?_⟩
      rw [report_of_ask ht hnext, hturns]
      rfl
    · exact ⟨1, _, report_of_done ht hnext⟩

end Interaction

/-! ### Files that are not standard input -/

section

variable {env : Environment} (files : ∀ path, env.read path ≠ .ok .standardInput)

include files

theorem readFile_of_files (path : String) :
    (∃ e, ∀ stdin, { env with stdin }.readFile path = .error e) ∨
      ∃ bytes, ∀ stdin, { env with stdin }.readFile path = .ok (bytes, { env with stdin }) := by
  rcases hread : env.read path with e | bytes | -
  · left
    refine ⟨e, fun stdin => ?_⟩
    simp only [Environment.readFile, hread]
  · right
    refine ⟨bytes, fun stdin => ?_⟩
    simp only [Environment.readFile, hread]
  · exact absurd hread (files path)

/-- If no file is standard input, a run is made ready, or refused, whatever there is to read. -/
theorem startRun_of_files (o : RunOptions) :
    (∃ report, ∀ stdin, startRun { env with stdin } o = .error report) ∨
      ∃ m script log, ∀ stdin, startRun { env with stdin } o =
        .ok ⟨m, { mode := o.mode, script, source := stdin }, log⟩ := by
  rcases readFile_of_files files o.rom with ⟨e, hrom⟩ | ⟨image, hrom⟩
  · left
    refine ⟨.failed [] (.unreadableRom o.rom e), fun stdin => ?_⟩
    rw [startRun, readProgram_unreadable (hrom stdin)]
  cases hprogram : Image.decode image with
  | error e =>
    left
    refine ⟨.failed [] (.undecodableRom o.rom e), fun stdin => ?_⟩
    rw [startRun, readProgram_undecodable (hrom stdin) hprogram]
  | ok program =>
    have hloads : (Machine.blank o.policy).load program = .ok (.loaded o.policy program) :=
      Machine.load_eq_ok_iff.2 ⟨Image.validate_of_decode hprogram, rfl⟩
    let shown (queued : List Record) : List Record :=
      (.loaded program.size o.rom :: queued).filter (o.filter env.level).shows
    cases hwanted : o.script with
    | none =>
      right
      refine ⟨.loaded o.policy program, [], shown [], fun stdin => ?_⟩
      rw [startRun, readProgram_eq_ok (hrom stdin) hprogram]
      simp only [prepare_plain hloads hwanted]
      rfl
    | some path =>
      rcases readFile_of_files files path with ⟨e, hscript⟩ | ⟨script, hscript⟩
      · left
        refine ⟨.failed (shown []) (.unreadableScript path e), fun stdin => ?_⟩
        rw [startRun, readProgram_eq_ok (hrom stdin) hprogram]
        simp only [prepare_unreadable hloads hwanted (hscript stdin)]
        rfl
      · right
        refine ⟨.loaded o.policy program, script.toList,
          shown [.scriptQueued script.toList.length], fun stdin => ?_⟩
        rw [startRun, readProgram_eq_ok (hrom stdin) hprogram]
        simp only [prepare_scripted hloads hwanted (hscript stdin)]
        rfl

/-- **A program that is talked to is reported like one that has all of its input from the start**: if
the turns come to an end, then so does the whole run, and the other way around, and they report the
same. The input may come in any chunks, of which the first that is empty is the end of it, and a turn
may make any number of steps. -/
theorem Interaction.report_iff {o : RunOptions} {ready : Ready}
    (h : startRun { env with stdin := [] } o = .ok ready) {steps : Nat} (positive : 0 < steps)
    (chunks : List (List UInt8)) (r : Report) :
    let input := (chunks.takeWhile (! ·.isEmpty)).flatten
    (∃ turns, Interaction.report (o.filter env.level) steps turns chunks
      ⟨ready.machine, ready.console, false⟩ = some r) ↔
    ∃ fuel, reportRun fuel { env with stdin := input } o = some (r.behind #[] ready.log) := by
  intro input
  rcases startRun_of_files files o with ⟨refused, hrefused⟩ | ⟨m, script, log, hready⟩
  · cases (hrefused []).symm.trans h
  obtain rfl := Except.ok.inj ((hready []).symm.trans h)
  let i : Interaction := ⟨m, { mode := o.mode, script, source := [] }, false⟩
  let whole : Rig Console := ⟨m, { mode := o.mode, script, source := input }⟩
  have hamid : i.Amid #[] chunks whole :=
    ⟨rfl, rfl, rfl, rfl, rfl, rfl, ⟨rfl, rfl⟩, ⟨rfl, rfl⟩⟩
  have hreport (fuel : Nat) : reportRun fuel { env with stdin := input } o =
      (reportFrom (o.filter env.level) fuel whole).map (·.behind #[] log) :=
    reportRun_eq_reportFrom (hready input) fuel
  have hsame (r : Report) : r.behind #[] [] = r := by simp [Report.behind]
  constructor
  · rintro ⟨turns, hturns⟩
    obtain ⟨fuel, hfuel⟩ := reportFrom_of_report hamid hturns
    refine ⟨fuel, ?_⟩
    rw [hreport, hfuel, hsame]
    rfl
  · rintro ⟨fuel, hfuel⟩
    rw [hreport, Option.map_eq_some_iff] at hfuel
    obtain ⟨r', hr', hsuffix⟩ := hfuel
    obtain ⟨turns, r'', hturns⟩ := exists_report positive hamid hr' (Nat.le_refl _)
    obtain ⟨fuel', hfuel'⟩ := reportFrom_of_report hamid hturns
    rw [hsame] at hfuel'
    obtain rfl := reportFrom_unique hr' hfuel'
    refine ⟨turns, ?_⟩
    -- what is reported before the run is the same on both sides
    obtain rfl : r' = r := by
      obtain ⟨stdout, log', failure⟩ := r
      obtain ⟨stdout', log'', failure'⟩ := r'
      simpa [Report.behind] using hsuffix
    exact hturns

end

end WordMachine.CommandLine
