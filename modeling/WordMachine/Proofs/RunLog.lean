import WordMachine.Proofs.Codec
import WordMachine.Proofs.LogAccounting
import WordMachine.Proofs.Script

/-!
# The log of a program that is run from the command line

All that there is to report of a run is one list: that the program was loaded, what the machine
reports of its steps, and how it all ended (`ending`). What is logged is what the filter shows of it
(`log_reportRun`), as long as the console's own records are not shown.

The machine's records are its warnings and, below level `info`, the rest. So at level `info` or `warn`
a run shows its warnings, and in place of them, if it is debugged, all that the machine reports.
-/

namespace WordMachine

/-! ### Runs on recorders and consoles -/

theorem Recorder.output_log (r : Recorder) (w : Word) : (r.output w).log = [] := by
  rw [output]
  split
  · rfl
  · rfl

theorem Recorder.input_log (r : Recorder) : r.input.log = [] := by
  rw [input]
  split
  · rfl
  · rfl

/-- **Of a console's run the same is kept as of its recorder's**, if the console's own records are
not. -/
theorem Console.Renders.reportsAlike {keep : Record → Bool} (quiet : Console.Quiet keep)
    (mode : Console.Mode) (s : Sink) :
    Device.ReportsAlike keep (Console.Renders mode s) where
  toAlike := alike mode s
  outputLog {r c} _ w := by
    show (r.output w).log.filter keep = (c.output w).log.filter keep
    rw [r.output_log, c.output_log]
  inputLog {r c} _ := by
    show r.input.log.filter keep = c.input.log.filter keep
    rw [r.input_log, quiet.filter_eq_nil c.origin_of_mem_input_log]
    rfl

/-- A recorder reports nothing. -/
theorem Rig.log_eq_report (q : Rig Recorder) : q.log = q.report := by
  have hheard : q.heard = [] := by
    rw [heard]
    split
    · exact Recorder.output_log _ _
    · exact Recorder.input_log _
    · rfl
  obtain ⟨opening, hopening⟩ := q.machine.exists_reports
  have hlog : q.log = opening ++ q.heard ++ q.closing := hopening.log_eq q.device
  rw [hlog, hheard, report_eq hopening, List.append_nil]

theorem Rig.flatMap_log_eq_reports (q : Rig Recorder) (n : Nat) :
    (q.trail n).flatMap log = q.reports n := by
  rw [reports, funext log_eq_report]

/-- **What a run keeps does not depend on the console**, but for the console's own records. -/
theorem Rig.Related.log_run_console {keep : Record → Bool} (quiet : Console.Quiet keep)
    {mode : Console.Mode} {s : Sink} {q : Rig Recorder} {r : Rig Console}
    (h : q.Related (Console.Renders mode s) r) (all : Record → Bool) (fuel : Nat) :
    (r.machine.run keep fuel r.device).log.toList =
      (q.reports (q.machine.run all fuel q.device).steps).filter keep := by
  have hR := Console.Renders.reportsAlike quiet mode s
  have hlog : (q.machine.run keep fuel q.device).log = (r.machine.run keep fuel r.device).log :=
    h.log_run hR fuel
  have hsteps : (q.machine.run keep fuel q.device).steps = (q.machine.run all fuel q.device).steps := by
    simp only [Machine.run_eq_runUntil]
    exact (h.steps_eq hR.toAlike keep keep _ fuel).trans (h.steps_eq hR.toAlike all keep _ fuel).symm
  rw [← hlog, ← hsteps, ← q.flatMap_log_eq_reports, Machine.run_eq_runUntil]
  exact Machine.log_runUntil keep _ fuel q.machine q.device

namespace CommandLine

/-! ### What is shown of a run -/

/-- What is reported after a run. -/
def ending (skipped exitCode : Nat) : List Record :=
  (if 0 < skipped then [.skipped skipped] else []) ++ if exitCode = 0 then [.finished] else []

/-- All that there is to report of a run of a program from a file. -/
def account (o : RunOptions) (program : Array Word) (records : List Record) (exitCode : Nat) :
    List Record :=
  [.loaded program.size o.rom] ++ records ++ ending (records.countP (·.level = .warn)) exitCode

/-- If the output can be written, the end of a run is shown. -/
theorem log_conclude {c : Console} (written : c.finish.1 = .ok ()) {filter : Filter}
    {outcome : Outcome} {m : Machine} {r : Report} (h : conclude filter outcome m c = r) :
    r.log = (ending m.skipped r.exitCode).filter filter.shows := by
  have hfinish : c.finish = (.ok (), c.finish.2) := Prod.ext written rfl
  rw [conclude, hfinish] at h
  cases outcome with
  | faulted f =>
    rw [← h]
    exact congrArg _ (List.append_nil _).symm
  | _ =>
    rw [← h]
    rfl

/-- **What is logged of a run is what the filter shows of all that there is to report**, if the
console's own records are not shown. -/
theorem log_reportRun {o : RunOptions} {env : Environment} {program : Array Word}
    {input : List UInt8} (h : o.Has env program input)
    (quiet : Console.Quiet (o.filter env.level).shows) {fuel : Nat} {r : Report}
    (hr : reportRun fuel env o = some r) :
    let q : Rig Recorder := ⟨.loaded o.policy program, .ofBytes input⟩
    let run := q.machine.run (fun _ => true) fuel q.device
    r.log = (account o program (q.reports run.steps) r.exitCode).filter
      (o.filter env.level).shows := by
  intro q run
  obtain ⟨script, source, queued, rfl, hqueued, hready⟩ := startRun_of_has h
  let shows := (o.filter env.level).shows
  let c : Console := { mode := o.mode, script, source }
  let loaded := Record.loaded program.size o.rom
  have hready : startRun env o = .ok ⟨q.machine, c, [loaded].filter shows⟩ := by
    have hshown : (loaded :: queued).filter shows = [loaded].filter shows := by
      rw [← List.singleton_append, List.filter_append, quiet.filter_eq_nil hqueued, List.append_nil]
    rw [← hshown]
    exact hready
  let run' := q.machine.run shows fuel c
  have hstart : q.Related (Console.Renders o.mode {}) ⟨q.machine, c⟩ :=
    ⟨rfl, Console.Renders.start ⟨rfl, rfl⟩ o.mode script source⟩
  have hend : run.rig.Related (Console.Renders o.mode {}) run'.rig :=
    (hstart.run (Console.Renders.alike _ _) _ _ fuel).2.2
  have hlog : run'.log.toList = (q.reports run.steps).filter shows :=
    hstart.log_run_console quiet (fun _ => true) fuel
  have hskipped : run'.machine.skipped = (q.reports run.steps).countP (·.level = .warn) := by
    have hrig : run.rig = q.after run.steps := by
      rw [show run = _ from Machine.run_eq_runUntil _ fuel q.machine q.device]
      exact (Machine.runUntil_follows _ _ fuel q.machine q.device).rig_eq
    have hnone : q.machine.skipped = 0 := rfl
    rw [← show run.machine = run'.machine from hend.machine,
      show run.machine = (q.after run.steps).machine from congrArg Rig.machine hrig,
      q.skipped_after, hnone, Nat.zero_add]
  have hrun : q.machine.run (o.filter env.level).shows fuel c = run' := rfl
  rw [reportRun_of_startRun hready hrun] at hr
  by_cases hended : run'.outcome = .unfinished
  · rw [if_pos hended] at hr
    cases hr
  · rw [if_neg hended] at hr
    generalize hconclude : conclude (o.filter env.level) _ _ _ = last at hr
    have hlast := log_conclude hend.device.finish.1 hconclude
    obtain rfl := Option.some.inj hr
    show [loaded].filter shows ++ run'.log.toList ++ last.log = _
    rw [hlog, hlast, hskipped, account, List.filter_append, List.filter_append]
    rfl

/-! ### What filters show -/

/-- At level `info` or `warn` the machine's warnings are shown of its records, and no other. -/
theorem shows_machine {level : Level} (coarse : level = .info ∨ level = .warn) {e : Record}
    (h : e.origin = .machine) : Filter.shows ⟨some level, false⟩ e = decide (e.level = .warn) := by
  rcases coarse with rfl | rfl
  all_goals
    cases e with
    | trace | unknownOpcode | emptyReturn | halted => rfl
    | _ => cases h

theorem shows_warn (e : Record) : Filter.shows ⟨some .warn, false⟩ e = decide (e.level = .warn) := by
  cases e with
  | _ => rfl

/-- The records of the command line are shown at level `info`. -/
theorem shows_command_info {e : Record} (h : e.origin = .command) :
    Filter.shows ⟨some .info, false⟩ e = true := by
  cases e with
  | loaded | skipped | finished => rfl
  | _ => cases h

/-- All of the machine's records are shown when it is debugged. -/
theorem shows_machine_debugged (upTo : Option Level) {e : Record} (h : e.origin = .machine) :
    Filter.shows ⟨upTo, true⟩ e = true := by
  simp [Filter.shows, h]

/-- Debugging does not change what is shown of other records. -/
theorem shows_command (upTo : Option Level) (debug : Bool) {e : Record} (h : e.origin = .command) :
    Filter.shows ⟨upTo, debug⟩ e = Filter.shows ⟨upTo, false⟩ e := by
  simp [Filter.shows, h]

/-- The machine's records that are no warnings are at levels that are shown only then. -/
theorem warn_of_machine {e : Record} (h : e.origin = .machine) :
    decide (e.level ∉ [.trace, .debug]) = decide (e.level = .warn) := by
  cases e with
  | trace | unknownOpcode | emptyReturn | halted => rfl
  | _ => cases h

theorem origin_of_mem_loaded (words : Nat) (path : String) :
    ∀ e ∈ [Record.loaded words path], e.origin = .command := by
  intro e he
  rw [List.mem_singleton.1 he]
  rfl

theorem origin_of_mem_ending (skipped exitCode : Nat) :
    ∀ e ∈ ending skipped exitCode, e.origin = .command := by
  intro e he
  rcases List.mem_append.1 he with hskipped | hfinished
  · rw [List.mem_ite_nil_right, List.mem_singleton] at hskipped
    rw [hskipped.2]
    rfl
  · rw [List.mem_ite_nil_right, List.mem_singleton] at hfinished
    rw [hfinished.2]
    rfl

/-- Debugging changes nothing before and after what the machine reports. -/
theorem filter_account (upTo : Option Level) (debug : Bool) (o : RunOptions) (program : Array Word)
    (records : List Record) (exitCode : Nat) :
    let shown := List.filter (Filter.shows ⟨upTo, false⟩)
    (account o program records exitCode).filter (Filter.shows ⟨upTo, debug⟩) =
      shown [.loaded program.size o.rom] ++ records.filter (Filter.shows ⟨upTo, debug⟩) ++
        shown (ending (records.countP (·.level = .warn)) exitCode) := by
  have hcommand {list : List Record} (h : ∀ e ∈ list, e.origin = .command) :
      list.filter (Filter.shows ⟨upTo, debug⟩) = list.filter (Filter.shows ⟨upTo, false⟩) :=
    List.filter_congr fun e he => shows_command upTo debug (h e he)
  rw [account, List.filter_append, List.filter_append, hcommand (origin_of_mem_loaded _ _),
    hcommand (origin_of_mem_ending _ _)]

/-- **At level `info` or `warn` the words that are skipped are warned of**, and the machine shows
nothing else. -/
theorem filter_shows_reports {δ : Type} [Device δ] (r : Rig δ) (n : Nat) {level : Level}
    (coarse : level = .info ∨ level = .warn) :
    (r.reports n).filter (Filter.shows ⟨some level, false⟩) =
      (r.trail n).filterMap (·.machine.warning?) := by
  rw [← r.filter_warn_reports n]
  exact List.filter_congr fun e he => shows_machine coarse (r.origin_of_mem_reports n e he)

/-- If it is debugged, the machine shows all that it reports. -/
theorem filter_shows_reports_debugged {δ : Type} [Device δ] (r : Rig δ) (n : Nat)
    (upTo : Option Level) : (r.reports n).filter (Filter.shows ⟨upTo, true⟩) = r.reports n :=
  List.filter_eq_self.2 fun e he => shows_machine_debugged upTo (r.origin_of_mem_reports n e he)

/-- What is shown besides, if it is debugged, are traces and records of level `debug`. -/
theorem filter_coarse_reports {δ : Type} [Device δ] (r : Rig δ) (n : Nat) :
    (r.reports n).filter (·.level ∉ [.trace, .debug]) =
      (r.trail n).filterMap (·.machine.warning?) := by
  rw [← r.filter_warn_reports n]
  exact List.filter_congr fun e he => warn_of_machine (r.origin_of_mem_reports n e he)

/-- At level `warn` the warnings are shown. -/
theorem filter_shows_warn (records : List Record) :
    records.filter (Filter.shows ⟨some .warn, false⟩) = records.filter (·.level = .warn) :=
  List.filter_congr fun e _ => shows_warn e

/-- At level `info` all is shown that the command line reports. -/
theorem filter_shows_info {records : List Record} (h : ∀ e ∈ records, e.origin = .command) :
    records.filter (Filter.shows ⟨some .info, false⟩) = records :=
  List.filter_eq_self.2 fun e he => shows_command_info (h e he)

theorem quiet_of_coarse (o : RunOptions) {level : Level} (coarse : level = .info ∨ level = .warn) :
    Console.Quiet (o.filter (some level)).shows := by
  apply quiet_shows
  show some level ∈ _
  rcases coarse with rfl | rfl
  · decide
  · decide

/-- **Debugged or not, there is the same to report of a run**, and of what the machine does not report
the same is shown. -/
theorem log_reportRun_debug {o : RunOptions} {env : Environment} {program : Array Word}
    {input : List UInt8} (h : o.Has env program input) {level : Level}
    (hlevel : env.level = some level) (coarse : level = .info ∨ level = .warn) {fuel : Nat}
    {debug : Bool} {r : Report} (hr : reportRun fuel env { o with debug } = some r) :
    let q : Rig Recorder := ⟨.loaded o.policy program, .ofBytes input⟩
    let run := q.machine.run (fun _ => true) fuel q.device
    let warnings := (q.trail run.steps).filterMap (·.machine.warning?)
    let shown := List.filter (Filter.shows ⟨env.level, false⟩)
    r.log = shown [.loaded program.size o.rom] ++
      (q.reports run.steps).filter (Filter.shows ⟨env.level, debug⟩) ++
      shown (ending warnings.length r.exitCode) := by
  intro q run warnings shown
  have quiet : Console.Quiet (RunOptions.filter { o with debug } env.level).shows := by
    rw [hlevel]
    exact quiet_of_coarse _ coarse
  have hlength : warnings.length = (q.reports run.steps).countP (·.level = .warn) := by
    rw [List.countP_eq_length_filter, q.filter_warn_reports]
  rw [hlength]
  exact (log_reportRun (h.withDebug debug) quiet hr).trans
    (filter_account env.level debug o program _ _)

/-- The file with the program is its image. -/
theorem RunOptions.Has.readFile_eq {o : RunOptions} {env : Environment} {program : Array Word}
    {input : List UInt8} (h : o.Has env program input) :
    ∃ env', env.readFile o.rom = .ok (Image.encode program, env') := by
  cases h with
  | plain rom decoded | scripted rom decoded =>
    rw [(Image.decode_eq_ok_iff.1 decoded).1]
    exact ⟨_, rom⟩

/-! ### The log as lines -/

/-- The lines of what is reported after a run. -/
def endingLines (skipped exitCode : Nat) : List String :=
  (if 0 < skipped then [s!"WARN skipped {skipped} unknown opcodes"] else []) ++
    if exitCode = 0 then ["INFO halted after"] else []

theorem lines_ending (skipped exitCode : Nat) :
    (ending skipped exitCode).map Record.line = endingLines skipped exitCode := by
  have hskipped : (if 0 < skipped then [Record.skipped skipped] else []).map Record.line =
      if 0 < skipped then [s!"WARN skipped {skipped} unknown opcodes"] else [] := by
    split
    · exact congrArg ([·]) (Record.line_skipped skipped)
    · rfl
  have hfinished : (if exitCode = 0 then [Record.finished] else []).map Record.line =
      if exitCode = 0 then ["INFO halted after"] else [] := by
    split
    · rw [List.map_singleton, Record.line_finished]
    · rfl
  rw [ending, List.map_append, hskipped, hfinished]
  rfl

/-- The lines of the warnings tell what is skipped. -/
theorem lines_warnings {δ : Type} (trail : List (Rig δ)) :
    (trail.filterMap (·.machine.warning?)).map Record.line =
      (trail.filterMap (·.machine.skips?)).map fun (word, address) => Log.warning word address := by
  rw [List.map_filterMap, List.map_filterMap]
  exact congrArg (trail.filterMap ·) (funext fun r => r.machine.line_warning?)

/-- What is shown up to a level is told by the levels of the lines. -/
theorem lines_shown (level : Level) (records : List Record) :
    (records.filter (Filter.shows ⟨some level, false⟩)).map Record.line =
      (records.map Record.line).filter fun line => (Log.level? line).any (·.rank ≤ level.rank) := by
  rw [Record.filter_level_lines fun l => l.any (·.rank ≤ level.rank)]
  congr 2
  funext e
  simp [Filter.shows]

/-- Which lines are warnings is told by their levels. -/
theorem lines_warn (records : List Record) :
    (records.filter (·.level = .warn)).map Record.line =
      (records.map Record.line).filter (Log.level? · = some .warn) := by
  rw [Record.filter_level_lines fun l => decide (l = some .warn)]
  simp

/-- At level `info` all lines are shown of the command line. -/
theorem lines_shown_info {records : List Record} (h : ∀ e ∈ records, e.origin = .command) :
    (records.map Record.line).filter
      (fun line => (Log.level? line).any (·.rank ≤ Level.info.rank)) = records.map Record.line := by
  rw [← lines_shown, filter_shows_info h]

/-- At level `warn` the lines are shown that are warnings. -/
theorem lines_shown_warn (records : List Record) :
    (records.map Record.line).filter
      (fun line => (Log.level? line).any (·.rank ≤ Level.warn.rank)) =
      (records.map Record.line).filter (Log.level? · = some .warn) := by
  rw [← lines_shown, filter_shows_warn, lines_warn]

/-- **The lines of a run**, debugged or not: of what the machine does not report, the same are shown. -/
theorem lines_reportRun_debug {o : RunOptions} {env : Environment} {program : Array Word}
    {input : List UInt8} (h : o.Has env program input) {level : Level}
    (hlevel : env.level = some level) (coarse : level = .info ∨ level = .warn) {fuel : Nat}
    {debug : Bool} {r : Report} (hr : reportRun fuel env { o with debug } = some r) :
    let q : Rig Recorder := ⟨.loaded o.policy program, .ofBytes input⟩
    let run := q.machine.run (fun _ => true) fuel q.device
    let skips := (q.trail run.steps).filterMap (·.machine.skips?)
    let shown := List.filter fun line => (Log.level? line).any (·.rank ≤ level.rank)
    r.log.map Record.line = shown [s!"INFO loaded {program.size} words from {Text.quote o.rom}"] ++
      ((q.reports run.steps).filter (Filter.shows ⟨some level, debug⟩)).map Record.line ++
      shown (endingLines skips.length r.exitCode) := by
  intro q run skips shown
  have hfront : [Record.loaded program.size o.rom].map Record.line =
      [s!"INFO loaded {program.size} words from {Text.quote o.rom}"] :=
    congrArg ([·]) (Record.line_loaded program.size o.rom)
  have hlog := log_reportRun_debug h hlevel coarse hr
  have hcount : ((q.trail run.steps).filterMap (·.machine.warning?)).length = skips.length := by
    rw [← List.length_map Record.line, lines_warnings, List.length_map]
  simp only [hlevel] at hlog
  rw [hlog, List.map_append, List.map_append, lines_shown, lines_shown, hfront, lines_ending]
  exact congrArg (fun n => _ ++ shown (endingLines n r.exitCode)) hcount

/-- **The log of `run` agrees with the run**, at level `info` and at level `warn`, for every program
and whatever it gets to read, if the run comes to an end. At level `info` the log is a line that the
program was loaded, with the number of its words, a warning for each word that is skipped, in order,
how many these are if there are any, and that the run is finished if the exit code is zero; at level
`warn` it is the warnings of that. If the run is debugged, in place of the machine's warnings there
are all lines of the machine, which are the same warnings and besides only lines of level `trace` and
`debug`. -/
theorem log_agrees_with_run {args : List String} {o : RunOptions}
    (h : Command.ofList? args = some (.run o)) (plain : o.debug = false) {env : Environment}
    {program : Array Word} {input : List UInt8} (has : o.Has env program input) {level : Level}
    (hlevel : env.level = some level) (coarse : level = .info ∨ level = .warn) {fuel : Nat}
    {r : Report} (ends : report fuel env args = some r) :
    let q : Rig Recorder := ⟨.loaded o.policy program, .ofBytes input⟩
    let run := q.machine.run (fun _ => true) fuel q.device
    let skips := (q.trail run.steps).filterMap (·.machine.skips?)
    let front := [s!"INFO loaded {program.size} words from {Text.quote o.rom}"]
    let warnings := skips.map fun (word, address) => Log.warning word address
    let back := endingLines skips.length r.exitCode
    let shown := List.filter fun line => (Log.level? line).any (·.rank ≤ level.rank)
    r.Tells run ∧
    (∃ env', env.readFile o.rom = .ok (Image.encode program, env')) ∧
    (level = .info → r.log.map Record.line = front ++ warnings ++ back) ∧
    (level = .warn → r.log.map Record.line =
      (front ++ warnings ++ back).filter (Log.level? · = some .warn)) ∧
    (∀ list, args = "run" :: list →
      Command.ofList? ("run" :: "--debug" :: list) = some (.run { o with debug := true })) ∧
    ∀ args', Command.ofList? args' = some (.run { o with debug := true }) → ∃ r',
      report fuel env args' = some r' ∧ r'.visible = r.visible ∧
      r.log.map Record.line = shown front ++ warnings ++ shown back ∧
      r'.log.map Record.line = shown front ++ q.lines run.steps ++ shown back ∧
      (∀ e ∈ q.reports run.steps, e.origin = .machine) ∧
      (q.lines run.steps).filter (Log.level? · ∉ [some .trace, some .debug]) = warnings := by
  intro q run skips front warnings back shown
  have hfront : [Record.loaded program.size o.rom].map Record.line = front :=
    congrArg ([·]) (Record.line_loaded program.size o.rom)
  have hback : (ending skips.length r.exitCode).map Record.line = back := lines_ending _ _
  have hwarnings : ((q.trail run.steps).filterMap (·.machine.warning?)).map Record.line = warnings :=
    lines_warnings _
  have hreport : ∀ {args' o'}, Command.ofList? args' = some (.run o') →
      report fuel env args' = reportRun fuel env o' := by
    intro args' o' h'
    rw [report, h']
  have hr : reportRun fuel env o = some r := (hreport h).symm.trans ends
  have hplain : r.log.map Record.line = shown front ++ warnings ++ shown back := by
    have ho : { o with debug := false } = o := by rw [← plain]
    rw [← ho] at hr
    rw [← hwarnings, ← filter_shows_reports q run.steps coarse]
    exact lines_reportRun_debug has hlevel coarse hr
  refine ⟨?_, has.readFile_eq, ?_, ?_, ?_, ?_⟩
  · rcases reportRun_of_has has fuel (fun _ => true) with ⟨-, hnone⟩ | ⟨r', hr', htells⟩
    · cases hnone.symm.trans hr
    · cases hr'.symm.trans hr
      exact htells
  · rintro rfl
    have hfront' : shown front = front := by
      rw [← hfront]
      exact lines_shown_info (origin_of_mem_loaded _ _)
    have hback' : shown back = back := by
      rw [← hback]
      exact lines_shown_info (origin_of_mem_ending _ _)
    rw [hplain, hfront', hback']
  · rintro rfl
    have hfront' : shown front = front.filter (Log.level? · = some .warn) := by
      rw [← hfront]
      exact lines_shown_warn _
    have hback' : shown back = back.filter (Log.level? · = some .warn) := by
      rw [← hback]
      exact lines_shown_warn _
    have hall : warnings.filter (Log.level? · = some .warn) = warnings := by
      rw [← hwarnings, ← q.filter_warn_reports run.steps, ← lines_warn, List.filter_filter]
      simp
    rw [hplain, hfront', hback', List.filter_append (front ++ warnings), List.filter_append front, hall]
  · intro list hargs
    obtain ⟨list', hargs', ho⟩ := Command.ofList?_eq_run_iff.1 h
    obtain rfl : list' = list := (List.cons.inj (hargs'.symm.trans hargs)).2
    exact Command.ofList?_eq_run_iff.2 ⟨_, rfl, RunOptions.ofList?_debug ho plain⟩
  · intro args' h'
    have hsame := reportRun_withDebug fuel env o true
    rw [hr] at hsame
    obtain ⟨r', hr', hvisible⟩ := Option.map_eq_some_iff.1 hsame
    have hcode : r'.exitCode = r.exitCode :=
      congrArg (fun v => v.2.elim 0 Failure.exitCode) hvisible
    refine ⟨r', (hreport h').trans hr', hvisible, hplain, ?_, q.origin_of_mem_reports run.steps, ?_⟩
    · have hlines := lines_reportRun_debug has hlevel coarse hr'
      rw [hcode] at hlines
      rw [Rig.lines, ← filter_shows_reports_debugged q run.steps (some level)]
      exact hlines
    · rw [← hwarnings, ← filter_coarse_reports q run.steps, Rig.lines,
        Record.filter_level_lines fun l => decide (l ∉ [some .trace, some .debug])]
      simp

/-- A program that is a word to skip and then a return, with which it halts. -/
theorem log_agrees_with_run_skip_and_return :
    let image := Image.encode #[30, 18]
    let env : Environment :=
      { read := fun _ => .ok (.bytes image), stdin := [], level := some .info }
    ∃ fuel r r', report fuel env ["run", "rom.bin"] = some r ∧ r.exitCode = 0 ∧
      r.log.map Record.line = ["INFO loaded 2 words from \"rom.bin\"",
        "WARN unknown opcode 30 at 0, skipping", "WARN skipped 1 unknown opcodes",
        "INFO halted after"] ∧
      report fuel env ["run", "--debug", "rom.bin"] = some r' ∧
      r'.log.map Record.line = ["INFO loaded 2 words from \"rom.bin\"",
        "WARN unknown opcode 30 at 0, skipping",
        "TRACE     1: ret                      reg: [0, 0, 0, 0, 0, 0, 0, 0] stack: 0 None",
        "DEBUG return with an empty stack", "DEBUG halted", "WARN skipped 1 unknown opcodes",
        "INFO halted after"] := by
  intro image env
  let o : RunOptions := ⟨"rom.bin", false, false, .skip, none⟩
  have hargs : Command.ofList? ["run", "rom.bin"] = some (.run o) := by decide +kernel
  have hdecode : Image.decode image = .ok #[30, 18] :=
    Image.decode_eq_ok_iff.2 ⟨rfl, Image.validate_eq_ok_of_all (by decide) (by decide)⟩
  have hhas : o.Has env #[30, 18] env.stdin := .plain rfl hdecode rfl
  obtain ⟨⟨r', hruns⟩, hlines⟩ := runsTo_skip_and_return (Recorder.ofBytes env.stdin)
  obtain ⟨fuel, houtcome, htries, -⟩ := hruns.exists_run fun _ => true
  rcases reportRun_of_has hhas fuel (fun _ => true) with ⟨hun, -⟩ | ⟨r, hr, htells⟩
  · cases houtcome.symm.trans hun
  · have hreport : report fuel env ["run", "rom.bin"] = some r := by
      rw [report, hargs]
      exact hr
    have hcode : r.exitCode = 0 := htells.exitCode.trans (if_pos houtcome)
    have hdebugged : Command.ofList? ["run", "--debug", "rom.bin"] =
        some (.run { o with debug := true }) := by decide +kernel
    obtain ⟨-, -, hinfo, -, -, hdebug⟩ :=
      log_agrees_with_run hargs rfl hhas rfl (.inl rfl) hreport
    obtain ⟨r', hreport', -, -, hlog', -, hwarnings⟩ := hdebug _ hdebugged
    have hlog := hinfo rfl
    let q : Rig Recorder := ⟨.loaded .skip #[30, 18], .ofBytes env.stdin⟩
    let run := q.machine.run (fun _ => true) fuel q.device
    let skips := (q.trail run.steps).filterMap (·.machine.skips?)
    have hsteps : run.steps = 2 := by
      rw [Run.steps, show run.outcome = .halted from houtcome, show run.tries = 1 from htries]
      rfl
    have hfront : s!"INFO loaded {(#[30, 18] : Array Word).size} words from {Text.quote o.rom}" =
        "INFO loaded 2 words from \"rom.bin\"" := by
      rw [show Text.quote o.rom = "\"rom.bin\"" from Text.quote_of_ascii (by decide)]
      decide +kernel
    have hshown := (congrArg q.lines hsteps).trans hlines
    have hwarning : skips.map (fun (word, address) => Log.warning word address) =
        ["WARN unknown opcode 30 at 0, skipping"] := by
      refine hwarnings.symm.trans ((congrArg (List.filter _) hshown).trans ?_)
      decide +kernel
    have hback : endingLines skips.length r.exitCode =
        ["WARN skipped 1 unknown opcodes", "INFO halted after"] := by
      rw [← List.length_map (fun (word, address) => Log.warning word address), hwarning, hcode]
      decide +kernel
    refine ⟨fuel, r, r', hreport, hcode, ?_, hreport', ?_⟩
    · calc
        r.log.map Record.line =
            [s!"INFO loaded {(#[30, 18] : Array Word).size} words from {Text.quote o.rom}"] ++
              skips.map (fun (word, address) => Log.warning word address) ++
              endingLines skips.length r.exitCode := hinfo rfl
        _ = _ := by
          rw [hfront, hwarning, hback]
          rfl
    · calc
        r'.log.map Record.line =
            [s!"INFO loaded {(#[30, 18] : Array Word).size} words from {Text.quote o.rom}"].filter
                (fun line => (Log.level? line).any (·.rank ≤ Level.info.rank)) ++
              q.lines run.steps ++ (endingLines skips.length r.exitCode).filter
                (fun line => (Log.level? line).any (·.rank ≤ Level.info.rank)) := hlog'
        _ = _ := by
          rw [hfront, hshown, hback]
          decide +kernel

end CommandLine

end WordMachine
