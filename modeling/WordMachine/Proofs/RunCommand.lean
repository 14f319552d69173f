import WordMachine.CommandLine.Report
import WordMachine.Proofs.Arguments
import WordMachine.Proofs.Chunks
import WordMachine.Proofs.Faults
import WordMachine.Proofs.Programs

/-!
# Running a program from the command line

What `run` does, from the arguments to the exit code. The options and the files that they name
decide whether there is a program to run and what it gets to read (`RunOptions.Lacks`,
`RunOptions.Has`). If there is one, a report tells the run of a fresh machine against a recorder
(`Report.Tells`): the console that the program really talks to renders that recorder, whatever its
mode, and no output is lost on it when the program fails.
-/

namespace WordMachine.CommandLine

/-! ### Options -/

/-- The policy is what the options say, and to skip if they say nothing. -/
theorem RunOptions.policy_eq {args : Args} {o : RunOptions}
    (hpolicy : (args.value? "unknown-opcode").elim (some default) policyOf? = some o.unknownOpcode)
    (hstrict : o.strict = args.has "strict") :
    o.policy = if args.has "strict" then .fault
      else ((args.value? "unknown-opcode").bind policyOf?).getD .skip := by
  have hchoice : ((args.value? "unknown-opcode").bind policyOf?).getD .skip = o.unknownOpcode := by
    cases hvalue : args.value? "unknown-opcode" with
    | none =>
      rw [hvalue] at hpolicy
      exact Option.some.inj hpolicy
    | some name =>
      rw [hvalue] at hpolicy
      exact congrArg (·.getD .skip) hpolicy
  rw [policy, hstrict, hchoice]

/-! ### What there is to run -/

namespace RunOptions

/-- Something is missing for a run: the file with the program, a program in it, or the script. -/
inductive Lacks (o : RunOptions) (env : Environment) : Failure → Prop
  | rom {e} (unreadable : env.readFile o.rom = .error e) : Lacks o env (.unreadableRom o.rom e)
  | program {image env' e} (rom : env.readFile o.rom = .ok (image, env'))
      (undecodable : Image.decode image = .error e) : Lacks o env (.undecodableRom o.rom e)
  | script {image env' program path e} (rom : env.readFile o.rom = .ok (image, env'))
      (decoded : Image.decode image = .ok program) (wanted : o.script = some path)
      (unreadable : env'.readFile path = .error e) : Lacks o env (.unreadableScript path e)

/-- There is a program to run, and it gets to read the script, if one is wanted, and then standard
input. -/
inductive Has (o : RunOptions) (env : Environment) : Array Word → List UInt8 → Prop
  | plain {image env' program} (rom : env.readFile o.rom = .ok (image, env'))
      (decoded : Image.decode image = .ok program) (unwanted : o.script = none) :
      Has o env program env'.stdin
  | scripted {image env' program path script env''} (rom : env.readFile o.rom = .ok (image, env'))
      (decoded : Image.decode image = .ok program) (wanted : o.script = some path)
      (read : env'.readFile path = .ok (script, env'')) :
      Has o env program (script.toList ++ env''.stdin)

variable {o : RunOptions} {env : Environment} {program : Array Word} {input : List UInt8}

theorem lacks_or_has (o : RunOptions) (env : Environment) :
    (∃ f, o.Lacks env f) ∨ ∃ program input, o.Has env program input := by
  rcases hrom : env.readFile o.rom with e | ⟨image, env'⟩
  · exact .inl ⟨_, .rom hrom⟩
  rcases hprogram : Image.decode image with e | program
  · exact .inl ⟨_, .program hrom hprogram⟩
  rcases hwanted : o.script with - | path
  · exact .inr ⟨_, _, .plain hrom hprogram hwanted⟩
  rcases hscript : env'.readFile path with e | ⟨script, env''⟩
  · exact .inl ⟨_, .script hrom hprogram hwanted hscript⟩
  · exact .inr ⟨_, _, .scripted hrom hprogram hwanted hscript⟩

theorem Lacks.withDebug {f : Failure} (h : o.Lacks env f) (debug : Bool) :
    Lacks { o with debug } env f := by
  cases h with
  | rom unreadable => exact .rom unreadable
  | program rom undecodable => exact .program rom undecodable
  | script rom decoded wanted unreadable => exact .script rom decoded wanted unreadable

theorem Has.withDebug (h : o.Has env program input) (debug : Bool) :
    Has { o with debug } env program input := by
  cases h with
  | plain rom decoded unwanted => exact .plain rom decoded unwanted
  | scripted rom decoded wanted read => exact .scripted rom decoded wanted read

theorem Lacks.exitCode_eq {f : Failure} (h : o.Lacks env f) : f.exitCode = 1 := by
  cases h with
  | rom | program | script => rfl

/-- **The program that there is to run is never refused.** -/
theorem Has.load_eq (h : o.Has env program input) (policy : Policy) :
    (Machine.blank policy).load program = .ok (.loaded policy program) := by
  have hvalid : Image.validate program = .ok () := by
    cases h with
    | plain rom decoded => exact Image.validate_of_decode decoded
    | scripted rom decoded => exact Image.validate_of_decode decoded
  exact Machine.load_eq_ok_iff.2 ⟨hvalid, rfl⟩

end RunOptions

/-! ### Reports -/

section

variable {o : RunOptions} {env env' : Environment} {image : Array UInt8} {program : Array Word}

theorem prepare_plain {m : Machine} (loads : (Machine.blank o.policy).load program = .ok m)
    (unwanted : o.script = none) :
    prepare env o program = .ok ⟨m, { mode := o.mode, source := env.stdin }, []⟩ := by
  rw [prepare, loads, unwanted]
  rfl

theorem prepare_scripted {m : Machine} {path : String} {script : Array UInt8}
    (loads : (Machine.blank o.policy).load program = .ok m) (wanted : o.script = some path)
    (read : env.readFile path = .ok (script, env')) :
    prepare env o program =
      .ok ⟨m, { mode := o.mode, script := script.toList, source := env'.stdin },
        [.scriptQueued script.toList.length]⟩ := by
  rw [prepare, loads, wanted]
  show ((env.readFile path).mapError _ >>= _) = _
  rw [read]
  rfl

theorem prepare_unreadable {m : Machine} {path : String} {e : ReadError}
    (loads : (Machine.blank o.policy).load program = .ok m) (wanted : o.script = some path)
    (unreadable : env.readFile path = .error e) :
    prepare env o program = .error (.unreadableScript path e) := by
  rw [prepare, loads, wanted]
  show ((env.readFile path).mapError _ >>= _) = _
  rw [unreadable]
  rfl

theorem reportRun_of_no_program {f : Failure} (h : env.readProgram o.rom = .error f) (fuel : Nat) :
    reportRun fuel env o = some (.failed [] f) := by
  rw [reportRun, startRun, h]

/-- **If something is missing, nothing is executed.** -/
theorem reportRun_of_lacks {f : Failure} (h : o.Lacks env f) :
    ∃ log, (∀ r ∈ log, r.origin ≠ .machine) ∧
      ∀ fuel, reportRun fuel env o = some (.failed log f) := by
  cases h with
  | rom unreadable =>
    have hfailed := readProgram_unreadable unreadable
    refine ⟨[], List.forall_mem_nil _, ?_⟩
    intro fuel
    exact reportRun_of_no_program hfailed fuel
  | program rom undecodable =>
    have hfailed := readProgram_undecodable rom undecodable
    refine ⟨[], List.forall_mem_nil _, ?_⟩
    intro fuel
    exact reportRun_of_no_program hfailed fuel
  | @script image env' program path e rom decoded wanted unreadable =>
    have hload := Image.validate_of_decode decoded
    have hprepare := prepare_unreadable (Machine.load_eq_ok_iff.2 ⟨hload, rfl⟩) wanted unreadable
    refine ⟨[Record.loaded program.size o.rom].filter (o.filter env.level).shows, ?_, ?_⟩
    · intro r hr
      obtain rfl := List.mem_singleton.1 (List.mem_filter.1 hr).1
      intro horigin
      cases horigin
    · intro fuel
      rw [reportRun, startRun, readProgram_eq_ok rom decoded]
      simp only [hprepare]

/-- **If nothing is missing, machine and console are made ready.** -/
theorem startRun_of_has {input : List UInt8} (h : o.Has env program input) :
    ∃ script source queued, script ++ source = input ∧ (∀ r ∈ queued, r.origin = .console) ∧
      startRun env o = .ok ⟨.loaded o.policy program, { mode := o.mode, script, source },
        (.loaded program.size o.rom :: queued).filter (o.filter env.level).shows⟩ := by
  have hload := h.load_eq o.policy
  cases h with
  | plain rom decoded unwanted =>
    refine ⟨[], _, [], rfl, List.forall_mem_nil _, ?_⟩
    rw [startRun, readProgram_eq_ok rom decoded]
    simp only [prepare_plain hload unwanted]
  | @scripted _ _ _ _ script _ rom decoded wanted read =>
    refine ⟨_, _, [.scriptQueued script.toList.length], rfl, ?_, ?_⟩
    · intro r hr
      rw [List.mem_singleton.1 hr]
      rfl
    · rw [startRun, readProgram_eq_ok rom decoded]
      simp only [prepare_scripted hload wanted read]

/-- The report of a run that can begin, in terms of the run. -/
theorem reportRun_of_startRun {ready : Ready} {fuel : Nat} {run : Run Console}
    (h : startRun env o = .ok ready)
    (hrun : ready.machine.run (o.filter env.level).shows fuel ready.console = run) :
    reportRun fuel env o =
      if run.outcome = .unfinished then none
      else
        let last := conclude (o.filter env.level) run.outcome run.machine run.device
        some { last with log := ready.log ++ run.log.toList ++ last.log } := by
  subst hrun
  rw [reportRun, h]

end

/-! ### What a report tells -/

/-- A report **tells** a run: all that was put out, and how the run ended. -/
structure Report.Tells (r : Report) (run : Run Recorder) : Prop where
  ended : run.outcome = .halted ∨ ∃ f, run.outcome = .faulted f
  stdout : r.stdout.toList = run.device.text
  exitCode : r.exitCode = if run.outcome = .halted then 0 else 1
  halted : run.outcome = .halted → r.failure = none
  faulted : ∀ f, run.outcome = .faulted f → r.failure = some (.program f) ∧
    (Failure.program f).message = "\n".intercalate ["Error: program failed", "", "Caused by:",
      "    0: " ++ f.message, "    1: " ++ f.cause.message]

theorem Failure.causeLines_pair (a b : String) :
    causeLines [a, b] = ["", "Caused by:", "    0: " ++ a, "    1: " ++ b] := by
  have hzero : toString "    " ++ toString 0 ++ toString ": " = "    0: " := by decide +kernel
  have hone : toString "    " ++ toString 1 ++ toString ": " = "    1: " := by decide +kernel
  rw [← hzero, ← hone]
  rfl

/-- A fault that is not a device's own has two causes: itself and its reason. -/
theorem Failure.message_program {f : Fault} (hf : ∀ e, f.cause ≠ .device e) :
    (Failure.program f).message = "\n".intercalate ["Error: program failed", "", "Caused by:",
      "    0: " ++ f.message, "    1: " ++ f.cause.message] := by
  have hcauses : faultCauses f = [f.message, f.cause.message] := by
    rw [faultCauses]
    split
    · next e he => exact absurd he (hf e)
    · rfl
  rw [message, causes, hcauses, causeLines_pair]
  rfl

/-- A recorder with bytes to give and room for every word never fails, so no fault is its. -/
theorem not_device_of_run {m : Machine} {keep : Record → Bool} {fuel : Nat} {input : List UInt8}
    {f : Fault} (h : (m.run keep fuel (Recorder.ofBytes input)).outcome = .faulted f) :
    ∀ e, f.cause ≠ .device e := by
  intro e he
  have hrelated : Rig.Related (Console.Renders .buffered {}) ⟨m, Recorder.ofBytes input⟩
      ⟨m, { mode := .buffered, source := input }⟩ :=
    ⟨rfl, Console.Renders.start ⟨rfl, rfl⟩ .buffered [] input⟩
  rw [Machine.run_eq_runUntil] at h
  have hfaulted := faultedAfter_of_runUntil rfl h
  have hfails := Machine.fails_of_error hfaulted.failing
  have hdevice := (hrelated.after (Console.Renders.alike _ _)
    (m.runUntil keep (fun _ _ => false) fuel (Recorder.ofBytes input)).tries).device
  rcases hfails.of_device he with ⟨w, hw⟩ | hr
  · cases hw.symm.trans (hdevice.output w).1
  · cases hr.symm.trans hdevice.input.1

/-- **The end of a run on a console tells the run on the recorder** that the console renders. -/
theorem conclude_tells {mode : Console.Mode} {run : Run Recorder} {run' : Run Console}
    (hrelated : run.rig.Related (Console.Renders mode {}) run'.rig)
    (houtcome : run.outcome = run'.outcome)
    (hended : run.outcome = .halted ∨ ∃ f, run.outcome = .faulted f)
    (hfault : ∀ f, run.outcome = .faulted f → ∀ e, f.cause ≠ .device e) (filter : Filter)
    (log : List Record) :
    Report.Tells { conclude filter run'.outcome run'.machine run'.device with log } run := by
  obtain ⟨hok, hbytes⟩ := hrelated.device.finish
  have hfinish : run'.device.finish = (.ok (), run'.device.finish.2) := Prod.ext hok rfl
  rw [← houtcome]
  rcases hended with h | ⟨f, h⟩
  · rw [conclude, hfinish, h]
    refine ⟨.inl h, hbytes, ?_, fun _ => rfl, ?_⟩
    · rw [if_pos h]
      rfl
    · intro f hf
      cases h.symm.trans hf
  · rw [conclude, hfinish, h]
    refine ⟨.inr ⟨f, h⟩, hbytes, ?_, ?_, ?_⟩
    · rw [h]
      rfl
    · intro hhalted
      cases h.symm.trans hhalted
    · intro f' hf'
      cases h.symm.trans hf'
      exact ⟨rfl, Failure.message_program (hfault f h)⟩

/-- **If nothing is missing, the report tells the run** of a fresh machine. -/
theorem reportRun_of_has {o : RunOptions} {env : Environment} {program : Array Word}
    {input : List UInt8} (h : o.Has env program input) (fuel : Nat) (keep : Record → Bool) :
    let run := (Machine.loaded o.policy program).run keep fuel (Recorder.ofBytes input)
    run.outcome = .unfinished ∧ reportRun fuel env o = none ∨
      ∃ r, reportRun fuel env o = some r ∧ r.Tells run := by
  intro run
  obtain ⟨script, source, queued, rfl, -, hready⟩ := startRun_of_has h
  have hstart : Rig.Related (Console.Renders o.mode {})
      ⟨.loaded o.policy program, Recorder.ofBytes (script ++ source)⟩
      ⟨.loaded o.policy program, { mode := o.mode, script, source }⟩ :=
    ⟨rfl, Console.Renders.start ⟨rfl, rfl⟩ o.mode script source⟩
  obtain ⟨houtcome, -, hrelated⟩ :=
    hstart.run (Console.Renders.alike _ _) keep (o.filter env.level).shows fuel
  by_cases hended : run.outcome = .unfinished
  · refine .inl ⟨hended, ?_⟩
    rw [reportRun_of_startRun hready rfl]
    exact if_pos (houtcome.symm.trans hended)
  · right
    have hgoes := (runsTo_of_run hended).halted_or_faulted
    rw [reportRun_of_startRun hready rfl]
    refine ⟨_, if_neg fun hunfinished => hended (houtcome.trans hunfinished), ?_⟩
    exact conclude_tells hrelated houtcome hgoes (fun f hf => not_device_of_run hf) _ _

/-! ### The command -/

/-- What is seen of a command apart from the log. -/
def Report.visible (r : Report) : Array UInt8 × Option Failure := (r.stdout, r.failure)

namespace Report.Tells

variable {r r' : Report} {run : Run Recorder}

theorem finished (h : r.Tells run) : run.outcome ≠ .unfinished := by
  intro hun
  rcases h.ended with hend | ⟨f, hend⟩
  · cases hun.symm.trans hend
  · cases hun.symm.trans hend

/-- If there is a failure, it is the program's. -/
theorem failure_eq (h : r.Tells run) : r.failure = none ∨ ∃ f, r.failure = some (.program f) := by
  rcases h.ended with hend | ⟨f, hend⟩
  · exact .inl (h.halted hend)
  · exact .inr ⟨f, (h.faulted f hend).1⟩

theorem visible_eq (h : r.Tells run) (h' : r'.Tells run) : r.visible = r'.visible := by
  have hstdout : r.stdout = r'.stdout := Array.toList_inj.1 (h.stdout.trans h'.stdout.symm)
  have hfailure : r.failure = r'.failure := by
    rcases h.ended with hend | ⟨f, hend⟩
    · rw [h.halted hend, h'.halted hend]
    · rw [(h.faulted f hend).1, (h'.faulted f hend).1]
  rw [visible, visible, hstdout, hfailure]

end Report.Tells

/-- **Only the log tells a run that is debugged from one that is not.** -/
theorem reportRun_withDebug (fuel : Nat) (env : Environment) (o : RunOptions) (debug : Bool) :
    (reportRun fuel env { o with debug }).map Report.visible =
      (reportRun fuel env o).map Report.visible := by
  rcases o.lacks_or_has env with ⟨f, h⟩ | ⟨program, input, h⟩
  · obtain ⟨log, -, hreport⟩ := reportRun_of_lacks h
    obtain ⟨log', -, hreport'⟩ := reportRun_of_lacks (h.withDebug debug)
    rw [hreport, hreport']
    rfl
  · have hrun := reportRun_of_has h fuel (fun _ => true)
    have hrun' := reportRun_of_has (h.withDebug debug) fuel (fun _ => true)
    -- both reports tell the same run, for the policy is the same
    rcases hrun with ⟨hun, hnone⟩ | ⟨r, hsome, htells⟩
    · rcases hrun' with ⟨-, hnone'⟩ | ⟨r', -, htells'⟩
      · rw [hnone, hnone']
      · exact absurd hun htells'.finished
    · rcases hrun' with ⟨hun, -⟩ | ⟨r', hsome', htells'⟩
      · exact absurd hun htells.finished
      · rw [hsome, hsome', Option.map_some, Option.map_some, htells'.visible_eq htells]

/-- **What `run` does**, for all arguments that it accepts and in every environment. If something is
missing, nothing is executed and nothing written. If not, the program is loaded, which never fails,
and the report tells its run, with all of the output also if the program fails. With and without
`--debug` it is the same, but for the log. -/
theorem report_run {args : List String} {o : RunOptions}
    (h : Command.ofList? args = some (.run o)) (env : Environment) :
    (∃ list given, args = "run" :: list ∧ Args.withFile? runOption list = some (o.rom, given) ∧
      o.policy = (if given.has "strict" then .fault
        else ((given.value? "unknown-opcode").bind policyOf?).getD .skip) ∧
      o.debug = given.has "debug" ∧ o.script = given.value? "script") ∧
    ((∃ f, o.Lacks env f) ∨ ∃ program input, o.Has env program input) ∧
    (∀ f, o.Lacks env f → ∃ r : Report, r.stdout = #[] ∧ r.exitCode = 1 ∧ r.failure = some f ∧
      (∀ e ∈ r.log, e.origin ≠ .machine) ∧ ∀ fuel, report fuel env args = some r) ∧
    (∀ program input, o.Has env program input →
      ∃ m, (Machine.blank o.policy).load program = .ok m ∧ ∀ fuel keep,
        let run := m.run keep fuel (Recorder.ofBytes input)
        run.outcome = .unfinished ∧ report fuel env args = none ∨
          ∃ r, report fuel env args = some r ∧ r.Tells run) ∧
    (∀ args' debug, Command.ofList? args' = some (.run { o with debug }) → ∀ fuel,
      (report fuel env args').map Report.visible = (report fuel env args).map Report.visible) ∧
    (∀ list, args = "run" :: list → o.debug = false → ∀ fuel,
      (report fuel env ("run" :: "--debug" :: list)).map Report.visible =
        (report fuel env args).map Report.visible) ∧
    ∀ fuel r e, report fuel env args = some r → r.failure ≠ some (.refusedProgram e) := by
  have hreport : ∀ fuel, report fuel env args = reportRun fuel env o := by
    intro fuel
    rw [report, h]
  have hsame : ∀ args' debug, Command.ofList? args' = some (.run { o with debug }) → ∀ fuel,
      (report fuel env args').map Report.visible = (report fuel env args).map Report.visible := by
    intro args' debug h' fuel
    rw [hreport, report, h']
    exact reportRun_withDebug fuel env o debug
  refine ⟨?_, o.lacks_or_has env, ?_, ?_, hsame, ?_, ?_⟩
  · obtain ⟨list, hargs, ho⟩ := Command.ofList?_eq_run_iff.1 h
    obtain ⟨given, hfile, hpolicy, hdebug, hstrict, hscript⟩ :=
      RunOptions.ofList?_eq_some_iff.1 ho
    exact ⟨list, given, hargs, hfile, RunOptions.policy_eq hpolicy hstrict, hdebug, hscript⟩
  · intro f hf
    obtain ⟨log, hlog, hfailed⟩ := reportRun_of_lacks hf
    refine ⟨.failed log f, rfl, hf.exitCode_eq, rfl, hlog, ?_⟩
    intro fuel
    rw [hreport, hfailed]
  · intro program input hhas
    refine ⟨_, hhas.load_eq _, ?_⟩
    intro fuel keep
    rw [hreport]
    exact reportRun_of_has hhas fuel keep
  · intro list hargs hdebug
    obtain ⟨list', hargs', ho⟩ := Command.ofList?_eq_run_iff.1 h
    obtain rfl : list' = list := (List.cons.inj (hargs'.symm.trans hargs)).2
    exact hsame _ true (Command.ofList?_eq_run_iff.2 ⟨_, rfl, RunOptions.ofList?_debug ho hdebug⟩)
  · intro fuel r e hr hrefused
    rw [hreport] at hr
    rcases o.lacks_or_has env with ⟨f, hf⟩ | ⟨program, input, hhas⟩
    · obtain ⟨log, -, hfailed⟩ := reportRun_of_lacks hf
      cases (hfailed fuel).symm.trans hr
      cases hrefused
      cases hf
    · rcases reportRun_of_has hhas fuel (fun _ => true) with ⟨-, hnone⟩ | ⟨r', hsome, htells⟩
      · cases hnone.symm.trans hr
      · cases hsome.symm.trans hr
        rcases htells.failure_eq with hnone | ⟨f, hf⟩
        · cases hnone.symm.trans hrefused
        · cases hf.symm.trans hrefused

/-- A program that puts out a letter and then pops from the empty stack: the letter is not lost,
whether it is debugged or not, and the failure is told with all that led to it. -/
theorem report_run_pop :
    let image := Image.encode #[19, 104, 3, 32768]
    let env : Environment := { read := fun _ => .ok (.bytes image), stdin := [], level := none }
    ∃ fuel r r', report fuel env ["run", "--debug", "rom.bin"] = some r ∧
      report fuel env ["run", "rom.bin"] = some r' ∧ r.stdout.toList = [104] ∧ r.exitCode = 1 ∧
      r.visible = r'.visible ∧ ∃ f, r.failure = some f ∧
        f.message = "Error: program failed\n\nCaused by:\n    0: stack underflow at pc 2 (`pop`)\n" ++
          "    1: stack underflow" := by
  intro image env
  let o : RunOptions := ⟨"rom.bin", true, false, .skip, none⟩
  have hdebug : Command.ofList? ["run", "--debug", "rom.bin"] = some (.run o) := by decide +kernel
  have hplain : Command.ofList? ["run", "rom.bin"] = some (.run { o with debug := false }) := by
    decide +kernel
  have hdecode : Image.decode image = .ok #[19, 104, 3, 32768] := by
    have hvalid : Image.validate #[19, 104, 3, 32768] = .ok () :=
      Image.validate_eq_ok_of_all (by decide) (by decide)
    rw [Image.decode_encode, hvalid]
    rfl
  have hhas : o.Has env #[19, 104, 3, 32768] env.stdin := .plain rfl hdecode rfl
  obtain ⟨-, -, -, hrun, hsame, -⟩ := report_run hdebug env
  obtain ⟨m, hload, hreports⟩ := hrun _ _ hhas
  have hm : Machine.loaded o.policy #[19, 104, 3, 32768] = m :=
    Except.ok.inj ((hhas.load_eq o.policy).symm.trans hload)
  have hpc : m.pc = 0 := by
    rw [← hm]
    rfl
  have hempty : m.stack.top? = none := by
    rw [← hm]
    rfl
  have puts : m.decode 0 = .ok (.out (.literal ⟨104, by decide⟩)) := by
    rw [← hm]
    exact Machine.decode_loaded (by decide) rfl
  have pops : m.decode 2 = .ok (.pop ⟨0⟩) := by
    rw [← hm]
    exact Machine.decode_loaded (by decide) rfl
  rw [← hpc] at puts
  -- the letter is put out
  have hputs : m.Advances (Recorder.ofBytes []) _ { Recorder.ofBytes [] with recorded := #[104] } :=
    .perform (Machine.isHalted_of_decode puts) puts (.output Machine.Yields.out.action_eq rfl)
  generalize hm₁ : m.apply (m.next (.out (.literal ⟨104, by decide⟩))) .next = m₁ at hputs
  have hpop : m₁.decode m₁.pc = .ok (.pop ⟨0⟩) := by
    rw [← hm₁]
    show m.decode (m.next _) = _
    rw [Machine.next, hpc]
    exact pops
  have hrefuses : m₁.Refuses (.pop ⟨0⟩) .stackUnderflow := by
    apply Machine.Refuses.pop
    rw [← hm₁]
    exact hempty
  have hrunning := Machine.isHalted_of_decode hpop
  -- and then the program fails
  have hfails : m₁.Fails { Recorder.ofBytes [] with recorded := #[104] }
      ⟨m₁.pc, some .pop, .stackUnderflow⟩ { Recorder.ofBytes [] with recorded := #[104] } :=
    .action hrunning hpop hrefuses.action_eq
  have hruns := RunsTo.of_advances hputs hrunning (.of_fails hfails 1)
  obtain ⟨fuel, houtcome, -, -, hdevice⟩ := hruns.exists_run fun _ => true
  rcases hreports fuel (fun _ => true) with ⟨hun, -⟩ | ⟨r, hr, htells⟩
  · cases houtcome.symm.trans hun
  · have hvisible := hsame _ _ hplain fuel
    rw [hr] at hvisible
    obtain ⟨r', hr', hsame'⟩ := Option.map_eq_some_iff.1 hvisible
    refine ⟨fuel, r, r', hr, hr', ?_, ?_, hsame'.symm, ?_⟩
    · rw [htells.stdout]
      exact congrArg Recorder.text hdevice
    · rw [htells.exitCode]
      apply if_neg
      intro hhalted
      cases houtcome.symm.trans hhalted
    · obtain ⟨hfailure, hmessage⟩ := htells.faulted _ houtcome
      refine ⟨_, hfailure, hmessage.trans ?_⟩
      have hpc₁ : m₁.pc = 2 := by
        rw [← hm₁]
        show m.pc + 2 = 2
        rw [hpc]
        rfl
      rw [hpc₁]
      decide +kernel

end WordMachine.CommandLine
