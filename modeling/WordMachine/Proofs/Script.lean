import WordMachine.Proofs.RunCommand

/-!
# Scripts

A script comes before standard input. To the program that reads them the two are one, so a run with
a script is the run without it that finds the script at the start of its standard input.

Two consoles that have the same left to read, in whatever parts, answer alike, and they also report
alike if the console's own records are not shown (`Console.Ahead.reportsAlike`): these tell where a
script begins and ends, and nothing else does. So a report depends on what there is to read, and not
on where it comes from (`reportRun_withScript`). On the side of the arguments, an option can be left
out wherever it stands (`Args.without`).
-/

namespace WordMachine

namespace Console

/-- Of the console's own records none is kept. -/
def Quiet (keep : Record → Bool) : Prop := ∀ r : Record, r.origin = .console → keep r = false

theorem Quiet.filter_eq_nil {keep : Record → Bool} (quiet : Quiet keep) {records : List Record}
    (hrecords : ∀ r ∈ records, r.origin = .console) : records.filter keep = [] := by
  apply List.filter_eq_nil_iff.2
  intro r hr
  rw [quiet r (hrecords r hr)]
  exact Bool.false_ne_true

theorem output_log (c : Console) (w : Word) : (c.output w).log = [] := by
  rw [output]
  cases c.mode with
  | interactive => rfl
  | buffered => rfl

/-- Reading is reported only at the end of a script, by a record of the console's own. -/
theorem origin_of_mem_input_log (c : Console) : ∀ r ∈ c.input.log, r.origin = .console := by
  obtain ⟨mode, sink, pending, script, source⟩ := c
  rw [input]
  rcases script with - | ⟨b, - | ⟨b', script⟩⟩
  · cases source with
    | nil => exact List.forall_mem_nil _
    | cons b source => exact List.forall_mem_nil _
  · intro r hr
    rw [List.mem_singleton.1 hr]
    rfl
  · exact List.forall_mem_nil _

namespace Ahead

variable {c e : Console}

/-- **Where the console's own records are not shown**, consoles with the same to read report
alike. -/
theorem reportsAlike {keep : Record → Bool} (quiet : Quiet keep) :
    Device.ReportsAlike keep (Ahead []) where
  toAlike := alike
  outputLog {c e} _ w := by
    show (c.output w).log.filter keep = (e.output w).log.filter keep
    rw [output_log, output_log]
  inputLog {c e} _ := by
    show c.input.log.filter keep = e.input.log.filter keep
    rw [quiet.filter_eq_nil c.origin_of_mem_input_log,
      quiet.filter_eq_nil e.origin_of_mem_input_log]

/-- Finishing a console has nothing to do with what it has left to read. -/
theorem finish (h : Ahead [] c e) :
    c.finish.1 = e.finish.1 ∧ c.finish.2.sink = e.finish.2.sink := by
  rw [Console.finish, Console.finish, h.sink, h.pending]
  split
  · exact ⟨rfl, rfl⟩
  · rcases c.sink.write c.pending.toList with ⟨- | ⟨⟩, s⟩
    · exact ⟨rfl, rfl⟩
    · exact ⟨rfl, rfl⟩

end Ahead

end Console

namespace CommandLine

/-! ### The same command without an option -/

namespace Args

/-- The arguments of a command without one of its options and, if that has one, its value. -/
def without (takesValue : String → Option Bool) (name : String) : List String → List String
  | [] => []
  | arg :: rest =>
    if arg = "--" then arg :: rest
    else if isPlain arg then arg :: without takesValue name rest
    else
      match optionOf? arg with
      | none => arg :: rest
      | some (given, attached) =>
        match takesValue given, attached, rest with
        | some true, none, value :: rest =>
          if given = name then without takesValue name rest
          else arg :: value :: without takesValue name rest
        | _, _, rest =>
          if given = name then without takesValue name rest
          else arg :: without takesValue name rest

/-- All but one of the options, and the other arguments. -/
def drop (a : Args) (name : String) : Args :=
  { a with options := a.options.filter (·.1 ≠ name) }

variable {a : Args} {name given : String}

theorem drop_addOption (a : Args) (given value name : String) :
    (a.addOption given value).drop name =
      if given = name then a.drop name else (a.drop name).addOption given value := by
  by_cases h : given = name <;> simp [drop, addOption, h]

theorem value?_drop_self (a : Args) (name : String) : (a.drop name).value? name = none := by
  apply List.lookup_eq_none_iff.2
  intro p hp
  have hne : p.1 ≠ name := by simpa using (List.mem_filter.1 hp).2
  simpa using hne.symm

theorem value?_drop_of_ne (h : given ≠ name) : (a.drop name).value? given = a.value? given := by
  obtain ⟨options, others⟩ := a
  show (options.filter (·.1 ≠ name)).lookup given = options.lookup given
  induction options with
  | nil => rfl
  | cons p options ih =>
    obtain ⟨key, value⟩ := p
    rw [List.lookup_cons, ← ih]
    by_cases hkey : key = name
    · rw [List.filter_cons_of_neg (by simpa using hkey), beq_false_of_ne (hkey ▸ h)]
    · rw [List.filter_cons_of_pos (by simpa using hkey), List.lookup_cons]

/-- An option, with or without its value, is read and left out as a whole. -/
theorem ofList?_without_option {takesValue : String → Option Bool} {rest : List String}
    {args : Args} (option : List String) (given value : String)
    (read : ∀ rest, ofList? takesValue (option ++ rest) =
      (ofList? takesValue rest).map (·.addOption given value))
    (left_out : without takesValue name (option ++ rest) =
      if given = name then without takesValue name rest
      else option ++ without takesValue name rest)
    (ih : ∀ {args}, ofList? takesValue rest = some args →
      ofList? takesValue (without takesValue name rest) = some (args.drop name))
    (h : ofList? takesValue (option ++ rest) = some args) :
    ofList? takesValue (without takesValue name (option ++ rest)) = some (args.drop name) := by
  rw [read] at h
  obtain ⟨args, hargs, rfl⟩ := Option.map_eq_some_iff.1 h
  rw [left_out, drop_addOption]
  split
  · exact ih hargs
  · rw [read, ih hargs]
    rfl

/-- **Leaving an option out** leaves it out and nothing else. -/
theorem ofList?_without {takesValue : String → Option Bool} {list : List String} {args : Args}
    (h : ofList? takesValue list = some args) :
    ofList? takesValue (without takesValue name list) = some (args.drop name) := by
  induction list using ofList?.induct takesValue generalizing args with
  | case1 =>
    cases h
    rfl
  | case2 rest =>
    -- behind `--` there are no options
    rw [ofList?, if_pos rfl] at h
    cases h
    rw [without, if_pos rfl, ofList?, if_pos rfl]
    rfl
  | case3 arg rest hend hplain ih =>
    rw [ofList?, if_neg hend, if_pos hplain] at h
    obtain ⟨args, hargs, rfl⟩ := Option.map_eq_some_iff.1 h
    rw [without, if_neg hend, if_pos hplain, ofList?, if_neg hend, if_pos hplain, ih hargs]
    rfl
  | case4 arg rest hend hplain hoption => simp [ofList?, hend, hplain, hoption] at h
  | case5 arg hend hplain given rest hflag hoption ih =>
    refine ofList?_without_option [arg] given "" ?_ ?_ ih h
    · intro rest
      exact ofList?_flag hend (Bool.eq_false_iff.2 hplain) hoption hflag
    · show without takesValue name (arg :: rest) = _
      rw [without, if_neg hend, if_neg hplain]
      simp only [hoption, hflag, List.singleton_append]
  | case6 arg hend hplain given rest hvalued hoption =>
    simp [ofList?, hend, hplain, hoption, hvalued] at h
  | case7 arg hend hplain given value rest hvalued hvalue hoption ih =>
    refine ofList?_without_option [arg] given value ?_ ?_ ih h
    · intro rest
      exact ofList?_attached hend (Bool.eq_false_iff.2 hplain) hoption hvalued hvalue
    · show without takesValue name (arg :: rest) = _
      rw [without, if_neg hend, if_neg hplain]
      simp only [hoption, hvalued, List.singleton_append]
  | case8 arg hend hplain given value rest hvalued hbad hoption =>
    rw [ofList?, if_neg hend, if_neg hplain] at h
    simp only [hoption, hvalued, if_pos hbad] at h
    cases h
  | case9 arg hend hplain given value rest hvalued hvalue hoption ih =>
    refine ofList?_without_option [arg, value] given value ?_ ?_ ih h
    · intro rest
      exact ofList?_separate hend (Bool.eq_false_iff.2 hplain) hoption hvalued hvalue
    · show without takesValue name (arg :: value :: rest) = _
      rw [without, if_neg hend, if_neg hplain]
      simp only [hoption, hvalued, List.cons_append, List.nil_append]
  | case10 arg rest hend hplain given attached hoption =>
    rw [ofList?, if_neg hend, if_neg hplain] at h
    simp only [hoption] at h
    cases h

end Args

/-- Without `--script`, the arguments of `run` say nothing else. -/
theorem RunOptions.ofList?_without_script {list : List String} {o : RunOptions}
    (h : RunOptions.ofList? list = some o) :
    RunOptions.ofList? (Args.without runOption "script" list) =
      some { o with script := none } := by
  obtain ⟨args, hfile, hpolicy, hdebug, hstrict, -⟩ := ofList?_eq_some_iff.1 h
  obtain ⟨hargs, hothers, hrom, hnodup⟩ := Args.withFile?_eq_some_iff.1 hfile
  have hvalue {given : String} (hne : given ≠ "script") :
      (args.drop "script").value? given = args.value? given := Args.value?_drop_of_ne hne
  apply ofList?_eq_some_iff.2
  refine ⟨args.drop "script", ?_, ?_, ?_, ?_, (args.value?_drop_self "script").symm⟩
  · apply Args.withFile?_eq_some_iff.2
    refine ⟨Args.ofList?_without hargs, hothers, hrom, ?_⟩
    exact hnodup.sublist (List.filter_sublist.map _)
  · rw [hvalue (by decide)]
    exact hpolicy
  · rw [Args.has, hvalue (by decide)]
    exact hdebug
  · rw [Args.has, hvalue (by decide)]
    exact hstrict

/-! ### Reports -/

/-- Up to level `info`, nothing is shown of what the console has to report. -/
theorem quiet_shows {filter : Filter}
    (level : filter.upTo ∈ [none, some .error, some .warn, some .info]) :
    Console.Quiet filter.shows := by
  intro r hr
  have hlevel : r.level = .debug := by
    cases r with
    | scriptQueued | scriptFinished => rfl
    | _ => cases hr
  obtain ⟨upTo, machine⟩ := filter
  simp only [List.mem_cons, List.not_mem_nil, or_false] at level
  rcases level with rfl | rfl | rfl | rfl
  all_goals simp [Filter.shows, hr, hlevel, Level.rank]

theorem conclude_of_ahead {c e : Console} (h : c.Ahead [] e) (filter : Filter) (outcome : Outcome)
    (m : Machine) : conclude filter outcome m c = conclude filter outcome m e := by
  obtain ⟨hresult, hsink⟩ := h.finish
  rw [conclude, conclude]
  rcases hc : c.finish with ⟨result, c'⟩
  rcases he : e.finish with ⟨result', e'⟩
  rw [hc, he] at hresult hsink
  obtain rfl : result = result' := hresult
  have hsame : c'.sink = e'.sink := hsink
  cases result with
  | error x => simp only [hsame]
  | ok u => cases outcome <;> simp only [hsame]

/-- **Runs with the same to read lead to the same report.** -/
theorem reportRun_of_ahead {o o' : RunOptions} {env env' : Environment} {m : Machine}
    {c e : Console} {log : List Record} (h : startRun env o = .ok ⟨m, c, log⟩)
    (h' : startRun env' o' = .ok ⟨m, e, log⟩) (hahead : c.Ahead [] e)
    (hfilter : o'.filter env'.level = o.filter env.level)
    (quiet : Console.Quiet (o.filter env.level).shows) (fuel : Nat) :
    reportRun fuel env o = reportRun fuel env' o' := by
  have hstart : Rig.Related (Console.Ahead []) ⟨m, c⟩ ⟨m, e⟩ := ⟨rfl, hahead⟩
  have hgo := hstart.run Console.Ahead.alike (o.filter env.level).shows
    (o.filter env.level).shows fuel
  have hlog := hstart.log_run (Console.Ahead.reportsAlike quiet) fuel
  -- both runs, taken apart: they end the same way, with consoles that are finished the same way
  rcases hc : m.run (o.filter env.level).shows fuel c with ⟨outcome, tries, m₁, c₁, kept⟩
  rcases he : m.run (o.filter env.level).shows fuel e with ⟨outcome', tries', m₁', e₁, kept'⟩
  simp only [hc, he] at hgo hlog
  obtain ⟨rfl, -, hend⟩ := hgo
  obtain rfl : m₁ = m₁' := hend.machine
  have hdevice : c₁.Ahead [] e₁ := hend.device
  rw [← hfilter] at he
  rw [reportRun_of_startRun h hc, reportRun_of_startRun h' he, hfilter, hlog,
    conclude_of_ahead hdevice]

/-- **A report depends on the program and on what it has to read**, and not on whether that is a
script or standard input, unless the console's own records are shown. -/
theorem reportRun_withScript {o : RunOptions} {env env' : Environment} {program : Array Word}
    {input : List UInt8} {script : Option String} (h : o.Has env program input)
    (h' : RunOptions.Has { o with script } env' program input) (hlevel : env'.level = env.level)
    (quiet : Console.Quiet (o.filter env.level).shows) (fuel : Nat) :
    reportRun fuel env o = reportRun fuel env' { o with script } := by
  have hfilter : RunOptions.filter { o with script } env'.level = o.filter env.level := by
    rw [hlevel]
    rfl
  obtain ⟨script₁, source₁, queued, hinput, hqueued, hready⟩ := startRun_of_has h
  obtain ⟨script₂, source₂, queued', hinput', hqueued', hready'⟩ := startRun_of_has h'
  rw [List.filter_cons, quiet.filter_eq_nil hqueued] at hready
  rw [hfilter, List.filter_cons, quiet.filter_eq_nil hqueued'] at hready'
  refine reportRun_of_ahead hready hready' ⟨rfl, rfl, rfl, ?_⟩ hfilter quiet fuel
  rw [List.append_nil]
  exact hinput'.trans hinput.symm

/-! ### Scripts and standard input -/

/-- A program that is read from the same file is the same, and what is left of a longer standard
input is longer by as much. -/
theorem readFile_longer {env : Environment} {path : String} {s t : List UInt8}
    (same : ({ env with stdin := t }.readFile path).map Prod.fst =
      ({ env with stdin := s ++ t }.readFile path).map Prod.fst) :
    (∃ e, { env with stdin := t }.readFile path = .error e ∧
      { env with stdin := s ++ t }.readFile path = .error e) ∨
    ∃ image rest,
      { env with stdin := t }.readFile path = .ok (image, { env with stdin := rest }) ∧
      { env with stdin := s ++ t }.readFile path =
        .ok (image, { env with stdin := s ++ rest }) := by
  simp only [Environment.readFile] at same ⊢
  rcases hread : env.read path with e | bytes | -
  · exact .inl ⟨e, rfl, rfl⟩
  · exact .inr ⟨bytes, t, rfl, rfl⟩
  · -- standard input is the same only if it is not longer
    rw [hread] at same
    obtain rfl : s = [] := by simpa [Except.map] using same
    exact .inr ⟨t.toArray, [], rfl, rfl⟩

/-- A run with a script is the run that finds the script at the start of standard input. -/
theorem reportRun_script {o : RunOptions} {env : Environment} {file : String} {s t : List UInt8}
    (hscript : o.script = some file) (holds : env.read file = .ok (.bytes s.toArray))
    (same : ({ env with stdin := t }.readFile o.rom).map Prod.fst =
      ({ env with stdin := s ++ t }.readFile o.rom).map Prod.fst)
    (quiet : Console.Quiet (o.filter env.level).shows) (fuel : Nat) :
    reportRun fuel { env with stdin := t } o =
      reportRun fuel { env with stdin := s ++ t } { o with script := none } := by
  let plain : RunOptions := { o with script := none }
  rcases readFile_longer same with ⟨e, hrom, hrom'⟩ | ⟨image, rest, hrom, hrom'⟩
  · have hfailed := readProgram_unreadable hrom
    have hfailed' := readProgram_unreadable hrom'
    rw [reportRun_of_no_program hfailed fuel]
    exact (reportRun_of_no_program (o := plain) hfailed' fuel).symm
  · cases hprogram : Image.decode image with
    | error e =>
      have hfailed := readProgram_undecodable hrom hprogram
      have hfailed' := readProgram_undecodable hrom' hprogram
      rw [reportRun_of_no_program hfailed fuel]
      exact (reportRun_of_no_program (o := plain) hfailed' fuel).symm
    | ok program =>
      have hread : Environment.readFile { env with stdin := rest } file =
          .ok (s.toArray, { env with stdin := rest }) := by
        simp only [Environment.readFile, holds]
      have hscripted : o.Has { env with stdin := t } program (s ++ rest) :=
        .scripted hrom hprogram hscript hread
      have hplain : plain.Has { env with stdin := s ++ t } program (s ++ rest) :=
        .plain (o := plain) hrom' hprogram rfl
      exact reportRun_withScript hscripted hplain rfl quiet fuel

/-- **A script is the same as a longer standard input.** Take a command that runs a program with a
script, and the same command without it, which there always is. If standard input of the second is
the script followed by that of the first, and if both read the same program, then they report the
same, which is what they write, what they log, and whether and how they fail; and they need the same
number of steps for that, if they ever come to an end. Only the console's own records would tell the
two apart, and they are shown from level `debug` on. -/
theorem script_is_longer_input {o : RunOptions} {args : List String} {env : Environment}
    {file : String} {s t : List UInt8} (h : Command.ofList? args = some (.run o))
    (hscript : o.script = some file) (holds : env.read file = .ok (.bytes s.toArray))
    (level : ∃ name ∈ ["off", "error", "warn", "info"], Level.limitOf? name = some env.level)
    (same : ({ env with stdin := t }.readFile o.rom).map Prod.fst =
      ({ env with stdin := s ++ t }.readFile o.rom).map Prod.fst) :
    (∀ list, args = "run" :: list →
      Command.ofList? ("run" :: Args.without runOption "script" list) =
        some (.run { o with script := none })) ∧
    ∀ args', Command.ofList? args' = some (.run { o with script := none }) → ∀ fuel,
      report fuel { env with stdin := t } args =
        report fuel { env with stdin := s ++ t } args' := by
  refine ⟨?_, ?_⟩
  · intro list hargs
    obtain ⟨list', hargs', ho⟩ := Command.ofList?_eq_run_iff.1 h
    obtain rfl : list' = list := (List.cons.inj (hargs'.symm.trans hargs)).2
    exact Command.ofList?_eq_run_iff.2 ⟨_, rfl, RunOptions.ofList?_without_script ho⟩
  · intro args' h' fuel
    have hlevel : (o.filter env.level).upTo ∈ [none, some .error, some .warn, some .info] := by
      obtain ⟨name, hname, hlimit⟩ := level
      show env.level ∈ _
      simp only [List.mem_cons, List.not_mem_nil, or_false] at hname
      rcases hname with rfl | rfl | rfl | rfl
      all_goals
        rw [← Option.some.inj hlimit]
        decide
    rw [report, report, h, h']
    exact reportRun_script hscript holds same (quiet_shows hlevel) fuel

/-- A program that reads a byte, which is there either way. -/
theorem script_is_longer_input_byte :
    let image := Image.encode #[20, 32768, 0]
    let env : Environment :=
      { read := fun path => .ok (.bytes (if path = "input.txt" then #[65] else image))
        stdin := []
        level := some .info }
    ∃ fuel r, report fuel { env with stdin := [65] } ["run", "rom.bin"] = some r ∧
      report fuel env ["run", "--script", "input.txt", "rom.bin"] = some r ∧ r.exitCode = 0 := by
  intro image env
  let o : RunOptions := ⟨"rom.bin", false, false, .skip, none⟩
  have hscripted : Command.ofList? ["run", "--script", "input.txt", "rom.bin"] =
      some (.run { o with script := some "input.txt" }) := by decide +kernel
  have hdecode : Image.decode image = .ok #[20, 32768, 0] := by
    have hvalid : Image.validate #[20, 32768, 0] = .ok () :=
      Image.validate_eq_ok_of_all (by decide) (by decide)
    rw [Image.decode_encode, hvalid]
    rfl
  have hholds : env.read "input.txt" = .ok (.bytes ([65] : List UInt8).toArray) := rfl
  obtain ⟨hwithout, hreports⟩ :=
    script_is_longer_input hscripted rfl hholds (t := []) ⟨"info", by decide, rfl⟩ rfl
  have hargs : Command.ofList? ["run", "rom.bin"] = some (.run o) := hwithout _ rfl
  have hsame := hreports _ hargs
  have hrom : Environment.readFile { env with stdin := [65] } o.rom =
      .ok (image, { env with stdin := [65] }) := rfl
  have hhas : o.Has { env with stdin := [65] } #[20, 32768, 0] [65] := .plain hrom hdecode rfl
  -- the run reads the byte and halts
  have hhalts : ∀ m : Machine, m.pc = 0 → m.decode 0 = .ok (.inp ⟨0⟩) → m.decode 2 = .ok .halt →
      ∃ fuel, (m.run (fun _ => true) fuel (Recorder.ofBytes [65])).outcome = .halted := by
    intro m hpc reads halts
    rw [← hpc] at reads
    have hreads : m.Advances (Recorder.ofBytes [65])
        (m.apply (m.next (.inp ⟨0⟩)) (.store ⟨0⟩ 65)) (Recorder.ofBytes []) :=
      .perform (Machine.isHalted_of_decode reads) reads
        (.input Machine.Yields.inp.action_eq rfl)
    generalize hm₁ : m.apply (m.next (.inp ⟨0⟩)) (.store ⟨0⟩ 65) = m₁ at hreads
    have hdecode₁ : m₁.decode m₁.pc = .ok .halt := by
      rw [← hm₁]
      show m.decode (m.next (.inp ⟨0⟩)) = _
      rw [Machine.next, hpc]
      exact halts
    have hrunning := Machine.isHalted_of_decode hdecode₁
    have hends : m₁.Advances (Recorder.ofBytes []) (m₁.apply (m₁.next .halt) (.halt false))
        (Recorder.ofBytes []) :=
      .perform hrunning hdecode₁ (.effect Machine.Yields.halt.action_eq)
    obtain ⟨fuel, hhalted, -⟩ :=
      (RunsTo.of_advances hreads hrunning (.of_halts hends rfl 1)).exists_run fun _ => true
    exact ⟨fuel, hhalted⟩
  obtain ⟨fuel, hhalted⟩ := hhalts (.loaded o.policy #[20, 32768, 0]) rfl
    (Machine.decode_loaded (by decide) rfl) (Machine.decode_loaded (by decide) rfl)
  have hreport : report fuel { env with stdin := [65] } ["run", "rom.bin"] =
      reportRun fuel { env with stdin := [65] } o := by
    rw [report, hargs]
  rcases reportRun_of_has hhas fuel (fun _ => true) with ⟨hun, -⟩ | ⟨r, hr, htells⟩
  · cases hhalted.symm.trans hun
  · refine ⟨fuel, r, hreport.trans hr, (hsame fuel).trans (hreport.trans hr), ?_⟩
    rw [htells.exitCode, if_pos hhalted]

end CommandLine

end WordMachine
