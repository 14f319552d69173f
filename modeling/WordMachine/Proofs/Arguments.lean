import WordMachine.CommandLine.Arguments
import WordMachine.Proofs.Text

/-!
# What arguments ask for

A command's name stands first, and the command reads what follows (`Command.ofList?_cases`). For an
option there are three ways to stand in front of the arguments, and each adds the option and nothing
else (`Args.ofList?_flag`, `Args.ofList?_attached`, `Args.ofList?_separate`).

The width of a dump's rows is read from decimal digits, so all widths that are allowed can be asked
for (`Command.exists_dump_iff`).
-/

namespace WordMachine.CommandLine

/-! ### Options and files -/

/-- An argument that is an option without a value. -/
theorem Args.ofList?_flag {takesValue : String → Option Bool} {arg name : String}
    {rest : List String} (hend : arg ≠ "--") (hplain : isPlain arg = false)
    (hoption : optionOf? arg = some (name, none)) (hflag : takesValue name = some false) :
    Args.ofList? takesValue (arg :: rest) =
      (Args.ofList? takesValue rest).map (·.addOption name "") := by
  rw [Args.ofList?, if_neg hend, hplain, if_neg Bool.false_ne_true, hoption]
  simp only [hflag]

/-- An argument that is an option with its value. -/
theorem Args.ofList?_attached {takesValue : String → Option Bool} {arg name value : String}
    {rest : List String} (hend : arg ≠ "--") (hplain : isPlain arg = false)
    (hoption : optionOf? arg = some (name, some value)) (hvalued : takesValue name = some true)
    (hvalue : value ≠ "") :
    Args.ofList? takesValue (arg :: rest) =
      (Args.ofList? takesValue rest).map (·.addOption name value) := by
  rw [Args.ofList?, if_neg hend, hplain, if_neg Bool.false_ne_true, hoption]
  simp only [hvalued, hvalue, if_false]

/-- An argument that is an option with a value, which is the next argument. -/
theorem Args.ofList?_separate {takesValue : String → Option Bool} {arg name value : String}
    {rest : List String} (hend : arg ≠ "--") (hplain : isPlain arg = false)
    (hoption : optionOf? arg = some (name, none)) (hvalued : takesValue name = some true)
    (hvalue : ¬(value = "" ∨ (!isPlain value) = true)) :
    Args.ofList? takesValue (arg :: value :: rest) =
      (Args.ofList? takesValue rest).map (·.addOption name value) := by
  rw [Args.ofList?, if_neg hend, hplain, if_neg Bool.false_ne_true, hoption]
  simp only [hvalued, hvalue, if_false]

theorem Args.withFile?_eq_some_iff {takesValue : String → Option Bool} {list : List String}
    {file : String} {args : Args} :
    Args.withFile? takesValue list = some (file, args) ↔
      Args.ofList? takesValue list = some args ∧ args.others = [file] ∧ file ≠ "" ∧
        (args.options.map Prod.fst).Nodup := by
  rw [Args.withFile?]
  simp only [Option.bind_eq_bind, Option.bind_eq_some_iff]
  constructor
  · rintro ⟨args', hargs, h⟩
    split at h
    · next hothers =>
      split at h
      · next hfile =>
        cases h
        exact ⟨hargs, hothers, hfile⟩
      · cases h
    · cases h
  · rintro ⟨hargs, hothers, hfile⟩
    refine ⟨args, hargs, ?_⟩
    rw [hothers]
    exact if_pos hfile

/-! ### Commands -/

/-- The first argument is the command's name, and the others are read by that command. -/
theorem Command.ofList?_cases {args : List String} {c : Command}
    (h : Command.ofList? args = some c) :
    (∃ list o, args = "run" :: list ∧ RunOptions.ofList? list = some o ∧ c = .run o) ∨
    (∃ list file, args = "dis" :: list ∧ Args.withFile? (fun _ => none) list = some file ∧
      c = .dis file.1) ∨
    ∃ list o, args = "dump" :: list ∧ DumpOptions.ofList? list = some o ∧ c = .dump o := by
  rcases args with - | ⟨name, list⟩
  · cases h
  rw [Command.ofList?] at h
  split at h
  · next hname =>
    obtain ⟨o, ho, rfl⟩ := Option.map_eq_some_iff.1 h
    exact .inl ⟨list, o, by rw [hname], ho, rfl⟩
  · split at h
    · next hname =>
      obtain ⟨file, hfile, rfl⟩ := Option.map_eq_some_iff.1 h
      exact .inr (.inl ⟨list, file, by rw [hname], hfile, rfl⟩)
    · split at h
      · next hname =>
        obtain ⟨o, ho, rfl⟩ := Option.map_eq_some_iff.1 h
        exact .inr (.inr ⟨list, o, by rw [hname], ho, rfl⟩)
      · cases h

theorem Command.ofList?_eq_run_iff {args : List String} {o : RunOptions} :
    Command.ofList? args = some (.run o) ↔
      ∃ list, args = "run" :: list ∧ RunOptions.ofList? list = some o := by
  constructor
  · intro h
    rcases ofList?_cases h with ⟨list, o', hargs, ho, heq⟩ | ⟨_, _, _, _, heq⟩ | ⟨_, _, _, _, heq⟩
    · cases heq
      exact ⟨list, hargs, ho⟩
    · cases heq
    · cases heq
  · rintro ⟨list, rfl, h⟩
    exact congrArg (Option.map Command.run) h

theorem Command.ofList?_eq_dump_iff {args : List String} {o : DumpOptions} :
    Command.ofList? args = some (.dump o) ↔
      ∃ list, args = "dump" :: list ∧ DumpOptions.ofList? list = some o := by
  constructor
  · intro h
    rcases ofList?_cases h with ⟨_, _, _, _, heq⟩ | ⟨_, _, _, _, heq⟩ | ⟨list, o', hargs, ho, heq⟩
    · cases heq
    · cases heq
    · cases heq
      exact ⟨list, hargs, ho⟩
  · rintro ⟨list, rfl, h⟩
    exact congrArg (Option.map Command.dump) h

/-! ### The options of `run` -/

theorem RunOptions.ofList?_eq_some_iff {list : List String} {o : RunOptions} :
    RunOptions.ofList? list = some o ↔ ∃ args,
      Args.withFile? runOption list = some (o.rom, args) ∧
      (args.value? "unknown-opcode").elim (some default) policyOf? = some o.unknownOpcode ∧
      o.debug = args.has "debug" ∧ o.strict = args.has "strict" ∧
      o.script = args.value? "script" := by
  rw [RunOptions.ofList?]
  simp only [Option.bind_eq_bind, Option.bind_eq_some_iff]
  constructor
  · rintro ⟨⟨rom, args⟩, hfile, policy, hpolicy, ho⟩
    cases ho
    exact ⟨args, hfile, hpolicy, rfl, rfl, rfl⟩
  · rintro ⟨args, hfile, hpolicy, hdebug, hstrict, hscript⟩
    refine ⟨_, hfile, _, hpolicy, ?_⟩
    show some _ = some o
    rw [← hdebug, ← hstrict, ← hscript]

/-- `--debug` in front of the arguments of `run` changes the option and nothing else. -/
theorem RunOptions.ofList?_debug {list : List String} {o : RunOptions}
    (h : RunOptions.ofList? list = some o) (hdebug : o.debug = false) :
    RunOptions.ofList? ("--debug" :: list) = some { o with debug := true } := by
  obtain ⟨args, hfile, hpolicy, hgiven, hstrict, hscript⟩ := ofList?_eq_some_iff.1 h
  obtain ⟨hargs, hothers, hrom, hnodup⟩ := Args.withFile?_eq_some_iff.1 hfile
  apply ofList?_eq_some_iff.2
  refine ⟨args.addOption "debug" "", ?_, hpolicy, rfl, hstrict, hscript⟩
  apply Args.withFile?_eq_some_iff.2
  refine ⟨?_, hothers, hrom, List.nodup_cons.2 ⟨?_, hnodup⟩⟩
  · have hoption : optionOf? "--debug" = some ("debug", none) := by decide +kernel
    rw [Args.ofList?_flag (by decide) (by decide +kernel) hoption rfl, hargs]
    rfl
  · -- an option that is not given stands nowhere
    have hnone : args.options.lookup "debug" = none := by
      rw [hdebug] at hgiven
      exact Option.not_isSome_iff_eq_none.1 (Bool.eq_false_iff.1 hgiven.symm)
    intro hmem
    obtain ⟨p, hp, hname⟩ := List.mem_map.1 hmem
    have hne := List.lookup_eq_none_iff.1 hnone p hp
    rw [hname] at hne
    cases hne

/-! ### The options of `dump` -/

theorem DumpOptions.ofList?_eq_some_iff {list : List String} {o : DumpOptions} :
    DumpOptions.ofList? list = some o ↔ ∃ args,
      Args.withFile? dumpOption list = some (o.rom, args) ∧
      (args.value? "width").elim (some 16) widthOf? = some o.width ∧
      o.style = if args.has "text" then .text else .hex := by
  rw [DumpOptions.ofList?]
  simp only [Option.bind_eq_bind, Option.bind_eq_some_iff]
  constructor
  · rintro ⟨⟨rom, args⟩, hfile, width, hwidth, ho⟩
    cases ho
    exact ⟨args, hfile, hwidth, rfl⟩
  · rintro ⟨args, hfile, hwidth, hstyle⟩
    refine ⟨_, hfile, _, hwidth, ?_⟩
    show some _ = some o
    rw [← hstyle]

theorem widthOf?_bounds {text : String} {width : Nat} (h : widthOf? text = some width) :
    1 ≤ width ∧ width ≤ 65535 := by
  simp only [widthOf?, Option.ite_none_right_eq_some] at h
  obtain ⟨-, hrange, hvalue⟩ := h
  rwa [Option.some.inj hvalue] at hrange

/-- A width in range is read from its decimal digits. -/
theorem widthOf?_toString {width : Nat} (hmin : 1 ≤ width) (hmax : width ≤ 65535) :
    widthOf? (toString width) = some width := by
  rw [widthOf?]
  split
  · next hsign =>
    -- a sign would be a digit
    exact absurd (Text.isDigit_of_toString_eq_cons hsign) (by decide)
  · rw [if_pos (Text.digits_toString width), Text.ofDigitChars_toString]
    exact if_pos ⟨hmin, hmax⟩

/-- A number is taken as the value of an option. -/
theorem isPlain_toString (n : Nat) :
    ¬(toString n = "" ∨ (!isPlain (toString n)) = true) := by
  rintro (hempty | hdash)
  · exact (Text.digits_toString n).1 (congrArg String.toList hempty)
  · have hhead : (toString n).toList.head? = some '-' := by
      simp only [isPlain, Bool.not_eq_true', Bool.or_eq_false_iff, bne_eq_false_iff_eq] at hdash
      exact hdash.1
    have hdigit : '-'.isDigit = true := Text.isDigit_of_mem_toString (List.mem_of_head? hhead)
    exact absurd hdigit (by decide)

/-- Arguments that ask for a dump. -/
def DumpOptions.arguments (o : DumpOptions) : List String :=
  match o.style with
  | .hex => ["dump", "--width", toString o.width, "--", o.rom]
  | .text => ["dump", "--text", "--width", toString o.width, "--", o.rom]

theorem DumpOptions.ofList?_arguments {o : DumpOptions} (hrom : o.rom ≠ "") (hmin : 1 ≤ o.width)
    (hmax : o.width ≤ 65535) : Command.ofList? o.arguments = some (.dump o) := by
  obtain ⟨rom, width, style⟩ := o
  have hoption : optionOf? "--width" = some ("width", none) := by decide +kernel
  have hplain : isPlain "--width" = false := by decide +kernel
  have hargs : Args.ofList? dumpOption ["--width", toString width, "--", rom] =
      some ⟨[("width", toString width)], [rom]⟩ := by
    rw [Args.ofList?_separate (by decide) hplain hoption rfl (isPlain_toString width),
      Args.ofList?, if_pos rfl]
    rfl
  apply Command.ofList?_eq_dump_iff.2
  cases style with
  | hex =>
    refine ⟨_, rfl, ofList?_eq_some_iff.2
      ⟨⟨[("width", toString width)], [rom]⟩, ?_, widthOf?_toString hmin hmax, rfl⟩⟩
    exact Args.withFile?_eq_some_iff.2 ⟨hargs, rfl, hrom, by simp⟩
  | text =>
    have hoption' : optionOf? "--text" = some ("text", none) := by decide +kernel
    have hplain' : isPlain "--text" = false := by decide +kernel
    refine ⟨_, rfl, ofList?_eq_some_iff.2
      ⟨⟨[("text", ""), ("width", toString width)], [rom]⟩, ?_, widthOf?_toString hmin hmax, rfl⟩⟩
    refine Args.withFile?_eq_some_iff.2 ⟨?_, rfl, hrom, by simp⟩
    rw [Args.ofList?_flag (by decide) hplain' hoption' rfl, hargs]
    rfl

/-- **Which dumps can be asked for**: those with rows of 1 to 65535 words, in either style. -/
theorem Command.exists_dump_iff {o : DumpOptions} :
    (∃ args, Command.ofList? args = some (.dump o)) ↔
      o.rom ≠ "" ∧ 1 ≤ o.width ∧ o.width ≤ 65535 := by
  constructor
  · rintro ⟨args, h⟩
    obtain ⟨list, -, hlist⟩ := ofList?_eq_dump_iff.1 h
    obtain ⟨args, hfile, hwidth, -⟩ := DumpOptions.ofList?_eq_some_iff.1 hlist
    obtain ⟨-, -, hrom, -⟩ := Args.withFile?_eq_some_iff.1 hfile
    refine ⟨hrom, ?_⟩
    cases hvalue : args.value? "width" with
    | none =>
      rw [hvalue] at hwidth
      have hdefault : 16 = o.width := Option.some.inj hwidth
      rw [← hdefault]
      decide
    | some text =>
      rw [hvalue] at hwidth
      exact widthOf?_bounds hwidth
  · rintro ⟨hrom, hmin, hmax⟩
    exact ⟨_, DumpOptions.ofList?_arguments hrom hmin hmax⟩

end WordMachine.CommandLine
