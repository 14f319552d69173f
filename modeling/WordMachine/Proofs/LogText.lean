import WordMachine.Proofs.TraceText

/-!
# The log as text

A record is shown as one line, its level in front. Level and address are read from the line again
(`Log.level?`, `Log.address?`), so that what the records tell is also told by what is shown of them.

`Machine.Announces` gives the lines themselves, to the letter, that a machine shows before it does
anything in a step. They are the lines of what it reports (`Machine.Reports.announces`).
-/

namespace WordMachine

/-! ### Reading lines -/

namespace Log

/-- The level that stands at the start of a line. -/
def level? (line : String) : Option Level :=
  [Level.error, .warn, .info, .debug, .trace].find? fun l =>
    (l.name.toList ++ [' ']).isPrefixOf line.toList

/-- The line that warns of a word that is skipped. -/
def warning (word address : Word) : String :=
  s!"WARN unknown opcode {word} at {address}, skipping"

end Log

namespace Record

variable {e : Record}

/-- A text shows itself, in a text with holes too. -/
theorem toString_self (s : String) : toString s = s := rfl

theorem toList_line (e : Record) :
    e.line.toList = e.level.name.toList ++ [' '] ++ e.message.toList := by
  simp [line]

/-- **The level of a record is read from its line.** -/
@[simp] theorem level?_line (e : Record) : Log.level? e.line = some e.level := by
  rw [Log.level?, toList_line]
  cases e.level <;> rfl

/-! ### The line of each record -/

theorem line_scriptFinished : scriptFinished.line = "DEBUG scripted input finished" := rfl

theorem line_finished : finished.line = "INFO halted after" := rfl

theorem line_unknownOpcode (word address : Word) :
    (unknownOpcode word address).line = Log.warning word address := by
  show "WARN" ++ " " ++ s!"unknown opcode {word} at {address}, skipping" =
    s!"WARN unknown opcode {word} at {address}, skipping"
  simp [toString_self, ← String.toList_inj]

theorem line_scriptQueued (bytes : Nat) :
    (scriptQueued bytes).line = s!"DEBUG queued {bytes} bytes of scripted input" := by
  show "DEBUG" ++ " " ++ s!"queued {bytes} bytes of scripted input" = _
  simp [toString_self, ← String.toList_inj]

theorem line_loaded (words : Nat) (path : String) :
    (loaded words path).line = s!"INFO loaded {words} words from {Text.quote path}" := by
  show "INFO" ++ " " ++ s!"loaded {words} words from {Text.quote path}" = _
  simp [toString_self, ← String.toList_inj]

theorem line_skipped (count : Nat) :
    (skipped count).line = s!"WARN skipped {count} unknown opcodes" := by
  show "WARN" ++ " " ++ s!"skipped {count} unknown opcodes" = _
  simp [toString_self, ← String.toList_inj]

/-! ### Numbers in lines -/

theorem numbers_line_scriptQueued (bytes : Nat) :
    Text.numbers (scriptQueued bytes).line.toList = [bytes] := by
  have hline : (scriptQueued bytes).line.toList =
      "DEBUG queued ".toList ++ ((toString bytes).toList ++ " bytes of scripted input".toList) := by
    rw [line_scriptQueued]
    simp [toString_self]
  rw [hline, Text.numbers_append_toString (by decide) (by decide)]

/-- **The records without numbers have lines of their own.** -/
theorem line_eq_iff {f : Record} (hf : f ∈ [emptyReturn, halted, scriptFinished]) :
    e.line = f.line ↔ e = f := by
  have hlevel : f.level = .debug ∧ Text.numbers f.line.toList = [] := by
    simp only [List.mem_cons, List.not_mem_nil, or_false] at hf
    rcases hf with rfl | rfl | rfl
    all_goals decide
  constructor
  · intro h
    have he : e.level = .debug := by
      rw [← hlevel.1, ← Option.some_inj, ← level?_line, ← level?_line, h]
    cases e with
    | emptyReturn | halted | scriptFinished =>
      simp only [List.mem_cons, List.not_mem_nil, or_false] at hf
      revert h
      rcases hf with rfl | rfl | rfl
      all_goals decide
    | scriptQueued bytes =>
      rw [← h, numbers_line_scriptQueued] at hlevel
      cases hlevel.2
    | _ => cases he
  · exact congrArg line

theorem line_eq_scriptFinished_iff :
    e.line = "DEBUG scripted input finished" ↔ e = .scriptFinished := by
  rw [← line_scriptFinished]
  exact line_eq_iff (by simp)

/-! ### Lists of lines -/

variable {records : List Record}

theorem scriptFinished_mem_lines_iff :
    "DEBUG scripted input finished" ∈ records.map line ↔ scriptFinished ∈ records := by
  simp [List.mem_map, line_eq_scriptFinished_iff]

theorem filter_level_lines (wanted : Option Level → Bool) (records : List Record) :
    (records.map line).filter (fun s => wanted (Log.level? s)) =
      (records.filter fun e => wanted (some e.level)).map line := by
  rw [List.filter_map]
  simp [Function.comp_def]

end Record

/-! ### The lines of a step -/

/-- **The line of a warning tells what is skipped.** -/
theorem Machine.line_warning? (m : Machine) :
    m.warning?.map Record.line = m.skips?.map fun (word, address) => Log.warning word address := by
  rw [warning?, Option.map_map]
  exact congrArg (m.skips?.map ·) (funext fun _ => Record.line_unknownOpcode _ _)

end WordMachine
