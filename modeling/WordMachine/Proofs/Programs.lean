import WordMachine.CommandLine.Report
import WordMachine.Proofs.Image

/-!
# Programs in files

Commands read their program from a file that holds its image. `run` goes on to run it, the others
show it as lines of text. What such a command writes tells the lines, if no line feed stands in them
(`linesText_inj`).
-/

namespace WordMachine.CommandLine

variable {env env' : Environment} {path : String} {image : Array UInt8} {program : Array Word}

/-! ### Reading programs -/

theorem readProgram_eq_ok (rom : env.readFile path = .ok (image, env'))
    (decoded : Image.decode image = .ok program) :
    env.readProgram path = .ok (program, env') := by
  rw [Environment.readProgram, rom]
  show ((Image.decode image).mapError _ >>= _) = _
  rw [decoded]
  rfl

theorem readProgram_unreadable {e : ReadError} (unreadable : env.readFile path = .error e) :
    env.readProgram path = .error (.unreadableRom path e) := by
  rw [Environment.readProgram, unreadable]
  rfl

theorem readProgram_undecodable {e : ImageError} (rom : env.readFile path = .ok (image, env'))
    (undecodable : Image.decode image = .error e) :
    env.readProgram path = .error (.undecodableRom path e) := by
  rw [Environment.readProgram, rom]
  show ((Image.decode image).mapError _ >>= _) = _
  rw [undecodable]
  rfl

/-! ### Showing programs -/

/-- A file that can be read is shown if it holds an image, and else refused. -/
theorem showProgram_cases (h : env.readFile path = .ok (image, env'))
    (lines : Array Word → List String) :
    (∃ e, Image.decode image = .error e ∧
      (showProgram env path lines).failure = some (.undecodableRom path e)) ∨
    ∃ program, Image.decode image = .ok program ∧
      (showProgram env path lines).stdout = linesText (lines program) ∧
      (showProgram env path lines).failure = none := by
  rw [showProgram]
  cases hdecode : Image.decode image with
  | error e =>
    rw [readProgram_undecodable h hdecode]
    exact .inl ⟨e, rfl, rfl⟩
  | ok program =>
    rw [readProgram_eq_ok h hdecode]
    exact .inr ⟨program, rfl, rfl, rfl⟩

/-- Lines that no line feed stands in are found again where the line feeds are. -/
theorem splitOn_join {ls : List String} (hls : ∀ l ∈ ls, '\n' ∉ l.toList) :
    (String.join (ls.map (· ++ "\n"))).toList.splitOn '\n' = ls.map String.toList ++ [[]] := by
  induction ls with
  | nil => simp
  | cons l ls ih =>
    obtain ⟨hl, hls⟩ := List.forall_mem_cons.1 hls
    have htext : (String.join ((l :: ls).map (· ++ "\n"))).toList =
        l.toList ++ '\n' :: (String.join (ls.map (· ++ "\n"))).toList := by
      simp
    rw [htext, List.splitOn_append_cons_self_of_not_mem hl, ih hls]
    rfl

/-- **Lines can be told apart** by the text that they make, if no line feed stands in them. -/
theorem linesText_inj {ls ls' : List String} (hls : ∀ l ∈ ls, '\n' ∉ l.toList)
    (hls' : ∀ l ∈ ls', '\n' ∉ l.toList) (h : linesText ls = linesText ls') : ls = ls' := by
  have htext : String.join (ls.map (· ++ "\n")) = String.join (ls'.map (· ++ "\n")) :=
    String.toByteArray_inj.1 (ByteArray.ext h)
  have hsplit : ls.map String.toList ++ [[]] = ls'.map String.toList ++ [[]] := by
    rw [← splitOn_join hls, ← splitOn_join hls', htext]
  exact (List.map_inj_right fun _ _ => String.toList_inj.1).1 (List.append_cancel_right hsplit)

end WordMachine.CommandLine
