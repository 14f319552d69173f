import WordMachine.Proofs.Assembly
import WordMachine.Proofs.StepLog

/-!
# Traces as text

The text of a trace says all that there is in the trace (`Trace.text_injective`). Address and
instruction stand in columns, which are wide enough for every address and every instruction
(`length_toString_le`, `Instruction.length_text_le`), so it is known where they end. The instruction is
then read back by assembling it: the blanks behind it are no tokens. Registers and stack are numbers
with other characters between them, and so is the address, and numbers are read back wherever they
stand (`Text.numbers`).
-/

namespace WordMachine

namespace Text

variable {cs ds : List Char} {c : Char} {n width : Nat} {s : String}

/-! ### Numbers in a text -/

/-- The decimal numbers in a text, in order: its runs of digits. -/
def numbers (cs : List Char) : List Nat :=
  ((cs.splitOnP (!·.isDigit)).filter (· ≠ [])).map (Nat.ofDigitChars 10 · 0)

/-- **Where there is no digit, numbers end.** -/
theorem numbers_append_cons (hc : c.isDigit = false) (cs ds : List Char) :
    numbers (cs ++ c :: ds) = numbers cs ++ numbers ds := by
  have hsep : (!c.isDigit) = true := by rw [hc, Bool.not_false]
  have hsplit := @List.splitOnP_append_cons _ (!·.isDigit) cs ds c hsep
  rw [numbers, hsplit, List.filter_append, List.map_append]
  rfl

/-- What has no digit in it is not seen before a number. -/
theorem numbers_append_left (hcs : cs.all (!·.isDigit) = true) :
    numbers (cs ++ ds) = numbers ds := by
  induction cs with
  | nil => rfl
  | cons c cs ih =>
    rw [List.all_cons, Bool.and_eq_true, Bool.not_eq_true'] at hcs
    exact (numbers_append_cons hcs.1 [] (cs ++ ds)).trans (ih hcs.2)

/-- What has no digit in it separates numbers. -/
theorem numbers_append_between {sep : List Char} (hne : sep ≠ [])
    (hsep : sep.all (!·.isDigit) = true) :
    numbers (cs ++ (sep ++ ds)) = numbers cs ++ numbers ds := by
  obtain ⟨c, sep, rfl⟩ := List.exists_cons_of_ne_nil hne
  rw [List.all_cons, Bool.and_eq_true, Bool.not_eq_true'] at hsep
  rw [List.cons_append, numbers_append_cons hsep.1, numbers_append_left hsep.2]

theorem numbers_toString (n : Nat) : numbers (toString n).toList = [n] := by
  have hdigits : ∀ c ∈ (toString n).toList, (!c.isDigit) = false := by
    intro c hc
    rw [isDigit_of_mem_toString hc, Bool.not_true]
  rw [numbers, List.splitOnP_eq_singleton hdigits]
  have hne := (digits_toString n).1
  have hread := ofDigitChars_toString n
  simp only [List.filter_cons, List.filter_nil, hne, ne_eq, not_false_eq_true, decide_true, if_true,
    List.map_cons, List.map_nil, hread]

/-- A number with text around it. -/
theorem numbers_append_toString (hcs : cs.all (!·.isDigit) = true) (hds : ds.all (!·.isDigit) = true)
    (n : Nat) : numbers (cs ++ ((toString n).toList ++ ds)) = [n] := by
  rw [numbers_append_left hcs]
  cases ds with
  | nil => rw [List.append_nil, numbers_toString]
  | cons d ds =>
    rw [List.all_cons, Bool.and_eq_true, Bool.not_eq_true'] at hds
    have hrest : numbers (ds ++ []) = [] := numbers_append_left hds.2
    rw [numbers_append_cons hds.1, numbers_toString, ← List.append_nil ds, hrest]
    rfl

theorem numbers_intercalate (ns : List Nat) :
    numbers (", ".intercalate (ns.map toString)).toList = ns := by
  induction ns with
  | nil => rfl
  | cons n ns ih =>
    by_cases hlast : ns = []
    · subst hlast
      exact numbers_toString n
    · have hne : ns.map toString ≠ [] := by simpa using hlast
      rw [List.map_cons, String.intercalate_cons_of_ne_nil hne, String.toList_append,
        String.toList_append, List.append_assoc, numbers_append_between (by decide) (by decide), ih,
        numbers_toString]
      rfl

/-! ### Columns -/

theorem length_alignLeft (h : s.length ≤ width) : (alignLeft width s).toList.length = width := by
  rw [alignLeft, String.toList_ofList, List.length_rightpad, String.length_toList]
  exact Nat.max_eq_left h

theorem length_alignRight (h : s.length ≤ width) : (alignRight width s).toList.length = width := by
  rw [alignRight, String.toList_ofList, List.length_leftpad, String.length_toList]
  exact Nat.max_eq_left h

theorem numbers_alignRight (width : Nat) (s : String) :
    numbers (alignRight width s).toList = numbers s.toList := by
  rw [alignRight, String.toList_ofList, List.leftpad]
  apply numbers_append_left
  simp [List.all_replicate]

theorem prefix_alignLeft (width : Nat) (s : String) : s.toList <+: (alignLeft width s).toList := by
  rw [alignLeft, String.toList_ofList, List.rightpad]
  exact List.prefix_append _ _

/-- Texts that are not long with blanks between them. -/
theorem length_intercalate_le (texts : List String) (h : ∀ s ∈ texts, s.length ≤ n) :
    (" ".intercalate texts).length ≤ texts.length * (n + 1) := by
  induction texts with
  | nil => exact Nat.zero_le _
  | cons s texts ih =>
    obtain ⟨hs, htexts⟩ := List.forall_mem_cons.1 h
    have hrest := ih htexts
    rw [List.length_cons, Nat.succ_mul]
    by_cases hlast : texts = []
    · subst hlast
      rw [String.intercalate_singleton]
      omega
    · rw [String.intercalate_cons_of_ne_nil hlast, String.length_append, String.length_append]
      have hblank : " ".length = 1 := rfl
      omega

/-- A word is written with no more than five digits. -/
theorem length_toString_le (w : Word) : (toString w).length ≤ 5 := by
  have hw : toString w = toString w.toNat := rfl
  rw [hw, Nat.toString_eq_ofList_toDigits, String.length_ofList,
    Nat.length_toDigits_le_iff (by decide) (by decide)]
  exact Nat.lt_trans w.toNat_lt (by decide)

end Text

/-! ### Instructions -/

theorem Operand.length_text_le (a : Operand) : a.text.length ≤ 5 := by
  cases a with
  | literal value => exact Text.length_toString_le value.word
  | register r =>
    have hall : ∀ i : Fin registerCount, (Register.mk i).text.length ≤ 5 := by decide +kernel
    exact hall r.index

/-- **The text of an instruction is never wider than its column.** -/
theorem Instruction.length_text_le (i : Instruction) : i.text.length ≤ 24 := by
  have hmnemonic : i.opcode.mnemonic.length ≤ 5 := by
    cases i.opcode <;> decide
  have hoperands : ∀ s ∈ i.operands.map Operand.text, s.length ≤ 5 := by
    intro s hs
    obtain ⟨a, -, rfl⟩ := List.mem_map.1 hs
    exact a.length_text_le
  have hlength := Text.length_intercalate_le _ (List.forall_mem_cons.2 ⟨hmnemonic, hoperands⟩)
  have harity := i.opcode.arity_le
  rw [List.length_cons, List.length_map, i.length_operands] at hlength
  rw [Instruction.text]
  omega

namespace Assembler

theorem tokens_blanks (n : Nat) : tokens (.ofList (List.replicate n ' ')) = [] := by
  induction n with
  | zero => rfl
  | succ n ih =>
    have htext : String.ofList (List.replicate (n + 1) ' ') =
        "" ++ String.singleton ' ' ++ .ofList (List.replicate n ' ') := by
      simp [List.replicate_succ]
    rw [htext, tokens_append (by decide), ih]
    rfl

/-- Blanks behind a text are no tokens of it. -/
theorem tokens_alignLeft (width : Nat) (s : String) : tokens (Text.alignLeft width s) = tokens s := by
  have htext : Text.alignLeft width s =
      .ofList (s.toList ++ List.replicate (width - s.toList.length) ' ') := rfl
  rw [htext]
  cases width - s.toList.length with
  | zero => simp
  | succ n =>
    have hblank : String.ofList (s.toList ++ List.replicate (n + 1) ' ') =
        s ++ String.singleton ' ' ++ .ofList (List.replicate n ' ') := by
      simp [← String.toList_inj, List.replicate_succ]
    rw [hblank, tokens_append (by decide), tokens_blanks, List.append_nil]

end Assembler

/-- In its column, an instruction is read back. -/
theorem Instruction.alignLeft_text_inj {width : Nat} {i j : Instruction}
    (h : Text.alignLeft width i.text = Text.alignLeft width j.text) : i = j := by
  have hassemble (i : Instruction) :
      Assembler.assemble? (Text.alignLeft width i.text) = some i.encode := by
    rw [Assembler.assemble?, Assembler.tokens_alignLeft]
    exact i.assemble?_text
  have hwords : some i.encode = some j.encode := by rw [← hassemble, h, hassemble]
  exact eq_of_isPrefix_encode (Option.some.inj hwords ▸ List.prefix_rfl)

/-! ### Traces -/

attribute [ext] Trace

namespace Trace

variable {t t' : Trace}

/-- What the text of a trace says of registers and stack. -/
def stateText (t : Trace) : String :=
  "reg: [" ++ ", ".intercalate (t.registers.toList.map toString) ++ "] stack: " ++
    toString t.depth ++ " " ++ topText t.top

/-- The numbers that registers and stack are shown as. -/
def stateNumbers (t : Trace) : List Nat :=
  t.registers.toList.map UInt16.toNat ++ t.depth :: t.top.toList.map UInt16.toNat

/-- **The text of a trace has three columns**. -/
theorem toList_text (t : Trace) :
    t.text.toList = (Text.alignRight 5 (toString t.pc)).toList ++ (": ".toList ++
      ((Text.alignLeft 24 t.instruction.text).toList ++ (" ".toList ++ t.stateText.toList))) := by
  simp [text, stateText]

theorem toList_stateText (t : Trace) : t.stateText.toList = "reg: [".toList ++
    ((", ".intercalate (t.registers.toList.map toString)).toList ++ ("] stack: ".toList ++
      ((toString t.depth).toList ++ (" ".toList ++ (topText t.top).toList)))) := by
  simp [stateText]

theorem numbers_topText (top : Option Word) :
    Text.numbers (topText top).toList = top.toList.map UInt16.toNat := by
  cases top with
  | none => decide
  | some w =>
    have htext : (topText (some w)).toList =
        "Some(".toList ++ ((toString w.toNat).toList ++ ")".toList) := by
      have hw : topText (some w) = "Some(" ++ toString w.toNat ++ ")" := rfl
      simp [hw]
    rw [htext, Text.numbers_append_toString (by decide) (by decide)]
    rfl

theorem numbers_stateText (t : Trace) : Text.numbers t.stateText.toList = t.stateNumbers := by
  have hregisters : t.registers.toList.map toString =
      (t.registers.toList.map UInt16.toNat).map toString := by
    rw [List.map_map]
    rfl
  rw [toList_stateText, Text.numbers_append_left (by decide),
    Text.numbers_append_between (by decide) (by decide),
    Text.numbers_append_between (by decide) (by decide), hregisters, Text.numbers_intercalate,
    Text.numbers_toString, numbers_topText]
  rfl

theorem eq_of_stateNumbers_eq (h : t.stateNumbers = t'.stateNumbers) :
    t.registers = t'.registers ∧ t.depth = t'.depth ∧ t.top = t'.top := by
  have same {ws ws' : List Word} (h : ws.map UInt16.toNat = ws'.map UInt16.toNat) : ws = ws' :=
    (List.map_inj_right fun _ _ => UInt16.toNat_inj.1).1 h
  obtain ⟨hregisters, hstack⟩ := List.append_inj h (by simp)
  obtain ⟨hdepth, htop⟩ := List.cons.inj hstack
  refine ⟨Vector.toList_inj.1 (same hregisters), hdepth, ?_⟩
  rw [← t.top.head?_toList, same htop, Option.head?_toList]

theorem length_addressColumn (t : Trace) :
    (Text.alignRight 5 (toString t.pc)).toList.length = 5 :=
  Text.length_alignRight (Text.length_toString_le t.pc)

theorem length_instructionColumn (t : Trace) :
    (Text.alignLeft 24 t.instruction.text).toList.length = 24 :=
  Text.length_alignLeft t.instruction.length_text_le

theorem numbers_addressColumn (t : Trace) :
    Text.numbers (Text.alignRight 5 (toString t.pc)).toList = [t.pc.toNat] :=
  (Text.numbers_alignRight 5 _).trans (Text.numbers_toString t.pc.toNat)

/-- **The text of a trace says all that there is in it.** -/
theorem text_injective : Function.Injective text := by
  intro t t' h
  have hlist : t.text.toList = t'.text.toList := congrArg String.toList h
  rw [toList_text, toList_text] at hlist
  -- the columns are equally wide, so they are the same one by one
  obtain ⟨haddress, hrest⟩ := List.append_inj hlist
    (t.length_addressColumn.trans t'.length_addressColumn.symm)
  obtain ⟨hinstruction, hstate⟩ := List.append_inj (List.append_cancel_left hrest)
    (t.length_instructionColumn.trans t'.length_instructionColumn.symm)
  have hpc := congrArg Text.numbers haddress
  rw [numbers_addressColumn, numbers_addressColumn, List.singleton_inj, UInt16.toNat_inj] at hpc
  have hsame : t.instruction = t'.instruction :=
    Instruction.alignLeft_text_inj (String.toList_inj.1 hinstruction)
  have hnumbers := congrArg Text.numbers (List.append_cancel_left hstate)
  rw [numbers_stateText, numbers_stateText] at hnumbers
  obtain ⟨hregisters, hdepth, htop⟩ := eq_of_stateNumbers_eq hnumbers
  exact Trace.ext hpc hsame hregisters hdepth htop

theorem drop_text_instruction (t : Trace) :
    t.text.toList.drop 7 =
      (Text.alignLeft 24 t.instruction.text).toList ++ (" ".toList ++ t.stateText.toList) := by
  rw [toList_text, ← List.append_assoc]
  apply List.drop_left'
  rw [List.length_append, length_addressColumn]
  rfl

theorem drop_text_state (t : Trace) : t.text.toList.drop 32 = t.stateText.toList := by
  have hdrop : t.text.toList.drop 32 = (t.text.toList.drop 7).drop 25 := by rw [List.drop_drop]
  rw [hdrop, drop_text_instruction, ← List.append_assoc]
  apply List.drop_left'
  rw [List.length_append, length_instructionColumn]
  rfl

end Trace

/-- **A trace tells which step it is of.** Where an instruction is decoded, it is what a step logs
first, and between any two states of machines its text is the same exactly if address, instruction,
registers, and depth and top of the stack are; and then the instruction also takes up the same words
in memory. No address and no instruction is too wide for its column, so the text of the instruction
is found at the eighth character and that of the registers at the thirty-third. -/
theorem trace_identifies_step {δ ε : Type} [Device δ] [Device ε] {m m' : Machine}
    {i i' : Instruction} (h : m.decode m.pc = .ok i) (h' : m'.decode m'.pc = .ok i') (d : δ)
    (e : ε) :
    let text := (Record.trace (m.trace i)).message
    (∃ records, (m.step d).log = .trace (m.trace i) :: records) ∧
    (∃ records, (m'.step e).log = .trace (m'.trace i') :: records) ∧
    (text = (Record.trace (m'.trace i')).message ↔ m.pc = m'.pc ∧ i = i' ∧
      m.registers = m'.registers ∧ m.stack.depth = m'.stack.depth ∧
      m.stack.top? = m'.stack.top?) ∧
    (i = i' → m.memory.toArray.extract m.pc.toNat (m.pc.toNat + i.size) =
      m'.memory.toArray.extract m'.pc.toNat (m'.pc.toNat + i'.size)) ∧
    i.text.toList <+: text.toList.drop 7 ∧ "reg:".toList <+: text.toList.drop 32 ∧
    (toString m.pc).length ≤ 5 ∧ i.text.length ≤ 24 := by
  intro text
  have hlog {ζ : Type} [Device ζ] {m : Machine} {i : Instruction} (h : m.decode m.pc = .ok i)
      (d : ζ) : ∃ records, (m.step d).log = .trace (m.trace i) :: records :=
    ⟨_, Rig.log_of_decode h⟩
  refine ⟨hlog h d, hlog h' e, ?_, ?_, ?_, ?_, Text.length_toString_le m.pc, i.length_text_le⟩
  · constructor
    · intro hsame
      exact Trace.ext_iff.1 (Trace.text_injective hsame)
    · intro hsame
      exact congrArg Trace.text (Trace.ext_iff.2 hsame)
  · rintro rfl
    rw [← Array.toList_inj, Instruction.decode_eq_ok_iff.1 h, Instruction.decode_eq_ok_iff.1 h']
  · show i.text.toList <+: (m.trace i).text.toList.drop 7
    rw [Trace.drop_text_instruction]
    exact (Text.prefix_alignLeft 24 i.text).trans (List.prefix_append _ _)
  · show "reg:".toList <+: (m.trace i).text.toList.drop 32
    rw [Trace.drop_text_state, Trace.toList_stateText]
    have hname : "reg:".toList <+: "reg: [".toList := by decide
    exact hname.trans (List.prefix_append _ _)

/-- Two machines with the same trace, though not with the same memory, nor under the same policy; and
one that was at work, whose trace is another one. -/
theorem trace_identifies_step_noop :
    let m := Machine.loaded .skip #[21]
    let m' := Machine.loaded .fault #[21, 18]
    let used := { m.setRegister ⟨1⟩ 5 with stack := Stack.empty.push 7 }
    m.decode m.pc = .ok .noop ∧ m'.decode m'.pc = .ok .noop ∧ used.decode used.pc = .ok .noop ∧
      (Record.trace (m.trace .noop)).message = (Record.trace (m'.trace .noop)).message ∧
      (Record.trace (m.trace .noop)).message ≠ (Record.trace (used.trace .noop)).message ∧
      (Record.trace (used.trace .noop)).message =
        "    0: noop                     reg: [0, 5, 0, 0, 0, 0, 0, 0] stack: 1 Some(7)" := by
  intro m m' used
  have h : m.decode m.pc = .ok .noop := Machine.decode_loaded (by decide) rfl
  have h' : m'.decode m'.pc = .ok .noop := Machine.decode_loaded (by decide) rfl
  have hused : used.decode used.pc = .ok .noop := h
  obtain ⟨-, -, hsame, -⟩ := trace_identifies_step h h' NullDevice.mk NullDevice.mk
  obtain ⟨-, -, hother, -⟩ := trace_identifies_step h hused NullDevice.mk NullDevice.mk
  have hpc (policy : Policy) (program : Array Word) : (Machine.loaded policy program).pc = 0 := rfl
  have hregisters (policy : Policy) (program : Array Word) :
      (Machine.loaded policy program).registers = .replicate registerCount 0 := rfl
  have hstack : m.stack = m'.stack :=
    (Machine.loaded_stack _ _).trans (Machine.loaded_stack _ _).symm
  refine ⟨h, h', hused, hsame.2 ⟨?_, rfl, ?_, ?_, ?_⟩, ?_, ?_⟩
  · exact (hpc _ _).trans (hpc _ _).symm
  · exact (hregisters _ _).trans (hregisters _ _).symm
  · rw [hstack]
  · rw [hstack]
  · intro hmessage
    obtain ⟨-, -, -, hdepth, -⟩ := hother.1 hmessage
    exact absurd hdepth (by decide)
  · have htrace : used.trace .noop =
        ⟨0, .noop, (Vector.replicate registerCount 0).set 1 5, 1, some 7⟩ := rfl
    rw [htrace]
    rfl

end WordMachine
