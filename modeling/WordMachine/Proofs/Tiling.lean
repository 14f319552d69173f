import WordMachine.Listing.Basic

/-!
# Listings tile memory

The lines of a listing stand for the words of memory one after the other: no word is left out, none
is listed twice, and the address of a line is where its first word stands.

A listing can be made line by line (`Listing.Cursor`). It ends, since every line takes at least one
word of those that are left, and what is left below a line depends on the line's address only
(`lines_suffix`). So listings from different starts are the same from the first address on that they
share.
-/

namespace WordMachine

/-- A line covers the words of its item. -/
theorem Line.size_eq (l : Line) : l.size = l.item.words.length := by
  rw [size]
  cases l.item with
  | instruction o operands => simp [Item.words, Nat.add_comm]
  | data w => rfl

namespace Listing

variable {memory : Array Word} {address start : Nat}

/-! ### The line at an address -/

theorem address_lineAt (h : address < memory.size) :
    (lineAt memory address h).address = address := by
  unfold lineAt
  split <;> rfl

/-- **A line holds the words of memory from its address on**, as many as it covers. -/
theorem words_lineAt (h : address < memory.size) :
    (lineAt memory address h).item.words =
      (memory.toList.drop address).take (lineAt memory address h).size := by
  have hlist : memory.toList.drop address = memory[address] :: memory.toList.drop (address + 1) :=
    List.drop_eq_getElem_cons (by simpa using h)
  rw [Line.size_eq, hlist]
  unfold lineAt
  split
  · next o ho =>
    rw [← Opcode.ofWord?_eq_some_iff.1 ho]
    simp [Item.words, Array.toList_extract, List.extract_eq_take_drop]
  · rfl

theorem size_lineAt_le (h : address < memory.size) : (lineAt memory address h).size ≤ 4 := by
  unfold lineAt
  split
  · next o ho =>
    have harity := o.arity_le
    simp only [Line.size, Array.length_toList, Array.size_extract]
    omega
  · exact Nat.le_add_left 1 3

/-- No line goes past the end of memory. -/
theorem end_lineAt_le (h : address < memory.size) :
    address + (lineAt memory address h).size ≤ memory.size := by
  have hlength := congrArg List.length (words_lineAt h)
  rw [← Line.size_eq, List.length_take, List.length_drop, Array.length_toList] at hlength
  omega

/-! ### All lines -/

/-- **Listings are lists**: what is true past the end of memory, and of a line with the listing
behind it if of that listing, is true of every listing. -/
theorem lines_induction {P : Nat → List Line → Prop}
    (past : ∀ address, memory.size ≤ address → P address [])
    (line : ∀ address (h : address < memory.size),
      let behind := address + (lineAt memory address h).size
      P behind (lines memory behind) → P address (lineAt memory address h :: lines memory behind))
    (start : Nat) : P start (lines memory start) := by
  induction hn : memory.size - start using Nat.strongRecOn generalizing start with
  | ind n ih =>
    by_cases h : start < memory.size
    · have hpos := (lineAt memory start h).size_pos
      rw [lines_of_lt h]
      exact line start h (ih _ (by omega) _ rfl)
    · rw [lines_of_le (Nat.not_lt.1 h)]
      exact past start (Nat.not_lt.1 h)

theorem lines_eq_nil_iff : lines memory start = [] ↔ memory.size ≤ start := by
  constructor
  · intro hnil
    apply Nat.le_of_not_lt
    intro h
    rw [lines_of_lt h] at hnil
    cases hnil
  · exact lines_of_le

/-- Where a listing has a line, that is the line there, and the rest is the listing behind it. -/
theorem lines_eq_cons_iff {l : Line} {below : List Line} :
    lines memory start = l :: below ↔
      ∃ h : start < memory.size,
        l = lineAt memory start h ∧ below = lines memory (start + l.size) := by
  constructor
  · intro hlines
    by_cases h : start < memory.size
    · rw [lines_of_lt h] at hlines
      cases hlines
      exact ⟨h, rfl, rfl⟩
    · rw [lines_of_le (Nat.not_lt.1 h)] at hlines
      cases hlines
  · rintro ⟨h, rfl, rfl⟩
    exact lines_of_lt h

/-- **The words of a listing are the words of memory** from its start on. -/
theorem words_lines (memory : Array Word) (start : Nat) :
    (lines memory start).flatMap (·.item.words) = memory.toList.drop start := by
  apply lines_induction (P := fun start ls =>
    ls.flatMap (·.item.words) = memory.toList.drop start)
  · intro address h
    rw [List.drop_eq_nil_of_le (by simpa using h)]
    rfl
  · intro address h behind ih
    rw [List.flatMap_cons, words_lineAt h, ih, ← List.drop_drop, List.take_append_drop]

/-- **What is listed from a line on** is the listing from its address. -/
theorem lines_suffix {above below : List Line} {l : Line}
    (h : lines memory start = above ++ l :: below) : lines memory l.address = l :: below := by
  induction above generalizing start with
  | nil =>
    obtain ⟨hlt, hl, -⟩ := lines_eq_cons_iff.1 h
    rwa [hl, address_lineAt hlt, ← hl]
  | cons l' above ih =>
    obtain ⟨-, -, htail⟩ := lines_eq_cons_iff.1 h
    exact ih htail.symm

/-- A line of a listing is the line at its address. -/
theorem eq_lineAt_of_mem {l : Line} (hl : l ∈ lines memory start) :
    ∃ h : l.address < memory.size, l = lineAt memory l.address h := by
  obtain ⟨above, below, h⟩ := List.append_of_mem hl
  obtain ⟨hlt, hline, -⟩ := lines_eq_cons_iff.1 (lines_suffix h)
  exact ⟨hlt, hline⟩

/-- The line below a line starts where that ends. -/
theorem address_of_lines_eq_cons_cons {above below : List Line} {l l' : Line}
    (h : lines memory start = above ++ l :: l' :: below) : l'.address = l.address + l.size := by
  obtain ⟨-, -, hbelow⟩ := lines_eq_cons_iff.1 (lines_suffix h)
  obtain ⟨hlt, hl', -⟩ := lines_eq_cons_iff.1 hbelow.symm
  rw [hl', address_lineAt hlt]

/-- The last line ends where memory ends. -/
theorem end_of_lines_eq {above : List Line} {l : Line} (h : lines memory start = above ++ [l]) :
    l.address + l.size = memory.size := by
  obtain ⟨hlt, hl, hbelow⟩ := lines_eq_cons_iff.1 (lines_suffix h)
  have hle := lines_eq_nil_iff.1 hbelow.symm
  have hend := end_lineAt_le hlt
  rw [← hl] at hend
  exact Nat.le_antisymm hend hle

/-- **A line's address** is the start and the words of the lines above it. -/
theorem address_of_lines_eq {above below : List Line} {l : Line} {start : Nat}
    (h : lines memory start = above ++ l :: below) :
    l.address = start + (above.flatMap (·.item.words)).length := by
  obtain ⟨hlt, -, -⟩ := lines_eq_cons_iff.1 (lines_suffix h)
  -- the words above and the words from the line on are all there are
  have hwords := words_lines memory start
  rw [h, ← lines_suffix h, List.flatMap_append, words_lines] at hwords
  have hlength := congrArg List.length hwords
  simp only [List.length_append, List.length_drop, Array.length_toList] at hlength
  omega

/-- **The words of a line stand at its address.** -/
theorem words_prefix_of_lines_eq {above below : List Line} {l : Line} {start : Nat}
    (h : lines memory start = above ++ l :: below) :
    l.item.words <+: memory.toList.drop l.address := by
  rw [← words_lines, lines_suffix h, List.flatMap_cons]
  exact List.prefix_append _ _

theorem length_lines_le (memory : Array Word) (start : Nat) :
    (lines memory start).length ≤ memory.size - start := by
  apply lines_induction (P := fun start ls => ls.length ≤ memory.size - start)
  · intro address h
    exact Nat.zero_le _
  · intro address h behind ih
    have hpos := (lineAt memory address h).size_pos
    rw [List.length_cons]
    omega

/-! ### Line by line -/

/-- A listing under way: what is not listed yet starts at a position. -/
structure Cursor where
  memory : Array Word
  position : Nat

/-- Gives the line at the position, if memory goes that far, and moves on behind it. -/
def Cursor.next (c : Cursor) : Option (Line × Cursor) :=
  if h : c.position < c.memory.size then
    let l := lineAt c.memory c.position h
    some (l, { c with position := c.position + l.size })
  else none

/-- The lines that a cursor gives one after the other, until it has none to give. -/
inductive Cursor.Gives : Cursor → List Line → Prop
  | nothing {c} (ended : c.next = none) : Gives c []
  | line {c c' l ls} (given : c.next = some (l, c')) (rest : Gives c' ls) : Gives c (l :: ls)

/-- **Line by line, a cursor gives the listing** from its position, and then ends. -/
theorem Cursor.gives_iff {c : Cursor} {ls : List Line} :
    c.Gives ls ↔ ls = lines c.memory c.position := by
  constructor
  · intro h
    induction h with
    | @nothing c ended =>
      have hle : ¬ c.position < c.memory.size := fun h => by simp [next, h] at ended
      rw [lines_of_le (Nat.not_lt.1 hle)]
    | @line c c' l ls given rest ih =>
      rw [next] at given
      split at given
      · next h =>
        cases given
        rw [lines_of_lt h, ih]
      · cases given
  · rintro rfl
    apply lines_induction (P := fun position ls => Gives ⟨c.memory, position⟩ ls)
    · intro position h
      exact .nothing (dif_neg (Nat.not_lt.2 h))
    · intro position h behind ih
      exact .line (dif_pos h) ih

end Listing

/-- **A listing tiles memory.** From every start on, a listing is made line by line and ends after
at most as many lines as there are words; there are none exactly if the start lies behind memory.
The first line is at the start, each further line begins where the one above it ends, and the last
ends where memory ends; a line takes up one to four words, and all their words in order are the
words of memory. Listings of the same memory that have lines at the same address are the same from
there on, wherever they start. -/
theorem listing_tiles_memory (memory : Array Word) (start : Nat) :
    let ls := Listing.lines memory start
    (∀ ls', Listing.Cursor.Gives ⟨memory, start⟩ ls' ↔ ls' = ls) ∧
    ls.length ≤ memory.size - start ∧
    (ls = [] ↔ memory.size ≤ start) ∧
    (∀ l below, ls = l :: below → l.address = start) ∧
    (∀ above l l' below, ls = above ++ l :: l' :: below → l'.address = l.address + l.size) ∧
    (∀ above l, ls = above ++ [l] → l.address + l.size = memory.size) ∧
    (∀ l ∈ ls, 1 ≤ l.size ∧ l.size ≤ 4 ∧ l.size = l.item.words.length) ∧
    ls.flatMap (·.item.words) = memory.toList.drop start ∧
    ∀ start' above l below above' l' below', ls = above ++ l :: below →
      Listing.lines memory start' = above' ++ l' :: below' → l.address = l'.address →
      l :: below = l' :: below' := by
  refine ⟨fun _ => Listing.Cursor.gives_iff, Listing.length_lines_le memory start,
    Listing.lines_eq_nil_iff, ?_, fun _ _ _ _ => Listing.address_of_lines_eq_cons_cons,
    fun _ _ => Listing.end_of_lines_eq, ?_, Listing.words_lines memory start, ?_⟩
  · intro l below h
    obtain ⟨hlt, hl, -⟩ := Listing.lines_eq_cons_iff.1 h
    rw [hl, Listing.address_lineAt hlt]
  · intro l hl
    obtain ⟨hlt, hline⟩ := Listing.eq_lineAt_of_mem hl
    refine ⟨l.size_pos, ?_, l.size_eq⟩
    rw [hline]
    exact Listing.size_lineAt_le hlt
  · intro start' above l below above' l' below' h h' haddress
    rw [← Listing.lines_suffix h, ← Listing.lines_suffix h', haddress]

/-- A listing from 0 and one from inside its first instruction meet at an instruction that memory
cuts off. -/
theorem listing_tiles_memory_meeting :
    let memory : Array Word := #[19, 21, 9, 32768]
    let last : Line := ⟨2, .instruction .add [32768]⟩
    let ls : List Line := [⟨0, .instruction .out [21]⟩, last]
    Listing.Cursor.Gives ⟨memory, 0⟩ ls ∧
      Listing.Cursor.Gives ⟨memory, 1⟩ [⟨1, .instruction .noop []⟩, last] ∧
      last.address + last.size = 4 ∧ ls.flatMap (·.item.words) = memory.toList ∧
      Listing.lines memory 2 = [last] := by
  intro memory last ls
  have hlines : Listing.lines memory 0 = ls := by
    rw [Listing.lines_of_lt (by decide), Listing.lines_of_lt (by decide),
      Listing.lines_of_le (by decide)]
    decide +kernel
  have hlines' : Listing.lines memory 1 = [⟨1, .instruction .noop []⟩, last] := by
    rw [Listing.lines_of_lt (by decide), Listing.lines_of_lt (by decide),
      Listing.lines_of_le (by decide)]
    decide +kernel
  obtain ⟨hgives, -, -, -, -, hend, -, hwords, -⟩ := listing_tiles_memory memory 0
  obtain ⟨hgives', -⟩ := listing_tiles_memory memory 1
  rw [hlines] at hwords
  have hmeet : Listing.lines memory 0 = [⟨0, .instruction .out [21]⟩] ++ last :: [] := hlines
  exact ⟨(hgives _).2 hlines.symm, (hgives' _).2 hlines'.symm, hend _ last hmeet, hwords,
    Listing.lines_suffix hmeet⟩

end WordMachine
