import WordMachine.Proofs.Listed
import WordMachine.Proofs.Reload

/-!
# Programs in memory are listed and decoded as they are

In memory a program is followed by zeros, so what is listed of it and decoded from it there may
differ from the program alone only where the program ends. In general, if words follow some memory:

* `Listing.item_lineAt_append` — an item that memory cuts off takes the operands that it lacks from
  the words that follow, and every other item stays as it is;
* `Listing.lines_append` — so the lines before the last stay as they are;
* `Instruction.decode_append` — and what is decoded stays as it is unless it is cut off.

Zeros are listed as `halt`, one at each address (`Listing.lines_of_zeros`).
-/

namespace WordMachine

/-- An item with the operands that it lacks taken from the words that follow. -/
def Item.extend (behind : List Word) : Item → Item
  | .instruction o operands =>
    .instruction o (operands ++ behind.take (o.arity - operands.length))
  | .data w => .data w

theorem Item.extend_of_not_truncated {item : Item} (h : ¬ item.Truncated) (behind : List Word) :
    item.extend behind = item := by
  cases item with
  | instruction o ws =>
    have hlacks : o.arity - ws.length = 0 := Nat.sub_eq_zero_of_le (Nat.not_lt.1 h)
    rw [extend, hlacks, List.take_zero, List.append_nil]
  | data w => rfl

variable {memory : Array Word} {address start : Nat}

/-- The words between two addresses, if other words follow memory and the first address lies in it:
those in memory, and behind them those that are missing. -/
theorem toList_extract_append (behind : Array Word) (h : address < memory.size) (n : Nat) :
    let here := (memory.extract (address + 1) (address + 1 + n)).toList
    ((memory ++ behind).extract (address + 1) (address + 1 + n)).toList =
      here ++ behind.toList.take (n - here.length) := by
  intro here
  have hlength : here.length = min (address + 1 + n) memory.size - (address + 1) := by
    rw [Array.length_toList, Array.size_extract]
  have hbehind : ∀ k, (behind.extract 0 k).toList = behind.toList.take k := by
    intro k
    rw [Array.toList_extract, List.extract_eq_take_drop, List.drop_zero, Nat.sub_zero]
  have hmissing : address + 1 + n - memory.size = n - here.length := by omega
  rw [Array.extract_append, Array.toList_append, Nat.sub_eq_zero_of_le h, hbehind, hmissing]

namespace Listing

/-- **An item that is cut off goes on with the words that follow**, and no other item changes. -/
theorem item_lineAt_append (behind : Array Word) (h : address < memory.size)
    (h' : address < (memory ++ behind).size) :
    (lineAt (memory ++ behind) address h').item =
      (lineAt memory address h).item.extend behind.toList := by
  have hword : (memory ++ behind)[address] = memory[address] := Array.getElem_append_left h
  unfold lineAt
  rw [hword]
  cases ho : Opcode.ofWord? memory[address] with
  | none => rfl
  | some o =>
    simp only [toList_extract_append behind h]
    rfl

end Listing

/-- **What is decoded does not depend on words that follow**, unless it is cut off. -/
theorem Instruction.decode_append (behind : Array Word) (inside : address < memory.size)
    (complete : decode memory address ≠ .error .truncated) :
    decode (memory ++ behind) address = decode memory address := by
  have hword : (memory ++ behind)[address]? = memory[address]? := Array.getElem?_append_left inside
  have hthere : memory[address]? = some memory[address] := Array.getElem?_eq_getElem inside
  unfold decode
  rw [hword, hthere]
  cases ho : Opcode.ofWord? memory[address] with
  | none => simp only [ho]
  | some o =>
    have full : address + 1 + o.arity ≤ memory.size := by
      rw [← Opcode.ofWord?_eq_some_iff.1 ho] at hthere
      apply Nat.le_of_not_lt
      intro short
      exact complete (decode_eq_error_iff_refused.2 (.truncated hthere short))
    have hlacks : o.arity - (memory.extract (address + 1) (address + 1 + o.arity)).toList.length
        = 0 := by
      rw [Array.length_toList, Array.size_extract]
      omega
    simp only [ho, toList_extract_append behind inside, hlacks, List.take_zero, List.append_nil]

namespace Listing

/-! ### Lines of a longer memory -/

/-- Behind a line that is cut off there is no other line. -/
theorem eq_nil_of_truncated {above below : List Line} {l : Line}
    (h : lines memory start = above ++ l :: below) (truncated : l.item.Truncated) : below = [] := by
  obtain ⟨hlt, hline, hbelow⟩ := lines_eq_cons_iff.1 (lines_suffix h)
  rw [hline] at truncated
  have hend := end_of_truncated hlt truncated
  rw [← hline] at hend
  rw [hbelow, lines_of_le hend]

/-- Only the last line of a listing can be cut off. -/
theorem not_truncated_of_mem {above below : List Line} {l : Line}
    (h : lines memory start = above ++ l :: below) : ∀ l' ∈ above, ¬ l'.item.Truncated := by
  intro l' hl' truncated
  obtain ⟨above, between, rfl⟩ := List.append_of_mem hl'
  rw [List.append_assoc, List.cons_append] at h
  have hnil := eq_nil_of_truncated h truncated
  simp at hnil

/-- **Lines that are not cut off stay as they are** if words follow memory. -/
theorem lines_append (behind : Array Word) {above below : List Line}
    (h : lines memory start = above ++ below) (full : ∀ l ∈ above, ¬ l.item.Truncated) :
    lines (memory ++ behind) start =
      above ++ lines (memory ++ behind) (start + (above.flatMap (·.item.words)).length) := by
  induction above generalizing start with
  | nil => rfl
  | cons l above ih =>
    obtain ⟨hlt, hl, htail⟩ := lines_eq_cons_iff.1 h
    obtain ⟨hfull, hrest⟩ := List.forall_mem_cons.1 full
    have hlt' : start < (memory ++ behind).size := by
      rw [Array.size_append]
      omega
    have hitem : (lineAt (memory ++ behind) start hlt').item = l.item := by
      rw [item_lineAt_append behind hlt, ← hl, Item.extend_of_not_truncated hfull]
    have haddress : l.address = start := by rw [hl, address_lineAt]
    have hline : (⟨start, l.item⟩ : Line) = l := by rw [← haddress]
    rw [l.size_eq] at htail
    rw [lines_of_item hlt' hitem, ih htail.symm hrest, hline, List.flatMap_cons, List.length_append,
      Nat.add_assoc]
    rfl

/-! ### Zeros -/

/-- Lines that each halt, from an address to the end of memory. -/
def haltsFrom (address : Nat) : List Line :=
  (List.range' address (memorySize - address)).map fun a => ⟨a, .instruction .halt []⟩

/-- **Zeros are listed as halts.** -/
theorem lines_of_zeros (hsize : memory.size = memorySize)
    (zeros : ∀ i, start ≤ i → i < memorySize → memory[i]? = some 0) :
    lines memory start = haltsFrom start := by
  induction hn : memorySize - start generalizing start with
  | zero =>
    rw [lines_of_le (by omega), haltsFrom, hn]
    rfl
  | succ n ih =>
    have decoded : Instruction.decode memory start = .ok .halt := by
      apply Instruction.decode_of_getElem?
      intro k hk
      obtain rfl : k = 0 := Nat.lt_one_iff.1 hk
      exact zeros start (Nat.le_refl _) (by omega)
    have hrest : lines memory (start + 1) = haltsFrom (start + 1) := by
      refine ih ?_ (by omega)
      intro i hi
      exact zeros i (by omega)
    rw [lines_of_decode decoded]
    show _ :: lines memory (start + 1) = _
    rw [hrest, haltsFrom, haltsFrom, hn, show memorySize - (start + 1) = n by omega]
    rfl

end Listing

/-! ### Programs in memory -/

section Loaded

variable {policy : Policy} {program : Array Word}

/-- In memory a program is followed by zeros. -/
theorem Machine.toArray_memory_loaded (fits : program.size ≤ memorySize) :
    (loaded policy program).memory.toArray =
      program ++ Array.replicate (memorySize - program.size) 0 := by
  rw [← Array.toList_inj, Vector.toList_toArray, toList_memory_loaded fits, Array.toList_append,
    Array.toList_replicate]

variable {memory : Array Word}
  (hmemory : memory = program ++ Array.replicate (memorySize - program.size) 0)
include hmemory

/-- Behind the program all that is listed are halts. -/
theorem Listing.lines_behind (fits : program.size ≤ memorySize) {address : Nat}
    (h : program.size ≤ address) : lines memory address = haltsFrom address := by
  rw [hmemory]
  apply lines_of_zeros
  · rw [Array.size_append, Array.size_replicate]
    omega
  · intro i hi hlt
    rw [Array.getElem?_append_right (by omega), Array.getElem?_replicate, if_pos (by omega)]

/-- **A line stays as it is** unless the program ends inside it. -/
theorem Listing.getElem?_lines_of_program {k : Nat} {l : Line}
    (hl : (lines program 0)[k]? = some l)
    (complete : ¬ (k + 1 = (lines program 0).length ∧ l.item.Truncated)) :
    (lines memory 0)[k]? = some l := by
  obtain ⟨hk, hline⟩ := List.getElem?_eq_some_iff.1 hl
  have hsplit : lines program 0 =
      (lines program 0).take k ++ l :: (lines program 0).drop (k + 1) := by
    rw [← hline, ← List.drop_eq_getElem_cons hk, List.take_append_drop]
  have hlast : ¬ l.item.Truncated := by
    intro truncated
    have hend := List.drop_eq_nil_iff.1 (eq_nil_of_truncated hsplit truncated)
    exact complete ⟨Nat.le_antisymm hk hend, truncated⟩
  have full : ∀ l' ∈ (lines program 0).take k ++ [l], ¬ l'.item.Truncated :=
    List.forall_mem_append.2 ⟨not_truncated_of_mem hsplit, List.forall_mem_singleton.2 hlast⟩
  have hlength : ((lines program 0).take k).length = k := by
    rw [List.length_take]
    omega
  rw [List.append_cons] at hsplit
  rw [hmemory, lines_append _ hsplit full, List.append_assoc,
    List.getElem?_append_right (by omega), hlength, Nat.sub_self]
  rfl

/-- **If the program does not end inside a line**, its listing is followed by halts. -/
theorem Listing.lines_of_program (fits : program.size ≤ memorySize)
    (complete : ∀ l, (lines program 0).getLast? = some l → ¬ l.item.Truncated) :
    lines memory 0 = lines program 0 ++ haltsFrom program.size := by
  have full : ∀ l ∈ lines program 0, ¬ l.item.Truncated := by
    intro l hl truncated
    obtain ⟨above, below, hsplit⟩ := List.append_of_mem hl
    obtain rfl := eq_nil_of_truncated hsplit truncated
    refine complete l ?_ truncated
    rw [hsplit, List.getLast?_append]
    rfl
  have hlines := lines_append (Array.replicate (memorySize - program.size) 0)
    (List.append_nil (lines program 0)).symm full
  rw [← hmemory, words_lines, List.drop_zero, Array.length_toList, Nat.zero_add,
    lines_behind hmemory fits (Nat.le_refl _)] at hlines
  exact hlines

/-- **If the program ends inside a line**, zeros take the place of the operands that are missing, as
far as memory goes, and halts follow. -/
theorem Listing.lines_of_truncated_program (fits : program.size ≤ memorySize) {above : List Line}
    {a : Nat} {o : Opcode} {ws : List Word}
    (h : lines program 0 = above ++ [⟨a, .instruction o ws⟩]) :
    let zeros := List.replicate (min (o.arity - ws.length) (memorySize - program.size)) 0
    lines memory 0 = above ++ ⟨a, .instruction o (ws ++ zeros)⟩ ::
      haltsFrom (a + 1 + (ws ++ zeros).length) := by
  intro zeros
  have hlines := lines_append (Array.replicate (memorySize - program.size) 0) h
    (not_truncated_of_mem h)
  have haddress : a = 0 + _ := address_of_lines_eq h
  have hend : a + (1 + ws.length) = program.size := end_of_lines_eq h
  obtain ⟨hlt, hline, -⟩ := lines_eq_cons_iff.1 (lines_suffix h)
  have hlt' : a < memory.size := by
    rw [hmemory, Array.size_append]
    omega
  have hitem : (lineAt memory a hlt').item = .instruction o (ws ++ zeros) := by
    subst hmemory
    rw [item_lineAt_append _ hlt, ← hline, Array.toList_replicate]
    simp only [Item.extend, List.take_replicate]
    rfl
  have hlength : a + (Item.instruction o (ws ++ zeros)).words.length =
      a + 1 + (ws ++ zeros).length := by
    rw [Item.words, List.length_cons]
    omega
  have hbehind : program.size ≤ a + 1 + (ws ++ zeros).length := by
    rw [List.length_append]
    omega
  rw [← hmemory, ← haddress, lines_of_item hlt' hitem, hlength,
    lines_behind hmemory fits hbehind] at hlines
  exact hlines

end Loaded

/-- **A program in memory is decoded as it is**, unless it ends inside the instruction. -/
theorem Machine.decode_loaded_eq {policy : Policy} {program : Array Word} {pc : Word}
    (fits : program.size ≤ memorySize) (inside : pc.toNat < program.size)
    (complete : Instruction.decode program pc.toNat ≠ .error .truncated) :
    (loaded policy program).decode pc = Instruction.decode program pc.toNat := by
  rw [decode, toArray_memory_loaded fits]
  exact Instruction.decode_append _ inside complete

/-- **The listing of a program is the listing of memory just after loading it.** Every line of it is
at the same position and address in the listing of memory, except a last line that the end of the
program cuts off. If there is no such line, there follows a `halt` at each address from the end of
the program to the end of memory. If there is one, memory has the same opcode at its address, with
the same operands and then zeros up to the number of operands, as far as memory goes, and there
follows a `halt` at each address behind these. And at every address of the program, memory is decoded
as the program alone, unless that is cut off there. -/
theorem listing_of_loaded_memory {m m' : Machine} {program : Array Word}
    (loads : m.load program = .ok m') :
    let before := Listing.lines program 0
    let after := Listing.lines m'.memory.toArray 0
    (∀ k l, before[k]? = some l → ¬ (k + 1 = before.length ∧ l.item.Truncated) →
      after[k]? = some l) ∧
    ((∀ l, before.getLast? = some l → ¬ l.item.Truncated) →
      after = before ++ Listing.haltsFrom program.size) ∧
    (∀ above a o ws, before = above ++ [⟨a, .instruction o ws⟩] → ws.length < o.arity →
      let zeros := List.replicate (min (o.arity - ws.length) (memorySize - program.size)) 0
      after = above ++ ⟨a, .instruction o (ws ++ zeros)⟩ ::
        Listing.haltsFrom (a + 1 + (ws ++ zeros).length)) ∧
    ∀ pc : Word, pc.toNat < program.size →
      Instruction.decode program pc.toNat ≠ .error .truncated →
      m'.decode pc = Instruction.decode program pc.toNat := by
  obtain ⟨hvalid, rfl⟩ := Machine.load_eq_ok_iff.1 loads
  obtain ⟨fits, -⟩ := Image.validate_eq_ok_iff.1 hvalid
  have hmemory : (Machine.loaded m.policy program).memory.toArray = _ :=
    Machine.toArray_memory_loaded fits
  refine ⟨fun k l => Listing.getElem?_lines_of_program hmemory,
    Listing.lines_of_program hmemory fits, ?_, fun pc => Machine.decode_loaded_eq fits⟩
  intro above a o ws h _
  exact Listing.lines_of_truncated_program hmemory fits h

/-- A program that ends inside an addition. -/
theorem listing_of_loaded_memory_addition :
    let program : Array Word := #[21, 9, 32768]
    ∃ m', (Machine.blank .skip).load program = .ok m' ∧
      Listing.lines program 0 = [⟨0, .instruction .noop []⟩, ⟨1, .instruction .add [32768]⟩] ∧
      Listing.lines m'.memory.toArray 0 = ⟨0, .instruction .noop []⟩ ::
        ⟨1, .instruction .add [32768, 0, 0]⟩ :: Listing.haltsFrom 5 ∧
      m'.decode 0 = .ok .noop := by
  intro program
  have hvalid : Image.validate program = .ok () :=
    Image.validate_eq_ok_of_all (by decide) (by decide)
  have hloads : (Machine.blank .skip).load program = .ok (Machine.loaded .skip program) :=
    Machine.load_eq_ok_iff.2 ⟨hvalid, rfl⟩
  have hlines : Listing.lines program 0 =
      [⟨0, .instruction .noop []⟩] ++ [⟨1, .instruction .add [32768]⟩] := by
    rw [Listing.lines_of_lt (by decide), Listing.lines_of_lt (by decide),
      Listing.lines_of_le (by decide)]
    decide +kernel
  obtain ⟨-, -, htruncated, hdecode⟩ := listing_of_loaded_memory hloads
  refine ⟨_, hloads, hlines, ?_, ?_⟩
  · exact htruncated _ _ _ _ hlines (by decide)
  · exact hdecode 0 (by decide) nofun

end WordMachine
