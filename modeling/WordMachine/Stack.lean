import WordMachine.Error

/-!
# The stack

Words are pushed and popped at one end, the top, and there is always room for another. A stack is
read as the list of its words from bottom to top (`toList`); the lemmas say what each operation does
to that list.
-/

namespace WordMachine

/-- A stack of words. -/
structure Stack where
  /-- The words, from bottom to top. -/
  items : Array Word
  deriving DecidableEq, Repr, Inhabited

namespace Stack

/-- The stack without words. -/
def empty : Stack := ⟨#[]⟩

/-- The words of a stack, from bottom to top. -/
def toList (s : Stack) : List Word := s.items.toList

/-- How many words a stack has. -/
def depth (s : Stack) : Nat := s.items.size

/-- Whether a stack has no words. -/
def isEmpty (s : Stack) : Bool := s.items.isEmpty

/-- Puts a word on top. -/
def push (s : Stack) (w : Word) : Stack := ⟨s.items.push w⟩

/-- The word on top. -/
def top? (s : Stack) : Option Word := s.items.back?

/-- Takes the top away, if there is one. -/
def drop (s : Stack) : Stack := ⟨s.items.pop⟩

/-- Takes the top away and answers it. -/
def pop (s : Stack) : Except Error (Word × Stack) :=
  match s.top? with
  | some w => .ok (w, s.drop)
  | none => .error .stackUnderflow

/-! ### Stacks as lists -/

@[ext] theorem ext {s t : Stack} (h : s.toList = t.toList) : s = t := by
  cases s
  cases t
  simpa [toList] using h

@[simp] theorem length_toList (s : Stack) : s.toList.length = s.depth := by
  simp [toList, depth]

@[simp] theorem toList_push (s : Stack) (w : Word) : (s.push w).toList = s.toList ++ [w] := by
  simp [toList, push]

theorem depth_push (s : Stack) (w : Word) : (s.push w).depth = s.depth + 1 :=
  Array.size_push w

@[simp] theorem top?_eq (s : Stack) : s.top? = s.toList.getLast? := by
  simp [top?, toList]

theorem top?_eq_none_iff {s : Stack} : s.top? = none ↔ s.depth = 0 := by
  rw [top?_eq, List.getLast?_eq_none_iff, ← List.length_eq_zero_iff, length_toList]

@[simp] theorem toList_drop (s : Stack) : s.drop.toList = s.toList.dropLast := by
  simp [toList, drop]

/-- What was pushed last is on top. -/
theorem top?_push (s : Stack) (w : Word) : (s.push w).top? = some w := by
  simp

/-- Taking the top away undoes a push. -/
theorem drop_push (s : Stack) (w : Word) : (s.push w).drop = s := by
  ext1
  simp

/-- What was pushed last is popped first. -/
theorem pop_push (s : Stack) (w : Word) : (s.push w).pop = .ok (w, s) := by
  simp only [pop, top?_push, drop_push]

end Stack

end WordMachine
