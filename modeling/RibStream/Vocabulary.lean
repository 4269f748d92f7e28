/-
This file gives numbers to the standard functions that requests can name.
-/

import RibStream.Error

namespace RibStream

/-- A list of names. The handle of a name is its position, counted from one. -/
structure Vocabulary where
  names : List String
deriving DecidableEq

namespace Vocabulary

def filters : Vocabulary :=
  ⟨["box", "gaussian", "triangle", "mitchell", "catmull-rom", "sinc", "bessel", "disk"]⟩

def errorHandlers : Vocabulary :=
  ⟨["ignore", "print", "abort"]⟩

def procedurals : Vocabulary :=
  ⟨["DelayedReadArchive", "RunProgram", "DynamicLoad"]⟩

/-- The last position of a name, counted from one. -/
def lastPosition? (name : String) : List String → Option Nat
  | [] => none
  | first :: rest =>
      match lastPosition? name rest with
      | some position => some (position + 1)
      | none => if first = name then some 1 else none

/-- A repeated name has the handle of its last occurrence. -/
def handle (vocabulary : Vocabulary) (name : String) : Except Error Nat :=
  match lastPosition? name vocabulary.names with
  | some position => .ok position
  | none => .error (.badToken name)

def name (vocabulary : Vocabulary) (handle : Nat) : Except Error String :=
  match handle with
  | 0 => .error (.badHandle 0)
  | index + 1 =>
      match vocabulary.names[index]? with
      | some name => .ok name
      | none => .error (.badHandle (index + 1))

theorem lastPosition?_eq_none_iff (name : String) (names : List String) :
    lastPosition? name names = none ↔ name ∉ names := by
  induction names with
  | nil => simp [lastPosition?]
  | cons first rest inductionHypothesis =>
      unfold lastPosition?
      cases later : lastPosition? name rest with
      | none =>
          have absent := inductionHypothesis.mp later
          by_cases same : first = name
          · simp [same]
          · simp [same, absent, Ne.symm same]
      | some position =>
          have present : name ∈ rest := by
            apply Decidable.byContradiction
            intro absent
            rw [inductionHypothesis.mpr absent] at later
            contradiction
          simp [present]

/-- A position is counted from one, and the name stands there. -/
theorem getElem?_of_lastPosition? (name : String) (names : List String) (position : Nat)
    (found : lastPosition? name names = some position) :
    0 < position ∧ names[position - 1]? = some name := by
  induction names generalizing position with
  | nil => contradiction
  | cons first rest inductionHypothesis =>
      unfold lastPosition? at found
      cases later : lastPosition? name rest with
      | some earlier =>
          simp only [later, Option.some.injEq] at found
          obtain ⟨positive, stands⟩ := inductionHypothesis earlier later
          subst found
          obtain ⟨index, rfl⟩ := Nat.exists_eq_succ_of_ne_zero (Nat.ne_of_gt positive)
          exact ⟨Nat.succ_pos _, by simpa using stands⟩
      | none =>
          simp only [later] at found
          split at found
          · rename_i same
            cases found
            exact ⟨Nat.one_pos, by simp [same]⟩
          · contradiction

end Vocabulary

/-- A function as a request gives it: by its name or by its handle. -/
inductive FunctionSource where
  | named (name : String)
  | handle (number : Nat)
deriving DecidableEq

/-- A name is replaced by its handle. A handle is not checked here. -/
def FunctionSource.resolve (vocabulary : Vocabulary) : FunctionSource → Except Error Nat
  | .named name => vocabulary.handle name
  | .handle number => .ok number

end RibStream
