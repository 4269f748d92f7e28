/-
This file proves how search paths that are set one after the other work together.
A semicolon puts two paths behind each other, and a path that refers to the previous one is the same
as one in which the previous one is written out.
-/

import Mathlib.Data.List.Basic
import RibStream.Proofs.SearchPath.Split

namespace RibStream.SearchPath

/-- A text in which the entries `&` of another one are written out. -/
def substitute (previous text : String) : String :=
  ";".intercalate ((split text).map fun entry => if entry = "&" then previous else entry)

/-- The directories that one entry stands for. -/
def entryDirectories (path : SearchPath) (entry : String) : List String :=
  if entry = "&" then path.directories else [entry]

theorem directories_expand (path : SearchPath) (text : String) :
    (path.expand text).directories = (split text).flatMap path.entryDirectories :=
  rfl

/-- The directories of the part in front of a semicolon come first. -/
theorem expand_append (path : SearchPath) (front back : String) :
    (path.expand (front ++ ";" ++ back)).directories =
      (path.expand front).directories ++ (path.expand back).directories := by
  rw [directories_expand, split_append, List.flatMap_append]
  rfl

/-- Two paths that are set one after the other are one path, in which the first is written out. -/
theorem expand_expand (path : SearchPath) (first second : String) :
    (path.expand first).expand second = path.expand (substitute first second) := by
  have entries : ∀ entry ∈ split second, (path.expand first).entryDirectories entry =
      (split (if entry = "&" then first else entry)).flatMap path.entryDirectories := by
    intro entry member
    by_cases previous : entry = "&"
    · rw [if_pos previous, entryDirectories, if_pos previous, directories_expand]
    · rw [if_neg previous, entryDirectories, if_neg previous, split_of_mem member,
        List.flatMap_singleton, entryDirectories, if_neg previous]
  apply congrArg SearchPath.mk
  show (split second).flatMap (path.expand first).entryDirectories =
    (split (substitute first second)).flatMap path.entryDirectories
  rw [substitute, split_intercalate, List.flatMap_assoc, List.flatMap_map]
  exact List.flatMap_congr entries

/-- Any number of paths that are set one after the other are one path. -/
theorem foldl_expand (path : SearchPath) (first : String) (others : List String) :
    (first :: others).foldl expand path = path.expand (others.foldl substitute first) := by
  induction others generalizing first with
  | nil => rfl
  | cons second others inductionHypothesis =>
      have rest := inductionHypothesis (substitute first second)
      rw [List.foldl_cons] at rest
      rw [List.foldl_cons, List.foldl_cons, expand_expand, rest, List.foldl_cons]

end RibStream.SearchPath
