/-
This file proves that the entries on both sides of a semicolon do not depend on each other, and that
an entry is not split again.
-/

import RibStream.Proofs.SearchPath.Entry

namespace RibStream.SearchPath

theorem split_eq_iff {text : String} {entries : List String} :
    split text = entries ↔ Divided (entries.map String.toList) text.toList := by
  rw [← entriesFrom_eq_iff, split_eq]
  constructor
  · rintro rfl
    simp
  · intro found
    simp [found]

theorem divided_split (text : String) : Divided ((split text).map String.toList) text.toList :=
  split_eq_iff.mp rfl

theorem Divided.isEntry {entries : List (List Char)} {text entry : List Char}
    (divided : Divided entries text) (member : entry ∈ entries) : IsEntry entry := by
  induction divided with
  | nil => cases member
  | separator _ _ _ inductionHypothesis => exact inductionHypothesis member
  | entry isEntry _ _ inductionHypothesis =>
      rcases List.mem_cons.mp member with rfl | later
      · exact isEntry
      · exact inductionHypothesis later

theorem isEntry_of_mem {entry text : String} (member : entry ∈ split text) :
    IsEntry entry.toList :=
  (divided_split text).isEntry (List.mem_map_of_mem member)

/-- The entries are the texts that are not split. -/
theorem split_eq_singleton_iff (entry : String) : split entry = [entry] ↔ IsEntry entry.toList := by
  constructor
  · intro whole
    exact isEntry_of_mem (whole ▸ List.mem_singleton_self entry)
  · intro isEntry
    rw [split_eq_iff, ← List.append_nil entry.toList]
    exact .entry isEntry nofun .nil

instance (entry : String) : Decidable (IsEntry entry.toList) :=
  decidable_of_iff _ (split_eq_singleton_iff entry)

/-- An entry is not split again. -/
theorem split_of_mem {entry text : String} (member : entry ∈ split text) : split entry = [entry] :=
  (split_eq_singleton_iff entry).mpr (isEntry_of_mem member)

/-- A semicolon does not change what separates before it. -/
theorem Ends.append_semicolon {entry text : List Char} (ends : Ends entry text) (back : List Char) :
    Ends entry (text ++ ';' :: back) := by
  intro next rest same
  cases text with
  | nil => exact .inl (List.cons.inj same).1.symm
  | cons first text =>
      obtain ⟨rfl, rfl⟩ := List.cons.inj same
      refine (ends first text rfl).imp_right fun ⟨colon, noDrive⟩ => ⟨colon, fun drive => ?_⟩
      apply noDrive
      apply drive.of_append
      intro next rest start
      rw [← (List.cons.inj start).1]
      rfl

theorem Divided.append {entries others : List (List Char)} {front back : List Char}
    (divided : Divided entries front) (other : Divided others back) :
    Divided (entries ++ others) (front ++ ';' :: back) := by
  induction divided with
  | nil => exact .separator ';' rfl other
  | separator character separates _ inductionHypothesis =>
      exact .separator character separates inductionHypothesis
  | entry isEntry ends _ inductionHypothesis =>
      rw [List.append_assoc, List.cons_append]
      exact .entry isEntry (ends.append_semicolon back) inductionHypothesis

/-- A semicolon ends an entry whatever stands before it, and what follows is split on its own. -/
theorem split_append (front back : String) :
    split (front ++ ";" ++ back) = split front ++ split back := by
  have separated : (front ++ ";" ++ back).toList = front.toList ++ ';' :: back.toList := by simp
  rw [split_eq_iff, separated, List.map_append]
  exact (divided_split front).append (divided_split back)

theorem split_empty : split "" = [] := by decide

theorem split_intercalate (texts : List String) :
    split (";".intercalate texts) = texts.flatMap split := by
  induction texts with
  | nil => exact split_empty
  | cons text texts inductionHypothesis =>
      cases texts with
      | nil => simp
      | cons next texts =>
          rw [String.intercalate_cons_cons, split_append, inductionHypothesis]
          rfl

end RibStream.SearchPath
