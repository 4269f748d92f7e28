/-
This file proves that entries joined by semicolons are split where they were joined.
A search path can therefore be written down as one text that is parsed to the same path.
-/

import RibStream.Proofs.SearchPath.Expand

namespace RibStream.SearchPath

/-- A division leaves out nothing but separators. -/
theorem Divided.gaps {entries : List (List Char)} {text : List Char}
    (divided : Divided entries text) :
    ∃ front gaps, gaps.length = entries.length ∧
      (∀ gap ∈ front :: gaps, ∀ character ∈ gap, isSeparator character = true) ∧
      text = front ++ (List.zipWith (· ++ ·) entries gaps).flatten := by
  induction divided with
  | nil => exact ⟨[], [], rfl, by simp, rfl⟩
  | separator character separates _ inductionHypothesis =>
      obtain ⟨front, gaps, count, separators, rfl⟩ := inductionHypothesis
      refine ⟨character :: front, gaps, count, ?_, rfl⟩
      rw [List.forall_mem_cons] at separators ⊢
      exact ⟨List.forall_mem_cons.mpr ⟨separates, separators.1⟩, separators.2⟩
  | @entry entry entries text _ _ _ inductionHypothesis =>
      obtain ⟨front, gaps, count, separators, rfl⟩ := inductionHypothesis
      refine ⟨[], front :: gaps, by simp [count], ?_, by simp⟩
      exact List.forall_mem_cons.mpr ⟨by simp, separators⟩

/-- Splitting leaves out nothing but separators. -/
theorem split_gaps (text : String) :
    ∃ (front : String) (gaps : List String), gaps.length = (split text).length ∧
      (∀ gap ∈ front :: gaps, ∀ character ∈ gap.toList, isSeparator character = true) ∧
      text = front ++ String.join (List.zipWith (· ++ ·) (split text) gaps) := by
  obtain ⟨front, gaps, count, separators, same⟩ := (divided_split text).gaps
  rw [List.length_map] at count
  refine ⟨String.ofList front, gaps.map String.ofList, by rwa [List.length_map], ?_, ?_⟩
  · intro gap member
    rw [← List.map_cons] at member
    obtain ⟨characters, inGaps, rfl⟩ := List.mem_map.mp member
    rw [String.toList_ofList]
    exact separators characters inGaps
  · apply String.toList_inj.mp
    rw [same, String.toList_append, String.toList_ofList, String.toList_join, List.flatMap_def,
      List.map_zipWith, List.zipWith_map_left, List.zipWith_map_right]
    simp

/-- Entries that are joined by semicolons are split where they were joined. -/
theorem split_join {entries : List String} (areEntries : ∀ entry ∈ entries, IsEntry entry.toList) :
    split (";".intercalate entries) = entries := by
  have whole : ∀ entry ∈ entries, split entry = [entry] := by
    intro entry member
    exact (split_eq_singleton_iff entry).mpr (areEntries entry member)
  rw [split_intercalate, List.flatMap_congr whole, List.flatMap_singleton']

/-- A path that has been set by texts, one after the other. -/
inductive Reachable : SearchPath → Prop where
  | parse (text : String) : Reachable (parse text)
  | expand {path : SearchPath} (text : String) (reachable : Reachable path) :
      Reachable (path.expand text)

/-- Every directory is an entry that stands for itself. -/
def Plain (path : SearchPath) : Prop :=
  ∀ directory ∈ path.directories, IsEntry directory.toList ∧ directory ≠ "&"

theorem plain_empty : empty.Plain := nofun

/-- The entry `&` is replaced by the directories that are there already. -/
theorem Plain.expand {path : SearchPath} (plain : path.Plain) (text : String) :
    (path.expand text).Plain := by
  intro directory member
  rw [directories_expand] at member
  obtain ⟨entry, inText, inEntry⟩ := List.mem_flatMap.mp member
  rw [entryDirectories] at inEntry
  split at inEntry
  · exact plain directory inEntry
  · rename_i ordinary
    rw [List.mem_singleton.mp inEntry]
    exact ⟨isEntry_of_mem inText, ordinary⟩

theorem Reachable.plain {path : SearchPath} (reachable : Reachable path) : path.Plain := by
  induction reachable with
  | parse text => exact plain_empty.expand text
  | expand text _ inductionHypothesis => exact inductionHypothesis.expand text

/-- Directories that stand for themselves are parsed to the path that they come from. -/
theorem Plain.parse_join {path : SearchPath} (plain : path.Plain) :
    parse (";".intercalate path.directories) = path := by
  have ordinary : ∀ directory ∈ path.directories, empty.entryDirectories directory = [directory] := by
    intro directory member
    exact if_neg (plain directory member).2
  apply congrArg SearchPath.mk
  change (split (";".intercalate path.directories)).flatMap empty.entryDirectories = _
  rw [split_join fun directory member => (plain directory member).1, List.flatMap_congr ordinary,
    List.flatMap_singleton']

/-- Splitting brings a text into a normal form: entries that make up the text together with the
separators around them. There is only one such division, the entries can be any, and a path that has
been set is the one that its own directories stand for. -/
theorem split_normalForm (text : String) :
    (∀ entry ∈ split text, IsEntry entry.toList) ∧
      (∃ (front : String) (gaps : List String), gaps.length = (split text).length ∧
        (∀ gap ∈ front :: gaps, ∀ character ∈ gap.toList, isSeparator character = true) ∧
        text = front ++ String.join (List.zipWith (· ++ ·) (split text) gaps)) ∧
      (∀ entries, split text = entries ↔ Divided (entries.map String.toList) text.toList) ∧
      (∀ entries : List String, (∀ entry ∈ entries, IsEntry entry.toList) →
        split (";".intercalate entries) = entries) ∧
      split (";".intercalate (split text)) = split text ∧
      ∀ path, Reachable path → parse (";".intercalate path.directories) = path := by
  have areEntries : ∀ entry ∈ split text, IsEntry entry.toList := fun _ => isEntry_of_mem
  refine ⟨areEntries, split_gaps text, fun _ => split_eq_iff, fun _ => split_join,
    split_join areEntries, ?_⟩
  intro path reachable
  exact reachable.plain.parse_join

/-- Entries with a drive letter and of one letter, and a path that refers to the previous one twice. -/
theorem split_normalForm_drives :
    ((∀ entry ∈ ["C:/ribs", "D:\\", "x", "é"], IsEntry entry.toList) ∧
      Reachable ((parse ":C:/ribs").expand "x:y;&:&")) ∧
    (∀ entry ∈ split "::C:/ribs:D:\\;x:;é:/", IsEntry entry.toList) ∧
    split (";".intercalate ["C:/ribs", "D:\\", "x", "é"]) = ["C:/ribs", "D:\\", "x", "é"] ∧
    parse (";".intercalate ["x", "y", "C:/ribs", "C:/ribs"]) =
      (parse ":C:/ribs").expand "x:y;&:&" := by
  have hypotheses : (∀ entry ∈ ["C:/ribs", "D:\\", "x", "é"], IsEntry entry.toList) ∧
      Reachable ((parse ":C:/ribs").expand "x:y;&:&") :=
    ⟨by decide, .expand _ (.parse _)⟩
  have directories : ((parse ":C:/ribs").expand "x:y;&:&").directories =
      ["x", "y", "C:/ribs", "C:/ribs"] := by decide
  obtain ⟨members, -, -, joined, -, parsed⟩ := split_normalForm "::C:/ribs:D:\\;x:;é:/"
  refine ⟨hypotheses, members, joined _ hypotheses.1, ?_⟩
  rw [← directories]
  exact parsed _ hypotheses.2

/-- A colon after a letter belongs to the entry only if a slash follows, and only at the beginning. -/
example : split "::C:/ribs:D:\\;x:;é:/;ab:/c" =
    ["C:/ribs", "D:\\", "x", "é", "/", "ab", "/c"] := by
  decide

end RibStream.SearchPath
