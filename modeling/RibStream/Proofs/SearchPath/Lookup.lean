/-
This file proves what becomes of a look-up when the search path is expanded.
The parts of a path are searched in their order. An entry `&` keeps all directories of the previous
path, but it cannot keep the working directory, which is searched only as long as the path is empty.
-/

import RibStream.Proofs.SearchPath.Expand

namespace RibStream.SearchPath

variable {Content : Type}

theorem candidates_of_relative {path : SearchPath} {name : String}
    (relative : FileTree.isAbsolute name = false) (nonempty : path.directories ≠ []) :
    path.candidates name =
      if name = "" then [] else path.directories.map fun directory => join directory name := by
  have searched : path.directories.isEmpty = false := by simpa using nonempty
  rw [candidates, relative, searched]
  rfl

/-- A relative name is looked up in the part in front of a semicolon first. -/
theorem find?_expand_append (path : SearchPath) (front back : String) (files : Files Content)
    {name : String} (relative : FileTree.isAbsolute name = false)
    (frontNonempty : (path.expand front).directories ≠ [])
    (backNonempty : (path.expand back).directories ≠ []) :
    (path.expand (front ++ ";" ++ back)).find? files name =
      ((path.expand front).find? files name).or ((path.expand back).find? files name) := by
  have joined := expand_append path front back
  have nonempty : (path.expand (front ++ ";" ++ back)).directories ≠ [] := by
    rw [joined]
    exact List.append_ne_nil_of_left_ne_nil frontNonempty _
  have tried : (path.expand (front ++ ";" ++ back)).candidates name =
      (path.expand front).candidates name ++ (path.expand back).candidates name := by
    rw [candidates_of_relative relative nonempty, candidates_of_relative relative frontNonempty,
      candidates_of_relative relative backNonempty, joined]
    split
    · rfl
    · exact List.map_append
  rw [find?, find?, find?, locate?, locate?, locate?, tried, List.findSome?_append, Option.map_or]

/-- Search paths compose: a semicolon joins the directories of its two sides, a sequence of paths is
one path in which each refers to the previous one by writing it out, and a relative name is looked up
on the two sides of a semicolon in turn. -/
theorem expand_composes (path : SearchPath) (front back first : String) (others : List String)
    (files : Files Content) (name : String) :
    (path.expand (front ++ ";" ++ back)).directories =
        (path.expand front).directories ++ (path.expand back).directories ∧
      (∀ second, (path.expand first).expand second = path.expand (substitute first second)) ∧
      (first :: others).foldl expand path = path.expand (others.foldl substitute first) ∧
      (FileTree.isAbsolute name = false → (path.expand front).directories ≠ [] →
        (path.expand back).directories ≠ [] →
        (path.expand (front ++ ";" ++ back)).find? files name =
          ((path.expand front).find? files name).or ((path.expand back).find? files name)) :=
  ⟨expand_append path front back, expand_expand path first, foldl_expand path first others,
    find?_expand_append path front back files⟩

/-- An archive in the working directory, one below it and one in a directory of its own. -/
def shelves : Files Unit :=
  FileTree.files
    { workingDirectory := ["home"]
      directories := [["lib"]]
      links := []
      entries := [(["home", "scene.rib"], ()), (["home", "old", "leaf.rib"], ()),
        (["ribs", "tree.rib"], ())] }

/-- Three texts that name directories, among them one with a drive letter. -/
theorem expand_composes_drive :
    (FileTree.isAbsolute "tree.rib" = false ∧
      ((parse "/ribs").expand "/lib").directories ≠ [] ∧
      ((parse "/ribs").expand "C:/ribs:&").directories ≠ []) ∧
    ((parse "/ribs").expand ("/lib" ++ ";" ++ "C:/ribs:&")).directories =
      ["/lib", "C:/ribs", "/ribs"] ∧
    (["lib:&", "&;D:\\ribs", "x:&"].foldl expand (parse "/ribs")).directories =
      ["x", "lib", "/ribs", "D:\\ribs"] ∧
    ((parse "/ribs").expand ("/lib" ++ ";" ++ "C:/ribs:&")).find? shelves "tree.rib" =
      some "/ribs/tree.rib" := by
  have hypotheses : FileTree.isAbsolute "tree.rib" = false ∧
      ((parse "/ribs").expand "/lib").directories ≠ [] ∧
      ((parse "/ribs").expand "C:/ribs:&").directories ≠ [] := by decide
  obtain ⟨joined, -, sequence, found⟩ := expand_composes (parse "/ribs") "/lib" "C:/ribs:&" "lib:&"
    ["&;D:\\ribs", "x:&"] shelves "tree.rib"
  refine ⟨hypotheses, ?_, ?_, ?_⟩
  · rw [joined]
    decide
  · rw [sequence]
    decide +kernel
  · rw [found hypotheses.1 hypotheses.2.1 hypotheses.2.2]
    decide +kernel

theorem isSome_find?_iff (path : SearchPath) (files : Files Content) (name : String) :
    (path.find? files name).isSome = true ↔
      ∃ candidate ∈ path.candidates name, (files.find? candidate).isSome = true := by
  rw [find?, locate?, Option.isSome_map, List.isSome_findSome?, List.any_eq_true]
  simp only [Option.isSome_map]

/-- The previous path is expanded in place, so none of its directories is lost. -/
theorem directories_subset_expand (path : SearchPath) {text : String} (previous : "&" ∈ split text) :
    path.directories ⊆ (path.expand text).directories := by
  intro directory member
  rw [directories_expand]
  refine List.mem_flatMap.mpr ⟨"&", previous, ?_⟩
  rwa [entryDirectories, if_pos rfl]

/-- If the previous path is empty, only the other entries name directories. -/
theorem directories_expand_of_empty {path : SearchPath} (empty : path.directories = [])
    (text : String) : (path.expand text).directories = (split text).filter (· ≠ "&") := by
  rw [directories_expand]
  induction split text with
  | nil => rfl
  | cons entry entries inductionHypothesis =>
      rw [List.flatMap_cons, inductionHypothesis, entryDirectories, empty]
      by_cases previous : entry = "&" <;> simp [previous]

/-- Everything that was tried before is tried again, unless the name was looked up in the working
directory and another entry takes its place. -/
theorem candidates_subset_expand {path : SearchPath} {text name : String}
    (previous : "&" ∈ split text)
    (kept : path.directories ≠ [] ∨ FileTree.isAbsolute name = true ∨
      ∀ entry ∈ split text, entry = "&") :
    path.candidates name ⊆ (path.expand text).candidates name := by
  cases absolute : FileTree.isAbsolute name with
  | true =>
      rw [candidates, candidates, absolute]
      exact List.Subset.refl _
  | false =>
      have subset := directories_subset_expand path previous
      by_cases empty : path.directories = []
      · have only : ∀ entry ∈ split text, entry = "&" := by
          simpa [empty, absolute] using kept
        have same : (path.expand text).directories = path.directories := by
          rw [directories_expand_of_empty empty, empty, List.filter_eq_nil_iff]
          intro entry member
          simp [only entry member]
        rw [candidates, candidates, same]
        exact List.Subset.refl _
      · have nonempty : (path.expand text).directories ≠ [] :=
          fun none => empty (List.subset_nil.mp (none ▸ subset))
        rw [candidates_of_relative absolute empty, candidates_of_relative absolute nonempty]
        split
        · exact List.Subset.refl _
        · exact List.map_subset _ subset

/-- A path that refers to the previous one finds every archive that the previous one finds, if that one
has directories, if the name is absolute, or if nothing else is named. In the remaining case the
working directory has to make way for the other entries, and only they are searched. -/
theorem find?_expand_previous (path : SearchPath) (files : Files Content) {text name : String}
    (previous : "&" ∈ split text) (found : (path.find? files name).isSome = true) :
    (path.directories ≠ [] ∨ FileTree.isAbsolute name = true ∨ (∀ entry ∈ split text, entry = "&") →
        ((path.expand text).find? files name).isSome = true) ∧
      (path.directories = [] → FileTree.isAbsolute name = false →
        (∃ entry ∈ split text, entry ≠ "&") →
        (((path.expand text).find? files name).isSome = true ↔
          ∃ entry ∈ split text, entry ≠ "&" ∧ (files.find? (join entry name)).isSome = true)) := by
  obtain ⟨candidate, tried, stands⟩ := (isSome_find?_iff path files name).mp found
  constructor
  · intro kept
    exact (isSome_find?_iff _ files name).mpr
      ⟨candidate, candidates_subset_expand previous kept tried, stands⟩
  · rintro empty relative ⟨other, member, different⟩
    have named : name ≠ "" := by
      rintro rfl
      cases tried
    have directories := directories_expand_of_empty empty text
    have nonempty : (path.expand text).directories ≠ [] := by
      rw [directories]
      exact List.ne_nil_of_mem (List.mem_filter.mpr ⟨member, by simpa using different⟩)
    rw [isSome_find?_iff, candidates_of_relative relative nonempty, if_neg named, directories]
    simp [and_assoc]

/-- A second directory does not take away the first, an empty path that stays empty loses nothing, and
otherwise the archive has to be in the new directory. -/
theorem find?_expand_previous_shelves :
    ("&" ∈ split "/old1:/old2:&" ∧
      ((parse "/ribs").find? shelves "tree.rib").isSome = true) ∧
    (((parse "/ribs").expand "/old1:/old2:&").find? shelves "tree.rib").isSome = true ∧
    ((empty.expand "&;&").find? shelves "scene.rib").isSome = true ∧
    ((empty.expand "../home:&").find? shelves "scene.rib").isSome = true := by
  have hypotheses : "&" ∈ split "/old1:/old2:&" ∧
      ((parse "/ribs").find? shelves "tree.rib").isSome = true := by decide +kernel
  refine ⟨hypotheses, ?_, ?_, ?_⟩
  · exact (find?_expand_previous (parse "/ribs") shelves hypotheses.1 hypotheses.2).1
      (.inl (by decide))
  · exact (find?_expand_previous empty shelves (by decide) (by decide +kernel)).1
      (.inr (.inr (by decide)))
  · refine ((find?_expand_previous empty shelves (by decide) (by decide +kernel)).2 rfl (by decide)
      ⟨"../home", by decide, by decide⟩).mpr ⟨"../home", by decide, by decide, ?_⟩
    decide +kernel

/-- The archive in the working directory is found until a path is set, and then no longer, although
the path refers to the previous one. -/
theorem not_find?_expand_workingDirectory :
    "&" ∈ split "lib:&" ∧ (empty.find? shelves "scene.rib").isSome = true ∧
      ((empty.expand "lib:&").find? shelves "scene.rib").isSome = false := by
  decide +kernel

end RibStream.SearchPath
