/-
This file proves what the two tables of a registry say about the list that filled them.
A name that occurs again keeps all of its handles, but it is looked up as the last one.
-/

import RibStream.Registry
import Mathlib.Data.List.Nodup

namespace RibStream

/-- The name stands at the position, counted from one, and nowhere after it. -/
structure Vocabulary.StandsLast (names : List String) (name : String) (position : Nat) : Prop where
  positive : 0 < position
  stands : names[position - 1]? = some name
  last : ∀ later, position ≤ later → names[later]? ≠ some name

namespace Vocabulary.StandsLast

variable {names : List String} {name : String} {position : Nat}

/-- A name has one last position. -/
theorem unique {other : Nat} (left : StandsLast names name position)
    (right : StandsLast names name other) : position = other := by
  have notBefore : ¬position < other := fun before =>
    left.last (other - 1) (Nat.le_sub_one_of_lt before) right.stands
  have notAfter : ¬other < position := fun after =>
    right.last (position - 1) (Nat.le_sub_one_of_lt after) left.stands
  omega

theorem mem (standsLast : StandsLast names name position) : name ∈ names :=
  List.mem_of_getElem? standsLast.stands

/-- A name that is added stands last at the end. -/
theorem added (names : List String) (name : String) :
    StandsLast (names ++ [name]) name (names.length + 1) where
  positive := Nat.succ_pos _
  stands := by rw [Nat.add_sub_cancel, List.getElem?_concat_length]
  last := by
    intro later after
    rw [List.getElem?_eq_none (by rw [List.length_append]; exact after)]
    exact nofun

/-- A name that is added moves no other one. -/
theorem append_iff {added : String} (different : name ≠ added) :
    StandsLast (names ++ [added]) name position ↔ StandsLast names name position := by
  have same (index : Nat) : (names ++ [added])[index]? = some name ↔ names[index]? = some name := by
    rcases Nat.lt_trichotomy index names.length with inside | atEnd | outside
    · rw [List.getElem?_append_left inside]
    · rw [atEnd, List.getElem?_concat_length, List.getElem?_eq_none (Nat.le_refl _)]
      simp [different.symm]
    · rw [List.getElem?_eq_none (by rw [List.length_append]; exact outside),
        List.getElem?_eq_none (Nat.le_of_lt outside)]
  constructor
  · rintro ⟨positive, stands, last⟩
    refine ⟨positive, (same _).mp stands, ?_⟩
    intro later after found
    exact last later after ((same later).mpr found)
  · rintro ⟨positive, stands, last⟩
    refine ⟨positive, (same _).mpr stands, ?_⟩
    intro later after found
    exact last later after ((same later).mp found)

/-- In a list without repetitions every position is the last one of its name. -/
theorem of_nodup (distinct : names.Nodup) (positive : 0 < position)
    (stands : names[position - 1]? = some name) : StandsLast names name position where
  positive := positive
  stands := stands
  last := by
    intro later after found
    obtain ⟨inside, first⟩ := List.getElem?_eq_some_iff.mp stands
    obtain ⟨laterInside, second⟩ := List.getElem?_eq_some_iff.mp found
    have equal := (List.Nodup.getElem_inj_iff distinct).mp (first.trans second.symm)
    omega

end Vocabulary.StandsLast

namespace Vocabulary

/-- A name does not stand after its last position. -/
theorem not_after_lastPosition? {name : String} {names : List String} {position : Nat}
    (found : lastPosition? name names = some position) (later : Nat) (after : position ≤ later) :
    names[later]? ≠ some name := by
  induction names generalizing position later with
  | nil => cases found
  | cons first rest inductionHypothesis =>
      unfold lastPosition? at found
      cases inRest : lastPosition? name rest with
      | some earlier =>
          simp only [inRest, Option.some.injEq] at found
          obtain ⟨index, rfl⟩ := Nat.exists_eq_succ_of_ne_zero (by omega : later ≠ 0)
          exact inductionHypothesis inRest index (by omega)
      | none =>
          have absent := (lastPosition?_eq_none_iff name rest).mp inRest
          simp only [inRest] at found
          split at found
          · cases found
            obtain ⟨index, rfl⟩ := Nat.exists_eq_succ_of_ne_zero (by omega : later ≠ 0)
            intro stands
            exact absent (List.mem_of_getElem? stands)
          · contradiction

theorem lastPosition?_eq_some_iff {name : String} {names : List String} {position : Nat} :
    lastPosition? name names = some position ↔ StandsLast names name position := by
  have isLast {found : Nat} (search : lastPosition? name names = some found) :
      StandsLast names name found := by
    obtain ⟨positive, stands⟩ := getElem?_of_lastPosition? name names found search
    exact ⟨positive, stands, not_after_lastPosition? search⟩
  constructor
  · exact isLast
  · intro standsLast
    cases search : lastPosition? name names with
    | none => exact absurd standsLast.mem ((lastPosition?_eq_none_iff name names).mp search)
    | some found => rw [(isLast search).unique standsLast]

theorem exists_standsLast_iff {name : String} {names : List String} :
    (∃ position, StandsLast names name position) ↔ name ∈ names := by
  simp only [← lastPosition?_eq_some_iff, ← Option.isSome_iff_exists, Option.isSome_iff_ne_none,
    ne_eq, lastPosition?_eq_none_iff, Classical.not_not]

end Vocabulary

namespace Registry

variable {registry : Registry} {names : List String}

/-- The tables hold the names of the list at their positions, counted from one. -/
structure Numbers (registry : Registry) (names : List String) : Prop where
  zero : registry.names.find? 0 = none
  name_eq : ∀ index, registry.names.find? (index + 1) = names[index]?
  handle_iff : ∀ name handle,
    registry.handles.find? name = some handle ↔ Vocabulary.StandsLast names name handle
  size_eq : registry.size = names.length

theorem numbers_empty : Numbers .empty [] where
  zero := rfl
  name_eq := fun _ => rfl
  handle_iff := fun _ _ => ⟨nofun, fun standsLast => nomatch standsLast.mem⟩
  size_eq := rfl

/-- The next name goes into both tables. -/
theorem Numbers.register (numbers : Numbers registry names) (added : String) :
    Numbers (registry.register added (names.length + 1)) (names ++ [added]) where
  zero := by
    rw [Registry.register, Table.find?_insert, if_neg (Nat.succ_ne_zero _).symm]
    exact numbers.zero
  name_eq := by
    intro index
    rw [Registry.register, Table.find?_insert, numbers.name_eq]
    by_cases same : index = names.length
    · rw [if_pos (by rw [same]), same, List.getElem?_concat_length]
    · rw [if_neg (fun equal => same (Nat.succ.inj equal)), List.getElem?_append]
      split
      · rfl
      · rw [List.getElem?_eq_none (by omega), List.getElem?_eq_none (by simp; omega)]
  handle_iff := by
    intro name handle
    rw [Registry.register, Table.find?_insert]
    by_cases same : name = added
    · have standsLast := Vocabulary.StandsLast.added names added
      rw [if_pos same, same, Option.some.injEq]
      exact ⟨fun equal => equal ▸ standsLast, standsLast.unique⟩
    · rw [if_neg same, numbers.handle_iff, Vocabulary.StandsLast.append_iff same]
  size_eq := by
    have fresh : registry.names.find? (names.length + 1) = none := by
      rw [numbers.name_eq, List.getElem?_eq_none (Nat.le_refl _)]
    rw [Registry.register, Registry.size, Table.size_insert fresh, List.length_append]
    exact congrArg (· + 1) numbers.size_eq

/-- The loop keeps the tables in step with the names that it has passed. -/
theorem Numbers.foldl (rest : List String) (numbers : Numbers registry names) :
    Numbers ((rest.zipIdx (names.length + 1)).foldl
      (fun registry entry => registry.register entry.1 entry.2) registry) (names ++ rest) := by
  induction rest generalizing registry names with
  | nil =>
      rw [List.append_nil]
      exact numbers
  | cons name rest inductionHypothesis =>
      have next := inductionHypothesis (numbers.register name)
      rwa [List.length_append, List.append_assoc] at next

theorem numbers_ofNames (names : List String) : Numbers (ofNames names) names :=
  numbers_empty.foldl names

/-- What can be looked up in a registry over a list of names. -/
structure Laws (registry : Registry) (names : List String) : Prop where
  name_iff : ∀ handle name,
    registry.name handle = .ok name ↔ 1 ≤ handle ∧ names[handle - 1]? = some name
  named_iff : ∀ handle,
    (∃ name, registry.name handle = .ok name) ↔ 1 ≤ handle ∧ handle ≤ names.length
  name_error : ∀ handle, ¬(1 ≤ handle ∧ handle ≤ names.length) →
    registry.name handle = .error (.badHandle handle)
  handle_iff : ∀ name handle,
    registry.handle name = .ok handle ↔ Vocabulary.StandsLast names name handle
  numbered_iff : ∀ name, (∃ handle, registry.handle name = .ok handle) ↔ name ∈ names
  handle_error : ∀ name, name ∉ names → registry.handle name = .error (.badToken name)
  name_of_handle : ∀ name handle,
    registry.handle name = .ok handle → registry.name handle = .ok name
  handle_of_name : names.Nodup → ∀ handle name,
    registry.name handle = .ok name → registry.handle name = .ok handle
  size_eq : registry.size = names.length
  isEmpty_eq : registry.isEmpty = names.isEmpty

namespace Numbers

variable {handle : Nat} {name : String}

theorem find?_eq_some_iff (numbers : Numbers registry names) :
    registry.names.find? handle = some name ↔ 1 ≤ handle ∧ names[handle - 1]? = some name := by
  cases handle with
  | zero => simp [numbers.zero]
  | succ index => simp [numbers.name_eq]

theorem name_eq_ok_iff (numbers : Numbers registry names) :
    registry.name handle = .ok name ↔ 1 ≤ handle ∧ names[handle - 1]? = some name := by
  rw [← numbers.find?_eq_some_iff, Registry.name]
  cases registry.names.find? handle <;> simp

theorem handle_eq_ok_iff (numbers : Numbers registry names) :
    registry.handle name = .ok handle ↔ Vocabulary.StandsLast names name handle := by
  rw [← numbers.handle_iff, Registry.handle]
  cases registry.handles.find? name <;> simp

theorem exists_name_iff (numbers : Numbers registry names) :
    (∃ name, registry.name handle = .ok name) ↔ 1 ≤ handle ∧ handle ≤ names.length := by
  constructor
  · rintro ⟨name, named⟩
    obtain ⟨positive, stands⟩ := numbers.name_eq_ok_iff.mp named
    have inside := (List.getElem?_eq_some_iff.mp stands).1
    omega
  · rintro ⟨positive, bounded⟩
    have inside : handle - 1 < names.length := by omega
    exact ⟨names[handle - 1], numbers.name_eq_ok_iff.mpr
      ⟨positive, List.getElem?_eq_getElem inside⟩⟩

theorem exists_handle_iff (numbers : Numbers registry names) :
    (∃ handle, registry.handle name = .ok handle) ↔ name ∈ names := by
  simp only [numbers.handle_eq_ok_iff, Vocabulary.exists_standsLast_iff]

theorem laws (numbers : Numbers registry names) : Laws registry names where
  name_iff := fun _ _ => numbers.name_eq_ok_iff
  named_iff := fun _ => numbers.exists_name_iff
  name_error := by
    intro handle unknown
    unfold Registry.name
    cases found : registry.names.find? handle with
    | none => rfl
    | some name =>
        have named : registry.name handle = .ok name := by rw [Registry.name, found]
        exact absurd (numbers.exists_name_iff.mp ⟨name, named⟩) unknown
  handle_iff := fun _ _ => numbers.handle_eq_ok_iff
  numbered_iff := fun _ => numbers.exists_handle_iff
  handle_error := by
    intro name unknown
    unfold Registry.handle
    cases found : registry.handles.find? name with
    | none => rfl
    | some handle =>
        have numbered : registry.handle name = .ok handle := by rw [Registry.handle, found]
        exact absurd (numbers.exists_handle_iff.mp ⟨handle, numbered⟩) unknown
  name_of_handle := by
    intro name handle numbered
    have standsLast := numbers.handle_eq_ok_iff.mp numbered
    exact numbers.name_eq_ok_iff.mpr ⟨standsLast.positive, standsLast.stands⟩
  handle_of_name := by
    intro distinct handle name named
    obtain ⟨positive, stands⟩ := numbers.name_eq_ok_iff.mp named
    exact numbers.handle_eq_ok_iff.mpr (.of_nodup distinct positive stands)
  size_eq := numbers.size_eq
  isEmpty_eq := by
    have sizes : registry.names.entries.length = names.length := numbers.size_eq
    rw [Bool.eq_iff_iff, Registry.isEmpty, List.isEmpty_iff_length_eq_zero, sizes,
      List.isEmpty_iff_length_eq_zero]

end Numbers

/-- A handle is not zero, and it is a number of 32 bits if there are fewer than 2^32 names. -/
theorem handle_toUInt32 {names : List String} (few : names.length < UInt32.size) {name : String}
    {handle : Nat} (numbered : (ofNames names).handle name = .ok handle) :
    handle ≠ 0 ∧ handle.toUInt32.toNat = handle := by
  have laws := (numbers_ofNames names).laws
  have named := laws.name_of_handle name handle numbered
  obtain ⟨positive, bounded⟩ := (laws.named_iff handle).mp ⟨name, named⟩
  exact ⟨Nat.ne_zero_of_lt positive, Nat.mod_eq_of_lt (Nat.lt_of_le_of_lt bounded few)⟩

/-- A registry over any list of names, repeated or not, obeys the laws. The handles stand for numbers of
32 bits as long as there are fewer than 2^32 names. -/
theorem laws_ofNames (names : List String) : Laws (ofNames names) names :=
  (numbers_ofNames names).laws

/-- A repeated name has two handles, and it is looked up as the second one. -/
example : ((ofNames ["disk", "box", "disk"]).handle "disk").toOption = some 3 ∧
    ((ofNames ["disk", "box", "disk"]).name 1).toOption = some "disk" := by
  decide

end Registry

namespace Vocabulary

/-- Requests find their handles as in the tables of a registry. -/
theorem handle_eq_registry (vocabulary : Vocabulary) (name : String) :
    vocabulary.handle name = (Registry.ofNames vocabulary.names).handle name := by
  have numbers := Registry.numbers_ofNames vocabulary.names
  have same : (Registry.ofNames vocabulary.names).handles.find? name =
      lastPosition? name vocabulary.names := by
    apply Option.ext
    intro position
    exact (numbers.handle_iff name position).trans lastPosition?_eq_some_iff.symm
  cases found : lastPosition? name vocabulary.names with
  | none => rw [Vocabulary.handle, Registry.handle, same, found]
  | some position => rw [Vocabulary.handle, Registry.handle, same, found]

theorem name_eq_registry (vocabulary : Vocabulary) (handle : Nat) :
    vocabulary.name handle = (Registry.ofNames vocabulary.names).name handle := by
  have numbers := Registry.numbers_ofNames vocabulary.names
  cases handle with
  | zero => rw [Vocabulary.name, Registry.name, numbers.zero]
  | succ index =>
      have same := numbers.name_eq index
      cases found : vocabulary.names[index]? with
      | none => rw [Vocabulary.name, Registry.name, same, found]
      | some name => rw [Vocabulary.name, Registry.name, same, found]

end Vocabulary

end RibStream
