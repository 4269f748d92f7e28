/-
This file says what the table of request codes does with a name.
A name is known, or it is new and there is room for it, or the table is full. The codes in the table
and the number of the next one stay in step: both are determined by the names so far.
-/

import Mathlib.Data.List.Induction
import RibStream.Encoding.Binary

namespace RibStream.Binary

namespace CodeTable

/-- The names that have a code. -/
def names (table : CodeTable) : List String :=
  table.codes.map Prod.fst

/-- The table after names have been given codes one after the other. -/
def ofNames (names : List String) : CodeTable :=
  names.foldl give empty

theorem ofNames_concat (names : List String) (name : String) :
    ofNames (names ++ [name]) = (ofNames names).give name := by
  rw [ofNames, List.foldl_append]
  rfl

/-- The next code is the number of names. -/
@[simp]
theorem next_ofNames (names : List String) : (ofNames names).next = names.length := by
  induction names using List.reverseRecOn with
  | nil => rfl
  | append_singleton names name inductionHypothesis =>
      rw [ofNames_concat, give, inductionHypothesis, List.length_append, List.length_singleton]

@[simp]
theorem names_ofNames (names : List String) : (ofNames names).names = names := by
  induction names using List.reverseRecOn with
  | nil => rfl
  | append_singleton front name inductionHypothesis =>
      rw [ofNames_concat, CodeTable.names, give, List.map_append]
      exact congrArg (· ++ [name]) inductionHypothesis

theorem code?_give (table : CodeTable) (name other : String) :
    (table.give name).code? other =
      (table.code? other).or (if other = name then some (UInt8.ofNat table.next) else none) := by
  rw [code?, give, List.lookup_append, code?]
  congr 1
  by_cases same : other = name
  · rw [if_pos same, same, List.lookup_cons, beq_self_eq_true]
  · rw [if_neg same, List.lookup_cons, beq_eq_false_iff_ne.mpr same]
    rfl

theorem code?_eq_none_iff (names : List String) (name : String) :
    (ofNames names).code? name = none ↔ name ∉ names := by
  induction names using List.reverseRecOn with
  | nil => simp [ofNames, empty, code?]
  | append_singleton names last inductionHypothesis =>
      rw [ofNames_concat, code?_give, Option.or_eq_none_iff, inductionHypothesis, List.mem_append,
        List.mem_singleton, not_or]
      simp

/-- A code is the place of its name. -/
theorem getElem?_of_code? {names : List String} {name : String} {code : UInt8}
    (known : (ofNames names).code? name = some code) :
    ∃ index, names[index]? = some name ∧ code = UInt8.ofNat index := by
  induction names using List.reverseRecOn with
  | nil => cases known
  | append_singleton names last inductionHypothesis =>
      rw [ofNames_concat, code?_give, Option.or_eq_some_iff] at known
      rcases known with earlier | ⟨-, given⟩
      · obtain ⟨index, found, place⟩ := inductionHypothesis earlier
        obtain ⟨inside, -⟩ := List.getElem?_eq_some_iff.mp found
        exact ⟨index, by rw [List.getElem?_append_left inside, found], place⟩
      · split at given
        · rename_i same
          refine ⟨names.length, ?_, ?_⟩
          · rw [List.getElem?_concat_length, same]
          · rw [← Option.some.inj given, next_ofNames]
        · cases given

theorem code?_of_mem {names : List String} {name : String} (member : name ∈ names) :
    ∃ code, (ofNames names).code? name = some code := by
  cases known : (ofNames names).code? name with
  | some code => exact ⟨code, rfl⟩
  | none => exact absurd member ((code?_eq_none_iff names name).mp known)

theorem mem_of_code? {names : List String} {name : String} {code : UInt8}
    (known : (ofNames names).code? name = some code) : name ∈ names := by
  apply Decidable.byContradiction
  intro absent
  rw [(code?_eq_none_iff names name).mpr absent] at known
  cases known

/-- A new name leaves the codes of all others as they are. -/
theorem code?_concat {names : List String} {name : String} (absent : name ∉ names)
    (other : String) :
    (ofNames (names ++ [name])).code? other =
      if other = name then some (UInt8.ofNat names.length) else (ofNames names).code? other := by
  rw [ofNames_concat, code?_give, next_ofNames]
  by_cases same : other = name
  · rw [if_pos same, if_pos same, same, (code?_eq_none_iff names name).mpr absent, Option.none_or]
  · rw [if_neg same, if_neg same, Option.or_none]

/-- As long as a code fits one byte, no two names share one. -/
theorem eq_of_code?_eq {names : List String} (bounded : names.length ≤ capacity)
    {first second : String} {code : UInt8} (firstKnown : (ofNames names).code? first = some code)
    (secondKnown : (ofNames names).code? second = some code) : first = second := by
  obtain ⟨index, found, rfl⟩ := getElem?_of_code? firstKnown
  obtain ⟨other, otherFound, same⟩ := getElem?_of_code? secondKnown
  have inside := (List.getElem?_eq_some_iff.mp found).1
  have otherInside := (List.getElem?_eq_some_iff.mp otherFound).1
  have values := congrArg UInt8.toNat same
  rw [UInt8.toNat_ofNat', UInt8.toNat_ofNat'] at values
  have limit : capacity = 256 := rfl
  have equal : index = other := by omega
  rw [equal, otherFound] at found
  exact (Option.some.inj found).symm

end CodeTable

/-- What gives the next code after `names` to a name and uses it. -/
def introduce (names : List String) (name : String) : Encoded :=
  defineRequest (UInt8.ofNat names.length) name ++ .whole (useRequest (UInt8.ofNat names.length))

theorem beginRequest_known {table : CodeTable} {name : String} {code : UInt8}
    (known : table.code? name = some code) :
    beginRequest table name = (.whole (useRequest code), table) := by
  rw [beginRequest, known]

theorem beginRequest_new {names : List String} {name : String} (absent : name ∉ names)
    (room : names.length < CodeTable.capacity) :
    beginRequest (.ofNames names) name = (introduce names name, .ofNames (names ++ [name])) := by
  rw [beginRequest, (CodeTable.code?_eq_none_iff names name).mpr absent, CodeTable.next_ofNames,
    CodeTable.ofNames_concat]
  exact if_pos room

theorem beginRequest_full {names : List String} {name : String} (absent : name ∉ names)
    (full : ¬ names.length < CodeTable.capacity) :
    beginRequest (.ofNames names) name = (.fail (.requestCodeOverflow name), .ofNames names) := by
  rw [beginRequest, (CodeTable.code?_eq_none_iff names name).mpr absent, CodeTable.next_ofNames]
  exact if_neg full

/-- The names once `name` is among them. -/
def withName (names : List String) (name : String) : List String :=
  if name ∈ names then names else names ++ [name]

theorem mem_withName {names : List String} {name other : String} :
    other ∈ withName names name ↔ other ∈ names ∨ other = name := by
  rw [withName]
  split
  · rename_i member
    exact ⟨.inl, fun either => either.elim id fun same => same ▸ member⟩
  · simp

/-- A request begins by a known code, introduces a new one, or finds none left. -/
theorem beginRequest_cases (names : List String) (name : String) :
    (∃ code, (CodeTable.ofNames names).code? name = some code ∧
        beginRequest (.ofNames names) name = (.whole (useRequest code), .ofNames names)) ∨
      (name ∉ names ∧ names.length < CodeTable.capacity ∧
        beginRequest (.ofNames names) name =
          (introduce names name, .ofNames (names ++ [name]))) ∨
      (name ∉ names ∧ ¬ names.length < CodeTable.capacity ∧
        beginRequest (.ofNames names) name =
          (.fail (.requestCodeOverflow name), .ofNames names)) := by
  by_cases member : name ∈ names
  · obtain ⟨code, known⟩ := CodeTable.code?_of_mem member
    exact .inl ⟨code, known, beginRequest_known known⟩
  · by_cases room : names.length < CodeTable.capacity
    · exact .inr (.inl ⟨member, room, beginRequest_new member room⟩)
    · exact .inr (.inr ⟨member, room, beginRequest_full member room⟩)

end RibStream.Binary
