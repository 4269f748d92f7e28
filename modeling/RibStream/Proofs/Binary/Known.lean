/-
This file ties the codes that a writer has given to the codes that a reader knows.
-/

import Mathlib.Data.Finset.Card
import Mathlib.Data.Finset.Dedup
import RibStream.Proofs.Binary.CodeTable
import RibStream.Proofs.Binary.Reading

namespace RibStream.Binary

/-- The reader has seen a definition of the code of every name. -/
structure Known (names : List String) (codes : List (UInt8 × String)) : Prop where
  distinct : names.Nodup
  bounded : names.length ≤ CodeTable.capacity
  defined : ∀ index name, names[index]? = some name →
    codes.lookup (UInt8.ofNat index) = some name

theorem Known.empty : Known [] [] :=
  ⟨List.nodup_nil, Nat.zero_le _, fun _ _ absent => absurd absent (by simp)⟩

/-- The next code is different from all codes in use, because it is at most 255. -/
theorem Known.introduce {names : List String} {codes : List (UInt8 × String)} {name : String}
    (known : Known names codes) (absent : name ∉ names) (room : names.length < CodeTable.capacity) :
    Known (names ++ [name]) ((UInt8.ofNat names.length, name) :: codes) where
  distinct := List.concat_eq_append ▸ List.Nodup.concat absent known.distinct
  bounded := by
    rw [List.length_append, List.length_singleton]
    exact room
  defined index other found := by
    rcases Nat.lt_trichotomy index names.length with earlier | rfl | later
    · have before : names[index]? = some other := by
        rwa [List.getElem?_append_left earlier] at found
      have capacity : CodeTable.capacity = 256 := rfl
      have different : UInt8.ofNat index ≠ UInt8.ofNat names.length := by
        intro same
        have values := congrArg UInt8.toNat same
        rw [UInt8.toNat_ofNat', UInt8.toNat_ofNat'] at values
        omega
      rw [List.lookup_cons, beq_eq_false_iff_ne.mpr different]
      exact known.defined index other before
    · rw [List.getElem?_concat_length, Option.some.injEq] at found
      rw [List.lookup_cons, beq_self_eq_true, found]
    · have outside : (names ++ [name]).length ≤ index := by
        rw [List.length_append, List.length_singleton]
        exact later
      rw [List.getElem?_eq_none outside] at found
      cases found

theorem codes_ofNames (names : List String) :
    (CodeTable.ofNames names).codes = names.mapIdx fun index name => (name, UInt8.ofNat index) := by
  induction names using List.reverseRecOn with
  | nil => rfl
  | append_singleton names name inductionHypothesis =>
      rw [CodeTable.ofNames_concat, CodeTable.give, CodeTable.next_ofNames, inductionHypothesis,
        List.mapIdx_concat]

/-- A reader can know the codes of a table from the table itself. -/
theorem known_ofNames {names : List String} (distinct : names.Nodup)
    (bounded : names.length ≤ CodeTable.capacity) :
    Known names ((CodeTable.ofNames names).codes.map Prod.swap) := by
  induction names using List.reverseRecOn with
  | nil => exact .empty
  | append_singleton names last inductionHypothesis =>
      rw [List.length_append, List.length_singleton] at bounded
      have earlier := inductionHypothesis (List.Nodup.of_append_left distinct) (by omega)
      refine ⟨distinct, ?_, fun index name found => ?_⟩
      · rwa [List.length_append, List.length_singleton]
      rw [CodeTable.ofNames_concat, CodeTable.give, CodeTable.next_ofNames, List.map_append,
        List.lookup_append]
      rcases Nat.lt_trichotomy index names.length with before | rfl | after
      · rw [List.getElem?_append_left before] at found
        rw [earlier.defined index name found, Option.some_or]
      · rw [List.getElem?_concat_length, Option.some.injEq] at found
        have unused : ((CodeTable.ofNames names).codes.map Prod.swap).lookup
            (UInt8.ofNat names.length) = none := by
          rw [List.lookup_eq_none_iff, codes_ofNames]
          intro pair member
          obtain ⟨entry, inside, rfl⟩ := List.mem_map.mp member
          obtain ⟨place, small, rfl⟩ := List.mem_mapIdx.mp inside
          have capacity : CodeTable.capacity = 256 := rfl
          simp only [Prod.fst_swap, bne_iff_ne]
          intro same
          have values := congrArg UInt8.toNat same
          rw [UInt8.toNat_ofNat', UInt8.toNat_ofNat'] at values
          omega
        rw [unused, found]
        simp
      · have outside : (names ++ [last]).length ≤ index := by
          rw [List.length_append, List.length_singleton]
          exact after
        rw [List.getElem?_eq_none outside] at found
        cases found

/-- The beginning of a request for which there is a code makes the reader begin the same request. -/
theorem steps_beginRequest {names : List String} {name : String} (reading : Reading)
    (known : Known names reading.codes) (outside : reading.array = none) (fits : TextFits name)
    (room : name ∈ names ∨ names.length < CodeTable.capacity) :
    ∃ lexemes codes,
      beginRequest (.ofNames names) name =
        (.whole (lexemes.flatMap Lexeme.bytes), .ofNames (withName names name)) ∧
      (∀ lexeme ∈ lexemes, lexeme.Fits) ∧ Known (withName names name) codes ∧
      reading.steps lexemes = some ⟨codes, reading.requests, some ⟨name, []⟩, none⟩ := by
  obtain ⟨previous, complete, current, array⟩ := reading
  simp only at outside known
  subst outside
  by_cases member : name ∈ names
  · obtain ⟨code, coded⟩ := CodeTable.code?_of_mem member
    obtain ⟨index, found, rfl⟩ := CodeTable.getElem?_of_code? coded
    rw [withName, if_pos member, beginRequest_known coded]
    refine ⟨[.useRequest (UInt8.ofNat index)], previous, ?_, ?_, known, ?_⟩
    · rw [List.flatMap_singleton]
      rfl
    · intro lexeme single
      rw [List.mem_singleton.mp single]
      trivial
    · rw [Reading.steps_cons]
      simp only [Reading.step, known.defined index name found]
      rfl
  · have free := room.resolve_left member
    have lexemesFit : ∀ lexeme ∈ [Lexeme.defineRequest (UInt8.ofNat names.length) name,
        .useRequest (UInt8.ofNat names.length)], lexeme.Fits := by
      intro lexeme either
      rcases List.mem_cons.mp either with rfl | second
      · exact fits
      · rw [List.mem_singleton.mp second]
        trivial
    rw [withName, if_neg member, beginRequest_new member free]
    refine ⟨_, (UInt8.ofNat names.length, name) :: previous, ?_, lexemesFit,
      known.introduce member free, ?_⟩
    · rw [← Lexeme.concat_encoded lexemesFit, introduce, List.map_cons, List.map_singleton,
        Encoded.concat_cons, Encoded.concat_cons, Encoded.concat_nil, Encoded.append_whole_nil]
      rfl
    · rw [Reading.steps_cons]
      simp only [Reading.step, Option.bind_some]
      rw [Reading.steps_cons]
      simp only [Reading.step, List.lookup_cons, beq_self_eq_true]
      rfl

/-- A name has a code or there is room for one more, as long as all names together fit the table. -/
theorem room_of_few {names : List String} {codes : List (UInt8 × String)} {name : String}
    {later : List String} (known : Known names codes)
    (few : (names ++ name :: later).toFinset.card ≤ CodeTable.capacity) :
    (name ∈ names ∨ names.length < CodeTable.capacity) ∧
      (withName names name ++ later).toFinset.card ≤ CodeTable.capacity := by
  constructor
  · by_cases member : name ∈ names
    · exact .inl member
    · right
      have distinct : (names ++ [name]).Nodup :=
        List.concat_eq_append ▸ List.Nodup.concat member known.distinct
      have counted : (names ++ [name]).length ≤ CodeTable.capacity := by
        rw [← List.toFinset_card_of_nodup distinct]
        refine le_trans (Finset.card_le_card ?_) few
        intro other
        simp only [List.mem_toFinset, List.mem_append, List.mem_cons, List.not_mem_nil, or_false]
        tauto
      rwa [List.length_append, List.length_singleton] at counted
  · refine le_trans (Finset.card_le_card ?_) few
    intro other
    simp only [List.mem_toFinset, List.mem_append, List.mem_cons, mem_withName]
    tauto

end RibStream.Binary
