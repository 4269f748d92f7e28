/-
This file says where the tokens of a request come from when its resolution succeeds.
-/

import Mathlib.Data.List.Forall2
import RibStream.Request

namespace RibStream

theorem exists_of_map_eq_ok {Failure Value Result : Type} {change : Value → Result}
    {outcome : Except Failure Value} {result : Result}
    (success : outcome.map change = .ok result) :
    ∃ value, outcome = .ok value ∧ change value = result := by
  cases outcome with
  | error failure => cases success
  | ok value => exact ⟨value, rfl, Except.ok.inj success⟩

/-- A successful run of steps has one result for each value. -/
theorem forall₂_of_mapM {Failure Value Result : Type} {step : Value → Except Failure Result}
    {values : List Value} {results : List Result} (success : values.mapM step = .ok results) :
    List.Forall₂ (fun value result => step value = .ok result) values results := by
  induction values generalizing results with
  | nil =>
      cases success
      exact .nil
  | cons first values inductionHypothesis =>
      rw [List.mapM_cons] at success
      cases stepped : step first with
      | error failure => simp [stepped, bind, Except.bind] at success
      | ok head =>
          cases rest : values.mapM step with
          | error failure => simp [stepped, rest, bind, Except.bind] at success
          | ok tail =>
              simp only [stepped, rest, bind, Except.bind, pure, Except.pure,
                Except.ok.injEq] at success
              subst success
              exact .cons stepped (inductionHypothesis rest)

/-- Everything in the result comes from a successful step. -/
theorem exists_of_mem_mapM {Failure Value Result : Type} {step : Value → Except Failure Result}
    {values : List Value} {results : List Result} (success : values.mapM step = .ok results)
    {result : Result} (member : result ∈ results) :
    ∃ value ∈ values, step value = .ok result := by
  have pairs := forall₂_of_mapM success
  clear success
  induction pairs with
  | nil => cases member
  | cons stepped rest inductionHypothesis =>
      rcases List.mem_cons.mp member with rfl | inTail
      · exact ⟨_, List.mem_cons_self, stepped⟩
      · obtain ⟨value, inside, source⟩ := inductionHypothesis inTail
        exact ⟨value, List.mem_cons_of_mem _ inside, source⟩

theorem mapM_eq_some_of_forall₂ {Value Result : Type} {look : Value → Option Result}
    {values : List Value} {results : List Result}
    (pairs : List.Forall₂ (fun value result => look value = some result) values results) :
    values.mapM look = some results := by
  induction pairs with
  | nil => rfl
  | cons found rest inductionHypothesis =>
      rw [List.mapM_cons, found, inductionHypothesis]
      rfl

/-- A procedural that is written has a known handle and all of its strings. -/
theorem proceduralLine_ok {strings : List String} {bound : Bound} {handle : Nat} {line : RequestLine}
    (success : proceduralLine strings bound handle = .ok line) :
    ∃ name, Vocabulary.procedurals.name handle = .ok name ∧
      proceduralArity name ≤ strings.length ∧
      line = ⟨"Procedural", [.string name, .strings (strings.take (proceduralArity name)),
        .bound bound]⟩ := by
  rw [proceduralLine] at success
  cases named : Vocabulary.procedurals.name handle with
  | error cause => simp [named, bind, Except.bind] at success
  | ok name =>
      simp only [named, bind, Except.bind] at success
      split at success
      · cases success
      · rename_i enough
        cases success
        exact ⟨name, rfl, Nat.le_of_not_lt enough, rfl⟩

end RibStream
