/-
This file says that no request depends on what the writer has shown to its caller before.
-/

import RibStream.Proofs.Writer.Change

namespace RibStream

/-- The writer without its trace, as if it had not made its parser yet. -/
def Writer.untraced (writer : Writer) : Writer :=
  { writer with parserMade := false, trace := .empty }

/-- Two outcomes with one result, whose writers are the same apart from trace and parser. -/
def Outcome.Alike {Result : Type} (left right : Outcome Result) : Prop :=
  left.1 = right.1 ∧ left.2.untraced = right.2.untraced

namespace Outcome.Alike

variable {Result : Type} {left middle right : Outcome Result}

theorem refl (outcome : Outcome Result) : Outcome.Alike outcome outcome := ⟨rfl, rfl⟩

theorem symm (same : Outcome.Alike left right) : Outcome.Alike right left :=
  ⟨same.1.symm, same.2.symm⟩

theorem trans (first : Outcome.Alike left middle) (second : Outcome.Alike middle right) :
    Outcome.Alike left right :=
  ⟨first.1.trans second.1, first.2.trans second.2⟩

end Outcome.Alike

namespace Writer

/-- A part of the writer outside of the trace. -/
theorem eq_of_untraced_eq {Value : Type} (part : Writer → Value)
    (outside : ∀ writer : Writer, part writer.untraced = part writer) {left right : Writer}
    (same : left.untraced = right.untraced) : part left = part right := by
  rw [← outside left, same, outside right]

theorem untraced_leave (writer : Writer) :
    writer.leave.untraced = writer.untraced.leave.untraced := by
  rw [leave, leave]
  split <;> split <;> rfl

theorem change_untraced (change : Change) (writer : Writer) :
    (writer.untraced.change change).untraced = (writer.change change).untraced := by
  cases change with
  | leave => exact (untraced_leave writer).symm
  | _ => rfl

/-- The plan of a request does not depend on the trace. -/
theorem plan_alike (request : Request) (writer : Writer) :
    Outcome.Alike (writer.untraced.plan request) (writer.plan request) := by
  obtain ⟨change, checks⟩ := exists_checks request writer
  have planned : writer.untraced.plan request = _ := checks writer.untraced rfl rfl rfl
  rw [planned, checks.plan_eq]
  exact ⟨rfl, change_untraced change writer⟩

theorem send_alike (piece : Piece) (writer : Writer) :
    Outcome.Alike (writer.untraced.send piece) (writer.send piece) := by
  cases piece <;> exact .refl _

theorem apply_untraced (effect : Effect) (writer : Writer) :
    (writer.untraced.apply effect).untraced = (writer.apply effect).untraced := by
  rw [apply_eq, apply_eq]
  rfl

/-- What is planned alike is carried out alike. -/
theorem complete_alike {left right : Outcome Plan} (same : Outcome.Alike left right) :
    Outcome.Alike (complete left) (complete right) := by
  obtain ⟨leftPlan, leftWriter⟩ := left
  obtain ⟨rightPlan, rightWriter⟩ := right
  obtain ⟨plan, writer⟩ := same
  simp only at plan writer
  subst plan
  cases leftPlan with
  | error error => exact ⟨rfl, writer⟩
  | ok plan =>
      have sent : Outcome.Alike (leftWriter.send plan.piece) (rightWriter.send plan.piece) :=
        (writer ▸ (send_alike plan.piece leftWriter).symm).trans (send_alike plan.piece rightWriter)
      rw [complete, complete]
      generalize leftWriter.send plan.piece = leftOutcome at sent ⊢
      generalize rightWriter.send plan.piece = rightOutcome at sent ⊢
      obtain ⟨leftResult, leftSent⟩ := leftOutcome
      obtain ⟨rightResult, rightSent⟩ := rightOutcome
      obtain ⟨result, written⟩ := sent
      simp only at result written
      subst result
      cases leftResult with
      | error error => exact ⟨rfl, written⟩
      | ok success =>
          refine ⟨rfl, ?_⟩
          show (leftSent.apply plan.effect).untraced = (rightSent.apply plan.effect).untraced
          rw [← apply_untraced, written, apply_untraced]

theorem perform_alike (request : Request) {left right : Writer}
    (same : left.untraced = right.untraced) :
    Outcome.Alike (left.perform request) (right.perform request) := by
  apply complete_alike
  exact (same ▸ (plan_alike request left).symm).trans (plan_alike request right)

end Writer

end RibStream
