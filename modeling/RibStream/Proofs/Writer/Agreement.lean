/-
This file proves that a request does the same in every encoding.
Two writers that agree outside of their streams answer a request alike and agree again after it.
-/

import RibStream.Proofs.Writer.Change
import RibStream.Proofs.Writer.Rejection

namespace RibStream

/-- The event is logged in every encoding. The options name the encoding, and where there are no
levels, no end can lack its beginning. -/
def Event.isCommon : Event → Bool
  | .created _ | .unmatchedEnd => false
  | _ => true

namespace Writer

/-- The writer without its stream and without the events that depend on the encoding. -/
def unstreamed (writer : Writer) : Writer :=
  { writer with
    stream := ⟨.startAscii, {}⟩
    trace.events := writer.trace.events.filter Event.isCommon }

/-- The writers differ in their streams at most, and both streams take every request. -/
structure Agree (left right : Writer) : Prop where
  unstreamed : left.unstreamed = right.unstreamed
  left : left.Ready
  right : right.Ready

theorem filter_events_append (events : Array Event) (more : List Event) :
    (events ++ more).filter Event.isCommon =
      (events.filter Event.isCommon ++ more).filter Event.isCommon := by
  apply Array.toList_inj.mp
  rw [Array.toList_filter, Array.toList_filter]
  simp

theorem unstreamed_log (event : Event) (writer : Writer) :
    (writer.log event).unstreamed = (writer.unstreamed.log event).unstreamed := by
  have events : (writer.trace.events.push event).filter Event.isCommon =
      ((writer.trace.events.filter Event.isCommon).push event).filter Event.isCommon :=
    filter_events_append writer.trace.events [event]
  rw [unstreamed, log, events]
  rfl

theorem unstreamed_idem (writer : Writer) : writer.unstreamed.unstreamed = writer.unstreamed := by
  simp [unstreamed]

theorem unstreamed_leave (writer : Writer) : writer.leave.unstreamed = writer.unstreamed := by
  rw [leave]
  split
  · show (writer.log .unmatchedEnd).unstreamed = writer.unstreamed
    rw [unstreamed, log, Array.filter_push, if_neg (by decide)]
    rfl
  · rfl

theorem unstreamed_change (change : Change) (writer : Writer) :
    (writer.change change).unstreamed = (writer.unstreamed.change change).unstreamed := by
  cases change with
  | report message => exact unstreamed_log _ writer
  | leave =>
      show writer.leave.unstreamed = writer.unstreamed.leave.unstreamed
      rw [unstreamed_leave, unstreamed_leave, unstreamed_idem]
  | _ => simp [Writer.change, unstreamed, release]

theorem unstreamed_send (piece : Piece) (writer : Writer) :
    (writer.send piece).2.unstreamed = writer.unstreamed := by
  rw [send_eq]
  rfl

theorem unstreamed_apply (effect : Effect) (writer : Writer) :
    (writer.apply effect).unstreamed = (writer.unstreamed.apply effect).unstreamed := by
  rw [apply_eq, apply_eq, unstreamed, filter_events_append]
  rfl

namespace Agree

variable {left right : Writer}

/-- A part outside of the stream and the events. -/
theorem part_eq {Value : Type} (agree : Agree left right) (part : Writer → Value)
    (outside : ∀ writer : Writer, part writer.unstreamed = part writer) : part left = part right := by
  rw [← outside left, agree.unstreamed, outside right]

theorem of_stream_eq (agree : Agree left right) {first second : Writer}
    (leftStream : first.stream = left.stream) (rightStream : second.stream = right.stream)
    (unstreamed : first.unstreamed = second.unstreamed) : Agree first second :=
  ⟨unstreamed, agree.left.of_stream_eq leftStream, agree.right.of_stream_eq rightStream⟩

theorem log (agree : Agree left right) (event : Event) :
    Agree (left.log event) (right.log event) := by
  refine agree.of_stream_eq rfl rfl ?_
  rw [unstreamed_log, agree.unstreamed, ← unstreamed_log]

end Agree

end Writer

/-- The outcomes have one result and leave writers that agree. -/
structure Outcome.Agree {Result : Type} (left right : Outcome Result) : Prop where
  result : left.1 = right.1
  writers : Writer.Agree left.2 right.2

namespace Writer

/-- What a request with small lengths does outside of the stream does not depend on the stream. -/
theorem Agree.perform {left right : Writer} (agree : Agree left right) {request : Request}
    (short : request.Short) :
    Outcome.Agree (left.perform request) (right.perform request) := by
  obtain ⟨change, checks⟩ := exists_checks request left
  have leftPlanned := checks.plan_eq
  have rightPlanned := checks right
    (agree.part_eq Writer.dictionary fun _ => rfl).symm
    (agree.part_eq Writer.lights fun _ => rfl).symm
    (agree.part_eq Writer.objects fun _ => rfl).symm
  have checked : (left.change change).unstreamed = (right.change change).unstreamed := by
    rw [unstreamed_change, agree.unstreamed, ← unstreamed_change]
  suffices alike : (left.perform request).1 = (right.perform request).1 ∧
      (left.perform request).2.unstreamed = (right.perform request).2.unstreamed from
    ⟨alike.1, alike.2, agree.left.perform request, agree.right.perform request⟩
  cases result : (left.plan request).1 with
  | error error =>
      rw [result] at leftPlanned rightPlanned
      rw [Writer.perform, Writer.perform, leftPlanned, rightPlanned]
      exact ⟨rfl, checked⟩
  | ok plan =>
      rw [result] at leftPlanned rightPlanned
      rw [agree.left.perform_eq_of_plan_ok short leftPlanned,
        agree.right.perform_eq_of_plan_ok short rightPlanned]
      refine ⟨rfl, ?_⟩
      show (apply _ plan.effect).unstreamed = (apply _ plan.effect).unstreamed
      rw [unstreamed_apply, unstreamed_send, checked, unstreamed_apply plan.effect (Prod.snd _),
        unstreamed_send]

end Writer

end RibStream
