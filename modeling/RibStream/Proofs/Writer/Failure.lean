/-
This file lists the errors with which a request can fail.
A lack of request codes is not among them, however long a writer runs and wherever the sink fails.
-/

import RibStream.Proofs.Archive.Failure
import RibStream.Proofs.Archive.Inlining
import RibStream.Proofs.Writer.Rejection

namespace RibStream

/-- No code was left for a name. -/
def Error.IsOverflow : Error → Prop
  | .requestCodeOverflow _ => True
  | _ => False

theorem Error.IsRejection.not_isOverflow {error : Error} (rejection : error.IsRejection) :
    ¬ error.IsOverflow := by
  cases error <;> simp_all [IsRejection, IsOverflow]

theorem Error.IsAside.not_isOverflow {error : Error} (aside : error.IsAside) :
    ¬ error.IsOverflow := by
  cases aside with
  | question failed => exact (Service.isRejection_of_answer failed).not_isOverflow
  | nesting => exact id

namespace Writer

/-- A check fails because the request is wrong in itself or because there are no handles left. -/
theorem plan_error_cases {request : Request} {writer : Writer} {error : Error}
    (failed : (writer.plan request).1 = .error error) :
    error.IsRejection ∨ error = .handlesExhausted := by
  have refuses := refuses_of_plan failed
  generalize (writer.plan request).2 = left at refuses
  cases refuses with
  | plain failed => exact .inl (Layout.isRejection_of_resolve failed)
  | declare failed => exact .inl (Dictionary.isRejection_of_declare failed)
  | option failed | lightSource failed | areaLightSource failed | readArchive failed =>
      exact .inl (ParamSource.isRejection_of_resolveAll failed)
  | noLight | noAreaLight | noObject => exact .inr rfl
  | function failed => exact .inl (FunctionSource.isRejection_of_resolve failed)
  | @procedural strings bound refine release handle _ resolved failed =>
      exact .inl (proceduralLine_error failed release).1

/-- What has been checked fails on a full sink or at a length, since its name has a code or is given
one. -/
theorem send_error {writer : Writer} (named : writer.CodesNamed) {request : Request} {piece : Piece}
    (sends : Sends request piece) {error : Error} (failed : (writer.send piece).1 = .error error) :
    error = .sinkFull ∨ ∃ count, error = .lengthExceeded count := by
  cases sends with
  | nothing => cases failed
  | record same => exact .inl (Stream.write_error failed)
  | @line line known finite short =>
      have put : (writer.send (.line line)).1 = ({ writer.stream with
            encoding := (writer.stream.encoding.request line.name line.tokens).2 }.put
          (writer.stream.encoding.request line.name line.tokens).1).1 :=
        congrArg Prod.fst (Stream.request_eq_put writer.stream line.name line.tokens)
      rw [put] at failed
      exact (Stream.put_error failed).imp_right
        ((Encoding.request_named named known line.tokens).2.1 error)

/-- The errors of a request: it is wrong in itself, there is no handle left, the sink is full, or a
length does not fit. -/
theorem perform_error_cases {request : Request} {writer : Writer} (named : writer.CodesNamed)
    {error : Error} (failed : (writer.perform request).1 = .error error) :
    error.IsRejection ∨ error = .handlesExhausted ∨ error = .sinkFull ∨
      ∃ count, error = .lengthExceeded count := by
  have checkedNamed := named.plan request
  have sends (plan : Plan) := @plan_sends request writer plan
  have refused := @plan_error_cases request writer
  rw [perform] at failed
  generalize writer.plan request = outcome at failed checkedNamed sends refused
  obtain ⟨result, checked⟩ := outcome
  cases result with
  | error cause =>
      cases failed
      exact (refused rfl).imp_right .inl
  | ok plan =>
      rw [complete] at failed
      have unsent := @send_error checked checkedNamed request plan.piece (sends plan rfl)
      generalize checked.send plan.piece = outcome at failed unsent
      obtain ⟨result, after⟩ := outcome
      cases result with
      | error cause =>
          cases failed
          exact .inr (.inr (unsent rfl))
      | ok success => cases failed

theorem perform_not_isOverflow {request : Request} {writer : Writer} (named : writer.CodesNamed)
    {error : Error} (failed : (writer.perform request).1 = .error error) : ¬ error.IsOverflow := by
  rcases perform_error_cases named failed with rejection | rfl | rfl | ⟨count, rfl⟩
  · exact rejection.not_isOverflow
  · exact id
  · exact id
  · exact id

/-- In a session that starts with a new writer nothing fails for want of a request code, neither a
request, be it issued by an archive, nor a statement, unless a parser makes such a failure up. At every
moment the codes belong to different names of requests, and the next code is their number, so it fits a
byte. The sink can fail anywhere and have room again. -/
theorem not_isOverflow_session (archives : Archives) {start : Writer} (made : Made start)
    (statements : List Statement) :
    (archives.Each (Script.FailsAs (¬ ·.IsOverflow)) →
      (∀ statement ∈ statements, statement.FailsAs (¬ ·.IsOverflow)) →
      ∀ exchange ∈ start.exchanges archives statements, ∀ error, exchange.result = .error error →
        ¬ error.IsOverflow) ∧
    (∀ issue ∈ start.issues archives statements, ∀ error, issue.outcome.1 = .error error →
      ¬ error.IsOverflow) ∧
    ∀ writer, writer = start.session archives statements ∨
        (∃ issue ∈ start.issues archives statements,
          writer = issue.writer ∨ writer = issue.outcome.2) →
      ∀ codes, writer.stream.encoding = .binary codes →
        codes.names.Nodup ∧ codes.names ⊆ Request.names ∧ codes.next = codes.names.length ∧
          codes.next < Binary.CodeTable.capacity := by
  have path := path_of_session archives statements start
  have issued {issue : Issue} (member : issue ∈ start.issues archives statements) :
      issue.writer.CodesNamed := by
    obtain ⟨front, back, split⟩ := List.append_of_mem member
    exact (path.cut split).1.codesNamed made.codesNamed
  have requests : Issue.AllFailAs (¬ ·.IsOverflow) (start.issues archives statements) :=
    fun issue member error failed => perform_not_isOverflow (issued member) failed
  have bounded {writer : Writer} (named : writer.CodesNamed) (codes : Binary.CodeTable)
      (encoding : writer.stream.encoding = .binary codes) :
      codes.names.Nodup ∧ codes.names ⊆ Request.names ∧ codes.next = codes.names.length ∧
        codes.next < Binary.CodeTable.capacity := by
    rw [CodesNamed, encoding] at named
    obtain ⟨names, rfl, distinct, inside⟩ := named
    rw [Binary.CodeTable.names_ofNames, Binary.CodeTable.next_ofNames]
    exact ⟨distinct, inside, rfl, Binary.CodeTable.length_lt_capacity distinct inside⟩
  refine ⟨fun honest own => ?_, requests, ?_⟩
  · exact failsAs_session (fun error aside => aside.not_isOverflow) honest own requests
  · rintro writer (rfl | ⟨issue, member, rfl | rfl⟩)
    · exact bounded (path.codesNamed made.codesNamed)
    · exact bounded (issued member)
    · exact bounded ((issued member).perform issue.request)

/-- A binary writer that reads archives, on a sink with little room. -/
def tightReader : Writer :=
  .binary { room := some 3 } ⟨true, true, false, true⟩

/-- An option that the sink refuses, and once there is room the option again, an archive that fails and
a block. -/
def interrupted : List Statement :=
  [searchRibs, .room none, searchRibs, .request (.readArchive "branch.rib" []),
    .request (.opening .attributes)]

/-- The two archives have no failures of their own but the one that they are written with. -/
theorem failsAs_twoArchives {allowed : Error → Prop} (teapot : allowed (.other "teapot")) :
    twoArchives.Each (Script.FailsAs allowed) := by
  have passed {error : Error} (fails : FailsAs allowed (Except.error error : Except Error Reply)) :
      (Script.done (.error error)).FailsAs allowed :=
    fun cause same => Except.error.inj same ▸ fails error rfl
  have silent : (Script.done (.ok ())).FailsAs allowed := fun cause absent => by cases absent
  refine each_twoArchives (Script.failsAs_replaying (by simp [Statement.FailsAs])) ?_
  refine ⟨trivial, fun answer fails => ?_⟩
  rcases answer with error | reply
  · exact passed fails
  · cases reply with
    | handle number =>
        refine ⟨trivial, fun answer fails => ?_⟩
        rcases answer with error | reply
        · exact passed fails
        · exact Script.failsAs_replaying (by simp [Statement.FailsAs, teapot])
    | _ => exact silent

/-- The definition of the first name is cut off, and the name keeps its code. -/
theorem not_isOverflow_session_interrupted :
    Made tightReader ∧ twoArchives.Each (Script.FailsAs (¬ ·.IsOverflow)) ∧
      (∀ statement ∈ interrupted, statement.FailsAs (¬ ·.IsOverflow)) ∧
      (tightReader.exchanges twoArchives interrupted).map Exchange.result =
        [.error .sinkFull, .ok .done, .ok .done, .error (.other "teapot"), .ok .done] ∧
      (∀ exchange ∈ tightReader.exchanges twoArchives interrupted, ∀ error,
        exchange.result = .error error → ¬ error.IsOverflow) ∧
      (tightReader.session twoArchives interrupted).stream.encoding =
        .binary (.ofNames ["Option", "LightSource", "Illuminate", "AttributeBegin"]) ∧
      (Binary.CodeTable.ofNames ["Option", "LightSource", "Illuminate", "AttributeBegin"]).next <
        Binary.CodeTable.capacity := by
  have made : Made tightReader := .ofStream { room := some 3 } ⟨true, true, false, true⟩ (.inr rfl)
  have honest : twoArchives.Each (Script.FailsAs (¬ ·.IsOverflow)) := failsAs_twoArchives id
  have own : ∀ statement ∈ interrupted, statement.FailsAs (¬ ·.IsOverflow) := by
    simp [interrupted, searchRibs, Statement.FailsAs]
  have encoding : (tightReader.session twoArchives interrupted).stream.encoding =
      .binary (.ofNames ["Option", "LightSource", "Illuminate", "AttributeBegin"]) := rfl
  obtain ⟨results, -, bounded⟩ := not_isOverflow_session twoArchives made interrupted
  exact ⟨made, honest, own, rfl, results honest own, encoding,
    (bounded _ (.inl rfl) _ encoding).2.2.2⟩

end Writer

end RibStream
