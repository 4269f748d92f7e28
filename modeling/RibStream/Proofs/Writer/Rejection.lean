/-
This file proves that a request that is rejected leaves nothing behind.
All checks of a request come before its first byte and before its first change of the writer.
-/

import RibStream.Proofs.Request.ByValue
import RibStream.Proofs.Writer.RequestCodes
import RibStream.Proofs.Writer.Truncation

namespace RibStream

namespace Stream

/-- The stream rejects nothing: it fails for want of room, of a length or of a code. -/
theorem not_isRejection_request {stream : Stream} {name : String} {tokens : List Token}
    {error : Error} (failed : (stream.request name tokens).1 = .error error) :
    ¬ error.IsRejection := by
  rcases request_error failed with rfl | ⟨count, rfl⟩ | rfl <;> exact id

end Stream

namespace Writer

theorem not_isRejection_send {writer : Writer} {piece : Piece} {error : Error}
    (failed : (writer.send piece).1 = .error error) : ¬ error.IsRejection := by
  cases piece with
  | nothing => cases failed
  | record kind text =>
      rw [Stream.write_error failed]
      exact id
  | line line => exact Stream.not_isRejection_request failed

/-- A check that fails changes nothing. Only the strings of a procedural are given back. -/
theorem plan_error_frame {request : Request} {writer : Writer} {error : Error}
    (failed : (writer.plan request).1 = .error error) :
    (writer.plan request).2 =
      { writer with trace.released := (writer.plan request).2.trace.released } := by
  have refuses := refuses_of_plan failed
  generalize (writer.plan request).2 = left at refuses ⊢
  cases refuses with
  | @procedural strings bound refine release => cases release <;> rfl
  | _ => rfl

theorem perform_of_plan_error {request : Request} {writer : Writer} {error : Error}
    (failed : (writer.plan request).1 = .error error) :
    (writer.perform request).1 = .error error ∧
      (writer.perform request).2 = (writer.plan request).2 := by
  rw [perform]
  generalize writer.plan request = outcome at failed ⊢
  obtain ⟨result, checked⟩ := outcome
  cases failed
  exact ⟨rfl, rfl⟩

/-- A request that is rejected has failed its check, whatever the sink accepts. -/
theorem plan_error_of_isRejection {request : Request} {writer : Writer} {error : Error}
    (failed : (writer.perform request).1 = .error error) (rejection : error.IsRejection) :
    (writer.plan request).1 = .error error ∧
      (writer.perform request).2 = (writer.plan request).2 := by
  rw [perform] at failed ⊢
  generalize writer.plan request = outcome at failed ⊢
  obtain ⟨result, checked⟩ := outcome
  cases result with
  | error cause => exact ⟨congrArg Except.error (Except.error.inj failed), rfl⟩
  | ok plan =>
      rw [complete] at failed
      cases sent : (checked.send plan.piece).1 with
      | error cause =>
          have refused : cause = error := by
            generalize checked.send plan.piece = outcome at sent failed
            obtain ⟨result, after⟩ := outcome
            cases sent
            exact Except.error.inj failed
          exact absurd rejection (not_isRejection_send (refused ▸ sent))
      | ok success =>
          generalize checked.send plan.piece = outcome at sent failed
          obtain ⟨result, after⟩ := outcome
          cases sent
          cases failed

/-- As long as there are handles, only a request that is wrong in itself fails its check. -/
theorem plan_error {request : Request} (byValue : request.ByValue) {writer : Writer}
    (lights : writer.lights.issued < HandleCounter.greatest)
    (objects : writer.objects.issued < HandleCounter.greatest) {error : Error}
    (failed : (writer.plan request).1 = .error error) : error.IsRejection ∧ request.Refused := by
  have refuses := refuses_of_plan failed
  clear failed
  generalize (writer.plan request).2 = left at refuses
  cases refuses with
  | @plain request _ failed =>
      obtain ⟨⟨handle, rfl⟩, unknown⟩ := Layout.resolve_error byValue _ failed
      exact ⟨trivial, request.hasUnknownHandle_iff.mp unknown⟩
  | @declare name declaration _ failed =>
      rw [Dictionary.declare] at failed
      cases read : TypeSpec.ofString? declaration with
      | some spec =>
          rw [read] at failed
          cases failed
      | none =>
          rw [read] at failed
          cases failed
          exact ⟨trivial, .declaration read⟩
  | option failed | lightSource failed | areaLightSource failed | readArchive failed =>
      -- Typed parameters are resolved whatever has been declared.
      obtain ⟨params, resolved⟩ := ParamSource.exists_resolveAll writer.dictionary byValue
      cases failed.symm.trans resolved
  | noLight full | noAreaLight full => exact absurd lights (Nat.not_lt.mpr full)
  | noObject full => exact absurd objects (Nat.not_lt.mpr full)
  | @function strings bound refine release _ failed =>
      cases refine with
      | named name => exact absurd byValue id
      | handle number => cases failed
  | @procedural strings bound refine release handle _ resolved failed =>
      cases refine with
      | named name => exact absurd byValue id
      | handle number =>
          cases resolved
          exact proceduralLine_error failed release

/-- A request that is wrong in itself fails its check. -/
theorem exists_plan_error {request : Request} (byValue : request.ByValue) (refused : request.Refused)
    (writer : Writer) : ∃ error, (writer.plan request).1 = .error error := by
  cases success : (writer.plan request).1 with
  | error error => exact ⟨error, rfl⟩
  | ok plan =>
      have planned := planned_of_plan success
      clear success
      generalize (writer.plan request).2 = checked at planned
      exfalso
      cases refused with
      | @function request vocabulary handle standard member unknown =>
          cases planned with
          | plain resolved =>
              exact Layout.not_hasUnknownHandle byValue _ resolved
                (request.hasUnknownHandle_iff.mpr (.function standard member unknown))
      | procedural unknown =>
          cases planned with
          | procedural resolved named enough =>
              cases resolved
              exact unknown ((Vocabulary.exists_name_iff
                (Vocabulary.nodup_standard (by simp)) _).mp ⟨_, named⟩)
      | strings known few =>
          cases planned with
          | procedural resolved named enough =>
              cases resolved
              cases known.symm.trans named
              exact absurd few (Nat.not_lt.mpr enough)
      | declaration unreadable =>
          cases planned with
          | declare declared =>
              rw [Dictionary.declare, unreadable] at declared
              cases declared

/-- The stream takes every request: each name has a code or is given one, and the sink accepts
everything. -/
structure Ready (writer : Writer) : Prop where
  codesNamed : writer.CodesNamed
  unlimited : writer.stream.sink.room = none

namespace Ready

variable {writer : Writer}

theorem of_stream_eq (ready : writer.Ready) {changed : Writer}
    (stream : changed.stream = writer.stream) : changed.Ready := by
  refine ⟨?_, stream ▸ ready.unlimited⟩
  rw [CodesNamed, stream]
  exact ready.codesNamed

theorem plan (ready : writer.Ready) (request : Request) : (writer.plan request).2.Ready :=
  ⟨ready.codesNamed.plan request, sink_plan request writer ▸ ready.unlimited⟩

theorem perform (ready : writer.Ready) (request : Request) : (writer.perform request).2.Ready := by
  obtain ⟨bytes, written⟩ := truncates_perform request writer ready.unlimited
  exact ⟨ready.codesNamed.perform request, written.unlimited⟩

theorem request_ok (ready : writer.Ready) (line : RequestLine) (known : line.name ∈ Request.names)
    (fits : ∀ token ∈ line.tokens, writer.stream.encoding.Fits token) :
    (writer.stream.request line.name line.tokens).1 = .ok () := by
  rw [Stream.request_unlimited ready.unlimited, Encoded.result_eq_ok_iff]
  exact (Encoding.request_named ready.codesNamed known line.tokens).2.2.mpr fits

/-- What a request with small lengths sends is accepted. -/
theorem send_ok (ready : writer.Ready) {request : Request} {piece : Piece}
    (sends : Sends request piece) (short : request.Short) : (writer.send piece).1 = .ok () := by
  cases sends with
  | nothing => rfl
  | record same =>
      show (writer.stream.write _).1 = _
      rw [Stream.write_unlimited _ ready.unlimited]
  | @line line known finite lengths =>
      exact ready.request_ok line known fun token member =>
        Encoding.fits_of_fits writer.stream.encoding (lengths short token member)

/-- A request is carried out as soon as its check succeeds. -/
theorem perform_eq_of_plan_ok (ready : writer.Ready) {request : Request} (short : request.Short)
    {checked : Writer} {plan : Plan} (planned : writer.plan request = (.ok plan, checked)) :
    writer.perform request = (.ok plan.reply, (checked.send plan.piece).2.apply plan.effect) := by
  have checkedReady := ready.plan request
  rw [planned] at checkedReady
  have sent := checkedReady.send_ok (plan_sends (congrArg Prod.fst planned)) short
  rw [Writer.perform, planned, complete]
  generalize checked.send plan.piece = outcome at sent ⊢
  obtain ⟨result, after⟩ := outcome
  cases sent
  rfl

end Ready

/-- On a sink that accepts everything, the check is all that can fail if the lengths are small. -/
theorem perform_of_plan_ok {request : Request} {writer : Writer} {plan : Plan}
    (ready : writer.Ready) (short : request.Short) (planned : (writer.plan request).1 = .ok plan) :
    (writer.perform request).1 = .ok plan.reply := by
  rw [ready.perform_eq_of_plan_ok short (Prod.ext planned rfl)]

theorem plan_error_of_perform {request : Request} {writer : Writer} {error : Error}
    (ready : writer.Ready) (short : request.Short)
    (failed : (writer.perform request).1 = .error error) :
    (writer.plan request).1 = .error error ∧
      (writer.perform request).2 = (writer.plan request).2 := by
  cases planned : (writer.plan request).1 with
  | ok plan =>
      rw [perform_of_plan_ok ready short planned] at failed
      cases failed
  | error cause =>
      obtain ⟨same, unchanged⟩ := perform_of_plan_error planned
      rw [failed] at same
      exact ⟨congrArg Except.error (Except.error.inj same).symm, unchanged⟩

/-- The line of a procedural that is written has only the strings that it takes. -/
theorem stream_procedural {strings : List String} {bound : Bound} {refine : FunctionSource}
    {release : Bool} {writer : Writer} {success : Unit}
    (issued : (writer.procedural strings bound refine release).1 = .ok success) :
    ∃ handle name, refine.resolve .procedurals = .ok handle ∧
      Vocabulary.procedurals.name handle = .ok name ∧ proceduralArity name ≤ strings.length ∧
      writer.stream.request "Procedural"
          [.string name, .strings (strings.take (proceduralArity name)), .bound bound] =
        (.ok (), (writer.procedural strings bound refine release).2.stream) := by
  rw [procedural] at issued ⊢
  cases resolved : refine.resolve .procedurals with
  | error error =>
      rw [resolved] at issued
      cases issued
  | ok handle =>
      rw [resolved] at issued
      cases made : proceduralLine strings bound handle with
      | error error =>
          simp only [made] at issued
          cases issued
      | ok line =>
          obtain ⟨name, known, enough, rfl⟩ := proceduralLine_ok made
          refine ⟨handle, name, rfl, known, enough, ?_⟩
          simp only [made] at issued ⊢
          refine Prod.ext issued ?_
          cases release <;> rfl

end Writer

/-- The strings that a request gives back to its caller. -/
def Request.givenBack : Request → List (List String)
  | .procedural strings _ refine true =>
      match refine.resolve .procedurals with
      | .ok _ => [strings]
      | .error _ => []
  | _ => []

namespace Writer

theorem released_plan (request : Request) (writer : Writer) :
    (writer.plan request).2.trace.released = writer.trace.released ++ request.givenBack := by
  have nothing : writer.trace.released = writer.trace.released ++ ([] : List (List String)) := by
    simp
  have procedural {strings : List String} {bound : Bound} {refine : FunctionSource} {handle : Nat}
      (release : Bool) (resolved : refine.resolve .procedurals = .ok handle) :
      (if release then writer.release strings else writer).trace.released =
        writer.trace.released ++ Request.givenBack (.procedural strings bound refine release) := by
    cases release with
    | false => exact nothing
    | true => simp [Request.givenBack, resolved, Writer.release]
  have checked := checked_plan request writer
  generalize writer.plan request = outcome at checked ⊢
  obtain ⟨error | plan, after⟩ := outcome
  · cases checked with
    | @function strings bound refine release _ failed =>
        cases release with
        | false => exact nothing
        | true => simp [Request.givenBack, failed]
    | @procedural strings bound refine release handle _ resolved failed =>
        exact procedural release resolved
    | _ => exact nothing
  · cases checked with
    | closing =>
        refine Eq.trans ?_ nothing
        rw [leave]
        split <;> rfl
    | @procedural strings bound refine release handle name resolved named enough =>
        exact procedural release resolved
    | _ => exact nothing

/-- Strings are given back once on every outcome, and nothing else is. -/
theorem released_perform (request : Request) (writer : Writer) :
    (writer.perform request).2.trace.released = writer.trace.released ++ request.givenBack :=
  (perform_frame (·.trace.released) (fun _ _ _ _ => rfl) request writer).trans
    (released_plan request writer)

/-- A request that is rejected leaves the writer as it was, and only strings are given back. In a
writer that a session has reached, on a sink that accepts everything, requests with small lengths are
rejected exactly if they are wrong in themselves, and they fail in no other way as long as there are
handles. The strings of a procedural are given back once on every outcome, and all of them, while its
line has only those that it takes, and so do the bytes that the sink has accepted. -/
theorem rejected_run (archives : Archives) (writer : Writer) {request : Request}
    (other : ∀ name parameters, request ≠ .readArchive name parameters) :
    (∀ error, (writer.run archives (.request request)).1 = .error error → error.IsRejection →
      (writer.run archives (.request request)).2 = { writer with
        trace.released := (writer.run archives (.request request)).2.trace.released }) ∧
    (Reached archives writer → writer.stream.sink.room = none →
      writer.lights.issued < HandleCounter.greatest →
      writer.objects.issued < HandleCounter.greatest → request.ByValue → request.Short →
      ((∃ error, (writer.run archives (.request request)).1 = .error error) ↔ request.Refused) ∧
      ∀ error, (writer.run archives (.request request)).1 = .error error → error.IsRejection) ∧
    (writer.run archives (.request request)).2.trace.released =
      writer.trace.released ++ request.givenBack ∧
    ∀ strings bound refine release reply, request = .procedural strings bound refine release →
      (writer.run archives (.request request)).1 = .ok reply →
      ∃ handle name, refine.resolve .procedurals = .ok handle ∧
        Vocabulary.procedurals.name handle = .ok name ∧ proceduralArity name ≤ strings.length ∧
        (writer.run archives (.request request)).2.stream =
          (writer.stream.request "Procedural"
            [.string name, .strings (strings.take (proceduralArity name)), .bound bound]).2 ∧
        (Reached archives writer → ∃ bytes : List UInt8,
          (writer.run archives (.request request)).2.stream.sink.accepted =
            writer.stream.sink.accepted ++ bytes ∧
          writer.stream.encoding.Shows ⟨"Procedural",
            [.string name, .strings (strings.take (proceduralArity name)),
              .floats [bound.xmin, bound.xmax, bound.ymin, bound.ymax, bound.zmin, bound.zmax]]⟩
            bytes) := by
  have performed : writer.run archives (.request request) = writer.perform request :=
    issue_eq_perform_of_ne _ other writer
  refine ⟨?_, ?_, ?_, ?_⟩
  · intro error failed rejection
    rw [performed] at failed ⊢
    obtain ⟨refused, unchanged⟩ := plan_error_of_isRejection failed rejection
    rw [unchanged]
    exact plan_error_frame refused
  · intro reached unlimited lights objects byValue short
    have ready : writer.Ready := ⟨reached.codesNamed, unlimited⟩
    rw [performed]
    constructor
    · constructor
      · rintro ⟨error, failed⟩
        obtain ⟨refused, -⟩ := plan_error_of_perform ready short failed
        exact (plan_error byValue lights objects refused).2
      · intro refused
        obtain ⟨error, failed⟩ := exists_plan_error byValue refused writer
        exact ⟨error, (perform_of_plan_error failed).1⟩
    · intro error failed
      obtain ⟨refused, -⟩ := plan_error_of_perform ready short failed
      exact (plan_error byValue lights objects refused).1
  · rw [performed]
    exact released_perform request writer
  · rintro strings bound refine release reply rfl success
    obtain ⟨outcome, issued, -⟩ := exists_of_map_eq_ok success
    obtain ⟨handle, name, resolved, known, enough, written⟩ := stream_procedural issued
    have stream : (writer.run archives (.request (.procedural strings bound refine release))).2.stream =
        (writer.procedural strings bound refine release).2.stream := rfl
    refine ⟨handle, name, resolved, known, enough, stream.trans (by rw [written]), fun reached => ?_⟩
    let line : RequestLine := ⟨"Procedural",
      [.string name, .strings (strings.take (proceduralArity name)), .bound bound]⟩
    have listed : line.name ∈ Request.names := (by decide : "Procedural" ∈ Request.names)
    have sent : (writer.stream.request line.name line.tokens).1 = .ok () :=
      congrArg Prod.fst written
    obtain ⟨bytes, accepted, shows⟩ := Stream.shows_of_request_ok reached.codesNamed listed sent
    rw [written] at accepted
    exact ⟨bytes, accepted, shows⟩

/-- A binary writer after its first request. -/
def worldWriter : Writer :=
  (Writer.binary {} ⟨false, true, false, false⟩).session .empty [.request (.opening .world)]

/-- A program that is run without its arguments. -/
def bareProgram : Request :=
  .procedural ["/bin/fur"] ⟨Basis.zero, Basis.one, Basis.zero, Basis.one, Basis.zero, Basis.one⟩
    (.handle 2) true

/-- A program with a string that it does not take. -/
def spareProgram : Request :=
  .procedural ["/bin/fur", "-long", "-wet"]
    ⟨Basis.zero, Basis.one, Basis.zero, Basis.one, Basis.zero, Basis.one⟩ (.handle 2) true

/-- The name of the request that is rejected has not been given a code, and its string has been given
back. The program with a spare string is written without it. -/
theorem rejected_run_bareProgram :
    (∀ name parameters, bareProgram ≠ .readArchive name parameters) ∧
      Reached .empty worldWriter ∧ worldWriter.stream.sink.room = none ∧
      worldWriter.lights.issued < HandleCounter.greatest ∧
      worldWriter.objects.issued < HandleCounter.greatest ∧ bareProgram.ByValue ∧
      bareProgram.Short ∧
      (∃ error, (worldWriter.run .empty (.request bareProgram)).1 = .error error ∧
        error.IsRejection) ∧
      (worldWriter.run .empty (.request bareProgram)).2.stream.encoding =
        .binary ⟨[("WorldBegin", 0)], 1⟩ ∧
      (worldWriter.run .empty (.request bareProgram)).2.trace.released = #[["/bin/fur"]] ∧
      ∃ bytes : List UInt8, (worldWriter.run .empty (.request spareProgram)).2.stream.sink.accepted =
          worldWriter.stream.sink.accepted ++ bytes ∧
        worldWriter.stream.encoding.Shows ⟨"Procedural",
          [.string "RunProgram", .strings ["/bin/fur", "-long"],
            .floats [Basis.zero, Basis.one, Basis.zero, Basis.one, Basis.zero, Basis.one]]⟩
          bytes := by
  have other : ∀ name parameters, bareProgram ≠ .readArchive name parameters := by
    simp [bareProgram]
  have reached : Reached .empty worldWriter :=
    ⟨_, _, .ofStream { compressed := false } ⟨false, true, false, false⟩ (.inr rfl), rfl⟩
  have lights : worldWriter.lights.issued < HandleCounter.greatest := by decide
  have objects : worldWriter.objects.issued < HandleCounter.greatest := by decide
  have byValue : bareProgram.ByValue := trivial
  have short : bareProgram.Short := by decide
  have refused : bareProgram.Refused :=
    .strings (show Vocabulary.procedurals.name 2 = .ok "RunProgram" from rfl) (by decide)
  obtain ⟨unchanged, fails, released, -⟩ := rejected_run .empty worldWriter other
  obtain ⟨exactly, rejections⟩ := fails reached rfl lights objects byValue short
  obtain ⟨error, failed⟩ := exactly.mpr refused
  have rejection := rejections error failed
  have spare : ∀ name parameters, spareProgram ≠ .readArchive name parameters := by
    simp [spareProgram]
  have written : (worldWriter.run .empty (.request spareProgram)).1 = .ok .done := by decide
  obtain ⟨handle, name, resolved, known, -, -, shown⟩ :=
    (rejected_run .empty worldWriter spare).2.2.2 _ _ _ _ _ rfl written
  obtain rfl : 2 = handle := Except.ok.inj resolved
  obtain rfl : "RunProgram" = name := Except.ok.inj known
  refine ⟨other, reached, rfl, lights, objects, byValue, short, ⟨error, failed, rejection⟩, ?_,
    released, shown reached⟩
  rw [unchanged error failed rejection]
  rfl

end Writer

end RibStream
