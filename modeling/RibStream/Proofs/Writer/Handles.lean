/-
This file proves that handles are issued in the order in which they are asked for.
Lights of both kinds share one sequence and objects have another one. A handle is used up even when
the sink refuses its request, so no handle is issued twice.
-/

import RibStream.Proofs.Writer.RequestCodes

namespace RibStream

namespace HandleCounter

/-- The counter once a handle has been asked for. -/
def advance (counter : HandleCounter) : HandleCounter :=
  if counter.issued < greatest then ⟨counter.issued + 1⟩ else counter

theorem issue_of_lt {counter : HandleCounter} (room : counter.issued < greatest) :
    counter.issue = .ok (counter.issued + 1, ⟨counter.issued + 1⟩) :=
  if_pos room

theorem advance_of_lt {counter : HandleCounter} (room : counter.issued < greatest) :
    counter.advance = ⟨counter.issued + 1⟩ :=
  if_pos room

theorem advance_of_le {counter : HandleCounter} (full : greatest ≤ counter.issued) :
    counter.advance = counter :=
  if_neg (Nat.not_lt.mpr full)

/-- Handles are counted until there are no more. -/
theorem issued_iterate_advance (count : Nat) :
    (advance^[count] start).issued = min count greatest := by
  induction count with
  | zero => rfl
  | succ count inductionHypothesis =>
      rw [Function.iterate_succ_apply', advance]
      split
      · show (advance^[count] start).issued + 1 = _
        omega
      · omega

end HandleCounter

/-- The keyword, the name and the parameters of a light source of either kind. -/
def Request.light? : Request → Option (String × String × List ParamSource)
  | .lightSource name parameters => some ("LightSource", name, parameters)
  | .areaLightSource name parameters => some ("AreaLightSource", name, parameters)
  | _ => none

namespace Issue

/-- The request asks for the handle of a light. A light with a parameter that is not known does not
come so far. -/
def asksForLight (issue : Issue) : Bool :=
  match issue.request.light? with
  | some (_, _, parameters) =>
      (ParamSource.resolveAll issue.writer.dictionary parameters).isOk
  | none => false

def asksForObject (issue : Issue) : Bool :=
  issue.request = .objectBegin

/-- The request is given the handle: it sends the line, and if it succeeds, the handle is the reply and
the sink has accepted bytes that are the line. -/
structure IsGiven (issue : Issue) (handle : Nat) (line : RequestLine) : Prop where
  replies : issue.outcome.1 =
    (issue.writer.stream.request line.name line.tokens).1.map fun () => .handle handle
  sends : issue.outcome.2.stream.sink = (issue.writer.stream.request line.name line.tokens).2.sink
  written : ∀ reply, issue.outcome.1 = .ok reply → reply = .handle handle ∧
    ∃ bytes : List UInt8,
      issue.outcome.2.stream.sink.accepted = issue.writer.stream.sink.accepted ++ bytes ∧
      issue.writer.stream.encoding.Shows line bytes

theorem asksForLight_iff {issue : Issue} :
    issue.asksForLight = true ↔ ∃ keyword name parameters params,
      issue.request.light? = some (keyword, name, parameters) ∧
        ParamSource.resolveAll issue.writer.dictionary parameters = .ok params := by
  rw [asksForLight]
  cases issue.request.light? with
  | none => simp
  | some light =>
      obtain ⟨keyword, name, parameters⟩ := light
      cases resolved : ParamSource.resolveAll issue.writer.dictionary parameters with
      | error error => simp [resolved, Except.isOk, Except.toBool]
      | ok params => simp [resolved, Except.isOk, Except.toBool]

end Issue

namespace Writer

theorem plan_of_light? {request : Request} {keyword name : String} {parameters : List ParamSource}
    (light : request.light? = some (keyword, name, parameters)) (writer : Writer) :
    writer.plan request = writer.planLight keyword name parameters := by
  cases request <;> cases light <;> rfl

/-- The check of a request advances the counter of which it asks for a handle and no other one. -/
theorem plan_counters (request : Request) (writer : Writer) :
    (writer.plan request).2.lights =
        (if Issue.asksForLight ⟨request, writer⟩ then writer.lights.advance else writer.lights) ∧
      (writer.plan request).2.objects =
        if Issue.asksForObject ⟨request, writer⟩ then writer.objects.advance else writer.objects := by
  have checked := checked_plan request writer
  generalize writer.plan request = outcome at checked ⊢
  obtain ⟨error | plan, after⟩ := outcome
  · cases checked with
    | lightSource failed | areaLightSource failed =>
        simp only [Issue.asksForLight, Request.light?, failed]
        exact ⟨rfl, rfl⟩
    | noLight full | noAreaLight full =>
        rw [HandleCounter.advance_of_le full, ite_self]
        exact ⟨rfl, rfl⟩
    | noObject full =>
        rw [HandleCounter.advance_of_le full, ite_self]
        exact ⟨rfl, rfl⟩
    | @procedural strings bound refine release => cases release <;> exact ⟨rfl, rfl⟩
    | _ => exact ⟨rfl, rfl⟩
  · cases checked with
    | lightSource resolved room | areaLightSource resolved room =>
        simp only [Issue.asksForLight, Request.light?, resolved, HandleCounter.advance_of_lt room]
        exact ⟨rfl, rfl⟩
    | objectBegin room =>
        rw [HandleCounter.advance_of_lt room]
        exact ⟨rfl, rfl⟩
    | closing =>
        rw [leave]
        split <;> exact ⟨rfl, rfl⟩
    | @procedural strings bound refine release => cases release <;> exact ⟨rfl, rfl⟩
    | _ => exact ⟨rfl, rfl⟩

theorem perform_counters (issue : Issue) :
    issue.outcome.2.lights =
        (if issue.asksForLight then issue.writer.lights.advance else issue.writer.lights) ∧
      issue.outcome.2.objects =
        if issue.asksForObject then issue.writer.objects.advance else issue.writer.objects := by
  obtain ⟨lights, objects⟩ := plan_counters issue.request issue.writer
  exact ⟨(perform_frame Writer.lights (fun _ _ _ _ => rfl) _ _).trans lights,
    (perform_frame Writer.objects (fun _ _ _ _ => rfl) _ _).trans objects⟩

/-- Nothing but the requests that ask for handles advances a counter. -/
theorem Path.counters {property : Statement → Prop} {first last : Writer} {issues : List Issue}
    (path : Path property first issues last) :
    last.lights = HandleCounter.advance^[issues.countP Issue.asksForLight] first.lights ∧
      last.objects = HandleCounter.advance^[issues.countP Issue.asksForObject] first.objects := by
  induction path with
  | done writer => exact ⟨rfl, rfl⟩
  | quiet quiet later inductionHypothesis =>
      rw [eq_of_untraced_eq Writer.lights (fun _ => rfl) quiet.untraced.symm,
        eq_of_untraced_eq Writer.objects (fun _ => rfl) quiet.untraced.symm]
      exact inductionHypothesis
  | granted has later inductionHypothesis => exact inductionHypothesis
  | @carriedOut writer last request issues has later inductionHypothesis =>
      obtain ⟨lights, objects⟩ := perform_counters ⟨request, writer⟩
      rw [Issue.outcome] at lights objects
      rw [lights, objects] at inductionHypothesis
      rw [List.countP_cons, List.countP_cons, Function.iterate_add_apply,
        Function.iterate_add_apply]
      refine ⟨inductionHypothesis.1.trans ?_, inductionHypothesis.2.trans ?_⟩
      · split <;> rfl
      · split <;> rfl

theorem Made.counters {writer : Writer} (made : Made writer) :
    writer.lights = .start ∧ writer.objects = .start := by
  cases made with
  | ofStream sink options fresh => exact ⟨rfl, rfl⟩
  | create sink options =>
      rw [Writer.create]
      split <;> exact ⟨rfl, rfl⟩

/-- The counters of a new writer start at zero, so they tell how many handles have been asked for. -/
theorem Path.issued {property : Statement → Prop} {first last : Writer} {issues : List Issue}
    (path : Path property first issues last) (made : Made first) :
    last.lights.issued = min (issues.countP Issue.asksForLight) HandleCounter.greatest ∧
      last.objects.issued = min (issues.countP Issue.asksForObject) HandleCounter.greatest := by
  obtain ⟨lights, objects⟩ := path.counters
  obtain ⟨noLights, noObjects⟩ := made.counters
  rw [lights, objects, noLights, noObjects]
  exact ⟨HandleCounter.issued_iterate_advance _, HandleCounter.issued_iterate_advance _⟩

/-- A handle is written as the integer that it is. -/
theorem toInt_handle {handle : Nat} (fits : handle ≤ HandleCounter.greatest) :
    (Int32.ofNat handle).toInt = handle :=
  Int32.toInt_ofNat_of_lt (lt_of_le_of_lt fits (by decide))

/-- A request is given the handle that its plan answers with. -/
theorem isGiven_of_plan {issue : Issue} (named : issue.writer.CodesNamed) {line : RequestLine}
    {handle : Nat} {effect : Effect} {checked : Writer}
    (planned : issue.writer.plan issue.request = (.ok ⟨.line line, .handle handle, effect⟩, checked))
    (stream : checked.stream = issue.writer.stream) : issue.IsGiven handle line := by
  have performed : issue.outcome = complete (.ok ⟨.line line, .handle handle, effect⟩, checked) :=
    congrArg complete planned
  have parts : issue.outcome.1 =
        (issue.writer.stream.request line.name line.tokens).1.map (fun () => .handle handle) ∧
      issue.outcome.2.stream.sink =
        (issue.writer.stream.request line.name line.tokens).2.sink := by
    rw [performed]
    rcases outcome : issue.writer.stream.request line.name line.tokens with ⟨result, written⟩
    have sent : checked.send (.line line) = (result, { checked with stream := written }) := by
      rw [send, emit, stream, outcome]
    rw [complete, sent]
    cases result with
    | error error => exact ⟨rfl, rfl⟩
    | ok success =>
        refine ⟨rfl, ?_⟩
        show (Writer.apply _ effect).stream.sink = _
        rw [stream_apply]
        split <;> rfl
  have known : line.name ∈ Request.names := by
    cases plan_sends (congrArg Prod.fst planned) with
    | line known finite short => exact known
  refine ⟨parts.1, parts.2, fun reply success => ?_⟩
  rw [parts.1] at success
  obtain ⟨⟨⟩, accepted, rfl⟩ := exists_of_map_eq_ok success
  rw [parts.2]
  exact ⟨rfl, Stream.shows_of_request_ok named known accepted⟩

/-- A light is given the next handle of its counter. -/
theorem isGiven_light {issue : Issue} (named : issue.writer.CodesNamed) {keyword name : String}
    {parameters : List ParamSource} {params : List Param}
    (light : issue.request.light? = some (keyword, name, parameters))
    (resolved : ParamSource.resolveAll issue.writer.dictionary parameters = .ok params)
    (room : issue.writer.lights.issued < HandleCounter.greatest) :
    issue.IsGiven (issue.writer.lights.issued + 1)
      ⟨keyword, .string name :: .handle (issue.writer.lights.issued + 1) ::
        params.flatMap Param.spelled⟩ := by
  have planned : issue.writer.plan issue.request = _ := plan_of_light? light issue.writer
  rw [planLight, resolved] at planned
  simp only [HandleCounter.issue_of_lt room, Token.params_eq_spelled] at planned
  exact isGiven_of_plan named planned rfl

/-- An object is given the next handle of its counter. -/
theorem isGiven_object {issue : Issue} (named : issue.writer.CodesNamed)
    (object : issue.request = .objectBegin)
    (room : issue.writer.objects.issued < HandleCounter.greatest) :
    issue.IsGiven (issue.writer.objects.issued + 1)
      ⟨"ObjectBegin", [.handle (issue.writer.objects.issued + 1)]⟩ := by
  have planned : issue.writer.plan issue.request = _ := congrArg issue.writer.plan object
  rw [plan] at planned
  simp only [HandleCounter.issue_of_lt room] at planned
  exact isGiven_of_plan named planned rfl

/-- In a session that starts with a new writer, the requests for the handle of a light are given the
handles from one on, whichever kind of light they are for and wherever they stand, and so are those for
the handle of an object. A request that succeeds has the handle as its reply, and it is the integer
after the name of the light or the only argument of the object in what has been written. A request
that fails to be written has used its handle up, and no other request changes a counter. Such a request
has the result that its statement has. -/
theorem isGiven_session (archives : Archives) {start : Writer} (made : Made start)
    (statements : List Statement) :
    Path (fun _ => True) start (start.issues archives statements)
      (start.session archives statements) ∧
    (∀ front request back, statements = front ++ .request request :: back →
      request.light?.isSome ∨ request = .objectBegin →
      ⟨request, start.session archives front⟩ ∈ start.issues archives statements ∧
      (start.session archives front).run archives (.request request) =
        Issue.outcome ⟨request, start.session archives front⟩) ∧
    (∀ front issue back, start.issues archives statements = front ++ issue :: back →
      (issue.asksForLight = true → front.countP Issue.asksForLight < HandleCounter.greatest →
        issue.outcome.2.lights.issued = front.countP Issue.asksForLight + 1 ∧
        ∃ keyword name parameters params value,
          issue.request.light? = some (keyword, name, parameters) ∧
          ParamSource.resolveAll issue.writer.dictionary parameters = .ok params ∧
          Int32.toInt value = (front.countP Issue.asksForLight + 1 : Nat) ∧
          issue.IsGiven (front.countP Issue.asksForLight + 1)
            ⟨keyword, .string name :: .int value :: params.flatMap Param.spelled⟩) ∧
      (issue.asksForObject = true → front.countP Issue.asksForObject < HandleCounter.greatest →
        issue.outcome.2.objects.issued = front.countP Issue.asksForObject + 1 ∧
        ∃ value, Int32.toInt value = (front.countP Issue.asksForObject + 1 : Nat) ∧
          issue.IsGiven (front.countP Issue.asksForObject + 1) ⟨"ObjectBegin", [.int value]⟩) ∧
      (issue.asksForLight = false → issue.outcome.2.lights = issue.writer.lights) ∧
      (issue.asksForObject = false → issue.outcome.2.objects = issue.writer.objects)) ∧
    (start.session archives statements).lights.issued =
      min ((start.issues archives statements).countP Issue.asksForLight) HandleCounter.greatest ∧
    (start.session archives statements).objects.issued =
      min ((start.issues archives statements).countP Issue.asksForObject)
        HandleCounter.greatest := by
  have path := path_of_session archives statements start
  refine ⟨path, ?_, ?_, path.issued made⟩
  · intro front request back split asks
    have other (name : String) (parameters : List ParamSource) :
        request ≠ .readArchive name parameters := by
      rintro rfl
      rcases asks with light | object
      · cases light
      · cases object
    refine ⟨?_, issue_eq_perform_of_ne _ other _⟩
    rw [split, issues_append, issues, issuesOf_of_ne other]
    exact List.mem_append_right _ List.mem_cons_self
  intro front issue back split
  have named : issue.writer.CodesNamed := (path.cut split).1.codesNamed made.codesNamed
  obtain ⟨lightsBefore, objectsBefore⟩ := (path.cut split).1.issued made
  obtain ⟨lightsAfter, objectsAfter⟩ := perform_counters issue
  refine ⟨?_, ?_, ?_, ?_⟩
  · intro asks room
    rw [Nat.min_eq_left (Nat.le_of_lt room)] at lightsBefore
    rw [← lightsBefore] at room ⊢
    obtain ⟨keyword, name, parameters, params, light, resolved⟩ := Issue.asksForLight_iff.mp asks
    refine ⟨?_, keyword, name, parameters, params, _, light, resolved, toInt_handle room,
      isGiven_light named light resolved room⟩
    rw [lightsAfter, if_pos asks, HandleCounter.advance, if_pos room]
  · intro asks room
    rw [Nat.min_eq_left (Nat.le_of_lt room)] at objectsBefore
    rw [← objectsBefore] at room ⊢
    refine ⟨?_, _, toInt_handle room, isGiven_object named (of_decide_eq_true asks) room⟩
    rw [objectsAfter, if_pos asks, HandleCounter.advance, if_pos room]
  · intro other
    rw [lightsAfter, other]
    rfl
  · intro other
    rw [objectsAfter, other]
    rfl

/-- An archive with a light and an object. -/
def lamps : Archives :=
  .replaying (FileTree.ofPaths ["home"]
    [("lamps.rib", [.request (.lightSource "spot" []), .request .objectBegin])]).files

/-- A light that the sink refuses, the lamps, and a last light. -/
def lit : List Statement :=
  [.request (.areaLightSource "sky" []), .room none, .request (.readArchive "lamps.rib" []),
    .request (.lightSource "late" [])]

/-- A writer that reads archives, on a sink with room for the name of a light and not for the rest. -/
def shortOfRoom : Writer :=
  .ascii { room := some 20 } ⟨true, false, false, true⟩

/-- The light that was refused and the one in the archive have used up two handles, so the last light
is the third one. -/
theorem isGiven_session_lamps :
    Made shortOfRoom ∧
      (shortOfRoom.exchanges lamps lit).map Exchange.result =
        [.error .sinkFull, .ok .done, .ok .done, .ok (.handle 3)] ∧
      ∃ front late, shortOfRoom.issues lamps lit = front ++ [late] ∧
        late.asksForLight = true ∧ front.countP Issue.asksForLight < HandleCounter.greatest ∧
        late.outcome.2.lights.issued = 3 ∧
        ∃ value, Int32.toInt value = 3 ∧
          late.IsGiven 3 ⟨"LightSource", [.string "late", .int value]⟩ := by
  have made : Made shortOfRoom := .ofStream { room := some 20 } ⟨true, false, false, true⟩ (.inl rfl)
  have split : shortOfRoom.issues lamps lit = (shortOfRoom.issues lamps lit).take 3 ++
      [⟨.lightSource "late" [], shortOfRoom.session lamps (lit.take 3)⟩] := rfl
  obtain ⟨given, -⟩ := (isGiven_session lamps made lit).2.2.1 _ _ _ split
  obtain ⟨issued, keyword, name, parameters, params, value, light, resolved, value_eq, isGiven⟩ :=
    given rfl (by decide)
  cases light
  cases resolved
  exact ⟨made, rfl, _, _, split, rfl, by decide, issued, value, value_eq, isGiven⟩

end Writer

end RibStream
