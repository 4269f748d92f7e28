/-
This file proves that a reader of text gets back every request that a session has written.
-/

import RibStream.Proofs.Stream.Request
import RibStream.Proofs.Writer.Frame
import RibStream.Proofs.Writer.Lines

namespace RibStream

/-- Names consist of letters. -/
theorem Request.isName_of_mem {name : String} (member : name ∈ Request.names) :
    Ascii.IsName name := by
  have table : (Request.names.all fun name => !(Text.bytes name).isEmpty &&
      (Text.bytes name).all fun byte =>
        !([Ascii.space, Ascii.newline, Ascii.hash].contains byte)) = true := by
    decide +kernel
  have row := List.all_eq_true.mp table name member
  rw [Bool.and_eq_true, Bool.not_eq_true', List.isEmpty_eq_false_iff, List.all_eq_true] at row
  refine ⟨row.1, fun byte inside => ?_⟩
  simpa using row.2 byte inside

/-- What a piece becomes in text. -/
def Ascii.piece (depth : Nat) : Piece → List UInt8
  | .nothing => []
  | .record kind text => Ascii.record depth kind text
  | .line request => Ascii.line depth request ++ [Ascii.newline]

/-- The writer writes text that is always accepted, and it does not inline archives. -/
structure Writer.WritesText (writer : Writer) : Prop where
  ascii : ∃ depth, writer.stream.encoding = .ascii depth
  unlimited : writer.stream.sink.room = none
  literal : writer.interpolateArchives = false

theorem Stream.request_text (stream : Stream) (request : RequestLine) (depth : Nat)
    (ascii : stream.encoding = .ascii depth) (unlimited : stream.sink.room = none) :
    stream.request request.name request.tokens =
      (.ok (), stream.append (Ascii.line depth request ++ [Ascii.newline])) := by
  have same : { stream with encoding := .ascii depth } = stream := by rw [← ascii]
  rw [Stream.request_unlimited unlimited, ascii, (Encoding.shows_ascii depth request).1]
  dsimp only
  rw [same]
  rfl

namespace Writer

theorem send_text (piece : Piece) (writer : Writer) (depth : Nat)
    (ascii : writer.stream.encoding = .ascii depth) (unlimited : writer.stream.sink.room = none) :
    writer.send piece =
      (.ok (), { writer with stream := writer.stream.append (Ascii.piece depth piece) }) := by
  cases piece with
  | nothing =>
      rw [Ascii.piece, Stream.append_nil]
      rfl
  | record kind text =>
      rw [send, record, Stream.record, ascii, Stream.write_unlimited _ unlimited]
      rfl
  | line request =>
      rw [send, emit, Stream.request_text _ request depth ascii unlimited]
      rfl

variable {writer : Writer}

theorem WritesText.plan (text : writer.WritesText) (request : Request) :
    (writer.plan request).2.WritesText ∧
      (writer.plan request).2.stream.sink = writer.stream.sink := by
  obtain ⟨⟨depth, ascii⟩, unlimited, literal⟩ := text
  obtain ⟨settings, stream⟩ := plan_frame request writer
  have kept : (writer.plan request).2.interpolateArchives = false :=
    (congrArg (·.1) settings).trans literal
  rcases stream with same | left
  · exact ⟨⟨⟨depth, same ▸ ascii⟩, same ▸ unlimited, kept⟩, congrArg Stream.sink same⟩
  · have outer : (writer.plan request).2.stream.encoding = .ascii (depth - 1) := by
      rw [left, Stream.leave, ascii]
      rfl
    have sink : (writer.plan request).2.stream.sink = writer.stream.sink := by
      rw [left]
      rfl
    exact ⟨⟨⟨depth - 1, outer⟩, sink ▸ unlimited, kept⟩, sink⟩

theorem WritesText.apply (text : writer.WritesText) (effect : Effect) :
    (writer.apply effect).WritesText ∧ (writer.apply effect).stream.sink = writer.stream.sink := by
  obtain ⟨⟨depth, ascii⟩, unlimited, literal⟩ := text
  have kept : (writer.apply effect).interpolateArchives = false :=
    (congrArg (·.1) (settings_apply effect writer)).trans literal
  have stream := stream_apply effect writer
  by_cases enters : effect = .enter
  · rw [if_pos enters] at stream
    have inner : (writer.apply effect).stream.encoding = .ascii (depth + 1) := by
      rw [stream, Stream.enter, ascii]
      rfl
    have sink : (writer.apply effect).stream.sink = writer.stream.sink := by
      rw [stream]
      rfl
    exact ⟨⟨⟨depth + 1, inner⟩, sink ▸ unlimited, kept⟩, sink⟩
  · rw [if_neg enters] at stream
    exact ⟨⟨⟨depth, stream ▸ ascii⟩, stream ▸ unlimited, kept⟩, congrArg Stream.sink stream⟩

/-- A request whose check fails writes nothing. Any other request writes what it has planned. -/
theorem perform_text (request : Request) (text : writer.WritesText) :
    (writer.perform request).2.WritesText ∧
      match (writer.plan request).1 with
      | .error error =>
          (writer.perform request).1 = .error error ∧
            (writer.perform request).2.stream.sink.accepted = writer.stream.sink.accepted
      | .ok plan =>
          (writer.perform request).1 = .ok plan.reply ∧
            ∃ depth, (writer.perform request).2.stream.sink.accepted =
              writer.stream.sink.accepted ++ Ascii.piece depth plan.piece := by
  obtain ⟨checkedText, sink⟩ := text.plan request
  rw [perform]
  generalize writer.plan request = outcome at checkedText sink
  obtain ⟨result, checked⟩ := outcome
  cases result with
  | error error => exact ⟨checkedText, rfl, congrArg Sink.accepted sink⟩
  | ok plan =>
      obtain ⟨depth, ascii⟩ := checkedText.ascii
      have sent := send_text plan.piece checked depth ascii checkedText.unlimited
      have sentText : { checked with
          stream := checked.stream.append (Ascii.piece depth plan.piece) }.WritesText :=
        ⟨⟨depth, ascii⟩, checkedText.unlimited, checkedText.literal⟩
      obtain ⟨finalText, finalSink⟩ := sentText.apply plan.effect
      rw [complete, sent]
      refine ⟨finalText, rfl, depth, ?_⟩
      rw [finalSink]
      exact congrArg (fun sink : Sink => sink.accepted ++ Ascii.piece depth plan.piece) sink

end Writer

/-- The kind and the text of a record. Other requests have none. -/
def Request.records : Request → List (String × String)
  | .record kind text => [(kind, text)]
  | _ => []

/-- All numbers are finite, and a record is a comment of one line. -/
def Request.KeepsLines (request : Request) : Prop :=
  AllFinite request.singles ∧
    ∀ record ∈ request.records, record.1 = "comment" ∧ Ascii.newline ∉ Text.bytes record.2

/-- The statement leaves the text readable, and the sink goes on accepting everything. -/
def Statement.KeepsLines : Statement → Prop
  | .request issued => issued.KeepsLines
  | .room granted => granted = none
  | _ => True

instance (request : Request) : Decidable request.KeepsLines :=
  inferInstanceAs (Decidable (_ ∧ _))

instance (statement : Statement) : Decidable statement.KeepsLines :=
  match statement with
  | .request issued => inferInstanceAs (Decidable issued.KeepsLines)
  | .service _ => .isTrue trivial
  | .room granted => inferInstanceAs (Decidable (granted = none))
  | .unreadable _ => .isTrue trivial

/-- A piece is read as its lines, whatever comes after it. -/
theorem Ascii.read?_piece {request : Request} {piece : Piece} (sends : Writer.Sends request piece)
    (keeps : request.KeepsLines) (depth : Nat) :
    (∀ line ∈ piece.lines, AllFinite line.singles) ∧
      ∀ rest, Ascii.read? (Ascii.piece depth piece ++ rest) =
        (Ascii.read? rest).map (piece.lines.map RequestLine.form ++ ·) := by
  cases sends with
  | nothing =>
      refine ⟨fun line absent => absurd absent List.not_mem_nil, ?_⟩
      intro rest
      exact Option.map_id'.symm
  | record same =>
      subst same
      obtain ⟨rfl, plain⟩ := keeps.2 _ List.mem_cons_self
      refine ⟨fun line absent => absurd absent List.not_mem_nil, ?_⟩
      intro rest
      have read := Ascii.read?_comment depth _ plain rest
      rw [Ascii.piece, Ascii.record, if_pos rfl]
      simpa [Piece.lines] using read
  | line named finite short =>
      rename_i request
      have known := finite keeps.1
      constructor
      · intro line member
        cases List.mem_singleton.mp member
        exact known
      · intro rest
        rw [Ascii.piece, List.append_assoc]
        exact Ascii.read?_line depth request (Request.isName_of_mem named) known rest

namespace Writer

/-- One more statement adds the request that it is to what is read. -/
theorem run_reads (archives : Archives) (statement : Statement) (writer : Writer)
    (text : writer.WritesText) (keeps : statement.KeepsLines) :
    ∃ bytes : List UInt8, (writer.run archives statement).2.WritesText ∧
      (writer.run archives statement).2.stream.sink.accepted =
        writer.stream.sink.accepted ++ bytes ∧
      (∀ line ∈ writer.spelledBy archives statement, AllFinite line.singles) ∧
      ∀ rest, Ascii.read? (bytes ++ rest) =
        (Ascii.read? rest).map ((writer.spelledBy archives statement).map RequestLine.form ++ ·) := by
  have silent : ∀ line ∈ ([] : List RequestLine), AllFinite line.singles :=
    fun line absent => absurd absent List.not_mem_nil
  have same : writer.stream.sink.accepted = writer.stream.sink.accepted ++ ([] : List UInt8) := by
    simp
  cases statement with
  | request request =>
      have keepsLines : request.KeepsLines := keeps
      obtain ⟨after, outcome⟩ := perform_text request text
      rw [← run_eq_perform archives request writer text.literal] at after outcome
      cases planned : (writer.plan request).1 with
      | error error =>
          rw [planned] at outcome
          obtain ⟨failed, accepted⟩ := outcome
          rw [spelledBy_of_error failed]
          exact ⟨[], after, accepted.trans same, silent, fun rest => Option.map_id'.symm⟩
      | ok plan =>
          rw [planned] at outcome
          obtain ⟨succeeded, depth, accepted⟩ := outcome
          obtain ⟨finite, read⟩ := Ascii.read?_piece (plan_sends planned) keepsLines depth
          rw [spelledBy_of_ok succeeded, ← plan_spelled planned]
          exact ⟨_, after, accepted, finite, read⟩
  | service service => exact ⟨[], text, same, silent, fun rest => Option.map_id'.symm⟩
  | room room =>
      cases keeps
      exact ⟨[], ⟨text.ascii, rfl, text.literal⟩, same, silent, fun rest => Option.map_id'.symm⟩
  | unreadable error => exact ⟨[], text, same, silent, fun rest => Option.map_id'.symm⟩

/-- A whole session is read as its statements are spelled out. -/
theorem session_reads (archives : Archives) (statements : List Statement) (writer : Writer)
    (text : writer.WritesText) (keeps : ∀ statement ∈ statements, statement.KeepsLines) :
    ∃ bytes : List UInt8, (writer.session archives statements).stream.sink.accepted =
        writer.stream.sink.accepted ++ bytes ∧
      (∀ line ∈ writer.spelledAll archives statements, AllFinite line.singles) ∧
      Ascii.read? bytes = some ((writer.spelledAll archives statements).map RequestLine.form) := by
  induction statements generalizing writer with
  | nil => exact ⟨[], by simp [session], fun line absent => absurd absent List.not_mem_nil, rfl⟩
  | cons statement statements inductionHypothesis =>
      obtain ⟨bytes, after, accepted, finite, read⟩ :=
        run_reads archives statement writer text (keeps statement List.mem_cons_self)
      obtain ⟨more, finished, others, rest⟩ := inductionHypothesis _ after
        fun other member => keeps other (List.mem_cons_of_mem _ member)
      refine ⟨bytes ++ more, ?_, ?_, ?_⟩
      · rw [session, finished, accepted, Sink.append_pieces]
      · rw [spelledAll]
        exact List.forall_mem_append.mpr ⟨finite, others⟩
      · rw [read, rest, spelledAll, List.map_append]
        rfl

/-- A scene with a comment, a declaration that is rejected, a report, an escaped string, a negative
zero and an empty array. -/
def scene : List Statement :=
  [.request (.record "comment" "scene 1"),
    .request (.opening (.frame 1)),
    .request (.declare "Kd" "uniform"),
    .request (.report "late"),
    .request (.plain (.shape (.polygon
      [.typed (.uniformString "label" "a\"b\n"),
        .token "P" (.floats [⟨0x3DCCCCCD⟩, ⟨0x80000000⟩])]))),
    .request (.plain (.shape (.pointsPolygons [] [-1, 300] []))),
    .request (.closing .frame)]

def sceneWriter : Writer :=
  .ascii {} ⟨false, false, false, false⟩

/-- The rejected declaration and the report leave nothing behind. -/
example : (sceneWriter.spelledAll .empty scene).map (·.name) =
    ["FrameBegin", "Polygon", "PointsPolygons", "FrameEnd"] := by decide

end Writer

end RibStream
