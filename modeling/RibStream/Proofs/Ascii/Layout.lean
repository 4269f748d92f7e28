/-
This file lays out the lines of a session.
Every beginning of a block indents the lines after it, and every end goes back by one level first.
-/

import RibStream.Proofs.Archive.Inlining
import RibStream.Proofs.Ascii.Printable
import RibStream.Proofs.Ascii.RoundTrip
import RibStream.Proofs.Writer.Rejection

namespace RibStream

/-- The names of the requests that begin a block. -/
def Request.beginnings : List String :=
  Opening.names ++ ["ObjectBegin"]

namespace Ascii

/-- The depth of the line of a piece. The end of a block stands as deep as its beginning. -/
def lineDepth (depth : Nat) : Piece → Nat
  | .line line => if line.name ∈ Closing.names then depth - 1 else depth
  | _ => depth

def nextDepth (depth : Nat) : Piece → Nat
  | .line line => if line.name ∈ Request.beginnings then depth + 1 else lineDepth depth (.line line)
  | _ => depth

/-- The end of a block that has no beginning. -/
def isUnmatched (depth : Nat) : Piece → Bool
  | .line line => depth == 0 && line.name ∈ Closing.names
  | _ => false

/-- The line of a piece without its end. -/
def textOf (depth : Nat) : Piece → List (List UInt8)
  | .nothing => []
  | .record _ text => [indentation depth ++ hash :: Text.bytes text]
  | .line line => [Ascii.line (lineDepth depth (.line line)) line]

/-- The lines of pieces one after the other. -/
def layout : Nat → List Piece → List (List UInt8)
  | _, [] => []
  | depth, piece :: rest => textOf depth piece ++ layout (nextDepth depth piece) rest

def finalDepth (depth : Nat) (pieces : List Piece) : Nat :=
  pieces.foldl nextDepth depth

def unmatchedEnds : Nat → List Piece → Nat
  | _, [] => 0
  | depth, piece :: rest =>
      (if isUnmatched depth piece then 1 else 0) + unmatchedEnds (nextDepth depth piece) rest

theorem layout_append (depth : Nat) (front back : List Piece) :
    layout depth (front ++ back) = layout depth front ++ layout (finalDepth depth front) back := by
  induction front generalizing depth with
  | nil => rfl
  | cons piece front inductionHypothesis =>
      rw [List.cons_append, layout, layout, inductionHypothesis, List.append_assoc]
      rfl

theorem finalDepth_append (depth : Nat) (front back : List Piece) :
    finalDepth depth (front ++ back) = finalDepth (finalDepth depth front) back := by
  rw [finalDepth, List.foldl_append]
  rfl

theorem unmatchedEnds_append (depth : Nat) (front back : List Piece) :
    unmatchedEnds depth (front ++ back) =
      unmatchedEnds depth front + unmatchedEnds (finalDepth depth front) back := by
  induction front generalizing depth with
  | nil => exact (Nat.zero_add _).symm
  | cons piece front inductionHypothesis =>
      rw [List.cons_append, unmatchedEnds, unmatchedEnds, inductionHypothesis, Nat.add_assoc]
      rfl

theorem exists_of_mem_layout {depth : Nat} {pieces : List Piece} {text : List UInt8}
    (member : text ∈ layout depth pieces) :
    ∃ piece ∈ pieces, ∃ current, text ∈ textOf current piece := by
  induction pieces generalizing depth with
  | nil => cases member
  | cons piece pieces inductionHypothesis =>
      rcases List.mem_append.mp member with own | later
      · exact ⟨piece, List.mem_cons_self, depth, own⟩
      · obtain ⟨other, inside, found⟩ := inductionHypothesis later
        exact ⟨other, List.mem_cons_of_mem _ inside, found⟩

theorem not_closing_of_beginning {name : String} (beginning : name ∈ Request.beginnings) :
    name ∉ Closing.names := by
  have table : ∀ name ∈ Request.beginnings, name ∉ Closing.names := by decide
  exact table name beginning

/-- The end of a block goes back by one level before its line. -/
theorem depths_closing (depth : Nat) {line : RequestLine} (closing : line.name ∈ Closing.names) :
    lineDepth depth (.line line) = depth - 1 ∧ nextDepth depth (.line line) = depth - 1 ∧
      isUnmatched depth (.line line) = (depth == 0) := by
  have other : line.name ∉ Request.beginnings := fun beginning =>
    not_closing_of_beginning beginning closing
  simp [lineDepth, nextDepth, isUnmatched, closing, other]

/-- The beginning of a block goes on by one level after its line. -/
theorem depths_beginning (depth : Nat) {line : RequestLine}
    (beginning : line.name ∈ Request.beginnings) :
    lineDepth depth (.line line) = depth ∧ nextDepth depth (.line line) = depth + 1 ∧
      isUnmatched depth (.line line) = false := by
  have other := not_closing_of_beginning beginning
  simp [lineDepth, nextDepth, isUnmatched, beginning, other]

/-- Any other piece stays at its level. -/
theorem depths_other (depth : Nat) {piece : Piece}
    (other : ∀ line, piece = .line line →
      line.name ∉ Closing.names ∧ line.name ∉ Request.beginnings) :
    lineDepth depth piece = depth ∧ nextDepth depth piece = depth ∧
      isUnmatched depth piece = false := by
  cases piece with
  | nothing => exact ⟨rfl, rfl, rfl⟩
  | record kind text => exact ⟨rfl, rfl, rfl⟩
  | line line =>
      obtain ⟨noEnd, noBeginning⟩ := other line rfl
      simp [lineDepth, nextDepth, isUnmatched, noEnd, noBeginning]

/-- A piece is sent as its line. -/
theorem piece_lineDepth (depth : Nat) {piece : Piece}
    (comment : ∀ kind text, piece = .record kind text → kind = "comment") :
    Ascii.piece (lineDepth depth piece) piece = (textOf depth piece).flatMap (· ++ [newline]) := by
  cases piece with
  | nothing => rfl
  | record kind text =>
      rw [Ascii.piece, record, if_pos (comment kind text rfl), textOf, List.flatMap_singleton,
        List.append_assoc]
      rfl
  | line line => rw [Ascii.piece, textOf, List.flatMap_singleton]

end Ascii

/-- What a request has written. A request that is rejected has written nothing. -/
def Issue.pieces (issue : Issue) : List Piece :=
  match issue.outcome.1, (issue.writer.plan issue.request).1 with
  | .ok _, .ok plan => [plan.piece]
  | _, _ => []

/-- What has been written by a request is what its check has planned. -/
def Issue.Settled (issue : Issue) : Prop :=
  match (issue.writer.plan issue.request).1 with
  | .ok plan => issue.outcome.1 = .ok plan.reply ∧ issue.pieces = [plan.piece]
  | .error error => issue.outcome.1 = .error error ∧ issue.pieces = []

/-- What a request has to have written once it succeeds. A report writes nothing and a record itself.
Any other request is one line, which reads as the request is spelled out. -/
def Issue.WritesItself (issue : Issue) : Prop :=
  match issue.request with
  | .report _ => issue.pieces = [.nothing]
  | .record kind text => issue.pieces = [.record kind text]
  | request => ∃ line, issue.pieces = [.line line] ∧
      request.spelled? issue.writer.dictionary issue.writer.lights issue.writer.objects = some line

/-- The records are comments of one line, and the sink goes on accepting everything. -/
def Statement.KeepsComments : Statement → Prop
  | .request issued =>
      ∀ record ∈ issued.records, record.1 = "comment" ∧ Ascii.newline ∉ Text.bytes record.2
  | .room granted => granted = none
  | _ => True

instance (statement : Statement) : Decidable statement.KeepsComments :=
  match statement with
  | .request issued => inferInstanceAs (Decidable (∀ record ∈ issued.records, _))
  | .room granted => inferInstanceAs (Decidable (granted = none))
  | .service _ | .unreadable _ => .isTrue trivial

namespace Writer

theorem warnings_log (writer : Writer) (event : Event) :
    (writer.log event).warnings = writer.warnings + if event.severity = .warning then 1 else 0 := by
  rw [warnings, log, Array.countP_push]
  simp [warnings]

theorem warnings_leave (writer : Writer) :
    writer.leave.warnings =
      writer.warnings + if writer.stream.encoding.isOutermost then 1 else 0 := by
  rw [leave]
  cases writer.stream.encoding.isOutermost with
  | false => rfl
  | true => exact writer.warnings_log .unmatchedEnd

theorem warnings_expandSearchPath (paths : List String) (writer : Writer) :
    (paths.foldl expandSearchPath writer).warnings = writer.warnings := by
  induction paths generalizing writer with
  | nil => rfl
  | cons path paths inductionHypothesis =>
      rw [List.foldl_cons, inductionHypothesis, expandSearchPath, warnings_log]
      rfl

theorem warnings_apply (effect : Effect) (writer : Writer) :
    (writer.apply effect).warnings = writer.warnings := by
  cases effect with
  | none => rfl
  | enter => rfl
  | searchPath paths => exact warnings_expandSearchPath paths writer

/-- The check has neither moved between blocks nor logged a warning. -/
structure Stays (before after : Writer) : Prop where
  stream : after.stream = before.stream
  warnings : after.warnings = before.warnings

/-- What a request that passes its check does to the nesting of blocks. An end leaves a block before
it is sent, a beginning enters one afterwards, and any other request moves nowhere. -/
inductive Moves (before : Writer) (plan : Plan) (checked : Writer) : Prop where
  | closes {line : RequestLine} (piece : plan.piece = .line line)
      (closing : line.name ∈ Closing.names) (effect : plan.effect = .none)
      (left : checked = before.leave)
  | opens {line : RequestLine} (piece : plan.piece = .line line)
      (beginning : line.name ∈ Request.beginnings) (effect : plan.effect = .enter)
      (stays : Stays before checked)
  | stays
      (other : ∀ line, plan.piece = .line line →
        line.name ∉ Closing.names ∧ line.name ∉ Request.beginnings)
      (effect : plan.effect ≠ .enter) (stays : Stays before checked)

/-- A request whose name is none of those of beginnings and ends. -/
theorem Moves.of_name {before checked : Writer} {plan : Plan} {name : String} {tokens : List Token}
    (piece : plan.piece = .line ⟨name, tokens⟩)
    (other : name ∉ Closing.names ∧ name ∉ Request.beginnings) (effect : plan.effect ≠ .enter)
    (stays : Stays before checked) : Moves before plan checked := by
  refine .stays ?_ effect stays
  intro line same
  rw [piece] at same
  cases same
  exact other

theorem PlainRequest.name_not_mem (request : PlainRequest) :
    request.layout.name ∉ Closing.names ∧ request.layout.name ∉ Request.beginnings := by
  have table : (PlainRequest.names.all fun name =>
      decide (name ∉ Closing.names ∧ name ∉ Request.beginnings)) = true := by
    decide +kernel
  exact of_decide_eq_true (List.all_eq_true.mp table _ request.name_mem)

theorem Planned.moves {request : Request} {writer checked : Writer} {plan : Plan}
    (planned : Planned writer request plan checked) : Moves writer plan checked := by
  cases planned with
  | @plain request line resolved =>
      have other := PlainRequest.name_not_mem request
      rw [← Layout.name_of_resolve resolved] at other
      exact .of_name rfl other (by simp) ⟨rfl, rfl⟩
  | record => exact .stays (by simp) (by simp) ⟨rfl, rfl⟩
  | @report message =>
      exact .stays (by simp) (by simp) ⟨rfl, writer.warnings_log (.reported message)⟩
  | option resolved =>
      refine .of_name rfl (by decide) ?_ ⟨rfl, rfl⟩
      rw [optionPaths]
      split <;> simp
  | declare | lightSource | areaLightSource | readArchive =>
      exact .of_name rfl (by decide) (by simp) ⟨rfl, rfl⟩
  | @opening block => exact .opens rfl (List.mem_append_left _ block.name_mem) rfl ⟨rfl, rfl⟩
  | objectBegin room =>
      exact .opens rfl (show "ObjectBegin" ∈ Request.beginnings by decide) rfl ⟨rfl, rfl⟩
  | @closing block => exact .closes rfl block.name_mem rfl rfl
  | @procedural strings bound refine release =>
      refine .of_name rfl (by decide) (by simp) ?_
      cases release <;> exact ⟨rfl, rfl⟩

theorem Refuses.stays {request : Request} {writer left : Writer} {error : Error}
    (refuses : Refuses writer request error left) : Stays writer left := by
  cases refuses with
  | @procedural strings bound refine release => cases release <;> exact ⟨rfl, rfl⟩
  | _ => exact ⟨rfl, rfl⟩

/-- The output since a writer of the given depth is that of the given pieces, laid out. -/
structure LaidOut (start : Writer) (depth : Nat) (pieces : List Piece) (current : Writer) : Prop where
  accepted : current.stream.sink.accepted = start.stream.sink.accepted ++
    (Ascii.layout depth pieces).flatMap (· ++ [Ascii.newline])
  encoding : current.stream.encoding = .ascii (Ascii.finalDepth depth pieces)
  warnings : current.warnings = start.warnings + Ascii.unmatchedEnds depth pieces

namespace LaidOut

variable {start middle last : Writer} {depth : Nat} {front back : List Piece}

theorem trans (before : LaidOut start depth front middle)
    (after : LaidOut middle (Ascii.finalDepth depth front) back last) :
    LaidOut start depth (front ++ back) last where
  accepted := by
    rw [after.accepted, before.accepted, Ascii.layout_append, List.flatMap_append,
      Sink.append_pieces]
  encoding := by rw [after.encoding, Ascii.finalDepth_append]
  warnings := by rw [after.warnings, before.warnings, Ascii.unmatchedEnds_append, Nat.add_assoc]

/-- Nothing has been written. -/
theorem of_stays (ascii : start.stream.encoding = .ascii depth) (stays : Stays start last) :
    LaidOut start depth [] last where
  accepted := by
    rw [stays.stream, Ascii.layout]
    simp
  encoding := by rw [stays.stream, ascii, Ascii.finalDepth, List.foldl_nil]
  warnings := stays.warnings

/-- One piece has been written. -/
theorem single {piece : Piece} (comment : ∀ kind text, piece = .record kind text → kind = "comment")
    (accepted : last.stream.sink.accepted =
      start.stream.sink.accepted ++ Ascii.piece (Ascii.lineDepth depth piece) piece)
    (encoding : last.stream.encoding = .ascii (Ascii.nextDepth depth piece))
    (warnings : last.warnings =
      start.warnings + if Ascii.isUnmatched depth piece then 1 else 0) :
    LaidOut start depth [piece] last where
  accepted := by
    rw [accepted, Ascii.piece_lineDepth depth comment, Ascii.layout, Ascii.layout, List.append_nil]
  encoding := encoding
  warnings := warnings

end LaidOut

/-- On a sink that accepts everything, a request that passes its check is sent and takes effect. -/
theorem complete_text (plan : Plan) (checked : Writer) (depth : Nat)
    (ascii : checked.stream.encoding = .ascii depth) (unlimited : checked.stream.sink.room = none) :
    complete (.ok plan, checked) =
      (.ok plan.reply, { checked with
        stream := checked.stream.append (Ascii.piece depth plan.piece) }.apply plan.effect) := by
  rw [complete, send_text plan.piece checked depth ascii unlimited]

/-- A request that passes its check adds its piece. -/
theorem complete_laidOut {plan : Plan} {writer checked : Writer} {depth : Nat}
    (moves : Moves writer plan checked) (ascii : writer.stream.encoding = .ascii depth)
    (unlimited : writer.stream.sink.room = none)
    (comment : ∀ kind text, plan.piece = .record kind text → kind = "comment") :
    (complete (.ok plan, checked)).1 = .ok plan.reply ∧
      (complete (.ok plan, checked)).2.stream.sink.room = none ∧
      LaidOut writer depth [plan.piece] (complete (.ok plan, checked)).2 := by
  cases moves with
  | @closes line piece closing effect left =>
      obtain ⟨lineDepth, nextDepth, unmatched⟩ := Ascii.depths_closing depth closing
      have stream : checked.stream = writer.stream.leave := left ▸ (leave_frame writer).2
      have outer : checked.stream.encoding = .ascii (depth - 1) := by
        rw [stream, Stream.leave, ascii]
        rfl
      have sink : checked.stream.sink = writer.stream.sink := by
        rw [stream]
        rfl
      have room : checked.stream.sink.room = none := sink ▸ unlimited
      rw [complete_text plan checked (depth - 1) outer room, effect]
      refine ⟨rfl, room, .single comment ?_ ?_ ?_⟩
      · rw [piece, lineDepth, ← sink]
        rfl
      · rw [piece, nextDepth]
        exact outer
      · have logged := writer.warnings_leave
        rw [ascii] at logged
        rw [piece, unmatched]
        exact (congrArg warnings left).trans logged
  | @opens line piece beginning effect stays =>
      obtain ⟨lineDepth, nextDepth, unmatched⟩ := Ascii.depths_beginning depth beginning
      rw [complete_text plan checked depth (stays.stream ▸ ascii) (stays.stream ▸ unlimited), effect]
      refine ⟨rfl, stays.stream ▸ unlimited, .single comment ?_ ?_ ?_⟩
      · rw [piece, lineDepth, ← stays.stream]
        rfl
      · rw [piece, nextDepth]
        show checked.stream.encoding.enter = _
        rw [stays.stream, ascii]
        rfl
      · rw [piece, unmatched]
        exact stays.warnings
  | stays other effect stays =>
      obtain ⟨lineDepth, nextDepth, unmatched⟩ := Ascii.depths_other depth other
      rw [complete_text plan checked depth (stays.stream ▸ ascii) (stays.stream ▸ unlimited)]
      have stream := stream_apply plan.effect { checked with
        stream := checked.stream.append (Ascii.piece depth plan.piece) }
      rw [if_neg effect] at stream
      refine ⟨rfl, ?_, .single comment ?_ ?_ ?_⟩
      · rw [stream]
        exact stays.stream ▸ unlimited
      · rw [stream, lineDepth, ← stays.stream]
        rfl
      · rw [stream, nextDepth]
        exact stays.stream ▸ ascii
      · rw [warnings_apply, unmatched]
        exact stays.warnings

/-- One request is rejected, or it adds its piece. -/
theorem perform_laidOut {request : Request} {writer : Writer} {depth : Nat}
    (ascii : writer.stream.encoding = .ascii depth) (unlimited : writer.stream.sink.room = none)
    (comments : ∀ record ∈ request.records, record.1 = "comment") :
    Issue.Settled ⟨request, writer⟩ ∧ (writer.perform request).2.stream.sink.room = none ∧
      LaidOut writer depth (Issue.pieces ⟨request, writer⟩) (writer.perform request).2 := by
  have checked := checked_plan request writer
  rw [Issue.Settled, Issue.pieces, Issue.outcome, perform]
  generalize writer.plan request = outcome at checked ⊢
  obtain ⟨result, after⟩ := outcome
  cases result with
  | error error =>
      have stays := Refuses.stays checked
      exact ⟨⟨rfl, rfl⟩, stays.stream ▸ unlimited, .of_stays ascii stays⟩
  | ok plan =>
      have planned : Planned writer request plan after := checked
      have comment (kind text : String) (piece : plan.piece = .record kind text) :
          kind = "comment" := by
        cases planned with
        | record =>
            cases piece
            exact comments (kind, text) List.mem_cons_self
        | _ => cases piece
      obtain ⟨success, room, laidOut⟩ := complete_laidOut planned.moves ascii unlimited comment
      rw [success]
      exact ⟨⟨rfl, rfl⟩, room, laidOut⟩

/-- A run adds the pieces of all its requests. -/
theorem Path.laidOut {start last : Writer} {issues : List Issue} {depth : Nat}
    (path : Path Statement.KeepsComments start issues last)
    (ascii : start.stream.encoding = .ascii depth) (unlimited : start.stream.sink.room = none) :
    last.stream.sink.room = none ∧ LaidOut start depth (issues.flatMap Issue.pieces) last := by
  induction path generalizing depth with
  | done writer => exact ⟨unlimited, .of_stays ascii ⟨rfl, rfl⟩⟩
  | quiet quiet later inductionHypothesis =>
      have stream := quiet.stream_eq
      have stays : LaidOut _ depth [] _ := .of_stays ascii ⟨stream, quiet.warnings⟩
      obtain ⟨room, rest⟩ := inductionHypothesis (stream ▸ ascii) (stream ▸ unlimited)
      exact ⟨room, stays.trans rest⟩
  | @granted writer last granted issues has later inductionHypothesis =>
      cases has
      have same : writer.stream.sink.grant none = writer.stream.sink := by
        rw [Sink.grant, ← unlimited]
      have stays : LaidOut writer depth []
          { writer with stream.sink := writer.stream.sink.grant none } :=
        .of_stays ascii ⟨congrArg (Stream.mk writer.stream.encoding) same, rfl⟩
      obtain ⟨room, rest⟩ := inductionHypothesis ascii rfl
      exact ⟨room, stays.trans rest⟩
  | carriedOut has later inductionHypothesis =>
      obtain ⟨-, sent, laidOut⟩ := perform_laidOut ascii unlimited fun record member =>
        (has record member).1
      obtain ⟨room, rest⟩ := inductionHypothesis laidOut.encoding sent
      rw [List.flatMap_cons]
      exact ⟨room, laidOut.trans rest⟩

theorem LaidOut.indent {start current : Writer} {depth : Nat} {pieces : List Piece}
    (laidOut : LaidOut start depth pieces current) :
    current.stream.encoding.indent = 4 * Ascii.finalDepth depth pieces := by
  rw [laidOut.encoding]
  rfl

end Writer

namespace Issue

variable {issue : Issue} {piece : Piece}

theorem sends_of_mem (member : piece ∈ issue.pieces) : Writer.Sends issue.request piece := by
  have sends (plan : Plan) := @Writer.plan_sends issue.request issue.writer plan
  rw [pieces] at member
  generalize (issue.writer.plan issue.request).1 = planned at member sends
  generalize issue.outcome.1 = result at member
  cases result with
  | error error => cases member
  | ok reply =>
      cases planned with
      | error error => cases member
      | ok plan =>
          rw [List.mem_singleton.mp member]
          exact sends plan rfl

theorem writesItself {reply : Reply} (success : issue.outcome.1 = .ok reply) :
    issue.WritesItself := by
  obtain ⟨request, writer⟩ := issue
  cases planned : (writer.plan request).1 with
  | error error =>
      have failure : (Issue.mk request writer).outcome.1 = .error error :=
        (Writer.perform_of_plan_error planned).1
      rw [failure] at success
      cases success
  | ok plan =>
      have written : (Issue.mk request writer).pieces = [plan.piece] := by
        rw [pieces, success]
        simp only [planned]
      have sends := Writer.plan_sends planned
      have spelled := Writer.plan_spelled planned
      cases request with
      | report message | record kind text =>
          cases planned
          exact written
      | _ =>
          generalize plan.piece = piece at written sends spelled
          cases sends with
          | nothing same => cases same
          | record same => cases same
          | line => exact ⟨_, written, Option.toList_eq_singleton_iff.mp spelled.symm⟩

/-- The lines of a request are lines. -/
theorem newline_not_mem_text (keeps : Statement.KeepsComments (.request issue.request))
    (member : piece ∈ issue.pieces) {depth : Nat} {text : List UInt8}
    (inside : text ∈ Ascii.textOf depth piece) : Ascii.newline ∉ text := by
  cases sends_of_mem member with
  | nothing => cases inside
  | record same =>
      obtain ⟨-, plain⟩ := keeps _ (by rw [same]; exact List.mem_cons_self)
      rw [List.mem_singleton.mp inside, List.mem_append, List.mem_cons, not_or, not_or]
      exact ⟨Ascii.newline_not_mem_indentation depth, by decide, plain⟩
  | line named =>
      rw [List.mem_singleton.mp inside]
      exact Ascii.newline_not_mem_of_printable (Ascii.printable_line _ named)

end Issue

namespace Writer

/-- The output of a session has one line for each request or comment that was written, wherever it
stood, and every request that has succeeded is written as it reads. A line is indented by four columns
for each block that has been begun and not ended before it, its own end included. The indentation agrees
before and after each request, and exactly the ends without a beginning have been logged as warnings. No
byte of the line of a request is a control character or lies beyond the plain ones. -/
theorem laidOut_session {archives : Archives} (steady : archives.All Statement.KeepsComments)
    (statements : List Statement) (own : ∀ statement ∈ statements, statement.KeepsComments)
    (writer : Writer) (depth : Nat) (ascii : writer.stream.encoding = .ascii depth)
    (unlimited : writer.stream.sink.room = none) :
    LaidOut writer depth ((writer.issues archives statements).flatMap Issue.pieces)
      (writer.session archives statements) ∧
    (writer.session archives statements).stream.encoding.indent =
      4 * Ascii.finalDepth depth ((writer.issues archives statements).flatMap Issue.pieces) ∧
    (∀ front issue back, writer.issues archives statements = front ++ issue :: back →
      issue.Settled ∧
      LaidOut writer depth (front.flatMap Issue.pieces) issue.writer ∧
      issue.writer.stream.encoding.indent =
        4 * Ascii.finalDepth depth (front.flatMap Issue.pieces) ∧
      LaidOut writer depth ((front ++ [issue]).flatMap Issue.pieces) issue.outcome.2) ∧
    (∀ issue ∈ writer.issues archives statements, ∀ reply, issue.outcome.1 = .ok reply →
      issue.WritesItself) ∧
    (∀ text ∈ Ascii.layout depth ((writer.issues archives statements).flatMap Issue.pieces),
      Ascii.newline ∉ text) ∧
    ∀ issue ∈ writer.issues archives statements, ∀ line, .line line ∈ issue.pieces →
      ∀ current, ∀ byte ∈ Ascii.line current line, 32 ≤ byte ∧ byte ≤ 176 := by
  have path := path_session steady statements own writer
  obtain ⟨-, whole⟩ := path.laidOut ascii unlimited
  refine ⟨whole, whole.indent, ?_, fun issue _ reply => issue.writesItself, ?_, ?_⟩
  · intro front issue back split
    obtain ⟨before, has, -⟩ := path.cut split
    obtain ⟨room, laidOut⟩ := before.laidOut ascii unlimited
    obtain ⟨settled, -, -⟩ :=
      perform_laidOut laidOut.encoding room fun record member => (has record member).1
    have after := before.append (.single has issue.writer)
    exact ⟨settled, laidOut, laidOut.indent, (after.laidOut ascii unlimited).2⟩
  · intro text member
    obtain ⟨piece, inside, current, found⟩ := Ascii.exists_of_mem_layout member
    obtain ⟨issue, issued, part⟩ := List.mem_flatMap.mp inside
    obtain ⟨front, back, split⟩ := List.append_of_mem issued
    obtain ⟨-, has, -⟩ := path.cut split
    exact Issue.newline_not_mem_text has part found
  · intro issue issued line part current byte member
    cases Issue.sends_of_mem part with
    | line named =>
        have plain := Ascii.printable_line current named byte member
        rwa [Text.isPlain, Bool.and_eq_true, decide_eq_true_eq, decide_eq_true_eq] at plain

/-- A comment, an archive that stops inside of its block, and two ends. -/
def unbalanced : List Statement :=
  [.request (.record "comment" "scene"), .request (.readArchive "branch.rib" []),
    .request (.closing .world), .request (.closing .frame)]

/-- The first end closes the block of the archive, and the second one finds none. -/
theorem laidOut_session_unbalanced :
    twoArchives.All Statement.KeepsComments ∧
      (∀ statement ∈ unbalanced, statement.KeepsComments) ∧
      archiveReader.stream.encoding = .ascii 0 ∧ archiveReader.stream.sink.room = none ∧
      (archiveReader.session twoArchives unbalanced).stream.sink.accepted.toList =
        Text.bytes ("#scene\nLightSource \"pointlight\" 1\nIlluminate 1 0\nAttributeBegin\n" ++
          "WorldEnd\nFrameEnd\n") ∧
      (archiveReader.session twoArchives unbalanced).warnings = 1 := by
  have steady : twoArchives.All Statement.KeepsComments :=
    each_twoArchives (Script.all_replaying (by decide))
      (all_lampScript (by decide) (fun _ => by simp [Statement.KeepsComments, Request.records])
        (by decide))
  have own : ∀ statement ∈ unbalanced, statement.KeepsComments := by decide
  obtain ⟨laidOut, -⟩ := laidOut_session steady unbalanced own archiveReader 0 rfl rfl
  have pieces : (archiveReader.issues twoArchives unbalanced).flatMap Issue.pieces =
      [.record "comment" "scene", .line ⟨"LightSource", [.string "pointlight", .int 1]⟩,
        .line ⟨"Illuminate", [.int 1, .int 0]⟩, .line ⟨"AttributeBegin", []⟩,
        .line ⟨"WorldEnd", []⟩, .line ⟨"FrameEnd", []⟩] := rfl
  rw [pieces] at laidOut
  refine ⟨steady, own, rfl, rfl, ?_, ?_⟩
  · rw [laidOut.accepted]
    decide +kernel
  · rw [laidOut.warnings]
    decide

end Writer

end RibStream
