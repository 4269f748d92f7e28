/-
This file runs the statements of a session and lists how they read and what they send, one by one.
-/

import RibStream.Proofs.Request.Spelled
import RibStream.Proofs.Writer.Plan

namespace RibStream

/-- The result of a statement and the bytes that the sink has accepted from it. -/
structure Exchange where
  result : Except Error Reply
  accepted : List UInt8
deriving DecidableEq

def Exchange.output (exchanges : List Exchange) : List UInt8 :=
  exchanges.flatMap Exchange.accepted

theorem Exchange.output_cons (exchange : Exchange) (rest : List Exchange) :
    output (exchange :: rest) = exchange.accepted ++ output rest := rfl

namespace Writer

/-- The writer after all statements. It goes on after those that fail. -/
def session (archives : Archives) : List Statement → Writer → Writer
  | [], writer => writer
  | statement :: rest, writer => session archives rest (writer.run archives statement).2

/-- How a request reads with the declarations and the counters of the writer. -/
def spelled (writer : Writer) (request : Request) : List RequestLine :=
  (request.spelled? writer.dictionary writer.lights writer.objects).toList

/-- How a statement reads. One that fails is not there to be read. -/
def spelledBy (archives : Archives) (statement : Statement) (writer : Writer) : List RequestLine :=
  match statement, (writer.run archives statement).1 with
  | .request request, .ok _ => writer.spelled request
  | _, _ => []

theorem spelledBy_of_ok {archives : Archives} {request : Request} {writer : Writer} {reply : Reply}
    (success : (writer.run archives (.request request)).1 = .ok reply) :
    writer.spelledBy archives (.request request) = writer.spelled request := by
  unfold spelledBy
  rw [success]

theorem spelledBy_of_error {archives : Archives} {request : Request} {writer : Writer}
    {error : Error} (failure : (writer.run archives (.request request)).1 = .error error) :
    writer.spelledBy archives (.request request) = [] := by
  unfold spelledBy
  rw [failure]

/-- How the statements of a session read, in order. -/
def spelledAll (archives : Archives) : List Statement → Writer → List RequestLine
  | [], _ => []
  | statement :: rest, writer =>
      writer.spelledBy archives statement ++
        spelledAll archives rest (writer.run archives statement).2

/-- What a statement sends to its caller and to the sink. -/
def exchange (archives : Archives) (statement : Statement) (writer : Writer) : Exchange :=
  ⟨(writer.run archives statement).1,
    (writer.run archives statement).2.stream.sink.accepted.toList.drop
      writer.stream.sink.accepted.size⟩

def exchanges (archives : Archives) : List Statement → Writer → List Exchange
  | [], _ => []
  | statement :: rest, writer =>
      writer.exchange archives statement :: exchanges archives rest (writer.run archives statement).2

end Writer

end RibStream
