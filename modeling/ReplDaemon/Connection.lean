import ReplDaemon.Error
import ReplDaemon.Frame.Stream
import ReplDaemon.Service

/-!
# Connections

A connection is a stream of requests that are answered in order, until the stream ends or holds
something that is not a request. Such bytes are not answered.
-/

namespace ReplDaemon

open Text

/-- Something that answers requests, with a state: the protocol it speaks, how much payload a request
may announce, and what it does with one. A request that is never answered has no response. -/
structure Responder (σ : Type) where
  protocol : Protocol
  limit : Nat
  handle : σ → Request → Option Response × σ

/-- A service answers requests by evaluating them, under settings that do not change. -/
def Service.responder {Shared State : Type} (s : Service Shared State) :
    Responder (Service Shared State) where
  protocol := s.config.protocol
  limit := s.config.codec.maxFrameLength
  handle := Service.handle

/-- The answering side of a connection: the bytes that have arrived and are not yet read as requests,
the bytes that were answered, whether it waits for an answer that never comes, and the error that has
ended it. -/
structure Connection where
  buffer : Bytes
  answered : Bytes
  waiting : Bool
  error : Option FrameError

namespace Connection

variable {σ : Type}

/-- A connection over which nothing has been sent. -/
def start : Connection where
  buffer := []
  answered := []
  waiting := false
  error := none

/-- Whether nothing more is read. -/
def isOver (c : Connection) : Bool :=
  c.waiting || c.error.isSome

/-- Answers requests in order; `written` holds the bytes of the answers so far, last one first. There
is nothing more to say once a request is never answered, and the flag tells that. -/
def answerFrom (r : Responder σ) (s : σ) (written : Bytes) : List Request → Bytes × Bool × σ
  | [] => (written.reverse, false, s)
  | request :: rest =>
    match r.handle s request with
    | (some response, s) =>
      answerFrom r s ((Frame.encodeResponse r.protocol response).reverse ++ written) rest
    | (none, s) => (written.reverse, true, s)

/-- Answers requests in order. -/
def answerAll (r : Responder σ) (s : σ) (requests : List Request) : Bytes × Bool × σ :=
  answerFrom r s [] requests

/-- Finds requests in what arrives. -/
def decoder (r : Responder σ) : Frame.Decoder Request :=
  Frame.decodeRequest r.protocol r.limit

/-- Answers the requests found. An error behind a request that is never answered is not reached. -/
def reply (c : Connection) (r : Responder σ) (s : σ) (found : Frame.Found Request) :
    Connection × σ :=
  let (bytes, waiting, s) := answerAll r s found.items
  ({ buffer := found.buffer, answered := c.answered ++ bytes, waiting,
     error := if waiting then none else found.error }, s)

/-- Takes in what is sent and answers it, unless nothing more is read. -/
def receive (c : Connection) (r : Responder σ) (s : σ) (chunk : Bytes) : Connection × σ :=
  if c.isOver then (c, s) else c.reply r s (Frame.feed (decoder r) c.buffer chunk)

/-- Takes note that nothing more is sent. -/
def finish (c : Connection) (r : Responder σ) (s : σ) : Connection × σ :=
  if c.isOver then (c, s) else c.reply r s (Frame.finish (decoder r) c.buffer)

/-- Takes in chunks in order. -/
def receiveAll (c : Connection) (r : Responder σ) (s : σ) : List Bytes → Connection × σ
  | [] => (c, s)
  | chunk :: rest =>
    let (c, s) := c.receive r s chunk
    receiveAll c r s rest

/-- Serves a whole connection over which some chunks are sent: all bytes answered, the error that
ended it if there was one, and the state afterwards. One that waits for ever has no error. -/
def serve (r : Responder σ) (s : σ) (chunks : List Bytes) : Bytes × Option DaemonError × σ :=
  let (c, s) := start.receiveAll r s chunks
  let (c, s) := c.finish r s
  (c.answered, c.error.map .ofFrameError, s)

end Connection

end ReplDaemon
