import ReplDaemon.Connection

/-!
# Clients

A client sends requests over one connection and waits for the response to each before it goes on. A
frame that it cannot accept ends what it can read.
-/

namespace ReplDaemon

open Text

/-- The reading side of a client: its protocol, the largest response it accepts, the bytes received
and not yet read, and whether it has given up reading. -/
structure Client where
  protocol : Protocol
  limit : Nat
  buffer : Bytes
  broken : Bool

namespace Client

/-- The largest response that a client accepts unless told otherwise. -/
def defaultLimit : Nat :=
  ({} : CodecConfig).maxFrameLength

/-- A client that has received nothing. -/
def new (protocol : Protocol) (limit : Nat) : Client where
  protocol
  limit
  buffer := []
  broken := false

/-- The bytes of a request. -/
def send (c : Client) (r : Request) : Bytes :=
  Frame.encodeRequest c.protocol r

/-- Takes in what the other side sends. -/
def receive (c : Client) (bytes : Bytes) : Client :=
  { c with buffer := c.buffer ++ bytes }

/-- Reads the next response, where `ended` tells whether the other side sends nothing more. There is
no answer yet if it may still send the rest of one. -/
def await (c : Client) (ended : Bool) : Option (Except DaemonError Response) × Client :=
  if c.broken then (some (.error .connectionClosed), c)
  else match Frame.decodeResponse c.protocol c.limit c.buffer with
    | .error e => (some (.error (.frame e)), { c with broken := true })
    | .ok (.frame response _ rest) => (some (.ok response), { c with buffer := rest })
    | .ok .incomplete =>
      if !ended then (none, c)
      else if c.buffer.isEmpty then (some (.error .connectionClosed), c)
      else (some (.error (.frame .truncated)), { c with broken := true })

/-- Sends requests one after the other to a side that has already sent all it will: what each is
answered, and the bytes sent. -/
def sendAll (c : Client) : List Request → List (Except DaemonError Response) × Bytes
  | [] => ([], [])
  | request :: rest =>
    let (answer, after) := c.await true
    let (answers, sent) := after.sendAll rest
    (answer.toList ++ answers, c.send request ++ sent)

end Client

/-- A client, its connection to something that answers requests, and the state of that. -/
structure Link (σ : Type) where
  client : Client
  connection : Connection
  responder : Responder σ
  state : σ

namespace Link

variable {σ : Type}

/-- A client newly connected. -/
def connect (responder : Responder σ) (state : σ) (client : Client) : Link σ where
  client
  connection := .start
  responder
  state

/-- What a client is told that sends where the connection has been closed. -/
def brokenPipe : DaemonError :=
  .frame (.io SystemError.brokenPipe.message)

/-- Sends a request and waits for the response. A connection that is closed is noticed; one that is
kept open without a response leaves the client waiting for ever. -/
def request (l : Link σ) (r : Request) : Option (Except DaemonError Response) × Link σ :=
  match l.connection.error with
  | some _ => (some (.error brokenPipe), l)
  | none =>
    let (connection, state) := l.connection.receive l.responder l.state (l.client.send r)
    let client := l.client.receive connection.answered
    let (answer, client) := client.await connection.error.isSome
    (answer, { l with client, connection := { connection with answered := [] }, state })

/-- Sends requests one after the other: what each is answered. -/
def requestAll (l : Link σ) : List Request → List (Except DaemonError Response) × Link σ
  | [] => ([], l)
  | r :: rest =>
    let (answer, l) := l.request r
    let (answers, l) := l.requestAll rest
    (answer.toList ++ answers, l)

/-- Closes the client's side: the error with which the other side ends, if it does, and its state
afterwards. An answer that the client has refused cannot be delivered. -/
def close (l : Link σ) : Option DaemonError × σ :=
  let (connection, state) := l.connection.finish l.responder l.state
  let error := connection.error.map DaemonError.ofFrameError
  (if l.client.broken then some brokenPipe else error, state)

end Link

end ReplDaemon
