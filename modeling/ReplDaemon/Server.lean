import ReplDaemon.Client

/-!
# The server

A server takes its connections from a socket that it makes at some path, from a listening socket that
it inherits, or from its own input and output, which are one connection. All connections share one
service. Here they come one after the other.
-/

namespace ReplDaemon

open Text

/-- Where a server takes its connections from. -/
inductive Transport where
  | socket (path : String)
  | inherited (descriptor : Int)
  | stdio
  deriving Repr, DecidableEq

/-- The text of a transport. -/
def Transport.text : Transport → String
  | .socket path => s!"socket {path}"
  | .inherited descriptor => s!"fd {descriptor}"
  | .stdio => "stdio"

/-- What is at a path before a socket is made there. The directory that should hold it may itself be
missing. -/
inductive Occupant where
  | nothing
  | file
  | directory
  | unreachable
  deriving Repr, DecidableEq

/-- Why a server does not start, or ends. -/
inductive ServerError where
  | load (path : String) (e : ConfigError)
  | config (e : ConfigError)
  | bind (path : String) (e : SystemError)
  | adopt (descriptor : Int) (e : SystemError)
  | stdio (e : DaemonError)
  deriving Repr, DecidableEq

/-- A server's error, and what is behind it. -/
def ServerError.causes : ServerError → List String
  | .load path e => s!"failed to load config from {path}" :: e.causes
  | .config e => "invalid daemon configuration" :: e.causes
  | .bind path e => [s!"failed to bind {path}", e.message]
  | .adopt descriptor e => [s!"failed to adopt listening fd {descriptor}", e.message]
  | .stdio e => "stdio connection failed" :: e.causes

/-- Makes a socket at a path. A file in its place is replaced. -/
def Occupant.bind (path : String) : Occupant → Except ServerError Unit
  | .nothing | .file => .ok ()
  | .directory => .error (.bind path .isDirectory)
  | .unreachable => .error (.bind path .notFound)

namespace Server

/-- The service of a server that starts with a checked configuration. -/
def start (config : DaemonConfig) : Except ServerError (Service Unit Script.Bindings) :=
  match config.check with
  | .ok config => .ok (.ofConfig config)
  | .error e => .error (.config e)

/-- Starts to listen, given what is at the path of the socket or whether the inherited descriptor is
open. -/
def listen (config : DaemonConfig) (transport : Transport) (occupant : Occupant)
    (descriptorOpen : Bool) : Except ServerError (Service Unit Script.Bindings) := do
  let service ← start config
  match transport with
  | .socket path => occupant.bind path
  | .inherited descriptor =>
    if !descriptorOpen then throw (.adopt descriptor .badDescriptor)
  | .stdio => pure ()
  return service

/-- Whether a server that ends takes a socket away. -/
def ownsSocket : Transport → Bool
  | .socket _ => true
  | .inherited _ | .stdio => false

/-- Someone who connects: a sender of bytes, or a client with requests. -/
inductive Peer where
  | raw (chunks : List Bytes)
  | client (protocol : Protocol) (requests : List Request)

/-- What someone who connects receives. -/
inductive Received where
  | bytes (b : Bytes)
  | answers (protocol : Protocol) (answers : List (Except DaemonError Response))

variable {σ : Type}

/-- Serves a whole connection. An error ends the connection and nothing else. -/
def serve (r : Responder σ) (s : σ) : Peer → Received × σ
  | .raw chunks =>
    let (answered, _, s) := Connection.serve r s chunks
    (.bytes answered, s)
  | .client protocol requests =>
    let link := Link.connect r s (.new protocol Client.defaultLimit)
    let (answers, link) := link.requestAll requests
    (.answers protocol answers, link.close.2)

/-- Serves connections one after the other. -/
def serveAll (r : Responder σ) (s : σ) : List Peer → List Received
  | [] => []
  | peer :: rest =>
    let (received, s) := serve r s peer
    received :: serveAll r s rest

/-- Serves the one connection over input and output: what is written, and the error with which the
server ends. -/
def serveStdio (r : Responder σ) (s : σ) (input : Bytes) : Bytes × Option ServerError :=
  let (answered, error, _) := Connection.serve r s [input]
  (answered, error.map .stdio)

end Server

end ReplDaemon
