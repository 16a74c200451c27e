import ReplDaemon.Frame.Codec

/-!
# Streams of frames

A stream arrives in pieces. What has arrived and is not yet part of a complete frame waits in a
buffer; an error leaves the buffer as it is. A stream must not end inside a frame.
-/

namespace ReplDaemon

open Text

namespace Frame

/-- Something that finds frames in a buffer. -/
abbrev Decoder (α : Type) := Bytes → Except FrameError (Front α)

/-- What was found in a buffer: frames, perhaps an error behind them, and the bytes left. -/
structure Found (α : Type) where
  items : List α
  error : Option FrameError
  buffer : Bytes

/-- Decodes one frame after the other until none is complete or one is refused. Every frame takes a
byte at least, so there are no more rounds than bytes; `items` holds the frames so far, last one
first. -/
def drainFrom {α : Type} (decoder : Decoder α) (items : List α) (buffer : Bytes) :
    (rounds : Bytes) → Found α
  | [] => { items := items.reverse, error := none, buffer }
  | _ :: rounds =>
    match decoder buffer with
    | .error e => { items := items.reverse, error := some e, buffer }
    | .ok .incomplete => { items := items.reverse, error := none, buffer }
    | .ok (.frame item _ rest) => drainFrom decoder (item :: items) rest rounds

/-- All frames at the front of a buffer. -/
def drain {α : Type} (decoder : Decoder α) (buffer : Bytes) : Found α :=
  drainFrom decoder [] buffer buffer

/-- Adds a piece to the buffer and decodes what is complete. -/
def feed {α : Type} (decoder : Decoder α) (buffer piece : Bytes) : Found α :=
  drain decoder (buffer ++ piece)

/-- Decodes what is left when the stream has ended. -/
def finish {α : Type} (decoder : Decoder α) (buffer : Bytes) : Found α :=
  let found := drain decoder buffer
  match found.error with
  | some _ => found
  | none =>
    if found.buffer.isEmpty then found else { found with error := some .truncated }

end Frame

end ReplDaemon
