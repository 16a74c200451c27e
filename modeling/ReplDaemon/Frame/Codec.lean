import ReplDaemon.Frame.Basic

/-!
# Frames

The byte layouts of requests and responses. Numbers are 32 bits wide, lowest byte first.

    keyed request    timeout, key length, code length, key, code
    legacy request   timeout, code length, code
    keyed response   length, text
    legacy response  success flag, length, text

Decoding looks at the front of a buffer. It can say that the frame there is not complete yet; a frame
that announces too much is refused as soon as its header is there.
-/

namespace ReplDaemon

open Text

/-- Bytes that start with a frame: not all of it is there, or all of it, with its size and what
follows. -/
inductive Front (α : Type) where
  | incomplete
  | frame (value : α) (size : Nat) (rest : Bytes)

namespace Frame

/-- A number in four bytes. -/
def word (n : UInt32) : Bytes :=
  [n.toUInt8, (n >>> 8).toUInt8, (n >>> 16).toUInt8, (n >>> 24).toUInt8]

/-- The number in four bytes. -/
def ofWord (a b c d : UInt8) : UInt32 :=
  a.toUInt32 ||| (b.toUInt32 <<< 8) ||| (c.toUInt32 <<< 16) ||| (d.toUInt32 <<< 24)

/-- The length of some bytes, in four bytes. -/
def lengthWord (bytes : Bytes) : Bytes :=
  word (.ofNat bytes.length)

/-- The first `n` bytes and the others, if there are that many. -/
def split? (n : Nat) (bytes : Bytes) : Option (Bytes × Bytes) :=
  let (front, rest) := bytes.splitAt n
  if front.length = n then some (front, rest) else none

/-- The length of a request's header. -/
def requestHeader : Protocol → Nat
  | .keyed => 12
  | .legacy => 8

/-- The length of a response's header. -/
def responseHeader : Protocol → Nat
  | .keyed => 4
  | .legacy => 5

/-- The payload of a request behind its header. -/
def requestBody (p : Protocol) (limit : Nat) (timeout keyLength codeLength : UInt32)
    (body : Bytes) : Except FrameError (Front Request) :=
  let declared := keyLength.toNat + codeLength.toNat
  if limit < declared then .error (.tooLarge declared limit)
  else match split? keyLength.toNat body with
    | none => .ok .incomplete
    | some (key, body) =>
      match split? codeLength.toNat body with
      | none => .ok .incomplete
      | some (code, rest) =>
        let request := { timeout, key := decode key, code := decode code }
        .ok (.frame request (requestHeader p + declared) rest)

/-- The request at the front of a buffer. -/
def decodeRequest (p : Protocol) (limit : Nat) (buffer : Bytes) :
    Except FrameError (Front Request) :=
  match p, buffer with
  | .keyed, t₀ :: t₁ :: t₂ :: t₃ :: k₀ :: k₁ :: k₂ :: k₃ :: c₀ :: c₁ :: c₂ :: c₃ :: body =>
    requestBody .keyed limit (ofWord t₀ t₁ t₂ t₃) (ofWord k₀ k₁ k₂ k₃) (ofWord c₀ c₁ c₂ c₃) body
  | .legacy, t₀ :: t₁ :: t₂ :: t₃ :: c₀ :: c₁ :: c₂ :: c₃ :: body =>
    requestBody .legacy limit (ofWord t₀ t₁ t₂ t₃) 0 (ofWord c₀ c₁ c₂ c₃) body
  | _, _ => .ok .incomplete

/-- The bytes of a request. The legacy protocol has no place for the key. -/
def encodeRequest (p : Protocol) (r : Request) : Bytes :=
  let key := encode r.key
  let code := encode r.code
  match p with
  | .keyed => word r.timeout ++ lengthWord key ++ lengthWord code ++ key ++ code
  | .legacy => word r.timeout ++ lengthWord code ++ code

/-- The payload of a response behind its header. -/
def responseBody (p : Protocol) (limit : Nat) (success : Bool) (length : UInt32) (body : Bytes) :
    Except FrameError (Front Response) :=
  if limit < length.toNat then .error (.tooLarge length.toNat limit)
  else match split? length.toNat body with
    | none => .ok .incomplete
    | some (text, rest) =>
      .ok (.frame { success, text := decode text } (responseHeader p + length.toNat) rest)

/-- The response at the front of a buffer. The keyed protocol has no flag, so its responses count as
successful. -/
def decodeResponse (p : Protocol) (limit : Nat) (buffer : Bytes) :
    Except FrameError (Front Response) :=
  match p, buffer with
  | .keyed, l₀ :: l₁ :: l₂ :: l₃ :: body =>
    responseBody .keyed limit true (ofWord l₀ l₁ l₂ l₃) body
  | .legacy, flag :: l₀ :: l₁ :: l₂ :: l₃ :: body =>
    if flag = 0 then responseBody .legacy limit false (ofWord l₀ l₁ l₂ l₃) body
    else if flag = 1 then responseBody .legacy limit true (ofWord l₀ l₁ l₂ l₃) body
    else .error (.unexpectedFlag flag)
  | _, _ => .ok .incomplete

/-- The bytes of a response. Only the legacy protocol tells whether it is a success. -/
def encodeResponse (p : Protocol) (r : Response) : Bytes :=
  let text := encode r.text
  match p with
  | .keyed => lengthWord text ++ text
  | .legacy => (if r.success then 1 else 0) :: lengthWord text ++ text

end Frame

end ReplDaemon
