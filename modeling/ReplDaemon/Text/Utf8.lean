/-!
# Text on the wire

Texts travel as UTF-8. Bytes that are well formed are read as they are; in all others each maximal
ill-formed part is replaced by U+FFFD, so reading never fails.
-/

namespace ReplDaemon.Text

/-- Bytes as they travel. -/
abbrev Bytes := List UInt8

/-- The UTF-8 bytes of a text. -/
def encode (s : String) : Bytes :=
  s.toUTF8.data.toList

/-- The text that some bytes encode, if they are well formed. -/
def decode? (bytes : Bytes) : Option String :=
  String.fromUTF8? ⟨bytes.toArray⟩

/-- What stands for an ill-formed part. -/
def replacement : Char := '\uFFFD'

/-- A byte that continues a character. -/
def isContinuation (b : UInt8) : Bool :=
  0x80 ≤ b && b ≤ 0xBF

/-- The second bytes that may follow a leading byte, and how many bytes follow it in all. The ranges
leave out overlong forms, surrogates and what lies above U+10FFFF. -/
def following? (lead : UInt8) : Option (Nat × UInt8 × UInt8) :=
  if 0xC2 ≤ lead && lead ≤ 0xDF then some (1, 0x80, 0xBF)
  else if lead == 0xE0 then some (2, 0xA0, 0xBF)
  else if lead == 0xED then some (2, 0x80, 0x9F)
  else if 0xE1 ≤ lead && lead ≤ 0xEF then some (2, 0x80, 0xBF)
  else if lead == 0xF0 then some (3, 0x90, 0xBF)
  else if 0xF1 ≤ lead && lead ≤ 0xF3 then some (3, 0x80, 0xBF)
  else if lead == 0xF4 then some (3, 0x80, 0x8F)
  else none

/-- Where a reading of bytes stands: between characters, or inside one, with the bits read so far,
the number of bytes still due and the range of the next one. -/
inductive Reading where
  | between
  | within (bits : Nat) (due : Nat) (least most : UInt8)

/-- Reads one byte between characters; `acc` holds the characters so far, last one first. -/
def readLead (acc : List Char) (b : UInt8) : Reading × List Char :=
  if b < 0x80 then (.between, Char.ofNat b.toNat :: acc)
  else match following? b with
    | none => (.between, replacement :: acc)
    | some (due, least, most) =>
      let payload := if due == 1 then b &&& 0x1F else if due == 2 then b &&& 0x0F else b &&& 0x07
      (.within payload.toNat due least most, acc)

/-- Reads one byte. A byte that cannot continue an open character ends it as ill formed, and is
read again on its own. -/
def readByte : Reading × List Char → UInt8 → Reading × List Char
  | (.between, acc), b => readLead acc b
  | (.within bits due least most, acc), b =>
    if least ≤ b && b ≤ most then
      let bits := bits * 64 + (b &&& 0x3F).toNat
      if due ≤ 1 then (.between, Char.ofNat bits :: acc)
      else (.within bits (due - 1) 0x80 0xBF, acc)
    else readLead (replacement :: acc) b

/-- The characters of a finished reading; a character left open is ill formed. -/
def Reading.finish : Reading × List Char → List Char
  | (.between, acc) => acc.reverse
  | (.within .., acc) => (replacement :: acc).reverse

/-- Reads bytes, with U+FFFD for each maximal ill-formed part. -/
def repair (bytes : Bytes) : String :=
  .ofList (Reading.finish (bytes.foldl readByte (.between, [])))

/-- The text of any bytes. -/
def decode (bytes : Bytes) : String :=
  (decode? bytes).getD (repair bytes)

/-- The first ill-formed part of some bytes: where it starts, and its length unless the bytes end
inside it. -/
structure Fault where
  index : Nat
  length : Option Nat
  deriving Repr, DecidableEq

/-- Looks for the first ill-formed part. The character being read began at `start`, the next byte is
at `index`. -/
def faultFrom (start index : Nat) : Reading → Bytes → Option Fault
  | .between, [] => none
  | .within .., [] => some ⟨start, none⟩
  | .between, b :: rest =>
    if b < 0x80 then faultFrom (index + 1) (index + 1) .between rest
    else match following? b with
      | none => some ⟨index, some 1⟩
      | some (due, least, most) => faultFrom index (index + 1) (.within 0 due least most) rest
  | .within _ due least most, b :: rest =>
    if least ≤ b && b ≤ most then
      if due ≤ 1 then faultFrom (index + 1) (index + 1) .between rest
      else faultFrom start (index + 1) (.within 0 (due - 1) 0x80 0xBF) rest
    else some ⟨start, some (index - start)⟩

/-- The first ill-formed part, if there is one. -/
def firstFault (bytes : Bytes) : Option Fault :=
  faultFrom 0 0 .between bytes

theorem decode?_encode (s : String) : decode? (encode s) = some s := by
  simp [decode?, encode, String.fromUTF8?, String.toUTF8, s.isValidUTF8, String.fromUTF8]

/-- Reading gives back the text that was written. -/
theorem decode_encode (s : String) : decode (encode s) = s := by
  simp [decode, decode?_encode]

/-- Well-formed bytes are the encoding of their text. -/
theorem encode_of_decode? {bytes : Bytes} {s : String} (h : decode? bytes = some s) :
    encode s = bytes := by
  unfold decode? String.fromUTF8? at h
  split at h
  · cases h
    simp [encode, String.toUTF8, String.fromUTF8]
  · contradiction

/-- The number of bytes that a text takes. -/
theorem length_encode (s : String) : (encode s).length = s.utf8ByteSize := by
  simp [encode, String.toUTF8]

end ReplDaemon.Text
