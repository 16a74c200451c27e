import ReplDaemon.Json.Basic
import ReplDaemon.Text.Utf8

/-!
# Reading JSON

A strict reader of JSON documents from bytes. It keeps the arrays and objects that are still open on a
list of its own, so that no nesting is too deep for it.
-/

namespace ReplDaemon.Json

open Text

/-- Bytes that may stand between tokens. -/
def isSpace (b : UInt8) : Bool :=
  b == 0x20 || b == 0x09 || b == 0x0A || b == 0x0D

/-- Skips space. -/
def skipSpace (bytes : Bytes) : Bytes :=
  bytes.dropWhile isSpace

/-- Whether a byte is a decimal digit. -/
def isDigit (b : UInt8) : Bool :=
  0x30 ≤ b && b ≤ 0x39

/-- The value of a hexadecimal digit. -/
def hexDigit? (b : UInt8) : Option Nat :=
  if 0x30 ≤ b && b ≤ 0x39 then some (b.toNat - 0x30)
  else if 0x61 ≤ b && b ≤ 0x66 then some (b.toNat - 0x61 + 10)
  else if 0x41 ≤ b && b ≤ 0x46 then some (b.toNat - 0x41 + 10)
  else none

/-- Four hexadecimal digits at the front. -/
def hexWord? : Bytes → Option (Nat × Bytes)
  | a :: b :: c :: d :: rest => do
    let a ← hexDigit? a
    let b ← hexDigit? b
    let c ← hexDigit? c
    let d ← hexDigit? d
    return (a * 4096 + b * 256 + c * 16 + d, rest)
  | _ => none

/-- What a backslash and a letter stand for. -/
def simpleEscape? (b : UInt8) : Option UInt8 :=
  if b == 0x22 || b == 0x5C || b == 0x2F then some b
  else if b == 0x62 then some 0x08
  else if b == 0x66 then some 0x0C
  else if b == 0x6E then some 0x0A
  else if b == 0x72 then some 0x0D
  else if b == 0x74 then some 0x09
  else none

/-- A part of a string: bytes, or a 16-bit unit given by its number. -/
inductive Piece where
  | byte (b : UInt8)
  | unit (n : Nat)

/-- The pieces of a string behind its opening mark, and what follows the closing one. `found` holds
the pieces so far, last one first; every round takes a byte. -/
def piecesFrom (found : List Piece) : (rounds bytes : Bytes) → Option (List Piece × Bytes)
  | [], _ | _, [] => none
  | _ :: rounds, b :: rest =>
    if b == 0x22 then some (found.reverse, rest)
    else if b < 0x20 then none
    else if b == 0x5C then
      match rest with
      | e :: rest =>
        if e == 0x75 then
          match hexWord? rest with
          | some (n, rest) => piecesFrom (.unit n :: found) rounds rest
          | none => none
        else match simpleEscape? e with
          | some c => piecesFrom (.byte c :: found) rounds rest
          | none => none
      | [] => none
    else piecesFrom (.byte b :: found) rounds rest

/-- The bytes of a character given by its number. -/
def characterBytes (n : Nat) : Bytes :=
  encode (Char.ofNat n).toString

/-- The bytes that pieces stand for; `found` holds those so far, last one first. Halves of surrogate
pairs must come in pairs. -/
def bytesOf (found : Bytes) : List Piece → Option Bytes
  | [] => some found.reverse
  | .byte b :: rest => bytesOf (b :: found) rest
  | .unit high :: .unit low :: rest =>
    if 0xD800 ≤ high && high < 0xDC00 then
      if 0xDC00 ≤ low && low < 0xE000 then
        let n := 0x10000 + (high - 0xD800) * 0x400 + (low - 0xDC00)
        bytesOf ((characterBytes n).reverse ++ found) rest
      else none
    else if 0xDC00 ≤ high && high < 0xE000 then none
    else bytesOf ((characterBytes high).reverse ++ found) (.unit low :: rest)
  | .unit n :: rest =>
    if 0xD800 ≤ n && n < 0xE000 then none
    else bytesOf ((characterBytes n).reverse ++ found) rest

/-- A string behind its opening mark, and what follows it. -/
def readString (bytes : Bytes) : Option (Option String × Bytes) :=
  match piecesFrom [] bytes bytes with
  | some (pieces, rest) => some ((bytesOf [] pieces).bind decode?, rest)
  | none => none

/-- Digits at the front, at least one. -/
def readDigits (bytes : Bytes) : Option (Bytes × Bytes) :=
  let digits := bytes.takeWhile isDigit
  if digits.isEmpty then none else some (digits, bytes.dropWhile isDigit)

/-- The digits before the point: a zero stands alone. -/
def readWhole : Bytes → Option (Bytes × Bytes)
  | 0x30 :: rest => if rest.head?.any isDigit then none else some ([0x30], rest)
  | bytes => readDigits bytes

/-- A point and digits, if there is a point. -/
def readFraction : Bytes → Option (Bytes × Bytes)
  | 0x2E :: rest => do
    let (digits, rest) ← readDigits rest
    return (0x2E :: digits, rest)
  | bytes => some ([], bytes)

/-- The sign of an exponent, if there is one. -/
def readSign : Bytes → Bytes × Bytes
  | 0x2B :: rest => ([0x2B], rest)
  | 0x2D :: rest => ([0x2D], rest)
  | bytes => ([], bytes)

/-- An exponent, if there is one. -/
def readExponent : Bytes → Option (Bytes × Bytes)
  | b :: rest =>
    if b == 0x65 || b == 0x45 then do
      let (sign, rest) := readSign rest
      let (digits, rest) ← readDigits rest
      return (b :: sign ++ digits, rest)
    else some ([], b :: rest)
  | [] => some ([], [])

/-- A number, and what follows it. -/
def readNumber (bytes : Bytes) : Option (String × Bytes) := do
  let (sign, bytes) : Bytes × Bytes := match bytes with
    | 0x2D :: rest => ([0x2D], rest)
    | bytes => ([], bytes)
  let (whole, bytes) ← readWhole bytes
  let (fraction, bytes) ← readFraction bytes
  let (exponent, bytes) ← readExponent bytes
  return (decode (sign ++ whole ++ fraction ++ exponent), bytes)

/-- An array or object that is still open: what it holds so far, last part first, and in an object the
name of the field being read. -/
inductive Open where
  | array (items : List Json)
  | object (fields : List (Option String × Json)) (name : Option String)

/-- What comes next: a value, the name of a field behind some others, or whatever follows a value. -/
inductive Phase where
  | value
  | name (fields : List (Option String × Json))
  | done (v : Json)

/-- One step of reading: the phase, the open containers and the bytes after it. -/
abbrev Step := Option (Phase × List Open × Bytes)

/-- Starts a value. -/
def startValue (containers : List Open) (bytes : Bytes) : Step :=
  match skipSpace bytes with
  | 0x6E :: 0x75 :: 0x6C :: 0x6C :: rest => some (.done .null, containers, rest)
  | 0x74 :: 0x72 :: 0x75 :: 0x65 :: rest => some (.done (.bool true), containers, rest)
  | 0x66 :: 0x61 :: 0x6C :: 0x73 :: 0x65 :: rest => some (.done (.bool false), containers, rest)
  | 0x22 :: rest => (readString rest).map fun (s, rest) => (.done (.string s), containers, rest)
  | 0x5B :: rest =>
    match skipSpace rest with
    | 0x5D :: rest => some (.done (.array []), containers, rest)
    | rest => some (.value, .array [] :: containers, rest)
  | 0x7B :: rest =>
    match skipSpace rest with
    | 0x7D :: rest => some (.done (.object []), containers, rest)
    | rest => some (.name [], containers, rest)
  | bytes => (readNumber bytes).map fun (n, rest) => (.done (.number n), containers, rest)

/-- Reads the name of a field and the colon behind it. -/
def readName (fields : List (Option String × Json)) (containers : List Open) (bytes : Bytes) :
    Step :=
  match skipSpace bytes with
  | 0x22 :: rest => do
    let (name, rest) ← readString rest
    match skipSpace rest with
    | 0x3A :: rest => return (.value, .object fields name :: containers, rest)
    | _ => none
  | _ => none

/-- Goes on behind a value inside a container. -/
def endValue (v : Json) (container : Open) (containers : List Open) (bytes : Bytes) : Step :=
  match container, skipSpace bytes with
  | .array items, 0x2C :: rest => some (.value, .array (v :: items) :: containers, rest)
  | .array items, 0x5D :: rest => some (.done (.array (v :: items).reverse), containers, rest)
  | .object fields name, 0x2C :: rest => some (.name ((name, v) :: fields), containers, rest)
  | .object fields name, 0x7D :: rest =>
    some (.done (.object ((name, v) :: fields).reverse), containers, rest)
  | _, _ => none

/-- Reads on until a value stands alone; nothing but space may follow it. Every round takes a byte at
least. -/
def readFrom (containers : List Open) (phase : Phase) (bytes : Bytes) : (rounds : Bytes) →
    Option Json
  | [] =>
    match phase, containers with
    | .done v, [] => if (skipSpace bytes).isEmpty then some v else none
    | _, _ => none
  | _ :: rounds =>
    let step := match phase, containers with
      | .value, containers => startValue containers bytes
      | .name fields, containers => readName fields containers bytes
      | .done v, container :: containers => endValue v container containers bytes
      | .done v, [] => some (.done v, [], skipSpace bytes)
    match step with
    | some (phase, containers, bytes) => readFrom containers phase bytes rounds
    | none => none

/-- The JSON value that some bytes spell. -/
def read (bytes : Bytes) : Option Json :=
  readFrom [] .value bytes bytes

end ReplDaemon.Json
