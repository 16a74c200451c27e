import ReplDaemon.Proofs.Frame.Stream

/-!
# What a stream of responses may start with

A response on the wire is a header, with a flag in front of the length in the legacy protocol, and the
bytes of a text. The main statements say which bytes `decodeResponse` takes for a response, which it
refuses, and which it finds incomplete; so what it says of some bytes it also says when more follow.
-/

namespace ReplDaemon.Frame

open Text

/-- What announces a response. The keyed protocol only knows successes. -/
structure ResponseHeader (p : Protocol) where
  success : Bool
  length : UInt32
  success_keyed : p = .keyed → success = true := by simp

/-- The byte that tells whether a response is a success. -/
def flag (success : Bool) : UInt8 :=
  if success then 1 else 0

namespace ResponseHeader

variable {p : Protocol}

/-- A header as it travels. -/
def bytes (h : ResponseHeader p) : Bytes :=
  match p with
  | .keyed => word h.length
  | .legacy => flag h.success :: word h.length

@[simp]
theorem length_bytes (h : ResponseHeader p) : h.bytes.length = responseHeader p := by
  cases p <;> simp [bytes, responseHeader]

end ResponseHeader

/-- Behind a header, decoding looks at the text. -/
theorem decodeResponse_header {p : Protocol} (limit : Nat) (h : ResponseHeader p) (body : Bytes) :
    decodeResponse p limit (h.bytes ++ body) = responseBody p limit h.success h.length body := by
  obtain ⟨a, b, c, d, hbytes, hlength⟩ := exists_word_eq h.length
  cases p with
  | keyed => simp [ResponseHeader.bytes, hbytes, decodeResponse, hlength, h.success_keyed]
  | legacy =>
      cases hsuccess : h.success <;>
        simp [ResponseHeader.bytes, hbytes, decodeResponse, hlength, hsuccess, flag]

/-- Where a flag should be there is another byte. -/
structure UnexpectedFlag (p : Protocol) (byte : UInt8) : Prop where
  legacy : p = .legacy
  ne_flag : ∀ success, byte ≠ flag success

/-- A byte that is no flag is refused as soon as the header is there, whatever follows it. -/
theorem decodeResponse_unexpectedFlag {p : Protocol} {byte : UInt8} (h : UnexpectedFlag p byte)
    (limit : Nat) (length : UInt32) (body : Bytes) :
    decodeResponse p limit (byte :: word length ++ body) = .error (.unexpectedFlag byte) := by
  obtain ⟨rfl, hne⟩ := h
  obtain ⟨a, b, c, d, hbytes, -⟩ := exists_word_eq length
  have hfailure : byte ≠ 0 := hne false
  have hsuccess : byte ≠ 1 := hne true
  simp [hbytes, decodeResponse, hfailure, hsuccess]

/-- Nothing is said of bytes that are shorter than a header. -/
theorem decodeResponse_short {p : Protocol} (limit : Nat) {bytes : Bytes}
    (hlength : bytes.length < responseHeader p) :
    decodeResponse p limit bytes = .ok .incomplete := by
  unfold decodeResponse
  split
  · simp only [responseHeader, List.length_cons] at hlength
    omega
  · simp only [responseHeader, List.length_cons] at hlength
    omega
  · rfl

/-- A response as it travels: its flag, and the bytes of its text. -/
structure ResponseFrame where
  success : Bool
  text : Bytes
  deriving Repr, DecidableEq

namespace ResponseFrame

/-- What a response says. -/
def response (f : ResponseFrame) : Response where
  success := f.success
  text := decode f.text

/-- The bytes of a response. -/
def bytes (p : Protocol) (f : ResponseFrame) : Bytes :=
  match p with
  | .keyed => lengthWord f.text ++ f.text
  | .legacy => flag f.success :: lengthWord f.text ++ f.text

/-- A response that may be sent: its text has a length that can be announced and is within the limit,
and the keyed protocol sends no failure. -/
structure Fits (p : Protocol) (limit : Nat) (f : ResponseFrame) : Prop where
  text_length : f.text.length < 2 ^ 32
  payload : f.text.length ≤ limit
  success_keyed : p = .keyed → f.success = true

variable {p : Protocol} {limit : Nat} {f : ResponseFrame}

/-- The header of a response. -/
def Fits.header (hf : f.Fits p limit) : ResponseHeader p where
  success := f.success
  length := .ofNat f.text.length
  success_keyed := hf.success_keyed

theorem Fits.bytes_eq (hf : f.Fits p limit) : f.bytes p = hf.header.bytes ++ f.text := by
  cases p <;> simp [bytes, Fits.header, ResponseHeader.bytes, lengthWord]

theorem Fits.length_bytes (hf : f.Fits p limit) :
    (f.bytes p).length = responseHeader p + f.text.length := by
  simp [hf.bytes_eq]

end ResponseFrame

/-- The bytes of a response are decoded to it, whatever follows them. -/
theorem decodeResponse_bytes {p : Protocol} {limit : Nat} {f : ResponseFrame} (hf : f.Fits p limit)
    (rest : Bytes) :
    decodeResponse p limit (f.bytes p ++ rest) =
      .ok (.frame f.response (f.bytes p).length rest) := by
  have hlength : hf.header.length.toNat = f.text.length := toNat_ofNat_length hf.text_length
  rw [hf.length_bytes, hf.bytes_eq, List.append_assoc, decodeResponse_header, responseBody]
  simp only [hlength, if_neg (Nat.not_lt.mpr hf.payload), split?_append]
  rfl

/-- A header that announces too much is refused, whatever follows it. -/
theorem decodeResponse_oversized {p : Protocol} {limit : Nat} {h : ResponseHeader p}
    (hlimit : limit < h.length.toNat) (body : Bytes) :
    decodeResponse p limit (h.bytes ++ body) = .error (.tooLarge h.length.toNat limit) := by
  rw [decodeResponse_header, responseBody]
  exact if_pos hlimit

/-- A text that is shorter than announced is incomplete. -/
theorem decodeResponse_partial {p : Protocol} {limit : Nat} {h : ResponseHeader p} {body : Bytes}
    (hlimit : h.length.toNat ≤ limit) (hbody : body.length < h.length.toNat) :
    decodeResponse p limit (h.bytes ++ body) = .ok .incomplete := by
  rw [decodeResponse_header, responseBody, if_neg (Nat.not_lt.mpr hlimit),
    split?_of_length_lt hbody]

/-- What bytes may start with: a response, or something that is refused whatever follows it, or neither
as long as no more is there. -/
inductive ResponseFront (p : Protocol) (limit : Nat) : Bytes → Prop where
  | frame {f : ResponseFrame} (hf : f.Fits p limit) (rest : Bytes) :
      ResponseFront p limit (f.bytes p ++ rest)
  | refused {bytes : Bytes} (e : FrameError)
      (h : ∀ more, decodeResponse p limit (bytes ++ more) = .error e) : ResponseFront p limit bytes
  | incomplete {bytes : Bytes} (h : decodeResponse p limit bytes = .ok .incomplete) :
      ResponseFront p limit bytes

/-- Behind a header there is too much announced, or too little there, or a whole text. -/
theorem ResponseHeader.front {p : Protocol} (limit : Nat) (h : ResponseHeader p) (body : Bytes) :
    ResponseFront p limit (h.bytes ++ body) := by
  by_cases hlimit : limit < h.length.toNat
  · refine .refused (.tooLarge h.length.toNat limit) fun more => ?_
    rw [List.append_assoc]
    exact decodeResponse_oversized hlimit (body ++ more)
  · by_cases hbody : body.length < h.length.toNat
    · exact .incomplete (decodeResponse_partial (Nat.not_lt.mp hlimit) hbody)
    · obtain ⟨text, rest, rfl, hlength⟩ := exists_split (Nat.not_lt.mp hbody)
      have hf : ResponseFrame.Fits p limit ⟨h.success, text⟩ :=
        { text_length := hlength ▸ h.length.toNat_lt
          payload := hlength ▸ Nat.not_lt.mp hlimit
          success_keyed := h.success_keyed }
      have hheader : hf.header = h := by
        simp only [ResponseFrame.Fits.header, hlength, UInt32.ofNat_toNat]
      rw [← hheader, ← List.append_assoc, ← hf.bytes_eq]
      exact .frame hf rest

/-- Bytes that are long enough start with a header, unless there is no flag where one should be. -/
theorem exists_responseHeader {p : Protocol} {bytes : Bytes}
    (hlength : responseHeader p ≤ bytes.length) :
    (∃ (h : ResponseHeader p) (body : Bytes), bytes = h.bytes ++ body) ∨
      ∃ (byte : UInt8) (length : UInt32) (body : Bytes), UnexpectedFlag p byte ∧
        bytes = byte :: word length ++ body := by
  cases p with
  | keyed =>
      match bytes, hlength with
      | a :: b :: c :: d :: body, _ =>
        refine .inl ⟨⟨true, ofWord a b c d, fun _ => rfl⟩, body, ?_⟩
        simp [ResponseHeader.bytes, word_ofWord]
  | legacy =>
      match bytes, hlength with
      | byte :: a :: b :: c :: d :: body, _ =>
        by_cases hflag : ∃ success, byte = flag success
        · obtain ⟨success, rfl⟩ := hflag
          refine .inl ⟨⟨success, ofWord a b c d, nofun⟩, body, ?_⟩
          simp [ResponseHeader.bytes, word_ofWord]
        · refine .inr ⟨byte, ofWord a b c d, body, ⟨rfl, fun success he => ?_⟩, ?_⟩
          · exact hflag ⟨success, he⟩
          · simp [word_ofWord]

theorem responseFront (p : Protocol) (limit : Nat) (bytes : Bytes) :
    ResponseFront p limit bytes := by
  by_cases hlength : bytes.length < responseHeader p
  · exact .incomplete (decodeResponse_short limit hlength)
  · rcases exists_responseHeader (Nat.not_lt.mp hlength) with
      ⟨h, body, rfl⟩ | ⟨byte, length, body, hflag, rfl⟩
    · exact h.front limit body
    · refine .refused (.unexpectedFlag byte) fun more => ?_
      rw [List.append_assoc]
      exact decodeResponse_unexpectedFlag hflag limit length (body ++ more)

/-- A response that is found has been sent. -/
theorem eq_bytes_of_decodeResponse {p : Protocol} {limit : Nat} {buffer rest : Bytes}
    {response : Response} {size : Nat}
    (h : decodeResponse p limit buffer = .ok (.frame response size rest)) :
    ∃ f : ResponseFrame, f.Fits p limit ∧ buffer = f.bytes p ++ rest ∧ size = (f.bytes p).length ∧
      response = f.response := by
  cases responseFront p limit buffer with
  | frame hf rest' =>
      rw [decodeResponse_bytes hf] at h
      cases h
      exact ⟨_, hf, rfl, rfl, rfl⟩
  | refused e' hrefused =>
      have herror := hrefused []
      rw [List.append_nil, h] at herror
      cases herror
  | incomplete hincomplete =>
      rw [hincomplete] at h
      cases h

/-- What is refused is refused whatever follows it. -/
theorem decodeResponse_append_of_error {p : Protocol} {limit : Nat} {buffer : Bytes} {e : FrameError}
    (h : decodeResponse p limit buffer = .error e) (more : Bytes) :
    decodeResponse p limit (buffer ++ more) = .error e := by
  cases responseFront p limit buffer with
  | frame hf rest =>
      rw [decodeResponse_bytes hf] at h
      cases h
  | refused e' hrefused =>
      have herror := hrefused []
      rw [List.append_nil, h] at herror
      cases herror
      exact hrefused more
  | incomplete hincomplete =>
      rw [hincomplete] at h
      cases h

theorem decodeResponse_stable (p : Protocol) (limit : Nat) :
    Decoder.Stable (decodeResponse p limit) where
  nil := decodeResponse_short limit (by cases p <;> simp [responseHeader])
  shortens h := by
    obtain ⟨f, hf, rfl, -, -⟩ := eq_bytes_of_decodeResponse h
    have hpos : 0 < responseHeader p := by cases p <;> simp [responseHeader]
    rw [List.length_append, hf.length_bytes]
    omega
  frame_append more h := by
    obtain ⟨f, hf, rfl, rfl, rfl⟩ := eq_bytes_of_decodeResponse h
    rw [List.append_assoc, decodeResponse_bytes hf]
  error_append more h := decodeResponse_append_of_error h more

end ReplDaemon.Frame
