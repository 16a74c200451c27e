import ReplDaemon.Proofs.Frame.Dissection
import ReplDaemon.Proofs.Frame.ResponseFrame

/-!
# Writing frames and reading them

Requests and responses are read back from their bytes, whatever follows these, and nothing is read as long
as one byte is missing. Conversely the bytes of a frame whose texts are well formed are those that what was
read from it is written in.
-/

namespace ReplDaemon

open Text

/-- What is read of a request: the legacy protocol has no key. -/
def Request.received (p : Protocol) (r : Request) : Request :=
  match p with
  | .keyed => r
  | .legacy => { r with key := "" }

/-- The number of bytes of a request that a limit is for. -/
def Request.payload (p : Protocol) (r : Request) : Nat :=
  match p with
  | .keyed => r.key.utf8ByteSize + r.code.utf8ByteSize
  | .legacy => r.code.utf8ByteSize

namespace Frame

variable {α : Type} {p : Protocol} {limit : Nat}

/-- Bytes in which something is written: it is read from them, whatever follows, and nothing is read of
less than all of them. -/
structure Decoder.Reads (decoder : Decoder α) (bytes : Bytes) (item : α) : Prop where
  append (rest : Bytes) : decoder (bytes ++ rest) = .ok (.frame item bytes.length rest)
  take {n : Nat} : n < bytes.length → decoder (bytes.take n) = .ok .incomplete

/-- Nothing is read of a part of what is read as a whole: it would be read of the whole too, and leave
bytes over. -/
theorem Decoder.Stable.take {decoder : Decoder α} (hd : decoder.Stable) {bytes : Bytes} {item : α}
    {size : Nat} (h : decoder bytes = .ok (.frame item size [])) {n : Nat} (hn : n < bytes.length) :
    decoder (bytes.take n) = .ok .incomplete := by
  have hwhole : bytes.take n ++ bytes.drop n = bytes := List.take_append_drop n bytes
  cases hpart : decoder (bytes.take n) with
  | error e =>
      have herror := hd.error_append (bytes.drop n) hpart
      rw [hwhole, h] at herror
      cases herror
  | ok front =>
      cases front with
      | incomplete => rfl
      | frame item' size' rest =>
          have hframe := hd.frame_append (bytes.drop n) hpart
          rw [hwhole, h, Except.ok.injEq, Front.frame.injEq] at hframe
          obtain ⟨-, -, hrest⟩ := hframe
          have hnil : bytes.drop n = [] := (List.append_eq_nil_iff.mp hrest.symm).2
          have hle : bytes.length ≤ n := List.drop_eq_nil_iff.mp hnil
          omega

theorem Decoder.Stable.reads {decoder : Decoder α} (hd : decoder.Stable) {bytes : Bytes} {item : α}
    (h : ∀ rest, decoder (bytes ++ rest) = .ok (.frame item bytes.length rest)) :
    decoder.Reads bytes item where
  append := h
  take hn := by
    have hwhole := h []
    rw [List.append_nil] at hwhole
    exact hd.take hwhole hn

/-- A request with the bytes of its texts. -/
def RequestFrame.ofRequest (p : Protocol) (r : Request) : RequestFrame where
  timeout := r.timeout
  key := match p with
    | .keyed => encode r.key
    | .legacy => []
  code := encode r.code

theorem RequestFrame.bytes_ofRequest (p : Protocol) (r : Request) :
    (ofRequest p r).bytes p = encodeRequest p r := by
  cases p <;> rfl

theorem RequestFrame.request_ofRequest (p : Protocol) (r : Request) :
    (ofRequest p r).request = r.received p := by
  cases p with
  | keyed => simp [request, ofRequest, Request.received, decode_encode]
  | legacy =>
      have hempty : decode [] = "" := decode_encode ""
      simp [request, ofRequest, Request.received, decode_encode, hempty]

theorem RequestFrame.fits_ofRequest {r : Request} (hkey : r.key.utf8ByteSize < 2 ^ 32)
    (hcode : r.code.utf8ByteSize < 2 ^ 32) (hpayload : r.payload p ≤ limit) :
    (ofRequest p r).Fits p limit := by
  have hkeyLength := length_encode r.key
  have hcodeLength := length_encode r.code
  cases p with
  | keyed =>
      simp only [Request.payload] at hpayload
      refine ⟨?_, ?_, ?_, nofun⟩ <;> simp only [ofRequest] <;> omega
  | legacy =>
      simp only [Request.payload] at hpayload
      refine ⟨?_, ?_, ?_, fun _ => rfl⟩ <;> simp only [ofRequest, List.length_nil] <;> omega

/-- Requests that can be announced and are within the limit are read back. -/
theorem reads_encodeRequest {r : Request} (hkey : r.key.utf8ByteSize < 2 ^ 32)
    (hcode : r.code.utf8ByteSize < 2 ^ 32) (hpayload : r.payload p ≤ limit) :
    Decoder.Reads (decodeRequest p limit) (encodeRequest p r) (r.received p) := by
  have hf := RequestFrame.fits_ofRequest hkey hcode hpayload
  rw [← RequestFrame.bytes_ofRequest, ← RequestFrame.request_ofRequest]
  exact (decodeRequest_stable p limit).reads (decodeRequest_bytes hf)

/-- A response as it is read: only the legacy protocol tells whether it is a success. -/
def received (p : Protocol) (r : Response) : Response where
  success := match p with
    | .keyed => true
    | .legacy => r.success
  text := r.text

/-- A response with the bytes of its text. -/
def ResponseFrame.ofResponse (p : Protocol) (r : Response) : ResponseFrame where
  success := (received p r).success
  text := encode r.text

theorem ResponseFrame.bytes_ofResponse (p : Protocol) (r : Response) :
    (ofResponse p r).bytes p = encodeResponse p r := by
  cases p <;> rfl

theorem ResponseFrame.response_ofResponse (p : Protocol) (r : Response) :
    (ofResponse p r).response = received p r := by
  simp [response, ofResponse, received, decode_encode]

theorem ResponseFrame.fits_ofResponse {r : Response} (htext : r.text.utf8ByteSize < 2 ^ 32)
    (hpayload : r.text.utf8ByteSize ≤ limit) : (ofResponse p r).Fits p limit where
  text_length := length_encode r.text ▸ htext
  payload := length_encode r.text ▸ hpayload
  success_keyed hp := by rw [hp]; rfl

/-- Responses that can be announced and are within the limit are read back. -/
theorem reads_encodeResponse {r : Response} (htext : r.text.utf8ByteSize < 2 ^ 32)
    (hpayload : r.text.utf8ByteSize ≤ limit) :
    Decoder.Reads (decodeResponse p limit) (encodeResponse p r) (received p r) := by
  have hf := ResponseFrame.fits_ofResponse (p := p) htext hpayload
  rw [← ResponseFrame.bytes_ofResponse, ← ResponseFrame.response_ofResponse]
  exact (decodeResponse_stable p limit).reads (decodeResponse_bytes hf)

/-- Well-formed bytes are those of the text that is read from them. -/
theorem encode_decode {bytes : Bytes} (h : (decode? bytes).isSome) :
    encode (decode bytes) = bytes := by
  obtain ⟨s, hs⟩ := Option.isSome_iff_exists.mp h
  rw [decode, hs, Option.getD_some]
  exact encode_of_decode? hs

/-- What is read from a request with well-formed texts is written in its bytes. -/
theorem RequestFrame.Fits.encodeRequest_request {f : RequestFrame} (hf : f.Fits p limit)
    (hkey : (decode? f.key).isSome) (hcode : (decode? f.code).isSome) :
    encodeRequest p f.request = f.bytes p := by
  cases p <;> simp [encodeRequest, bytes, request, encode_decode, hkey, hcode]

/-- What is read from a response with a well-formed text is written in its bytes. -/
theorem ResponseFrame.encodeResponse_response {f : ResponseFrame} (htext : (decode? f.text).isSome) :
    encodeResponse p f.response = f.bytes p := by
  cases p with
  | keyed => simp [encodeResponse, bytes, response, encode_decode, htext]
  | legacy => cases hsuccess : f.success <;>
      simp [encodeResponse, bytes, response, encode_decode, htext, flag, hsuccess]

/-- Writing frames and reading them are inverse to each other, in both directions and for both protocols.
What can be announced and is within the limit is read back from its bytes; and whatever is read from some
bytes comes from a frame there, whose bytes it is written in if the texts in them are well formed. -/
theorem frames_round_trip (p : Protocol) (limit : Nat) :
    (∀ r : Request, r.key.utf8ByteSize < 2 ^ 32 → r.code.utf8ByteSize < 2 ^ 32 →
        r.payload p ≤ limit →
        Decoder.Reads (decodeRequest p limit) (encodeRequest p r) (r.received p)) ∧
      (∀ r : Response, r.text.utf8ByteSize < 2 ^ 32 → r.text.utf8ByteSize ≤ limit →
        Decoder.Reads (decodeResponse p limit) (encodeResponse p r) (received p r)) ∧
      (∀ (buffer rest : Bytes) (r : Request) (size : Nat),
        decodeRequest p limit buffer = .ok (.frame r size rest) →
        ∃ f : RequestFrame, f.Fits p limit ∧ buffer.take size = f.bytes p ∧
          ((decode? f.key).isSome → (decode? f.code).isSome →
            encodeRequest p r = buffer.take size)) ∧
      ∀ (buffer rest : Bytes) (r : Response) (size : Nat),
        decodeResponse p limit buffer = .ok (.frame r size rest) →
        ∃ f : ResponseFrame, f.Fits p limit ∧ buffer.take size = f.bytes p ∧
          ((decode? f.text).isSome → encodeResponse p r = buffer.take size) := by
  refine ⟨fun r => reads_encodeRequest, fun r => reads_encodeResponse, ?_, ?_⟩
  · intro buffer rest r size h
    obtain ⟨f, hf, rfl, rfl⟩ := eq_bytes_of_decodeRequest h
    rw [decodeRequest_bytes hf] at h
    cases h
    have htake : (f.bytes p ++ rest).take (f.bytes p).length = f.bytes p := by simp
    refine ⟨f, hf, htake, fun hkey hcode => ?_⟩
    rw [htake, hf.encodeRequest_request hkey hcode]
  · intro buffer rest r size h
    obtain ⟨f, hf, rfl, rfl, rfl⟩ := eq_bytes_of_decodeResponse h
    have htake : (f.bytes p ++ rest).take (f.bytes p).length = f.bytes p := by simp
    refine ⟨f, hf, htake, fun htext => ?_⟩
    rw [htake, ResponseFrame.encodeResponse_response htext]

/-- A request that loses its key on the way, a failure that is read as a success, and a frame in front of
a stray byte. -/
theorem frames_round_trip_accent :
    (("é".utf8ByteSize < 2 ^ 32 ∧ (Request.mk 7 "k" "é").payload .legacy ≤ 2) ∧
        Decoder.Reads (decodeRequest .legacy 2) (encodeRequest .legacy ⟨7, "k", "é"⟩) ⟨7, "", "é"⟩) ∧
      Decoder.Reads (decodeResponse .keyed 2) (encodeResponse .keyed ⟨false, "é"⟩) ⟨true, "é"⟩ ∧
      decodeRequest .legacy 2 [7, 0, 0, 0, 2, 0, 0, 0, 0xC3, 0xA9, 0xFF] =
          .ok (.frame ⟨7, "", "é"⟩ 10 [0xFF]) ∧
      ∃ f : RequestFrame, f.Fits .legacy 2 ∧
        [7, 0, 0, 0, 2, 0, 0, 0, 0xC3, 0xA9] = f.bytes .legacy ∧
        ((decode? f.key).isSome → (decode? f.code).isSome →
          encodeRequest .legacy ⟨7, "", "é"⟩ = [7, 0, 0, 0, 2, 0, 0, 0, 0xC3, 0xA9]) := by
  have hdecode : decodeRequest .legacy 2 [7, 0, 0, 0, 2, 0, 0, 0, 0xC3, 0xA9, 0xFF] =
      .ok (.frame ⟨7, "", "é"⟩ 10 [0xFF]) := by rfl
  have hread := (frames_round_trip .legacy 2).1 ⟨7, "k", "é"⟩ (by decide) (by decide) (by decide)
  have hanswer := (frames_round_trip .keyed 2).2.1 ⟨false, "é"⟩ (by decide) (by decide)
  have hwritten := (frames_round_trip .legacy 2).2.2.1 _ _ _ _ hdecode
  exact ⟨⟨⟨by decide, by decide⟩, hread⟩, hanswer, hdecode, hwritten⟩

end Frame

end ReplDaemon
