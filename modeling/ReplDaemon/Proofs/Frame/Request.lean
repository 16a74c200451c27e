import ReplDaemon.Proofs.Frame.Word

/-!
# The layout of requests

A request on the wire is a header of three numbers, or two in the legacy protocol, and the bytes that
the numbers announce. The main statements say which bytes `decodeRequest` takes for a request, which it
refuses, and which it finds incomplete.
-/

namespace ReplDaemon.Frame

open Text

/-- The numbers that announce a request. The legacy protocol does not announce a key. -/
structure RequestHeader (p : Protocol) where
  timeout : UInt32
  keyLength : UInt32
  codeLength : UInt32
  keyLength_legacy : p = .legacy → keyLength = 0 := by simp

namespace RequestHeader

variable {p : Protocol}

/-- A header as it travels. -/
def bytes (h : RequestHeader p) : Bytes :=
  match p with
  | .keyed => word h.timeout ++ word h.keyLength ++ word h.codeLength
  | .legacy => word h.timeout ++ word h.codeLength

/-- How much payload a header announces. -/
def declared (h : RequestHeader p) : Nat :=
  h.keyLength.toNat + h.codeLength.toNat

@[simp]
theorem length_bytes (h : RequestHeader p) : h.bytes.length = requestHeader p := by
  cases p <;> simp [bytes, requestHeader]

theorem bytes_injective {h h' : RequestHeader p} (heq : h.bytes = h'.bytes) : h = h' := by
  obtain ⟨timeout, keyLength, codeLength, hkey⟩ := h
  obtain ⟨timeout', keyLength', codeLength', hkey'⟩ := h'
  cases p with
  | keyed =>
      simp only [bytes, List.append_assoc] at heq
      obtain ⟨htimeout, heq⟩ := List.append_inj heq rfl
      obtain ⟨hkeyLength, hcodeLength⟩ := List.append_inj heq rfl
      obtain rfl := word_injective htimeout
      obtain rfl := word_injective hkeyLength
      obtain rfl := word_injective hcodeLength
      rfl
  | legacy =>
      simp only [bytes] at heq
      obtain ⟨htimeout, hcodeLength⟩ := List.append_inj heq rfl
      obtain rfl := word_injective htimeout
      obtain rfl := word_injective hcodeLength
      obtain rfl := hkey rfl
      obtain rfl := hkey' rfl
      rfl

end RequestHeader

/-- Behind a header, decoding looks at the payload. -/
theorem decodeRequest_header {p : Protocol} (limit : Nat) (h : RequestHeader p) (body : Bytes) :
    decodeRequest p limit (h.bytes ++ body) =
      requestBody p limit h.timeout h.keyLength h.codeLength body := by
  obtain ⟨a, b, c, d, hbytes, htimeout⟩ := exists_word_eq h.timeout
  obtain ⟨k, l, m, n, hkey, hkeyLength⟩ := exists_word_eq h.keyLength
  obtain ⟨w, x, y, z, hcode, hcodeLength⟩ := exists_word_eq h.codeLength
  cases p with
  | keyed =>
      simp [RequestHeader.bytes, hbytes, hkey, hcode, decodeRequest, htimeout, hkeyLength,
        hcodeLength]
  | legacy =>
      rw [h.keyLength_legacy rfl]
      simp [RequestHeader.bytes, hbytes, hcode, decodeRequest, htimeout, hcodeLength]

/-- Bytes that are long enough start with a header. -/
theorem exists_header {p : Protocol} {bytes : Bytes} (hlength : requestHeader p ≤ bytes.length) :
    ∃ (h : RequestHeader p) (body : Bytes), bytes = h.bytes ++ body := by
  cases p with
  | keyed =>
      match bytes, hlength with
      | a :: b :: c :: d :: k :: l :: m :: n :: w :: x :: y :: z :: body, _ =>
        refine ⟨⟨ofWord a b c d, ofWord k l m n, ofWord w x y z, nofun⟩, body, ?_⟩
        simp [RequestHeader.bytes, word_ofWord]
  | legacy =>
      match bytes, hlength with
      | a :: b :: c :: d :: w :: x :: y :: z :: body, _ =>
        refine ⟨⟨ofWord a b c d, 0, ofWord w x y z, fun _ => rfl⟩, body, ?_⟩
        simp [RequestHeader.bytes, word_ofWord]

/-- Nothing is said of bytes that are shorter than a header. -/
theorem decodeRequest_short {p : Protocol} (limit : Nat) {bytes : Bytes}
    (hlength : bytes.length < requestHeader p) :
    decodeRequest p limit bytes = .ok .incomplete := by
  unfold decodeRequest
  split
  · simp only [requestHeader, List.length_cons] at hlength
    omega
  · simp only [requestHeader, List.length_cons] at hlength
    omega
  · rfl

/-- Enough bytes are split behind the first ones. -/
theorem split?_append (front rest : Bytes) :
    split? front.length (front ++ rest) = some (front, rest) := by
  simp [split?, List.splitAt_eq]

theorem exists_split {n : Nat} {bytes : Bytes} (h : n ≤ bytes.length) :
    ∃ front rest : Bytes, bytes = front ++ rest ∧ front.length = n :=
  ⟨bytes.take n, bytes.drop n, (List.take_append_drop n bytes).symm, List.length_take_of_le h⟩

/-- Too few bytes are not split. -/
theorem split?_of_length_lt {n : Nat} {bytes : Bytes} (h : bytes.length < n) :
    split? n bytes = none := by
  have hne : ¬ n ≤ bytes.length := by omega
  simp [split?, List.splitAt_eq, hne]

/-- A request as it travels: its time, and the bytes of its texts. -/
structure RequestFrame where
  timeout : UInt32
  key : Bytes
  code : Bytes
  deriving Repr, DecidableEq

namespace RequestFrame

/-- What a request says. -/
def request (f : RequestFrame) : Request where
  timeout := f.timeout
  key := decode f.key
  code := decode f.code

/-- The bytes of a request. -/
def bytes (p : Protocol) (f : RequestFrame) : Bytes :=
  match p with
  | .keyed => word f.timeout ++ lengthWord f.key ++ lengthWord f.code ++ f.key ++ f.code
  | .legacy => word f.timeout ++ lengthWord f.code ++ f.code

/-- A request that may be sent: its texts have lengths that can be announced, together they are within
the limit, and the legacy protocol sends no key. -/
structure Fits (p : Protocol) (limit : Nat) (f : RequestFrame) : Prop where
  key_length : f.key.length < 2 ^ 32
  code_length : f.code.length < 2 ^ 32
  payload : f.key.length + f.code.length ≤ limit
  key_legacy : p = .legacy → f.key = []

variable {p : Protocol} {limit : Nat} {f : RequestFrame}

/-- The header of a request. -/
def Fits.header (hf : f.Fits p limit) : RequestHeader p where
  timeout := f.timeout
  keyLength := .ofNat f.key.length
  codeLength := .ofNat f.code.length
  keyLength_legacy h := by rw [hf.key_legacy h]; rfl

theorem Fits.bytes_eq (hf : f.Fits p limit) :
    f.bytes p = hf.header.bytes ++ (f.key ++ f.code) := by
  cases p with
  | keyed => simp [bytes, Fits.header, RequestHeader.bytes, lengthWord]
  | legacy =>
      simp [bytes, Fits.header, RequestHeader.bytes, lengthWord, hf.key_legacy rfl]

theorem Fits.length_bytes (hf : f.Fits p limit) :
    (f.bytes p).length = requestHeader p + (f.key.length + f.code.length) := by
  simp [hf.bytes_eq]

theorem Fits.bytes_ne_nil (hf : f.Fits p limit) : f.bytes p ≠ [] := by
  intro hnil
  have hlength := hf.length_bytes
  rw [hnil, List.length_nil] at hlength
  cases p <;> simp only [requestHeader] at hlength <;> omega

/-- Different requests that fit have different bytes. -/
theorem Fits.eq_of_bytes_eq {g : RequestFrame} (hf : f.Fits p limit) (hg : g.Fits p limit)
    (heq : f.bytes p = g.bytes p) : f = g := by
  rw [hf.bytes_eq, hg.bytes_eq] at heq
  obtain ⟨hheader, hpayload⟩ := List.append_inj heq (by simp)
  have heq := RequestHeader.bytes_injective hheader
  simp only [header, RequestHeader.mk.injEq] at heq
  obtain ⟨htimeout, hkeyLength, -⟩ := heq
  have hlength : f.key.length = g.key.length := by
    rw [← toNat_ofNat_length hf.key_length, hkeyLength, toNat_ofNat_length hg.key_length]
  obtain ⟨hkey, hcode⟩ := List.append_inj hpayload hlength
  cases f
  cases g
  simp_all

end RequestFrame

/-- The bytes of a request are decoded to it, whatever follows them. -/
theorem decodeRequest_bytes {p : Protocol} {limit : Nat} {f : RequestFrame} (hf : f.Fits p limit)
    (rest : Bytes) :
    decodeRequest p limit (f.bytes p ++ rest) =
      .ok (.frame f.request (f.bytes p).length rest) := by
  have hkey : hf.header.keyLength.toNat = f.key.length := toNat_ofNat_length hf.key_length
  have hcode : hf.header.codeLength.toNat = f.code.length := toNat_ofNat_length hf.code_length
  rw [hf.length_bytes, hf.bytes_eq, List.append_assoc, decodeRequest_header, requestBody]
  have hpayload := hf.payload
  simp only [hkey, hcode, if_neg (Nat.not_lt.mpr hpayload)]
  rw [List.append_assoc, split?_append]
  simp only [split?_append]
  rfl

/-- A header that announces too much is refused, whatever follows it. -/
theorem decodeRequest_oversized {p : Protocol} {limit : Nat} {h : RequestHeader p}
    (hlimit : limit < h.declared) (body : Bytes) :
    decodeRequest p limit (h.bytes ++ body) = .error (.tooLarge h.declared limit) := by
  rw [decodeRequest_header, requestBody]
  exact if_pos hlimit

/-- A payload that is shorter than announced is incomplete. -/
theorem decodeRequest_partial {p : Protocol} {limit : Nat} {h : RequestHeader p} {body : Bytes}
    (hlimit : h.declared ≤ limit) (hbody : body.length < h.declared) :
    decodeRequest p limit (h.bytes ++ body) = .ok .incomplete := by
  rw [decodeRequest_header, requestBody]
  rw [RequestHeader.declared] at hlimit hbody
  simp only [if_neg (Nat.not_lt.mpr hlimit)]
  by_cases hkey : body.length < h.keyLength.toNat
  · rw [split?_of_length_lt hkey]
  · obtain ⟨key, code, rfl, hlength⟩ := exists_split (Nat.not_lt.mp hkey)
    rw [← hlength, split?_append]
    have hcode : code.length < h.codeLength.toNat := by
      rw [List.length_append] at hbody
      omega
    simp only [split?_of_length_lt hcode]

/-- Some bytes from a header on whose payload is all there are a request and what follows it. -/
theorem RequestHeader.exists_frame {p : Protocol} {limit : Nat} {h : RequestHeader p} {body : Bytes}
    (hlimit : h.declared ≤ limit) (hbody : h.declared ≤ body.length) :
    ∃ (f : RequestFrame) (rest : Bytes), f.Fits p limit ∧ h.bytes ++ body = f.bytes p ++ rest := by
  rw [declared] at hlimit hbody
  obtain ⟨key, rest, rfl, hkey⟩ : ∃ key rest, body = key ++ rest ∧ key.length = h.keyLength.toNat :=
    exists_split (by omega)
  rw [List.length_append] at hbody
  obtain ⟨code, rest, rfl, hcode⟩ :
      ∃ code rest', rest = code ++ rest' ∧ code.length = h.codeLength.toNat :=
    exists_split (by omega)
  have hf : RequestFrame.Fits p limit ⟨h.timeout, key, code⟩ :=
    { key_length := hkey ▸ h.keyLength.toNat_lt
      code_length := hcode ▸ h.codeLength.toNat_lt
      payload := by simp only; omega
      key_legacy := by
        intro hp
        rw [h.keyLength_legacy hp] at hkey
        exact List.length_eq_zero_iff.mp hkey }
  have hheader : hf.header.bytes = h.bytes := by
    simp only [RequestFrame.Fits.header, bytes, hkey, hcode, UInt32.ofNat_toNat]
  refine ⟨⟨h.timeout, key, code⟩, rest, hf, ?_⟩
  rw [hf.bytes_eq, hheader]
  simp only [List.append_assoc]

end ReplDaemon.Frame
