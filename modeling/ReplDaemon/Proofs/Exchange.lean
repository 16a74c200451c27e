import ReplDaemon.Proofs.Connection
import ReplDaemon.Proofs.Frame.Response

/-!
# One exchange

A client that waits for each response before it goes on finds its connection clean every time: nothing is
left over from the exchange before. So what it is told is the answer to its own request, as long as the
texts of both can be announced.
-/

namespace ReplDaemon

open Text

namespace Frame

variable {p : Protocol} {limit : Nat}

/-- A request that is larger than allowed is refused. -/
theorem decodeRequest_encodeRequest_of_lt {r : Request} (hkey : r.key.utf8ByteSize < 2 ^ 32)
    (hcode : r.code.utf8ByteSize < 2 ^ 32) (hlimit : limit < r.payload p) :
    decodeRequest p limit (encodeRequest p r) = .error (.tooLarge (r.payload p) limit) := by
  have hf := RequestFrame.fits_ofRequest hkey hcode (Nat.le_refl (r.payload p))
  have hdeclared : hf.header.declared = r.payload p := by
    have hkeyLength : hf.header.keyLength.toNat = (RequestFrame.ofRequest p r).key.length :=
      toNat_ofNat_length hf.key_length
    have hcodeLength : hf.header.codeLength.toNat = (RequestFrame.ofRequest p r).code.length :=
      toNat_ofNat_length hf.code_length
    rw [RequestHeader.declared, hkeyLength, hcodeLength]
    cases p <;> simp [RequestFrame.ofRequest, Request.payload, length_encode]
  rw [← RequestFrame.bytes_ofRequest, hf.bytes_eq, decodeRequest_oversized (by rwa [hdeclared]),
    hdeclared]

/-- A response that is larger than allowed is refused. -/
theorem decodeResponse_encodeResponse_of_lt {r : Response} (htext : r.text.utf8ByteSize < 2 ^ 32)
    (hlimit : limit < r.text.utf8ByteSize) :
    decodeResponse p limit (encodeResponse p r) = .error (.tooLarge r.text.utf8ByteSize limit) := by
  have hlength : (UInt32.ofNat (encode r.text).length).toNat = r.text.utf8ByteSize := by
    rw [toNat_ofNat_length (by rwa [length_encode]), length_encode]
  have hdecode := decodeResponse_encodeResponse p limit r []
  rw [List.append_nil] at hdecode
  rw [hdecode, responseBody, hlength, if_pos hlimit]

theorem drain_nil {α : Type} (decoder : Decoder α) :
    drain decoder [] = { items := [], error := none, buffer := [] } := rfl

/-- Bytes in which one thing is written hold just that. -/
theorem Decoder.Reads.feed {α : Type} {decoder : Decoder α} (hd : decoder.Stable) {bytes : Bytes}
    {item : α} (h : decoder.Reads bytes item) :
    feed decoder [] bytes = { items := [item], error := none, buffer := [] } := by
  have hwhole := h.append []
  rw [List.append_nil] at hwhole
  rw [Frame.feed, List.nil_append, drain_of_frame hd hwhole, drain_nil]
  rfl

end Frame

variable {σ : Type}

/-- The texts of a request and of the response can be announced, whatever this is. -/
structure Responder.Announces (R : Responder σ) (state : σ) (r : Request) : Prop where
  key : r.key.utf8ByteSize < 2 ^ 32
  code : r.code.utf8ByteSize < 2 ^ 32
  response : ∀ response ∈ (R.handle state (r.received R.protocol)).1,
    response.text.utf8ByteSize < 2 ^ 32

instance (R : Responder σ) (state : σ) (r : Request) : Decidable (R.Announces state r) :=
  decidable_of_iff (r.key.utf8ByteSize < 2 ^ 32 ∧ r.code.utf8ByteSize < 2 ^ 32 ∧
      ∀ response ∈ (R.handle state (r.received R.protocol)).1, response.text.utf8ByteSize < 2 ^ 32)
    ⟨fun h => ⟨h.1, h.2.1, h.2.2⟩, fun h => ⟨h.key, h.code, h.response⟩⟩

/-- A client that has received nothing goes on waiting as long as something may still come. -/
theorem Client.await_nil (p : Protocol) (limit : Nat) (ended : Bool) :
    ((new p limit).await ended).1 = if ended then some (.error .connectionClosed) else none := by
  have hnil : Frame.decodeResponse p limit [] = .ok .incomplete :=
    (Frame.decodeResponse_stable p limit).nil
  cases ended <;> simp [await, new, hnil]

/-- A client that has received a response is told what it says, if it is not too large. -/
theorem Client.await_encodeResponse {p : Protocol} {limit : Nat} {r : Response}
    (htext : r.text.utf8ByteSize < 2 ^ 32) (ended : Bool) :
    Client.await { new p limit with buffer := Frame.encodeResponse p r } ended =
      if r.text.utf8ByteSize ≤ limit then (some (.ok (Frame.received p r)), new p limit)
      else (some (.error (.frame (.tooLarge r.text.utf8ByteSize limit))),
        { new p limit with buffer := Frame.encodeResponse p r, broken := true }) := by
  split
  · next hlimit =>
      have hread := (Frame.reads_encodeResponse (p := p) htext hlimit).append []
      rw [List.append_nil] at hread
      simp [await, new, hread]
  · next hlimit =>
      have hrefused := Frame.decodeResponse_encodeResponse_of_lt (p := p) htext
        (Nat.lt_of_not_le hlimit)
      simp [await, new, hrefused]

namespace Link

/-- A link over which nothing is under way and nothing is left over. -/
def idle (R : Responder σ) (state : σ) (limit : Nat) : Link σ :=
  connect R state (.new R.protocol limit)

variable {R : Responder σ} {state next : σ} {limit : Nat} {r : Request} {answer : Response}

/-- What has come in when a client waits for its response, and what it makes of that. -/
theorem request_of_feed {found : Frame.Found Request}
    (hfeed : Frame.feed (Connection.decoder R) [] (Frame.encodeRequest R.protocol r) = found) :
    (idle R state limit).request r =
      let (connection, next) := Connection.start.reply R state found
      let client : Client :=
        { protocol := R.protocol, limit, buffer := connection.answered, broken := false }
      let (answer, client) := client.await connection.error.isSome
      (answer, { client, connection := { connection with answered := [] }, responder := R
                 state := next }) := by
  rw [← hfeed]
  rfl

/-- A request that is too large ends the connection. -/
theorem request_of_lt (h : R.Announces state r) (hlimit : R.limit < r.payload R.protocol) :
    ((idle R state limit).request r).1 = some (.error .connectionClosed) := by
  have hfeed := Frame.drain_of_error (Frame.decodeRequest_stable R.protocol R.limit)
    (Frame.decodeRequest_encodeRequest_of_lt h.key h.code hlimit)
  rw [request_of_feed hfeed]
  exact Client.await_nil R.protocol limit true

/-- One that is not is found as it is received. -/
theorem feed_encodeRequest (h : R.Announces state r) (hlimit : r.payload R.protocol ≤ R.limit) :
    Frame.feed (Connection.decoder R) [] (Frame.encodeRequest R.protocol r) =
      { items := [r.received R.protocol], error := none, buffer := [] } :=
  (Frame.reads_encodeRequest h.key h.code hlimit).feed (Frame.decodeRequest_stable R.protocol R.limit)

/-- Without a response the client waits. -/
theorem request_of_none (h : R.Announces state r) (hlimit : r.payload R.protocol ≤ R.limit)
    (hhandle : R.handle state (r.received R.protocol) = (none, next)) :
    ((idle R state limit).request r).1 = none := by
  rw [request_of_feed (feed_encodeRequest h hlimit), Connection.reply,
    Connection.answerAll_cons_of_none hhandle]
  exact Client.await_nil R.protocol limit false

/-- With a response, that is what it waits for. -/
theorem request_of_some (h : R.Announces state r) (hlimit : r.payload R.protocol ≤ R.limit)
    (hhandle : R.handle state (r.received R.protocol) = (some answer, next)) :
    (idle R state limit).request r =
      let (told, client) := Client.await
        { Client.new R.protocol limit with buffer := Frame.encodeResponse R.protocol answer } false
      (told, { idle R next limit with client }) := by
  rw [request_of_feed (feed_encodeRequest h hlimit), Connection.reply,
    Connection.answerAll_cons_of_some hhandle, Connection.answerAll_nil, List.append_nil]
  rfl

/-- A client is told nothing but what its request has been answered, and then nothing is left over. -/
theorem request_ok (h : R.Announces state r) {response : Response} {l : Link σ}
    (hrequest : (idle R state limit).request r = (some (.ok response), l)) :
    ∃ answer next, R.handle state (r.received R.protocol) = (some answer, next) ∧
      response = Frame.received R.protocol answer ∧ l = idle R next limit := by
  have htold := congrArg Prod.fst hrequest
  rcases Nat.lt_or_ge R.limit (r.payload R.protocol) with hlimit | hlimit
  · rw [request_of_lt h hlimit] at htold
    cases htold
  · rcases hhandle : R.handle state (r.received R.protocol) with ⟨_ | answer, next⟩
    · rw [request_of_none h hlimit hhandle] at htold
      cases htold
    · have htext := h.response answer (by rw [hhandle]; rfl)
      rw [request_of_some h hlimit hhandle, Client.await_encodeResponse htext] at hrequest
      by_cases hfits : answer.text.utf8ByteSize ≤ limit
      · rw [if_pos hfits] at hrequest
        cases hrequest
        exact ⟨answer, next, rfl, rfl, rfl⟩
      · rw [if_neg hfits] at hrequest
        cases hrequest

end Link

end ReplDaemon
