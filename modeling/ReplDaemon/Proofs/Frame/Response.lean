import Mathlib.Tactic
import ReplDaemon.Client
import ReplDaemon.Proofs.Frame.RoundTrip

/-!
# The layout of responses

A response on the wire is read back with the text that it was sent with if this is within the limit of
the reader, and not otherwise: a text that is longer announces too much, or so little that only a part of
it is read.
-/

namespace ReplDaemon

open Text

namespace Text

theorem length_readLead_le (acc : List Char) (b : UInt8) :
    (readLead acc b).2.length ≤ acc.length + 1 := by
  unfold readLead
  split
  · exact Nat.le_refl _
  · split
    · exact Nat.le_refl _
    · exact Nat.le_succ _

theorem length_readByte_le (s : Reading × List Char) (b : UInt8) :
    (readByte s b).2.length ≤ s.2.length + 2 := by
  rcases s with ⟨_ | ⟨bits, due, least, most⟩, acc⟩
  · exact Nat.le_succ_of_le (length_readLead_le acc b)
  · rw [readByte]
    split
    · split
      · exact Nat.le_succ _
      · exact Nat.le_add_right _ _
    · exact length_readLead_le (replacement :: acc) b

theorem length_foldl_readByte_le (bytes : Bytes) (s : Reading × List Char) :
    (bytes.foldl readByte s).2.length ≤ s.2.length + 2 * bytes.length := by
  induction bytes generalizing s with
  | nil => exact Nat.le_refl _
  | cons b bytes ih =>
      have hrest := ih (readByte s b)
      have hbyte := length_readByte_le s b
      simp only [List.foldl_cons, List.length_cons]
      omega

theorem length_finish_le (s : Reading × List Char) :
    (Reading.finish s).length ≤ s.2.length + 1 := by
  rcases s with ⟨_ | _, acc⟩ <;> simp [Reading.finish]

theorem utf8ByteSize_ofList_le (cs : List Char) :
    (String.ofList cs).utf8ByteSize ≤ 4 * cs.length := by
  induction cs with
  | nil => exact Nat.le_refl _
  | cons c cs ih =>
      have hfour := c.utf8Size_le_four
      rw [String.ofList_cons, String.utf8ByteSize_append, String.utf8ByteSize_singleton,
        List.length_cons]
      omega

/-- The text of some bytes is not much longer than these. -/
theorem utf8ByteSize_decode_le (bytes : Bytes) :
    (decode bytes).utf8ByteSize ≤ 8 * bytes.length + 4 := by
  unfold decode
  cases hvalid : decode? bytes with
  | some s =>
      have hlength := length_encode s
      rw [encode_of_decode? hvalid] at hlength
      rw [Option.getD_some]
      omega
  | none =>
      have hfinish := length_finish_le (bytes.foldl readByte (.between, []))
      have hread := length_foldl_readByte_le bytes (.between, [])
      have hsize := utf8ByteSize_ofList_le (Reading.finish (bytes.foldl readByte (.between, [])))
      rw [Option.getD_none, repair]
      simp only [List.length_nil] at hread
      omega

end Text

namespace Frame

/-- Behind the header of a response, decoding looks at its text. -/
theorem decodeResponse_encodeResponse (p : Protocol) (limit : Nat) (r : Response) (rest : Bytes) :
    decodeResponse p limit (encodeResponse p r ++ rest) =
      responseBody p limit (received p r).success (.ofNat (encode r.text).length)
        (encode r.text ++ rest) := by
  obtain ⟨a, b, c, d, hbytes, hlength⟩ := exists_word_eq (.ofNat (encode r.text).length)
  cases p with
  | keyed => simp [encodeResponse, lengthWord, hbytes, decodeResponse, received, hlength]
  | legacy =>
      cases hsuccess : r.success <;>
        simp [encodeResponse, lengthWord, hbytes, decodeResponse, received, hlength, hsuccess]

/-- A response is read back from the front of any bytes, if its text is within the limit. -/
theorem decodeResponse_of_le {p : Protocol} {limit : Nat} (hlimit : limit < 2 ^ 32) {r : Response}
    (h : r.text.utf8ByteSize ≤ limit) (rest : Bytes) :
    decodeResponse p limit (encodeResponse p r ++ rest) =
      .ok (.frame (received p r) (encodeResponse p r).length rest) :=
  (reads_encodeResponse (Nat.lt_of_le_of_lt h hlimit) h).append rest

/-- Of a text that is too long, a part is read at most. -/
theorem utf8ByteSize_of_decodeResponse {p : Protocol} {limit : Nat} {r read : Response} {size : Nat}
    {rest : Bytes}
    (h : decodeResponse p limit (encodeResponse p r) = .ok (.frame read size rest)) :
    read.text.utf8ByteSize ≤ 8 * limit + 4 ∧
      (r.text.utf8ByteSize < 2 ^ 32 → r.text.utf8ByteSize ≤ limit) := by
  have hencode := decodeResponse_encodeResponse p limit r []
  rw [List.append_nil, h, responseBody] at hencode
  split at hencode
  · cases hencode
  · next hdeclared =>
      split at hencode
      · cases hencode
      · next text behind hsplit =>
          obtain ⟨front, back, hbytes, hfront⟩ : ∃ front back, encode r.text ++ [] = front ++ back ∧
              front.length = (UInt32.ofNat (encode r.text).length).toNat :=
            exists_split (by simp [Nat.mod_le])
          rw [hbytes, ← hfront, split?_append, Option.some.injEq, Prod.mk.injEq] at hsplit
          obtain ⟨rfl, rfl⟩ := hsplit
          cases hencode
          have hread := utf8ByteSize_decode_le front
          refine ⟨?_, fun hsmall => ?_⟩
          · dsimp only
            omega
          · have hlength := length_encode r.text
            have hword : (UInt32.ofNat (encode r.text).length).toNat = (encode r.text).length :=
              toNat_ofNat_length (by omega)
            omega

end Frame

/-- Whoever accepts responses of up to `limit` bytes reads the text of the response. -/
def Response.Readable (p : Protocol) (limit : Nat) (r : Response) : Prop :=
  ∃ (read : Response) (size : Nat) (rest : Bytes),
    Frame.decodeResponse p limit (Frame.encodeResponse p r) = .ok (.frame read size rest) ∧
      read.text = r.text

/-- A response can be read exactly if its text is within the limit. Below `2 ^ 28` no part of a text of
`2 ^ 32` bytes or more is as long as this text. -/
theorem Response.readable_iff {p : Protocol} {limit : Nat} (hlimit : limit ≤ 2 ^ 28) {r : Response} :
    r.Readable p limit ↔ r.text.utf8ByteSize ≤ limit := by
  constructor
  · rintro ⟨read, size, rest, hread, htext⟩
    obtain ⟨hpart, hwhole⟩ := Frame.utf8ByteSize_of_decodeResponse hread
    rw [htext] at hpart
    exact hwhole (by omega)
  · intro hle
    have hdecode := Frame.decodeResponse_of_le (p := p) (by omega) hle []
    rw [List.append_nil] at hdecode
    exact ⟨_, _, _, hdecode, rfl⟩

end ReplDaemon
