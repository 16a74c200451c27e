import ReplDaemon.Proofs.Frame.Dissection
import ReplDaemon.Proofs.Frame.ResponseFrame

/-!
# Streams in pieces

A stream is fed to a decoder in pieces, and after each one all is decoded that can be, until nothing is
complete or something is refused. What comes of it in the end does not depend on where the stream was cut:
it is what comes of the whole stream fed at once.
-/

namespace ReplDaemon.Frame

open Text

variable {α : Type}

/-- One more piece: it joins the bytes left so far, and what is found there comes behind the frames
found before. An error found before is found again. -/
def Found.feed (decoder : Decoder α) (found : Found α) (piece : Bytes) : Found α :=
  (Frame.feed decoder found.buffer piece).prepend found.items

/-- All that is found in a stream fed in pieces: the frames, the error that the last piece ended with, if
any, and the bytes left. -/
def feedAll (decoder : Decoder α) (pieces : List Bytes) : Found α :=
  pieces.foldl (Found.feed decoder) ⟨[], none, []⟩

/-- A decoder takes its frames from the front of a buffer, each at least as long as a header. -/
def Decoder.Consumes (decoder : Decoder α) (header : Nat) : Prop :=
  ∀ {buffer rest : Bytes} {item : α} {size : Nat}, decoder buffer = .ok (.frame item size rest) →
    header ≤ size ∧ size ≤ buffer.length ∧ rest = buffer.drop size

theorem decodeRequest_consumes (p : Protocol) (limit : Nat) :
    Decoder.Consumes (decodeRequest p limit) (requestHeader p) := by
  intro buffer rest request size h
  obtain ⟨f, hf, rfl, -⟩ := eq_bytes_of_decodeRequest h
  rw [decodeRequest_bytes hf] at h
  cases h
  refine ⟨?_, by simp, by simp⟩
  rw [hf.length_bytes]
  exact Nat.le_add_right _ _

theorem decodeResponse_consumes (p : Protocol) (limit : Nat) :
    Decoder.Consumes (decodeResponse p limit) (responseHeader p) := by
  intro buffer rest response size h
  obtain ⟨f, hf, rfl, rfl, -⟩ := eq_bytes_of_decodeResponse h
  refine ⟨?_, by simp, by simp⟩
  rw [hf.length_bytes]
  exact Nat.le_add_right _ _

section Stable

variable {decoder : Decoder α} (hd : decoder.Stable)
include hd

/-- The bytes behind which draining stopped with an error are those refused. -/
theorem decoder_buffer_of_error {buffer : Bytes} {e : FrameError}
    (h : (drain decoder buffer).error = some e) :
    decoder (drain decoder buffer).buffer = .error e := by
  induction buffer using drain_induction hd with
  | error buffer e' hdecode =>
      rw [drain_of_error hd hdecode] at h ⊢
      cases h
      exact hdecode
  | incomplete buffer hdecode => simp [drain_of_incomplete hdecode] at h
  | frame buffer item size rest hdecode ih =>
      rw [drain_of_frame hd hdecode] at h ⊢
      exact ih h

/-- One more piece is found as if it had been there from the beginning. -/
theorem feed_drain (buffer piece : Bytes) :
    (drain decoder buffer).feed decoder piece = drain decoder (buffer ++ piece) := by
  rw [Found.feed, Frame.feed]
  cases h : (drain decoder buffer).error with
  | none => rw [drain_append hd h]
  | some e =>
      have hrefused := hd.error_append piece (decoder_buffer_of_error hd h)
      rw [drain_append_of_error hd h, drain_of_error hd hrefused, ← h]
      simp [Found.prepend]

/-- In pieces, what is found in a stream is what is found in the whole of it. -/
theorem feedAll_eq_drain (pieces : List Bytes) :
    feedAll decoder pieces = drain decoder pieces.flatten := by
  have hfold (buffer : Bytes) : pieces.foldl (Found.feed decoder) (drain decoder buffer) =
      drain decoder (buffer ++ pieces.flatten) := by
    induction pieces generalizing buffer with
    | nil => simp
    | cons piece pieces ih => simp [feed_drain hd, ih]
  have hstart : drain decoder [] = ⟨[], none, []⟩ := drain_of_incomplete hd.nil
  rw [feedAll, ← hstart, hfold, List.nil_append]

end Stable

/-- A decoder to which it makes no difference where a stream is cut: neither to the frames that are found,
the error and the bytes left, nor to what is found when the stream has ended. It says of a longer buffer
what it has said of its front, and takes a header at least for every frame. -/
structure Decoder.Seamless (decoder : Decoder α) (header : Nat) : Prop where
  feedAll_congr {pieces pieces' : List Bytes} : pieces.flatten = pieces'.flatten →
    feedAll decoder pieces = feedAll decoder pieces'
  finish_congr {pieces pieces' : List Bytes} : pieces.flatten = pieces'.flatten →
    finish decoder (feedAll decoder pieces).buffer = finish decoder (feedAll decoder pieces').buffer
  stable : decoder.Stable
  consumes : decoder.Consumes header

theorem Decoder.Stable.seamless {decoder : Decoder α} (hd : decoder.Stable) {header : Nat}
    (hheader : decoder.Consumes header) : decoder.Seamless header where
  feedAll_congr h := by rw [feedAll_eq_drain hd, feedAll_eq_drain hd, h]
  finish_congr h := by rw [feedAll_eq_drain hd, feedAll_eq_drain hd, h]
  stable := hd
  consumes := hheader

/-- On either side of a connection, in either protocol and under any limit, it makes no difference where
the stream is cut. -/
theorem seamless_decoders (p : Protocol) (limit : Nat) :
    Decoder.Seamless (decodeRequest p limit) (requestHeader p) ∧
      Decoder.Seamless (decodeResponse p limit) (responseHeader p) :=
  ⟨(decodeRequest_stable p limit).seamless (decodeRequest_consumes p limit),
    (decodeResponse_stable p limit).seamless (decodeResponse_consumes p limit)⟩

end ReplDaemon.Frame
