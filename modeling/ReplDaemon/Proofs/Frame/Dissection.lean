import ReplDaemon.Error
import ReplDaemon.Proofs.Frame.Stream

/-!
# Dissecting a stream of requests

Every sequence of bytes is a sequence of requests that fit, as long as possible, and a remainder: it is
empty, or starts with a header that announces too much, or ends inside a request. The dissection is
unique, and it is what draining finds.
-/

namespace ReplDaemon.Frame

open Text

/-- What bytes may start with. -/
inductive RequestFront (p : Protocol) (limit : Nat) : Bytes → Prop where
  | frame {f : RequestFrame} (hf : f.Fits p limit) (rest : Bytes) :
      RequestFront p limit (f.bytes p ++ rest)
  | oversized {h : RequestHeader p} (hlimit : limit < h.declared) (body : Bytes) :
      RequestFront p limit (h.bytes ++ body)
  | insideHeader {bytes : Bytes} (hlength : bytes.length < requestHeader p) :
      RequestFront p limit bytes
  | insidePayload {h : RequestHeader p} {body : Bytes} (hlimit : h.declared ≤ limit)
      (hbody : body.length < h.declared) : RequestFront p limit (h.bytes ++ body)

theorem requestFront (p : Protocol) (limit : Nat) (bytes : Bytes) : RequestFront p limit bytes := by
  by_cases hlength : bytes.length < requestHeader p
  · exact .insideHeader hlength
  · obtain ⟨h, body, rfl⟩ := exists_header (Nat.not_lt.mp hlength)
    by_cases hlimit : limit < h.declared
    · exact .oversized hlimit body
    · by_cases hbody : body.length < h.declared
      · exact .insidePayload (Nat.not_lt.mp hlimit) hbody
      · obtain ⟨f, rest, hf, heq⟩ :=
          RequestHeader.exists_frame (Nat.not_lt.mp hlimit) (Nat.not_lt.mp hbody)
        rw [heq]
        exact .frame hf rest

/-- A request that is found has been sent. -/
theorem eq_bytes_of_decodeRequest {p : Protocol} {limit : Nat} {buffer rest : Bytes}
    {request : Request} {size : Nat}
    (h : decodeRequest p limit buffer = .ok (.frame request size rest)) :
    ∃ f : RequestFrame, f.Fits p limit ∧ buffer = f.bytes p ++ rest ∧ request = f.request := by
  cases requestFront p limit buffer with
  | frame hf rest' =>
      rw [decodeRequest_bytes hf] at h
      cases h
      exact ⟨_, hf, rfl, rfl⟩
  | oversized hlimit body =>
      rw [decodeRequest_oversized hlimit] at h
      cases h
  | insideHeader hlength =>
      rw [decodeRequest_short limit hlength] at h
      cases h
  | insidePayload hlimit hbody =>
      rw [decodeRequest_partial hlimit hbody] at h
      cases h

/-- Bytes that are refused start with a header that announces too much. -/
theorem eq_oversized_of_decodeRequest {p : Protocol} {limit : Nat} {buffer : Bytes} {e : FrameError}
    (h : decodeRequest p limit buffer = .error e) :
    ∃ (header : RequestHeader p) (body : Bytes), limit < header.declared ∧
      buffer = header.bytes ++ body ∧ e = .tooLarge header.declared limit := by
  cases requestFront p limit buffer with
  | frame hf rest' =>
      rw [decodeRequest_bytes hf] at h
      cases h
  | oversized hlimit body =>
      rw [decodeRequest_oversized hlimit] at h
      cases h
      exact ⟨_, body, hlimit, rfl, rfl⟩
  | insideHeader hlength =>
      rw [decodeRequest_short limit hlength] at h
      cases h
  | insidePayload hlimit hbody =>
      rw [decodeRequest_partial hlimit hbody] at h
      cases h

theorem decodeRequest_stable (p : Protocol) (limit : Nat) :
    Decoder.Stable (decodeRequest p limit) where
  nil := decodeRequest_short limit (by cases p <;> simp [requestHeader])
  shortens h := by
    obtain ⟨f, hf, rfl, -⟩ := eq_bytes_of_decodeRequest h
    have hpos := List.length_pos_iff.mpr hf.bytes_ne_nil
    rw [List.length_append]
    omega
  frame_append {buffer rest request size} more h := by
    obtain ⟨f, hf, rfl, -⟩ := eq_bytes_of_decodeRequest h
    rw [decodeRequest_bytes hf] at h
    rw [List.append_assoc, decodeRequest_bytes hf]
    cases h
    rfl
  error_append more h := by
    obtain ⟨header, body, hlimit, rfl, rfl⟩ := eq_oversized_of_decodeRequest h
    rw [List.append_assoc, decodeRequest_oversized hlimit]

/-- What is behind the last whole request, and the error it is. -/
inductive Remainder (p : Protocol) (limit : Nat) : Bytes → Option DaemonError → Prop where
  | nothing : Remainder p limit [] none
  | oversized {h : RequestHeader p} (hlimit : limit < h.declared) (body : Bytes) :
      Remainder p limit (h.bytes ++ body) (some (.frame (.tooLarge h.declared limit)))
  | insideHeader {bytes : Bytes} (hne : bytes ≠ []) (hlength : bytes.length < requestHeader p) :
      Remainder p limit bytes (some (.io "bytes remaining on stream"))
  | insidePayload {h : RequestHeader p} {body : Bytes} (hlimit : h.declared ≤ limit)
      (hbody : body.length < h.declared) :
      Remainder p limit (h.bytes ++ body) (some (.io "bytes remaining on stream"))

/-- Bytes taken apart: requests that fit, and a remainder that starts with none. -/
structure Dissection (p : Protocol) (limit : Nat) (bytes : Bytes) where
  frames : List RequestFrame
  rest : Bytes
  fits : ∀ f ∈ frames, f.Fits p limit
  bytes_eq : bytes = frames.flatMap (·.bytes p) ++ rest
  maximal : ∀ f : RequestFrame, f.Fits p limit → ¬ f.bytes p <+: rest

namespace Dissection

variable {p : Protocol} {limit : Nat} {bytes : Bytes}

/-- The requests, in order. -/
def requests (d : Dissection p limit bytes) : List Request :=
  d.frames.map RequestFrame.request

/-- Bytes that start with no request that fits. -/
def ofRest (bytes : Bytes)
    (maximal : ∀ f : RequestFrame, f.Fits p limit → ¬ f.bytes p <+: bytes) :
    Dissection p limit bytes where
  frames := []
  rest := bytes
  fits := by simp
  bytes_eq := rfl
  maximal

/-- One more request in front. -/
def cons {f : RequestFrame} (hf : f.Fits p limit) (d : Dissection p limit bytes) :
    Dissection p limit (f.bytes p ++ bytes) where
  frames := f :: d.frames
  rest := d.rest
  fits := by
    intro g hg
    rcases List.mem_cons.mp hg with rfl | hg
    · exact hf
    · exact d.fits g hg
  bytes_eq := by
    rw [List.flatMap_cons, List.append_assoc, ← d.bytes_eq]
  maximal := d.maximal

end Dissection

/-- Requests that fit can be told from the bytes, as long as there are some. -/
theorem frames_unique {p : Protocol} {limit : Nat} {fs gs : List RequestFrame} {rest rest' : Bytes}
    (hfs : ∀ f ∈ fs, f.Fits p limit) (hgs : ∀ g ∈ gs, g.Fits p limit)
    (hrest : ∀ f : RequestFrame, f.Fits p limit → ¬ f.bytes p <+: rest)
    (hrest' : ∀ f : RequestFrame, f.Fits p limit → ¬ f.bytes p <+: rest')
    (heq : fs.flatMap (·.bytes p) ++ rest = gs.flatMap (·.bytes p) ++ rest') :
    fs = gs ∧ rest = rest' := by
  induction fs generalizing gs with
  | nil =>
      cases gs with
      | nil => exact ⟨rfl, heq⟩
      | cons g gs =>
          rw [List.flatMap_cons, List.append_assoc] at heq
          exact absurd ⟨_, heq.symm⟩ (hrest g (hgs g List.mem_cons_self))
  | cons f fs ih =>
      cases gs with
      | nil =>
          rw [List.flatMap_cons, List.append_assoc] at heq
          exact absurd ⟨_, heq⟩ (hrest' f (hfs f List.mem_cons_self))
      | cons g gs =>
          have hf := hfs f List.mem_cons_self
          have hg := hgs g List.mem_cons_self
          rw [List.flatMap_cons, List.flatMap_cons, List.append_assoc, List.append_assoc] at heq
          have hdecode := decodeRequest_bytes hf (fs.flatMap (·.bytes p) ++ rest)
          rw [heq, decodeRequest_bytes hg] at hdecode
          simp only [Except.ok.injEq, Front.frame.injEq] at hdecode
          obtain ⟨-, -, htail⟩ := hdecode
          rw [htail] at heq
          obtain rfl := hf.eq_of_bytes_eq hg (List.append_cancel_right heq)
          obtain ⟨rfl, rfl⟩ := ih (fun h hh => hfs h (List.mem_cons_of_mem f hh))
            (fun h hh => hgs h (List.mem_cons_of_mem f hh)) htail.symm
          exact ⟨rfl, rfl⟩

/-- Bytes are taken apart in one way only. -/
theorem Dissection.unique {p : Protocol} {limit : Nat} {bytes : Bytes}
    (d e : Dissection p limit bytes) : d = e := by
  obtain ⟨fs, rest, hfs, hbytes, hrest⟩ := d
  obtain ⟨gs, rest', hgs, hbytes', hrest'⟩ := e
  obtain ⟨rfl, rfl⟩ := frames_unique hfs hgs hrest hrest' (hbytes.symm.trans hbytes')
  rfl

/-- A request that fits is not found where decoding finds none. -/
theorem not_prefix_of_decodeRequest_ne {p : Protocol} {limit : Nat} {bytes : Bytes}
    (h : ∀ request size rest, decodeRequest p limit bytes ≠ .ok (.frame request size rest))
    (f : RequestFrame) (hf : f.Fits p limit) : ¬ f.bytes p <+: bytes := by
  rintro ⟨rest, rfl⟩
  exact h _ _ _ (decodeRequest_bytes hf rest)

/-- The error that the end of a stream comes to tells what is behind the last whole request. -/
theorem Remainder.eq_error_finish {p : Protocol} {limit : Nat} {rest : Bytes}
    {error : Option DaemonError} (h : Remainder p limit rest error) :
    error = (finish (decodeRequest p limit) rest).error.map .ofFrameError := by
  cases h with
  | nothing => rfl
  | oversized hlimit body =>
      rw [finish_of_error (decodeRequest_stable p limit) (decodeRequest_oversized hlimit body)]
      rfl
  | insideHeader hne hlength =>
      rw [finish_of_incomplete (decodeRequest_short limit hlength), if_neg hne]
      rfl
  | insidePayload hlimit hbody =>
      rw [finish_of_incomplete (decodeRequest_partial hlimit hbody), if_neg]
      · rfl
      · intro hnil
        have hlength := congrArg List.length hnil
        rw [List.length_append, RequestHeader.length_bytes] at hlength
        cases p <;> simp [requestHeader] at hlength

theorem Remainder.of_incomplete {p : Protocol} {limit : Nat} {bytes : Bytes}
    (h : decodeRequest p limit bytes = .ok .incomplete) :
    Remainder p limit bytes
      ((if bytes = [] then none else some FrameError.truncated).map .ofFrameError) := by
  by_cases hnil : bytes = []
  · subst hnil
    exact .nothing
  · rw [if_neg hnil]
    cases requestFront p limit bytes with
    | frame hf rest =>
        rw [decodeRequest_bytes hf] at h
        cases h
    | oversized hlimit body =>
        rw [decodeRequest_oversized hlimit] at h
        cases h
    | insideHeader hlength => exact .insideHeader hnil hlength
    | insidePayload hlimit hbody => exact .insidePayload hlimit hbody

/-- Every sequence of bytes can be taken apart, and at the end of the stream draining has found just
the requests, and an error if there is a remainder. -/
theorem exists_dissection (p : Protocol) (limit : Nat) (bytes : Bytes) :
    ∃ d : Dissection p limit bytes,
      (finish (decodeRequest p limit) bytes).items = d.requests ∧
        Remainder p limit d.rest
          ((finish (decodeRequest p limit) bytes).error.map .ofFrameError) := by
  have hd := decodeRequest_stable p limit
  induction bytes using drain_induction hd with
  | error bytes e hdecode =>
      obtain ⟨h, body, hlimit, rfl, rfl⟩ := eq_oversized_of_decodeRequest hdecode
      refine ⟨.ofRest _ (not_prefix_of_decodeRequest_ne (by simp [hdecode])), ?_, ?_⟩
      · rw [finish_of_error hd hdecode]
        rfl
      · rw [finish_of_error hd hdecode]
        exact .oversized hlimit body
  | incomplete bytes hdecode =>
      refine ⟨.ofRest bytes (not_prefix_of_decodeRequest_ne (by simp [hdecode])), ?_, ?_⟩
      · rw [finish_of_incomplete hdecode]
        rfl
      · rw [finish_of_incomplete hdecode]
        exact .of_incomplete hdecode
  | frame bytes request size rest hdecode ih =>
      obtain ⟨f, hf, rfl, rfl⟩ := eq_bytes_of_decodeRequest hdecode
      obtain ⟨d, hitems, hrest⟩ := ih
      refine ⟨d.cons hf, ?_, ?_⟩
      · rw [finish_of_frame hd hdecode, Found.items_prepend, hitems]
        rfl
      · rw [finish_of_frame hd hdecode]
        exact hrest

end ReplDaemon.Frame
