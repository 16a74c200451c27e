import ReplDaemon.Frame.Stream
import ReplDaemon.Proofs.Frame.Request

/-!
# Draining a buffer

What `drain` finds in a buffer is determined by what the decoder says of its front. For a decoder that
never takes back what it has said when more bytes arrive, draining a buffer piece by piece finds what
draining the whole of it finds.
-/

namespace ReplDaemon.Frame

open Text

variable {α : Type}

/-- A decoder that says nothing of no bytes, takes a byte at least for every frame, and says of a longer
buffer whatever it has said of its front. -/
structure Decoder.Stable (decoder : Decoder α) : Prop where
  nil : decoder [] = .ok .incomplete
  shortens {buffer rest : Bytes} {item : α} {size : Nat} :
    decoder buffer = .ok (.frame item size rest) → rest.length < buffer.length
  frame_append {buffer rest : Bytes} {item : α} {size : Nat} (more : Bytes) :
    decoder buffer = .ok (.frame item size rest) →
      decoder (buffer ++ more) = .ok (.frame item size (rest ++ more))
  error_append {buffer : Bytes} {e : FrameError} (more : Bytes) :
    decoder buffer = .error e → decoder (buffer ++ more) = .error e

/-- Frames in front of what was found. -/
def Found.prepend (items : List α) (found : Found α) : Found α :=
  { found with items := items ++ found.items }

@[simp]
theorem Found.items_prepend (items : List α) (found : Found α) :
    (found.prepend items).items = items ++ found.items := rfl

@[simp]
theorem Found.error_prepend (items : List α) (found : Found α) :
    (found.prepend items).error = found.error := rfl

/-- The frames found already stand in front of those still to be found. -/
theorem drainFrom_eq_prepend (decoder : Decoder α) (items : List α) (buffer rounds : Bytes) :
    drainFrom decoder items buffer rounds =
      (drainFrom decoder [] buffer rounds).prepend items.reverse := by
  induction rounds generalizing items buffer with
  | nil => simp [drainFrom, Found.prepend]
  | cons b rounds ih =>
      rw [drainFrom, drainFrom]
      split
      · simp [Found.prepend]
      · simp [Found.prepend]
      · next item _ rest _ =>
          rw [ih (item :: items), ih [item]]
          simp [Found.prepend]

theorem drain_of_incomplete {decoder : Decoder α} {buffer : Bytes} (h : decoder buffer = .ok .incomplete) :
    drain decoder buffer = ⟨[], none, buffer⟩ := by
  cases buffer with
  | nil => rfl
  | cons b buffer => simp [drain, drainFrom, h]

/-- Frames found in front stay in front at the end of the stream. -/
theorem finish_eq_prepend {decoder : Decoder α} {buffer rest : Bytes} {items : List α}
    (h : drain decoder buffer = (drain decoder rest).prepend items) :
    finish decoder buffer = (finish decoder rest).prepend items := by
  rw [finish, finish, h]
  cases herror : (drain decoder rest).error with
  | some e => simp [herror]
  | none =>
      by_cases hnil : (drain decoder rest).buffer.isEmpty <;>
        simp [herror, hnil, Found.prepend]

section Stable

variable {decoder : Decoder α} (hd : decoder.Stable)
include hd

/-- More rounds than bytes find nothing more. -/
theorem drainFrom_congr_rounds (items : List α) (buffer : Bytes) {rounds rounds' : Bytes}
    (h : buffer.length ≤ rounds.length) (h' : buffer.length ≤ rounds'.length) :
    drainFrom decoder items buffer rounds = drainFrom decoder items buffer rounds' := by
  induction rounds generalizing items buffer rounds' with
  | nil =>
      have hnil : buffer = [] := List.length_eq_zero_iff.mp (Nat.le_zero.mp h)
      subst hnil
      cases rounds' with
      | nil => rfl
      | cons b rounds' => simp [drainFrom, hd.nil]
  | cons b rounds ih =>
      cases rounds' with
      | nil =>
          have hnil : buffer = [] := List.length_eq_zero_iff.mp (Nat.le_zero.mp h')
          subst hnil
          simp [drainFrom, hd.nil]
      | cons b' rounds' =>
          rw [drainFrom, drainFrom]
          split
          · rfl
          · rfl
          · next item size rest hdecode =>
              have hrest := hd.shortens hdecode
              rw [List.length_cons] at h h'
              exact ih (item :: items) rest (by omega) (by omega)

theorem drain_of_error {buffer : Bytes} {e : FrameError} (h : decoder buffer = .error e) :
    drain decoder buffer = ⟨[], some e, buffer⟩ := by
  cases buffer with
  | nil => simp [hd.nil] at h
  | cons b buffer => simp [drain, drainFrom, h]

theorem drain_of_frame {buffer rest : Bytes} {item : α} {size : Nat}
    (h : decoder buffer = .ok (.frame item size rest)) :
    drain decoder buffer = (drain decoder rest).prepend [item] := by
  cases buffer with
  | nil => simp [hd.nil] at h
  | cons b buffer =>
      have hrest := hd.shortens h
      rw [List.length_cons] at hrest
      rw [drain, drainFrom, h]
      simp only
      have hrounds : drainFrom decoder [item] rest buffer = drainFrom decoder [item] rest rest :=
        drainFrom_congr_rounds hd [item] rest (by omega) (Nat.le_refl _)
      rw [hrounds, drainFrom_eq_prepend]
      rfl

/-- Case analysis along the frames at the front of a buffer. -/
theorem drain_induction {motive : Bytes → Prop}
    (error : ∀ buffer e, decoder buffer = .error e → motive buffer)
    (incomplete : ∀ buffer, decoder buffer = .ok .incomplete → motive buffer)
    (frame : ∀ buffer item size rest, decoder buffer = .ok (.frame item size rest) →
      motive rest → motive buffer)
    (buffer : Bytes) : motive buffer := by
  induction hn : buffer.length using Nat.strong_induction_on generalizing buffer with
  | h n ih =>
      subst hn
      cases h : decoder buffer with
      | error e => exact error buffer e h
      | ok front =>
          cases front with
          | incomplete => exact incomplete buffer h
          | frame item size rest =>
              exact frame buffer item size rest h (ih rest.length (hd.shortens h) rest rfl)

/-- An error that was found stays, however the stream goes on. -/
theorem drain_append_of_error {buffer : Bytes} {e : FrameError}
    (h : (drain decoder buffer).error = some e) (more : Bytes) :
    drain decoder (buffer ++ more) =
      { drain decoder buffer with buffer := (drain decoder buffer).buffer ++ more } := by
  induction buffer using drain_induction hd with
  | error buffer e hdecode =>
      rw [drain_of_error hd hdecode, drain_of_error hd (hd.error_append more hdecode)]
  | incomplete buffer hdecode => simp [drain_of_incomplete hdecode] at h
  | frame buffer item size rest hdecode ih =>
      rw [drain_of_frame hd hdecode, Found.error_prepend] at h
      rw [drain_of_frame hd hdecode, drain_of_frame hd (hd.frame_append more hdecode), ih h]
      rfl

/-- Draining the whole finds what draining its front finds, and then what is found in the bytes left
there together with the others. -/
theorem drain_append {buffer : Bytes} (h : (drain decoder buffer).error = none) (more : Bytes) :
    drain decoder (buffer ++ more) =
      (drain decoder ((drain decoder buffer).buffer ++ more)).prepend
        (drain decoder buffer).items := by
  induction buffer using drain_induction hd with
  | error buffer e hdecode => simp [drain_of_error hd hdecode] at h
  | incomplete buffer hdecode =>
      rw [drain_of_incomplete hdecode]
      rfl
  | frame buffer item size rest hdecode ih =>
      rw [drain_of_frame hd hdecode, Found.error_prepend] at h
      rw [drain_of_frame hd hdecode, drain_of_frame hd (hd.frame_append more hdecode), ih h]
      rfl

theorem finish_of_error {buffer : Bytes} {e : FrameError} (h : decoder buffer = .error e) :
    finish decoder buffer = ⟨[], some e, buffer⟩ := by
  simp [finish, drain_of_error hd h]

theorem finish_of_frame {buffer rest : Bytes} {item : α} {size : Nat}
    (h : decoder buffer = .ok (.frame item size rest)) :
    finish decoder buffer = (finish decoder rest).prepend [item] :=
  finish_eq_prepend (drain_of_frame hd h)

/-- At the end of a stream whose front leaves some bytes, those bytes decide. -/
theorem finish_append {buffer : Bytes} (h : (drain decoder buffer).error = none) (more : Bytes) :
    finish decoder (buffer ++ more) =
      (finish decoder ((drain decoder buffer).buffer ++ more)).prepend
        (drain decoder buffer).items :=
  finish_eq_prepend (drain_append hd h more)

/-- At the end of a stream an error found before is still the one. -/
theorem finish_append_of_error {buffer : Bytes} {e : FrameError}
    (h : (drain decoder buffer).error = some e) (more : Bytes) :
    (finish decoder (buffer ++ more)).items = (drain decoder buffer).items ∧
      (finish decoder (buffer ++ more)).error = some e := by
  rw [finish, drain_append_of_error hd h more]
  simp [h]

/-- What was found in the front of a stream comes first. -/
theorem exists_items_finish_append (buffer more : Bytes) :
    ∃ items, (finish decoder (buffer ++ more)).items = (drain decoder buffer).items ++ items := by
  cases h : (drain decoder buffer).error with
  | some e => exact ⟨[], by rw [List.append_nil, (finish_append_of_error hd h more).1]⟩
  | none => exact ⟨_, by rw [finish_append hd h more, Found.items_prepend]⟩

end Stable

theorem finish_of_incomplete {decoder : Decoder α} {buffer : Bytes}
    (h : decoder buffer = .ok .incomplete) :
    finish decoder buffer = ⟨[], if buffer = [] then none else some .truncated, buffer⟩ := by
  rw [finish, drain_of_incomplete h]
  by_cases hnil : buffer = [] <;> simp [hnil]

end ReplDaemon.Frame
