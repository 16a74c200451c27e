import ReplDaemon.Connection
import ReplDaemon.Proofs.Frame.Dissection

/-!
# Serving a connection

A connection is served as if all its bytes had arrived at once: they are dissected into requests and a
remainder, the requests are handled in order, each once, and the bytes written are those of their
responses. What ends the connection can be read off the remainder.
-/

namespace ReplDaemon

open Text

variable {σ : Type}

/-- Handling requests in order: each is answered, and passes its state on to the next. -/
inductive Responder.Answers (r : Responder σ) : σ → List Request → List Response → σ → Prop where
  | nil (s : σ) : Answers r s [] [] s
  | cons {s s' s'' : σ} {request : Request} {response : Response} {requests : List Request}
      {responses : List Response} (head : r.handle s request = (some response, s'))
      (tail : Answers r s' requests responses s'') :
      Answers r s (request :: requests) (response :: responses) s''

/-- What has to come of a connection over which some bytes are sent. Either all their requests are
answered, and the remainder decides on the error, or there is a first one that is never answered. -/
inductive Responder.Serves (r : Responder σ) (s : σ) {bytes : Bytes}
    (d : Frame.Dissection r.protocol r.limit bytes) : Bytes × Option DaemonError × σ → Prop where
  | answered {responses : List Response} {s' : σ} {error : Option DaemonError}
      (answers : r.Answers s d.requests responses s')
      (ends : ∀ e, Frame.Remainder r.protocol r.limit d.rest e ↔ error = e) :
      Serves r s d (responses.flatMap (Frame.encodeResponse r.protocol), error, s')
  | unanswered {front back : List Request} {request : Request} {responses : List Response}
      {s' s'' : σ} (requests : d.requests = front ++ request :: back)
      (answers : r.Answers s front responses s') (silent : r.handle s' request = (none, s'')) :
      Serves r s d (responses.flatMap (Frame.encodeResponse r.protocol), none, s'')

namespace Connection

/-- The bytes already written stand in front of the others. -/
theorem answerFrom_eq (r : Responder σ) (s : σ) (written : Bytes) (requests : List Request) :
    answerFrom r s written requests =
      (written.reverse ++ (answerAll r s requests).1, (answerAll r s requests).2) := by
  induction requests generalizing s written with
  | nil => simp [answerFrom, answerAll]
  | cons request requests ih =>
      rw [answerAll, answerFrom, answerFrom]
      split
      · next response s' _ =>
          rw [ih s' (_ ++ written), ih s' (_ ++ [])]
          simp
      · simp

theorem answerAll_nil (r : Responder σ) (s : σ) : answerAll r s [] = ([], false, s) := rfl

theorem answerAll_cons_of_some {r : Responder σ} {s s' : σ} {request : Request}
    {response : Response} (h : r.handle s request = (some response, s'))
    (requests : List Request) :
    answerAll r s (request :: requests) =
      (Frame.encodeResponse r.protocol response ++ (answerAll r s' requests).1,
        (answerAll r s' requests).2) := by
  rw [answerAll, answerFrom, h]
  simp only
  rw [answerFrom_eq]
  simp

theorem answerAll_cons_of_none {r : Responder σ} {s s' : σ} {request : Request}
    (h : r.handle s request = (none, s')) (requests : List Request) :
    answerAll r s (request :: requests) = ([], true, s') := by
  rw [answerAll, answerFrom, h]
  rfl

/-- Behind requests that are all answered the others are handled. -/
theorem answerAll_append (r : Responder σ) (s : σ) (front back : List Request) :
    answerAll r s (front ++ back) =
      if (answerAll r s front).2.1 then answerAll r s front
      else ((answerAll r s front).1 ++ (answerAll r (answerAll r s front).2.2 back).1,
        (answerAll r (answerAll r s front).2.2 back).2) := by
  induction front generalizing s with
  | nil => simp [answerAll_nil]
  | cons request front ih =>
      rw [List.cons_append]
      cases h : r.handle s request with
      | mk response s' =>
          cases response with
          | none => simp [answerAll_cons_of_none h]
          | some response =>
              rw [answerAll_cons_of_some h, answerAll_cons_of_some h, ih s']
              by_cases hsilent : (answerAll r s' front).2.1 <;> simp [hsilent]

/-- Requests are all answered, or there is a first one that is not. -/
theorem answerAll_cases (r : Responder σ) (s : σ) (requests : List Request) :
    (∃ responses s', r.Answers s requests responses s' ∧
      answerAll r s requests =
        (responses.flatMap (Frame.encodeResponse r.protocol), false, s')) ∨
    (∃ front request back responses s' s'', requests = front ++ request :: back ∧
      r.Answers s front responses s' ∧ r.handle s' request = (none, s'') ∧
      answerAll r s requests =
        (responses.flatMap (Frame.encodeResponse r.protocol), true, s'')) := by
  induction requests generalizing s with
  | nil => exact Or.inl ⟨[], s, .nil s, rfl⟩
  | cons request requests ih =>
      cases h : r.handle s request with
      | mk response s' =>
          cases response with
          | none =>
              exact Or.inr ⟨[], request, requests, [], s, s', rfl, .nil s, h,
                answerAll_cons_of_none h requests⟩
          | some response =>
              rw [answerAll_cons_of_some h]
              rcases ih s' with
                ⟨responses, t, hanswers, heq⟩ |
                ⟨front, silent, back, responses, t, t', rfl, hanswers, hsilent, heq⟩
              · refine Or.inl ⟨response :: responses, t, .cons h hanswers, ?_⟩
                rw [heq, List.flatMap_cons]
              · refine Or.inr ⟨request :: front, silent, back, response :: responses, t, t', rfl,
                  .cons h hanswers, hsilent, ?_⟩
                rw [heq, List.flatMap_cons]

/-- What remains of a connection when it is over: the bytes answered, the error, and the state. -/
def report (x : Connection × σ) : Bytes × Option FrameError × σ :=
  (x.1.answered, x.1.error, x.2)

theorem report_reply (c : Connection) (r : Responder σ) (s : σ) (found : Frame.Found Request) :
    report (c.reply r s found) =
      (c.answered ++ (answerAll r s found.items).1,
        if (answerAll r s found.items).2.1 then none else found.error,
        (answerAll r s found.items).2.2) := rfl

theorem receiveAll_of_isOver {c : Connection} (h : c.isOver) (r : Responder σ) (s : σ)
    (chunks : List Bytes) : c.receiveAll r s chunks = (c, s) := by
  induction chunks with
  | nil => rfl
  | cons chunk chunks ih =>
      rw [receiveAll, receive, if_pos h]
      exact ih

/-- A connection that is over stays as it is. -/
theorem report_receiveAll_of_isOver {c : Connection} (h : c.isOver) (r : Responder σ) (s : σ)
    (chunks : List Bytes) :
    report ((c.receiveAll r s chunks).1.finish r (c.receiveAll r s chunks).2) =
      (c.answered, c.error, s) := by
  rw [receiveAll_of_isOver h, finish, if_pos h]
  rfl

/-- Chunks are answered like the whole of them. -/
theorem report_receiveAll {c : Connection} (h : ¬ c.isOver) (r : Responder σ) (s : σ)
    (chunks : List Bytes) :
    report ((c.receiveAll r s chunks).1.finish r (c.receiveAll r s chunks).2) =
      report (c.reply r s (Frame.finish (decoder r) (c.buffer ++ chunks.flatten))) := by
  have hd : (decoder r).Stable := Frame.decodeRequest_stable r.protocol r.limit
  induction chunks generalizing c s with
  | nil =>
      rw [receiveAll, List.flatten_nil, List.append_nil]
      simp only
      rw [finish, if_neg h]
  | cons chunk chunks ih =>
      rw [receiveAll, receive, if_neg h, List.flatten_cons, ← List.append_assoc]
      simp only
      rw [Frame.feed]
      generalize c.buffer ++ chunk = buffer
      obtain ⟨items, hitems⟩ := Frame.exists_items_finish_append hd buffer chunks.flatten
      by_cases hsilent : (answerAll r s (Frame.drain (decoder r) buffer).items).2.1
      · -- A request of the first chunk is never answered, so the others are not read.
        rw [report_receiveAll_of_isOver (by simp [isOver, reply, hsilent]), report_reply, hitems,
          answerAll_append, if_pos hsilent]
        simp [reply, hsilent]
      · cases herror : (Frame.drain (decoder r) buffer).error with
        | some e =>
            obtain ⟨hsame, hend⟩ := Frame.finish_append_of_error hd herror chunks.flatten
            rw [report_receiveAll_of_isOver (by simp [isOver, reply, hsilent, herror]),
              report_reply, hsame, hend]
            simp [reply, hsilent, herror]
        | none =>
            rw [ih (by simp [isOver, reply, hsilent, herror]), report_reply, report_reply,
              Frame.finish_append hd herror, Frame.Found.items_prepend, answerAll_append,
              if_neg hsilent]
            simp only [reply, Frame.Found.error_prepend, List.append_assoc]
            rfl

/-- A connection is served by answering what is found in all its bytes together. -/
theorem serve_eq (r : Responder σ) (s : σ) (chunks : List Bytes) :
    serve r s chunks =
      ((answerAll r s (Frame.finish (decoder r) chunks.flatten).items).1,
        (if (answerAll r s (Frame.finish (decoder r) chunks.flatten).items).2.1 then none
          else (Frame.finish (decoder r) chunks.flatten).error).map .ofFrameError,
        (answerAll r s (Frame.finish (decoder r) chunks.flatten).items).2.2) := by
  have hreport := report_receiveAll (c := start) (by simp [isOver, start]) r s chunks
  rw [report_reply] at hreport
  simp only [report, Prod.mk.injEq] at hreport
  obtain ⟨hanswered, herror, hstate⟩ := hreport
  simp only [serve, hanswered, herror, hstate]
  rfl

/-- Whatever the chunks, a connection is served as the unique dissection of its bytes demands. -/
theorem serve_dissection (r : Responder σ) (s : σ) (chunks : List Bytes) :
    ∃ d : Frame.Dissection r.protocol r.limit chunks.flatten,
      (∀ e, e = d) ∧ r.Serves s d (serve r s chunks) := by
  obtain ⟨d, hitems, hrest⟩ := Frame.exists_dissection r.protocol r.limit chunks.flatten
  refine ⟨d, fun e => e.unique d, ?_⟩
  rw [serve_eq, decoder, hitems]
  rcases answerAll_cases r s d.requests with
    ⟨responses, s', hanswers, heq⟩ |
    ⟨front, request, back, responses, s', s'', hrequests, hanswers, hsilent, heq⟩
  · rw [heq]
    refine .answered hanswers fun e => ⟨?_, ?_⟩
    · intro he
      exact hrest.eq_error_finish.trans he.eq_error_finish.symm
    · rintro rfl
      exact hrest
  · rw [heq]
    exact .unanswered hrequests hanswers hsilent

end Connection

end ReplDaemon
