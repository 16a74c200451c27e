import ReplDaemon.Engine.Rehearsed
import ReplDaemon.Proofs.Frame.Response
import ReplDaemon.Proofs.Supervisor.Texts
import ReplDaemon.Proofs.Turns

/-!
# The reception of responses

The output of an evaluation is cut at as many bytes as a client accepts in a response, but a response
holds more than this output: the notice that it was cut, a value, or an error. So a client with the
default settings can read the response of a default service exactly if all that there was to be said
would have been within the limit, and it reads no response in which output was cut.
-/

namespace ReplDaemon.Service

open Supervisor

variable {Shared State : Type} {engine : Engine Shared State} {config : SupervisorConfig}

/-- What there is to be said in answer to a request, if no output is ever cut. -/
inductive Uncut (engine : Engine Shared State) (config : SupervisorConfig) :
    Option (Turn Shared State) → Response → String → Prop
  | withoutTurn (response : Response) : Uncut engine config none response response.text
  | marker {t : Turn Shared State} {o : Outcome} (outcome : (t.result engine config).outcome = some o)
      (told : o.isOwn = false) : Uncut engine config (some t) (responseOf o) o.text
  | own {t : Turn Shared State} {o : Outcome} {texts : List String}
      (outcome : (t.result engine config).outcome = some o) (isOwn : o.isOwn = true)
      (written : (t.work engine config).context.output = .written t.session.outputLimit texts) :
      Uncut engine config (some t) (responseOf o)
        (String.join (texts ++ (t.work engine config).ending.captured) ++
          (t.work engine config).ending.appended)

/-- A response says something, and a client with the default settings can read it exactly if this is
within the limit of the client; then it reads just that. -/
def Conveyed (p : Protocol) (engine : Engine Shared State) (turn : Option (Turn Shared State))
    (response : Response) : Prop :=
  (∃ whole : String, Uncut engine {} turn response whole) ∧
    ∀ whole : String, Uncut engine {} turn response whole →
      (response.Readable p Client.defaultLimit ↔ whole.utf8ByteSize ≤ Client.defaultLimit) ∧
        (whole.utf8ByteSize ≤ Client.defaultLimit → response.text = whole)

theorem readable_default_iff {p : Protocol} {response : Response} :
    response.Readable p Client.defaultLimit ↔
      response.text.utf8ByteSize ≤ Client.defaultLimit :=
  Response.readable_iff (by decide)

/-- What is within the limit is said as a whole, and nothing else is readable. -/
theorem conveyed_of_uncut {p : Protocol} {turn : Option (Turn Shared State)} {response : Response}
    {whole : String} (hlimit : ∀ t ∈ turn, t.session.outputLimit = Client.defaultLimit)
    (h : Uncut engine config turn response whole) :
    (response.Readable p Client.defaultLimit ↔ whole.utf8ByteSize ≤ Client.defaultLimit) ∧
      (whole.utf8ByteSize ≤ Client.defaultLimit → response.text = whole) := by
  rw [readable_default_iff]
  cases h with
  | withoutTurn => exact ⟨.rfl, fun _ => rfl⟩
  | marker => exact ⟨.rfl, fun _ => rfl⟩
  | @own t o texts outcome isOwn written =>
      have htext := text_of_run outcome isOwn rfl written
      rw [hlimit t rfl] at htext
      have hresponse : (responseOf o).text = _ := htext
      rw [hresponse]
      refine ⟨Capture.utf8ByteSize_shown_written_le_iff _ _ _, fun hfits => ?_⟩
      rw [Capture.shown_written]
      · rfl
      · rw [String.utf8ByteSize_append] at hfits
        exact Nat.le_of_add_right_le hfits

/-- Whatever the engine writes and comes to, and whether a request is handled by itself or with others: a
client with the default settings can read the response of a service with the default settings exactly if
all that there was to be said is within the limit. -/
theorem readable_iff_uncut (hwrites : engine.Writes) {p : Protocol} {shared : Shared}
    {s : Service Shared State} (h : Reachable engine { protocol := p } shared s) :
    (∀ request response, (s.handle request).1 = some response →
        Conveyed p engine (s.turn? request) response) ∧
      ∀ requests responses, (s.handleAll requests).1 = some responses →
        List.Forall₂ (Conveyed p engine) (s.turns requests) responses := by
  have hkind : engine.Stays fun _ => True := ⟨fun _ _ => trivial, fun _ _ _ _ _ => trivial⟩
  have hconveyed (turn : Option (Turn Shared State)) (response : Response)
      (hanswers : Answers engine { protocol := p } (fun _ => True) turn response) :
      Conveyed p engine turn response := by
    cases hanswers with
    | blank => exact ⟨⟨_, .withoutTurn _⟩, fun _ => conveyed_of_uncut (fun _ ht => nomatch ht)⟩
    | refused => exact ⟨⟨_, .withoutTurn _⟩, fun _ => conveyed_of_uncut (fun _ ht => nomatch ht)⟩
    | @served t o limit state outcome =>
        refine ⟨?_, fun _ => conveyed_of_uncut fun _ ht => Option.some.inj ht ▸ limit⟩
        cases hown : o.isOwn with
        | false => exact ⟨_, .marker outcome hown⟩
        | true =>
            have hworked : Worked engine (fun _ => True) t.session.outputLimit (t.work engine {}) :=
              worked_workFor hwrites hkind t.shared trivial _ _ _
            obtain ⟨texts, hwritten⟩ := hworked.written hwrites
            exact ⟨_, .own outcome hown hwritten⟩
  obtain ⟨hhandle, hhandleAll⟩ := h.answers hwrites hkind
  exact ⟨fun request response hresponse => hconveyed _ _ (hhandle request response hresponse),
    fun requests responses hresponses => (hhandleAll requests responses hresponses).imp hconveyed⟩

/-- A default service whose engine prints something and comes to a value, or to none. -/
def printing (text : String) (value : Option Value) : Service Rehearsed.Course Unit :=
  .start (Rehearsed.engine none none) {} ⟨[⟨some text, .answer (.ok (.completed value))⟩], []⟩

theorem readable_iff_uncut_value :
    ∃ response, ((printing "a" (some (.int 1))).handle (ask "x")).1 = some response ∧
      response.Readable .keyed Client.defaultLimit ∧ response.text = "a1" := by
  have hresponse : ((printing "a" (some (.int 1))).handle (ask "x")).1 =
      some (responseOf (.output "a1")) := by decide +kernel
  have hturn : (printing "a" (some (.int 1))).turn? (ask "x") = some
      { shared := ⟨[⟨some "a", .answer (.ok (.completed (some (.int 1))))⟩], []⟩
        session := .new "k" 0 ⟨⟩ 1048576 0, request := (ask "x"), now := 1 } := rfl
  have huncut : Uncut (Rehearsed.engine none none) {} ((printing "a" (some (.int 1))).turn? (ask "x"))
      (responseOf (.output "a1")) (String.join ["a"] ++ (Value.int 1).format) := by
    rw [hturn]
    exact @Uncut.own _ _ _ _ _ (.output "a1") ["a"] (by decide +kernel) rfl rfl
  have hconveyed := (readable_iff_uncut (p := .keyed) (Rehearsed.writes_engine none none) .start).1
    (ask "x") _ hresponse
  obtain ⟨hreadable, -⟩ := hconveyed.2 _ huncut
  exact ⟨_, hresponse, hreadable.mpr (by decide +kernel), rfl⟩

theorem utf8ByteSize_replicate (n : Nat) :
    (String.ofList (List.replicate n 'a')).utf8ByteSize = n := by
  induction n with
  | zero => rfl
  | succ n ih =>
      have hone : 'a'.utf8Size = 1 := by decide
      rw [List.replicate_succ, String.ofList_cons, String.utf8ByteSize_append, ih,
        String.utf8ByteSize_singleton, hone, Nat.add_comm]

/-- One byte more than the limit is cut, but with the notice of this the client refuses the response. -/
theorem cut_output_not_readable :
    ∃ response, ((printing (.ofList (List.replicate 1048577 'a')) none).handle (ask "x")).1 =
        some response ∧ ¬ response.Readable .keyed Client.defaultLimit := by
  have hanswer (text : String) : ((printing text none).handle (ask "x")).1 =
      some { success := true, text := (Capture.written 1048576 [text]).shown } := rfl
  refine ⟨_, hanswer _, fun hreadable => ?_⟩
  rw [readable_default_iff] at hreadable
  have hlarge : 1048576 < (String.join [String.ofList (List.replicate 1048577 'a')]).utf8ByteSize := by
    rw [String.join_cons, String.join_nil, String.append_empty, utf8ByteSize_replicate]
    exact Nat.lt_succ_self _
  obtain ⟨kept, hshown, hfull⟩ := Capture.shown_written_of_lt hlarge
  have hnotice : Capture.notice.utf8ByteSize = 19 := by decide
  have hlimit : Client.defaultLimit = 1048576 := rfl
  rw [hshown, String.utf8ByteSize_append] at hreadable
  omega

end ReplDaemon.Service
