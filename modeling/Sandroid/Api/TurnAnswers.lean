import Sandroid.Api.StreamConnection

/-!
# Whether a turn is answered

A turn that runs to its end is to be answered by one frame: its result, or an error.
The finalizer catches what the orchestrator raises as `KeyError` or `ValueError`, and
the pump what the ASR raises; a failure of `stream_segments`, of the request's own checks
or of the orchestrator in any other way ends the finalizer without a frame.

`answered_once`: in a run without such a step every turn whose finalizer is over has
exactly one result or error, then and for ever.
-/

namespace Sandroid
namespace Api

open Lib

variable {vad : Vad} {asr : Asr}

/-- A result or an error. -/
def FrameBody.endsTurn : FrameBody → Bool
  | .result => true
  | .error _ _ _ => true
  | _ => false

/-- How many frames end the turn. -/
def turnEnds (frames : List FrameBody) : Nat :=
  frames.countP FrameBody.endsTurn

theorem turnEnds_append (frames bodies : List FrameBody) :
    turnEnds (frames ++ bodies) = turnEnds frames + turnEnds bodies :=
  List.countP_append

namespace Turn

/-- The fields of the start frame are what a request may have. -/
def ValidFields (t : Turn vad asr) : Prop :=
  t.sceneId ≠ some .other ∧ t.categoryPath ≠ some .other ∧ 1 ≤ t.nBest ∧ t.nBest ≤ 20

theorem recognitionRequest_of_validFields {t : Turn vad asr} (h : t.ValidFields) (text : String) :
    t.recognitionRequest text ≠ none := by
  obtain ⟨hscene, hpath, hlow, hhigh⟩ := h
  have htext {value : Option FieldValue} (hvalue : value ≠ some .other) :
      ∃ s, FieldValue.asText value = some s := by
    cases value with
    | none => exact ⟨none, rfl⟩
    | some value =>
        cases value with
        | str s => exact ⟨some s, rfl⟩
        | other => exact absurd rfl hvalue
  obtain ⟨scene, hscene⟩ := htext hscene
  obtain ⟨path, hpath⟩ := htext hpath
  have hrange : 1 ≤ t.nBest.toNat ∧ t.nBest.toNat ≤ 20 := by omega
  simp [recognitionRequest, hscene, hpath, hrange]

/-- With its segment, or none, the pump returns or goes to the ASR. -/
theorem afterJoin_segment (t : Turn vad asr) (seg : Option SegmentResult) :
    t.afterJoin (.segment seg) = .done (.returned "") ∨
      ∃ s, t.afterJoin (.segment seg) = .recognizing s asr.start (segmentChunks s) "" := by
  cases seg with
  | none => exact Or.inl rfl
  | some seg =>
      simp only [afterJoin]
      split
      · exact Or.inl rfl
      · exact Or.inr ⟨seg, rfl⟩

/-- The step of the pump is not one in which `stream_segments` raises. -/
def SegmentsGoOn (t : Turn vad asr) : Prop :=
  ∀ state ended message, t.pump = .segmenting state ended →
    vad.segments.next state ≠ .fail message

/-- The finalizer of a live turn with a transcript gets its request, and its request
an answer that it knows. -/
def AnswerKnown (t : Turn vad asr) (reply : OrchestratorAnswer) : Prop :=
  (∀ text, t.finalize = .awaitingPump → t.pump = .done (.returned text) → t.cancelled = false →
    isBlank text = false → t.ValidFields) ∧
  (∀ request, t.finalize = .recognizing request → reply ≠ .failed)

end Turn

/-- The condition on a step: what the pump and the finalizer send is taken, and neither
fails in a way that nobody catches. -/
def StreamSession.Caught (σ : StreamSession vad asr) : StreamLabel → Prop
  | .pump sends => ∀ t, σ.turn = some t → t.takes sends = true ∧ t.SegmentsGoOn
  | .finalize reply sends => ∀ t, σ.turn = some t → t.takes sends = true ∧ t.AnswerKnown reply
  | _ => True

def StreamConnection.Caught (c : StreamConnection vad asr) : ConnectionLabel → Prop
  | .session label => c.session.Caught label
  | .retired _ _ => True

/-- While the connection receives: the pump has not failed, and the active turn has its
answer once it is cancelled, which only a failure of the ASR does, or its finalizer over. -/
structure AnswerInv (loop : LoopPhase) (t : Turn vad asr) (frames : List FrameBody) : Prop where
  joining : loop = .receiving → ∀ outcome,
    t.pump = .joiningFan outcome ∨ t.pump = .joiningEvents outcome → ∃ seg, outcome = .segment seg
  returned : loop = .receiving → ∀ f, t.pump ≠ .done (.raised f)
  requested : loop = .receiving → ∀ request, t.finalize = .recognizing request →
    t.cancelled = false
  waiting : loop = .receiving → t.cancelled = false → t.finalize ≠ .done → turnEnds frames = 0
  ended : loop = .receiving → t.cancelled = true ∨ t.finalize = .done → turnEnds frames = 1

namespace AnswerInv

variable {loop loop' : LoopPhase} {t t' : Turn vad asr} {frames bodies : List FrameBody}

theorem opened (maxAudioBytes : Nat) (sessionId : PyStr) (turnId : Int) (control : StartControl)
    (nBest : Int) :
    AnswerInv .receiving
      (StreamSession.newTurn maxAudioBytes sessionId turnId control nBest : Turn vad asr) [] where
  joining := by
    rintro - outcome (h | h) <;> cases h
  returned := nofun
  requested := nofun
  waiting := fun _ _ _ => rfl
  ended := by
    rintro - (h | h) <;> cases h

theorem turnChange (h : AnswerInv loop t frames) (hchange : TurnChange loop loop' t t') :
    AnswerInv loop' t' frames where
  joining hloop := by
    rw [hchange.pump]
    exact h.joining (hchange.receiving hloop).1
  returned hloop := by
    rw [hchange.pump]
    exact h.returned (hchange.receiving hloop).1
  requested hloop := by
    rw [hchange.finalize, (hchange.receiving hloop).2]
    exact h.requested (hchange.receiving hloop).1
  waiting hloop := by
    rw [hchange.finalize, (hchange.receiving hloop).2]
    exact h.waiting (hchange.receiving hloop).1
  ended hloop := by
    rw [hchange.finalize, (hchange.receiving hloop).2]
    exact h.ended (hchange.receiving hloop).1

/-- A step that leaves the pump, the finalizer and `cancelled` alone and ends nothing. -/
theorem aside (h : AnswerInv loop t frames) (hpump : t'.pump = t.pump)
    (hfinalize : t'.finalize = t.finalize) (hcancelled : t'.cancelled = t.cancelled)
    (hbodies : turnEnds bodies = 0) : AnswerInv loop t' (frames ++ bodies) where
  joining := by
    rw [hpump]
    exact h.joining
  returned := by
    rw [hpump]
    exact h.returned
  requested := by
    rw [hfinalize, hcancelled]
    exact h.requested
  waiting := by
    rw [hfinalize, hcancelled, turnEnds_append, hbodies]
    exact h.waiting
  ended := by
    rw [hfinalize, hcancelled, turnEnds_append, hbodies]
    exact h.ended

/-- The connection no longer receives. -/
theorem of_left (hleft : loop ≠ .receiving) : AnswerInv loop t frames where
  joining hloop := absurd hloop hleft
  returned hloop := absurd hloop hleft
  requested hloop := absurd hloop hleft
  waiting hloop := absurd hloop hleft
  ended hloop := absurd hloop hleft

theorem eventsSends (h : AnswerInv loop t frames) (hsends : t.EventsSends t' bodies) :
    AnswerInv loop t' (frames ++ bodies) := by
  cases hsends with
  | silent hmove => cases hmove <;> exact h.aside rfl rfl rfl rfl
  | event => exact h.aside rfl rfl rfl rfl

/-- A step of the pump, which has not been done before, so that the turn is live and not
yet answered. -/
theorem withPump (h : AnswerInv loop t frames) (hlive : t.cancelled = false)
    (hfinalize : t.finalize = .created ∨ t.finalize = .awaitingPump)
    (hfinalize' : t'.finalize = t.finalize)
    (hjoining : ∀ outcome, t'.pump = .joiningFan outcome ∨ t'.pump = .joiningEvents outcome →
      ∃ seg, outcome = .segment seg)
    (hreturned : ∀ f, t'.pump ≠ .done (.raised f))
    (hbodies : turnEnds bodies = if t'.cancelled = true then 1 else 0) :
    AnswerInv loop t' (frames ++ bodies) := by
  have hopen : t.finalize ≠ .done := by
    obtain hf | hf := hfinalize
    · simp [hf]
    · simp [hf]
  refine
    { joining := fun _ => hjoining
      returned := fun _ => hreturned
      requested := ?_
      waiting := ?_
      ended := ?_ }
  · intro _ request hrequest
    rw [hfinalize'] at hrequest
    obtain hf | hf := hfinalize
    · simp [hf] at hrequest
    · simp [hf] at hrequest
  · intro hloop hlive' _
    rw [turnEnds_append, h.waiting hloop hlive hopen, hbodies, hlive']
    rfl
  · intro hloop hended
    rw [hfinalize'] at hended
    obtain hcancelled | hdone := hended
    · rw [turnEnds_append, h.waiting hloop hlive hopen, hbodies, hcancelled]
      rfl
    · exact absurd hdone hopen

theorem pumpSends {sends : Bool} (h : AnswerInv .receiving t frames)
    (hsettled : Settled .receiving t) (hsent : sends = true) (hsegments : t.SegmentsGoOn)
    (hsends : t.PumpSends sends t' bodies) : AnswerInv .receiving t' (frames ++ bodies) := by
  obtain ⟨hcancelled, hpumpCancel, -⟩ := hsettled.receiving rfl
  have hnot {pump : Pump vad asr} (hpump : t.pump = pump) (hopen : ∀ result, pump ≠ .done result) :
      t.pumpDone = false := by
    cases pump with
    | done result => exact absurd rfl (hopen result)
    | _ => simp [Turn.pumpDone, hpump]
  have hstep (hopen : t.pumpDone = false) (hfinalize' : t'.finalize = t.finalize)
      (hjoining : ∀ outcome, t'.pump = .joiningFan outcome ∨ t'.pump = .joiningEvents outcome →
        ∃ seg, outcome = .segment seg)
      (hreturned : ∀ f, t'.pump ≠ .done (.raised f))
      (hbodies : turnEnds bodies = if t'.cancelled = true then 1 else 0) :
      AnswerInv .receiving t' (frames ++ bodies) := by
    obtain ⟨hlive, -, hfinalize, -⟩ := hsettled.waiting hopen
    exact h.withPump (hlive rfl) hfinalize hfinalize' hjoining hreturned hbodies
  have hlive (hopen : t.pumpDone = false) : t.cancelled = false :=
    (hsettled.waiting hopen).1 rfl
  cases hsends with
  | early hearly hmove hleaves =>
      cases hmove with
      | abort _ hcancel => simp [hpumpCancel] at hcancel
      | fork hpump =>
          have hopen := hnot hpump (by simp)
          exact hstep hopen rfl (by simp) (by simp) (by simp [hlive hopen, turnEnds])
      | read hpump =>
          have hopen := hnot hpump (by simp)
          exact hstep hopen rfl (by simp) (by simp) (by simp [hlive hopen, turnEnds])
      | @leave state ended outcome hpump =>
          have hopen := hnot hpump (by simp)
          refine hstep hopen rfl ?_ (by simp) (by simp [hlive hopen, turnEnds])
          rintro outcome' (houtcome | houtcome)
          · cases houtcome
            obtain hcancel | ⟨message, hfail⟩ | hseg := hleaves state ended outcome hpump rfl
            · simp [hpumpCancel] at hcancel
            · exact absurd hfail (hsegments state ended message hpump)
            · exact hseg
          · cases houtcome
      | @joinFan outcome hpump _ =>
          have hopen := hnot hpump (by simp)
          refine hstep hopen rfl ?_ (by simp) (by simp [hlive hopen, turnEnds])
          rintro outcome' (houtcome | houtcome)
          · cases houtcome
          · cases houtcome
            exact h.joining rfl outcome (Or.inl hpump)
      | @joinEvents outcome hpump _ =>
          have hopen := hnot hpump (by simp)
          obtain ⟨seg, rfl⟩ := h.joining rfl outcome (Or.inr hpump)
          obtain hafter | ⟨seg, hafter⟩ := t.afterJoin_segment seg
          · exact hstep hopen rfl (by simp [hafter]) (by simp [hafter])
              (by simp [hlive hopen, turnEnds])
          · exact hstep hopen rfl (by simp [hafter]) (by simp [hafter])
              (by simp [hlive hopen, turnEnds])
      | transcribe hpump => simp [Turn.Early, hpump] at hearly
      | finish hpump _ _ => simp [Turn.Early, hpump] at hearly
  | interrupted _ hcancel => simp [hpumpCancel] at hcancel
  | skipped hpump hskip =>
      have hopen := hnot hpump (by simp)
      simp [hlive hopen] at hskip
  | transcript hpump hnext =>
      have hopen := hnot hpump (by simp)
      exact hstep hopen rfl (by simp) (by simp)
        (by simp [hlive hopen, turnEnds, transcriptBody, FrameBody.endsTurn])
  | fed hpump hnext =>
      have hopen := hnot hpump (by simp)
      exact hstep hopen rfl (by simp) (by simp) (by simp [hlive hopen, turnEnds])
  | ended hpump hnext =>
      have hopen := hnot hpump (by simp)
      exact hstep hopen rfl (by simp) (by simp) (by simp [hlive hopen, turnEnds])
  | stopped hpump =>
      have hopen := hnot hpump (by simp)
      exact hstep hopen rfl (by simp) (by simp) (by simp [hlive hopen, turnEnds])
  | failed message hpump _ =>
      have hopen := hnot hpump (by simp)
      exact hstep hopen rfl (by simp) (by simp) rfl
  | unsent hpump hfails => simp [hsent] at hfails

/-- A step of the finalizer to its end, or on to its request. -/
theorem withFinalize {finalize : Finalize} (h : AnswerInv .receiving t frames)
    (hrequested : ∀ request, finalize = .recognizing request → t.cancelled = false)
    (hwaiting : t.cancelled = false → finalize ≠ .done → turnEnds frames + turnEnds bodies = 0)
    (hended : t.cancelled = true ∨ finalize = .done → turnEnds frames + turnEnds bodies = 1) :
    AnswerInv .receiving ({ t with finalize := finalize } : Turn vad asr) (frames ++ bodies) where
  joining := h.joining
  returned := h.returned
  requested := fun _ => hrequested
  waiting _ := by
    rw [turnEnds_append]
    exact hwaiting
  ended _ := by
    rw [turnEnds_append]
    exact hended

theorem finalizeSends {reply : OrchestratorAnswer} {sends : Bool}
    (h : AnswerInv .receiving t frames) (hsettled : Settled .receiving t) (hsent : sends = true)
    (hknown : t.AnswerKnown reply) (hsends : t.FinalizeSends reply sends t' bodies) :
    AnswerInv .receiving t' (frames ++ bodies) := by
  have hanswer {body : FrameBody} (hlive : t.cancelled = false) (hopen : t.finalize ≠ .done)
      (hbody : body.endsTurn = true) :
      AnswerInv .receiving ({ t with finalize := .done } : Turn vad asr) (frames ++ [body]) := by
    have hnone := h.waiting rfl hlive hopen
    refine h.withFinalize nofun (fun _ hnot => absurd rfl hnot) ?_
    intro _
    simp [turnEnds, hbody] at hnone ⊢
    exact hnone
  cases hsends with
  | interrupted hcancel => simp [(hsettled.receiving rfl).2.2] at hcancel
  | begun hfinalize =>
      refine h.withFinalize nofun ?_ ?_
      · intro hlive _
        simpa [turnEnds] using h.waiting rfl hlive (by simp [hfinalize])
      · rintro (hcancelled | hdone)
        · simpa [turnEnds] using h.ended rfl (Or.inl hcancelled)
        · cases hdone
  | raised hfinalize hpump => exact absurd hpump (h.returned rfl _)
  | abandoned hfinalize hpump hcancelled =>
      refine h.withFinalize nofun (fun _ hnot => absurd rfl hnot) ?_
      intro _
      simpa [turnEnds] using h.ended rfl (Or.inl hcancelled)
  | noSpeech hfinalize hpump hlive => exact hanswer hlive (by simp [hfinalize]) rfl
  | requested hfinalize hpump hlive hrequest =>
      refine h.withFinalize (fun _ _ => hlive) ?_ ?_
      · intro _ _
        simpa [turnEnds] using h.waiting rfl hlive (by simp [hfinalize])
      · rintro (hcancelled | hdone)
        · simp [hlive] at hcancelled
        · cases hdone
  | refused hfinalize hpump hlive hblank hrequest =>
      have hvalid := hknown.1 _ hfinalize hpump hlive hblank
      exact absurd hrequest (Turn.recognitionRequest_of_validFields hvalid _)
  | answered hfinalize hbody =>
      refine hanswer (h.requested rfl _ hfinalize) (by simp [hfinalize]) ?_
      cases reply <;> cases hbody <;> rfl
  | failed hfinalize hbody =>
      have hreply := hknown.2 _ hfinalize
      cases reply with
      | failed => exact absurd rfl hreply
      | _ => cases hbody
  | unsent _ hfails => simp [hsent] at hfails

/-- One step of a task. -/
theorem sends {label : StreamLabel} {σ : StreamSession vad asr} (h : AnswerInv loop t frames)
    (hloop : σ.loop = loop) (hturn : σ.turn = some t) (hsettled : Settled loop t)
    (hcaught : σ.Caught label) (hsends : t.Sends label t' bodies) :
    AnswerInv loop t' (frames ++ bodies) := by
  by_cases hreceiving : loop = .receiving
  · subst hreceiving
    cases hsends with
    | fan hstep =>
        obtain ⟨-, ⟨-, rfl⟩ | ⟨_, _, -, -, rfl⟩⟩ := Turn.stepFan_cases hstep
        · exact h.aside rfl rfl rfl rfl
        · exact h.aside rfl rfl rfl rfl
    | events sends hsends => exact h.eventsSends hsends
    | pump sends hsends =>
        obtain ⟨htaken, hsegments⟩ := hcaught t hturn
        exact h.pumpSends hsettled htaken hsegments hsends
    | finalize reply sends hsends =>
        obtain ⟨htaken, hknown⟩ := hcaught t hturn
        exact h.finalizeSends hsettled htaken hknown hsends
  · exact of_left hreceiving

/-- One step of the connection. -/
theorem step {c c' : StreamConnection vad asr} {label : ConnectionLabel}
    (h : ConnectionInv c ∧ Recorded AnswerInv c.session) (hcaught : c.Caught label)
    (hstep : c.step label = some c') : ConnectionInv c' ∧ Recorded AnswerInv c'.session := by
  obtain ⟨hinv, hanswers⟩ := h
  obtain ⟨label', rfl, hsession, -⟩ := hinv.step_session hstep
  refine ⟨hinv.step hstep, ?_⟩
  refine hinv.recorded hanswers opened (fun ht hchange => ht.turnChange hchange) ?_
    (Advance.of_step hinv.waits hsession)
  intro t t' frames bodies hturn ht hsends
  exact ht.sends rfl hturn (hinv.settled t hturn) hcaught hsends

end AnswerInv

/-- In a run whose steps are all caught, a turn that has come to its end while the
connection receives (it was neither replaced nor cut off) has exactly one result or
error, and so it stays in whatever follows. -/
theorem answered_once (vad : Vad) (asr : Asr) (maxAudioBytes : Nat)
    (labels : List ConnectionLabel) (c : StreamConnection vad asr) (t : Turn vad asr)
    (hcaught : AlongRun StreamConnection.step StreamConnection.Caught
      (StreamConnection.accepted vad asr maxAudioBytes) labels)
    (hrun : (StreamConnection.accepted vad asr maxAudioBytes).run labels = some c)
    (hloop : c.session.loop = .receiving) (hturn : c.session.turn = some t)
    (hdone : t.finalize = .done) (more : List ConnectionLabel) (c' : StreamConnection vad asr)
    (hmore : c.run more = some c') :
    turnEnds (turnFrames t.turnId c'.session.sent) = 1 := by
  have hinit : ConnectionInv (StreamConnection.accepted vad asr maxAudioBytes) ∧
      Recorded AnswerInv (StreamConnection.accepted vad asr maxAudioBytes).session := by
    refine ⟨.accepted maxAudioBytes, ?_⟩
    intro t hturn
    cases hturn
  obtain ⟨hinv, hanswers⟩ := runSteps_invariant AnswerInv.step hinit hcaught hrun
  have hpassed : Passed t.turnId c.session := by
    refine ⟨hinv.active t hturn, ?_⟩
    intro t' hturn' _
    rw [hturn] at hturn'
    cases hturn'
    exact hdone
  rw [hinv.passed_run hpassed hmore]
  exact (hanswers t hturn).ended hloop (Or.inr hdone)

section Examples

/-- A turn from its start to the end of its finalizer. -/
def finishedRun (control : StartControl) : List ConnectionLabel :=
  ([.client (.start control), .pump true, .finalize .ok true, .client (.pcm [1]), .fan,
    .events true, .pump true, .pump true, .client .stop, .fan, .events true, .events true,
    .pump true, .pump true, .pump true, .pump true, .finalize .ok true] : List StreamLabel).map
      .session

def startControl (nBest : Int) : StartControl :=
  { sessionId := some "s"
    turnId := some 1
    sceneId := some (.str "main")
    categoryPath := none
    nBest := some nBest }

theorem eagerVad_goesOn (t : Turn eagerVad okAsr) : t.SegmentsGoOn := by
  intro state ended message _ hnext
  cases state with
  | none => cases hnext
  | some item => cases item <;> cases hnext

/-- A check of `Caught` for this VAD. -/
def caughtBy (c : StreamConnection eagerVad okAsr) : ConnectionLabel → Bool
  | .session (.pump sends) =>
      match c.session.turn with
      | none => true
      | some t => t.takes sends
  | .session (.finalize reply sends) =>
      reply ≠ .failed && match c.session.turn with
        | none => true
        | some t => t.takes sends && t.sceneId ≠ some .other && t.categoryPath ≠ some .other &&
            1 ≤ t.nBest && t.nBest ≤ 20
  | _ => true

theorem caught_of_caughtBy (c : StreamConnection eagerVad okAsr) (label : ConnectionLabel)
    (h : caughtBy c label = true) : c.Caught label := by
  cases label with
  | retired index label => trivial
  | session label =>
      cases label with
      | pump sends =>
          intro t hturn
          simp only [caughtBy, hturn] at h
          exact ⟨h, eagerVad_goesOn t⟩
      | finalize reply sends =>
          intro t hturn
          simp only [caughtBy, hturn, Bool.and_eq_true, decide_eq_true_eq] at h
          obtain ⟨hreply, ⟨⟨⟨htaken, hscene⟩, hpath⟩, hlow⟩, hhigh⟩ := h
          exact ⟨htaken, fun _ _ _ _ _ => ⟨hscene, hpath, hlow, hhigh⟩, fun _ _ => hreply⟩
      | _ => trivial

theorem answered_once_ok :
    ∃ c, (StreamConnection.accepted eagerVad okAsr 8).run
        (finishedRun (startControl 5) ++ [.session (.finalize .ok true)]) = some c ∧
      turnFrames 1 c.session.sent = [.transcript true "ok" 0 100, .result] ∧
      turnEnds (turnFrames 1 c.session.sent) = 1 := by
  refine ⟨_, rfl, by decide, ?_⟩
  have hcaught : AlongRun StreamConnection.step StreamConnection.Caught
      (StreamConnection.accepted eagerVad okAsr 8)
      (finishedRun (startControl 5) ++ [.session (.finalize .ok true)]) :=
    alongRun_of_checkRun caught_of_caughtBy (by decide)
  exact answered_once eagerVad okAsr 8 _ _ _ hcaught rfl rfl rfl rfl [] _ rfl

theorem finished_unanswered :
    ∃ c t, (StreamConnection.accepted eagerVad okAsr 8).run (finishedRun (startControl 0)) =
        some c ∧
      c.session.loop = .receiving ∧ c.session.turn = some t ∧ t.finalize = .done ∧
      t.turnId = 1 ∧ turnFrames 1 c.session.sent = [.transcript true "ok" 0 100] ∧
      turnEnds (turnFrames 1 c.session.sent) = 0 :=
  ⟨_, _, rfl, rfl, rfl, rfl, rfl, by decide, by decide⟩

end Examples

end Api
end Sandroid
