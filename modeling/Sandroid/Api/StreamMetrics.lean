import Sandroid.Api.TurnAnswers

/-!
# The metrics of the stream path

`_pump_vad_asr` brackets the pump with `ws_active_turns.inc()` and `.dec()`, and the
`finally` of `_finalize_turn` counts the turn in `recognize_requests_total` under its
result, unless that is `cancelled`.  A metered connection is a connection with both
metrics.  `metric_recorded` is not kept: a context has one finalizer, whose `finally`
runs once.

A cancellation while the request is with the orchestrator or the socket finds the
result still at its first value, so it is counted as an error; a failure of the ASR
has cancelled the context by the time the finalizer looks, so it is not counted.
-/

namespace Sandroid
namespace Api

open Lib

variable {vad : Vad} {asr : Asr}

/-- The values of `result` in `_finalize_turn`. -/
inductive TurnResult where
  | ok
  | error
  | noSpeech
  | cancelled
deriving DecidableEq, Repr

/-- What the stream path has put into the metrics. -/
structure StreamMetrics where
  /-- `ws_active_turns` -/
  activeTurns : Int := 0
  /-- `recognize_requests_total`: each count with its turn -/
  counted : List (Int × TurnResult) := []
deriving DecidableEq, Repr

namespace Turn

/-- The pump is between its `inc` and its `dec`. -/
def pumpActive (t : Turn vad asr) : Bool :=
  match t.pump with
  | .created => false
  | .done _ => false
  | _ => true

/-- What a step of `_pump_vad_asr` to `t'` does to the gauge.  A task that is cancelled
before its first step does not get to the `inc`. -/
def meterPump (t t' : Turn vad asr) (m : StreamMetrics) : StreamMetrics :=
  match t.pump with
  | .created => if t.pumpCancel then m else { m with activeTurns := m.activeTurns + 1 }
  | .done _ => m
  | _ => if t'.pumpDone then { m with activeTurns := m.activeTurns - 1 } else m

/-- The `result` with which the next step of `_finalize_turn` gets to its `finally`, if
it does. -/
def finalResult (t : Turn vad asr) (reply : OrchestratorAnswer) (sends : Bool) :
    Option TurnResult :=
  match t.finalize with
  | .created => none
  | .awaitingPump =>
      if t.finalizeCancel then
        some .cancelled
      else
        match t.pump with
        | .done (.raised .cancelled) => some .cancelled
        | .done (.raised .failed) => some .error
        | .done (.returned text) =>
            if t.cancelled then
              some .cancelled
            else if isBlank text then
              some (if sends then .noSpeech else .error)
            else
              match t.recognitionRequest text with
              | some _ => none
              | none => some .error
        | _ => none
  | .recognizing _ =>
      if t.finalizeCancel then
        some .error
      else
        match reply with
        | .ok => some (if sends then .ok else .error)
        | _ => some .error
  | .done => none

/-- The counts of the `finally`. -/
def counts (t : Turn vad asr) (reply : OrchestratorAnswer) (sends : Bool) :
    List TurnResult :=
  match t.finalResult reply sends with
  | none => []
  | some .cancelled => []
  | some result => [result]

/-- What a step of one of the turn's tasks does to the metrics. -/
def meter (t t' : Turn vad asr) (m : StreamMetrics) : StreamLabel → StreamMetrics
  | .pump _ => t.meterPump t' m
  | .finalize reply sends =>
      { m with
        counted :=
          m.counted ++ (t.counts reply (t.takes sends)).map (fun r => (t.turnId, r)) }
  | _ => m

end Turn

/-- A connection with the metrics of its turns. -/
structure MeteredConnection (vad : Vad) (asr : Asr) where
  connection : StreamConnection vad asr
  metrics : StreamMetrics := {}

namespace MeteredConnection

/-- A connection that has just been accepted. -/
def accepted (vad : Vad) (asr : Asr) (maxAudioBytes : Nat) : MeteredConnection vad asr :=
  { connection := .accepted vad asr maxAudioBytes }

/-- What a step of the connection to `c'` does to the metrics. -/
def meter (c c' : StreamConnection vad asr) (m : StreamMetrics) : ConnectionLabel → StreamMetrics
  | .session label =>
      match c.session.turn, c'.session.turn with
      | some t, some t' => t.meter t' m label
      | _, _ => m
  | .retired index label =>
      match c.retired[index]?, c'.retired[index]? with
      | some t, some t' => t.meter t' m label
      | _, _ => m

def step (μ : MeteredConnection vad asr) (label : ConnectionLabel) :
    Option (MeteredConnection vad asr) :=
  (μ.connection.step label).map fun c' =>
    { connection := c', metrics := meter μ.connection c' μ.metrics label }

/-- Run a list of steps. -/
def run (μ : MeteredConnection vad asr) (labels : List ConnectionLabel) :
    Option (MeteredConnection vad asr) :=
  runSteps step μ labels

end MeteredConnection

namespace Turn

variable {t t' : Turn vad asr} {sends : Bool} {reply : OrchestratorAnswer}
  {r : Turn vad asr × List ServerFrame} {m : StreamMetrics}

/-- What the gauge is to show for the turn. -/
def active (t : Turn vad asr) : Int :=
  if t.pumpActive then 1 else 0

theorem pumpActive_eq (t : Turn vad asr) (h : t.pump ≠ .created) :
    t.pumpActive = !t.pumpDone := by
  cases hpump : t.pump with
  | created => exact absurd hpump h
  | _ => simp [pumpActive, pumpDone, hpump]

/-- No move leads back to a pump that has not begun. -/
theorem PumpMove.ne_created (h : PumpMove t t') : t'.pump ≠ .created := by
  cases h with
  | joinEvents => exact afterJoin_ne_created _
  | _ => simp

theorem active_of_pump (h : t'.pump = t.pump) : t'.active = t.active := by
  rw [active, active, pumpActive, pumpActive, h]

theorem active_of_begun (h : t.pump ≠ .created) : t.active = if t.pumpDone then 0 else 1 := by
  cases hdone : t.pumpDone with
  | false => simp [active, pumpActive_eq t h, hdone]
  | true => simp [active, pumpActive_eq t h, hdone]

/-- The gauge follows the pump. -/
theorem meterPump_activeTurns (h : t.stepPump sends = some r) :
    (t.meterPump r.1 m).activeTurns = m.activeTurns + (r.1.active - t.active) := by
  cases hpump : t.pump with
  | created =>
      simp only [stepPump, hpump] at h
      split_ifs at h with hcancel
      · cases h
        simp [meterPump, hpump, hcancel, active, pumpActive]
      · cases h
        simp [meterPump, hpump, hcancel, active, pumpActive]
  | done result => simp [stepPump, hpump] at h
  | _ =>
      have hbegun : t.active = 1 := by simp [active, pumpActive, hpump]
      rw [hbegun, active_of_begun (pumpMove_of_stepPump h).ne_created]
      simp only [meterPump, hpump]
      split
      · simp
        omega
      · simp

end Turn

/-- Frames that answer a turn without speech. -/
def FrameBody.isNoSpeech : FrameBody → Bool
  | .error code _ _ => code = "NO_SPEECH"
  | _ => false

/-- Frames that tell why the orchestrator has not answered. -/
def FrameBody.isRejection : FrameBody → Bool
  | .error code _ _ => code = "UNKNOWN_SCENE" ∨ code = "INVALID_REQUEST"
  | _ => false

/-- Frames that tell of a failure of the ASR. -/
def FrameBody.isAsrFailed : FrameBody → Bool
  | .error code _ _ => code = "ASR_FAILED"
  | _ => false

/-- What was counted for a turn agrees with the frames it was sent. -/
structure Tally (frames : List FrameBody) (results : List TurnResult) : Prop where
  ok : frames.count .result = results.count .ok
  noSpeech : frames.countP FrameBody.isNoSpeech = results.count .noSpeech
  rejected : frames.countP FrameBody.isRejection ≤ results.count .error

namespace Tally

variable {frames bodies : List FrameBody} {results more : List TurnResult}

theorem nil : Tally [] [] := ⟨rfl, rfl, le_refl _⟩

theorem append (h : Tally frames results) (hmore : Tally bodies more) :
    Tally (frames ++ bodies) (results ++ more) where
  ok := by rw [List.count_append, List.count_append, h.ok, hmore.ok]
  noSpeech := by rw [List.countP_append, List.count_append, h.noSpeech, hmore.noSpeech]
  rejected := by
    rw [List.countP_append, List.count_append]
    exact Nat.add_le_add h.rejected hmore.rejected

end Tally

namespace Turn

variable {t t' : Turn vad asr} {sends : Bool} {reply : OrchestratorAnswer}
  {r : Turn vad asr × List ServerFrame}

/-- The finalizer is about to count the turn: it has got past `ctx.cancelled`, or the pump
has failed. -/
def Countable (t : Turn vad asr) : Prop :=
  t.finalize = .awaitingPump ∧ (t.cancelled = false ∨ t.pump = .done (.raised .failed)) ∨
    ∃ request, t.finalize = .recognizing request

/-- What a step of the finalizer counts, with what it sends: it goes on, it ends for a
turn that was cancelled, or it counts the turn. -/
inductive Concludes (t : Turn vad asr) : Finalize → List FrameBody → List TurnResult → Prop
  | goesOn {finalize : Finalize} (hopen : finalize ≠ .done)
      (hlive : ∀ request, finalize = .recognizing request → t.cancelled = false) :
      Concludes t finalize [] []
  | cancelled (h : t.finalizeCancel = true ∨ t.cancelled = true ∨
      t.pump = .done (.raised .cancelled)) : Concludes t .done [] []
  | counted {bodies : List FrameBody} {result : TurnResult} (hlive : t.Countable)
      (htally : Tally bodies [result]) (hbodies : bodies.any FrameBody.isAsrFailed = false) :
      Concludes t .done bodies [result]

/-- Nothing sent, counted as an error. -/
theorem tally_unsent : Tally [] [.error] := ⟨rfl, rfl, by simp⟩

/-- An answer of the finalizer: it counts as an error if the socket does not take it. -/
theorem concludes_answer (sends : Bool) (body : FrameBody) (result : TurnResult)
    (hlive : t.Countable) (htally : Tally [body] [result]) (hbody : body.isAsrFailed = false) :
    ∃ bodies, (t.answer sends body).2 = bodies.map t.frame ∧
      Concludes t .done bodies [if sends then result else .error] := by
  cases sends with
  | false => exact ⟨[], rfl, .counted hlive tally_unsent rfl⟩
  | true => exact ⟨[body], rfl, .counted hlive htally (by simp [hbody])⟩

theorem concludes_cancel (hcancel : t.finalizeCancel = true)
    (h : t.stepFinalize reply sends = some r) :
    ∃ bodies, r.2 = bodies.map t.frame ∧
      Concludes t r.1.finalize bodies (t.counts reply sends) := by
  cases hfinalize : t.finalize with
  | done => simp [stepFinalize, hfinalize, hcancel] at h
  | recognizing request =>
      simp only [stepFinalize, hcancel, hfinalize, if_true, Option.some.injEq] at h
      subst h
      refine ⟨[], rfl, ?_⟩
      simpa [counts, finalResult, hfinalize, hcancel] using
        .counted (.inr ⟨request, hfinalize⟩) tally_unsent rfl
  | _ =>
      simp only [stepFinalize, hcancel, hfinalize, if_true, Option.some.injEq] at h
      subst h
      refine ⟨[], rfl, ?_⟩
      simpa [counts, finalResult, hfinalize, hcancel] using .cancelled (.inl hcancel)

/-- The finalizer has been woken by the end of the pump. -/
theorem concludes_awaiting (hcancel : t.finalizeCancel = false)
    (hfinalize : t.finalize = .awaitingPump) (h : t.stepFinalize reply sends = some r) :
    ∃ bodies, r.2 = bodies.map t.frame ∧
      Concludes t r.1.finalize bodies (t.counts reply sends) := by
  simp only [stepFinalize, hcancel, hfinalize] at h
  simp only [counts, finalResult, hcancel, hfinalize]
  cases hpump : t.pump with
  | done result =>
      cases result with
      | raised f =>
          simp only [hpump, Bool.false_eq_true, if_false, Option.some.injEq] at h
          subst h
          refine ⟨[], rfl, ?_⟩
          cases f with
          | cancelled => simpa using .cancelled (.inr (.inr hpump))
          | failed => simpa using .counted (.inl ⟨hfinalize, .inr hpump⟩) tally_unsent rfl
      | returned text =>
          simp only [hpump, Bool.false_eq_true, if_false] at h
          split_ifs at h with hcancelled hblank
          · cases h
            exact ⟨[], rfl, by simpa [hcancelled] using .cancelled (.inr (.inl hcancelled))⟩
          · cases h
            obtain ⟨bodies, hsent, hconcludes⟩ := concludes_answer (t := t) sends
              (.error "NO_SPEECH" "no transcript produced" false) .noSpeech
              (.inl ⟨hfinalize, .inl (by simpa using hcancelled)⟩)
              ⟨by simp, by simp [FrameBody.isNoSpeech], by simp [FrameBody.isRejection]⟩
              (by simp [FrameBody.isAsrFailed])
            refine ⟨bodies, hsent, ?_⟩
            cases sends
            all_goals simpa [answer, hcancelled, hblank] using hconcludes
          · have hlive : t.cancelled = false := by simpa using hcancelled
            cases hrequest : t.recognitionRequest text with
            | some request =>
                simp only [hrequest, Option.some.injEq] at h
                subst h
                refine ⟨[], rfl, ?_⟩
                simpa [hcancelled, hblank, hrequest] using .goesOn (by simp) (fun _ _ => hlive)
            | none =>
                simp only [hrequest, Option.some.injEq] at h
                subst h
                refine ⟨[], rfl, ?_⟩
                simpa [hcancelled, hblank, hrequest] using
                  .counted (.inl ⟨hfinalize, .inl hlive⟩) tally_unsent rfl
  | _ => simp [hpump] at h

/-- The finalizer has the answer of the orchestrator. -/
theorem concludes_recognizing (hcancel : t.finalizeCancel = false)
    {request : TurnRequest} (hfinalize : t.finalize = .recognizing request)
    (h : t.stepFinalize reply sends = some r) :
    ∃ bodies, r.2 = bodies.map t.frame ∧
      Concludes t r.1.finalize bodies (t.counts reply sends) := by
  have hpast : t.Countable := .inr ⟨request, hfinalize⟩
  have hrejected {code : String} (message : String)
      (hcode : code = "UNKNOWN_SCENE" ∨ code = "INVALID_REQUEST") :
      Tally [.error code message false] [.error] := by
    refine ⟨by simp, ?_, by simp [FrameBody.isRejection, hcode]⟩
    rcases hcode with rfl | rfl
    · simp [FrameBody.isNoSpeech]
    · simp [FrameBody.isNoSpeech]
  simp only [stepFinalize, hcancel, hfinalize] at h
  simp only [counts, finalResult, hcancel, hfinalize]
  cases reply with
  | ok =>
      cases h
      obtain ⟨bodies, hsent, hconcludes⟩ := concludes_answer sends .result .ok hpast
        ⟨by simp, by simp [FrameBody.isNoSpeech], by simp [FrameBody.isRejection]⟩ rfl
      refine ⟨bodies, hsent, ?_⟩
      cases sends
      all_goals simpa [answer] using hconcludes
  | keyError message =>
      cases h
      obtain ⟨bodies, hsent, hconcludes⟩ := concludes_answer sends _ .error hpast
        (hrejected message (.inl rfl)) (by simp [FrameBody.isAsrFailed])
      exact ⟨bodies, hsent, by simpa [answer] using hconcludes⟩
  | valueError message =>
      cases h
      obtain ⟨bodies, hsent, hconcludes⟩ := concludes_answer sends _ .error hpast
        (hrejected message (.inr rfl)) (by simp [FrameBody.isAsrFailed])
      exact ⟨bodies, hsent, by simpa [answer] using hconcludes⟩
  | failed =>
      cases h
      exact ⟨[], rfl, by simpa using .counted hpast tally_unsent rfl⟩

theorem concludes_of_stepFinalize (h : t.stepFinalize reply sends = some r) :
    ∃ bodies, r.2 = bodies.map t.frame ∧
      Concludes t r.1.finalize bodies (t.counts reply sends) := by
  cases hcancel : t.finalizeCancel with
  | true => exact concludes_cancel hcancel h
  | false =>
      cases hfinalize : t.finalize with
      | done => simp [stepFinalize, hfinalize, hcancel] at h
      | created =>
          simp only [stepFinalize, hcancel, hfinalize, Bool.false_eq_true, if_false,
            Option.some.injEq] at h
          subst h
          refine ⟨[], rfl, ?_⟩
          simpa [counts, finalResult, hfinalize] using .goesOn (by simp) (by simp)
      | awaitingPump => exact concludes_awaiting hcancel hfinalize h
      | recognizing request => exact concludes_recognizing hcancel hfinalize h

/-- The pump has been cancelled and is on its way out, or gone. -/
def Interrupted (t : Turn vad asr) : Prop :=
  t.pump = .joiningFan (.raised .cancelled) ∨ t.pump = .joiningEvents (.raised .cancelled) ∨
    t.pump = .done (.raised .cancelled)

/-- Only a cancellation interrupts the pump. -/
theorem interrupted_of_stepPump (hcancel : t.pumpCancel = false)
    (h : t.stepPump sends = some r) (hafter : r.1.Interrupted) : t.Interrupted := by
  cases hpump : t.pump with
  | created =>
      simp only [stepPump, hpump, hcancel, Bool.false_eq_true, if_false, Option.some.injEq] at h
      subst h
      simp [Interrupted] at hafter
  | segmenting state ended =>
      simp only [stepPump, hpump, hcancel, Bool.false_eq_true, if_false] at h
      split at h
      · cases h
        simp [Interrupted] at hafter
      · split at h
        · cases h
          simp [Interrupted] at hafter
        · split at h
          · cases h
          · cases h
            simp [Interrupted] at hafter
      · cases h
        simp [Interrupted] at hafter
      · cases h
        simp [Interrupted] at hafter
  | joiningFan outcome =>
      simp only [stepPump, hpump] at h
      split_ifs at h
      cases h
      simp only [Interrupted, reduceCtorEq, Pump.joiningEvents.injEq, or_false, false_or] at hafter
      exact .inl (hafter ▸ hpump)
  | joiningEvents outcome =>
      simp only [stepPump, hpump] at h
      split_ifs at h
      cases h
      cases outcome with
      | raised f =>
          simp only [Interrupted, afterJoin, reduceCtorEq, Pump.done.injEq, PumpResult.raised.injEq,
            false_or] at hafter
          exact .inr (.inl (hafter ▸ hpump))
      | segment seg =>
          rcases t.afterJoin_segment seg with hjoin | ⟨_, hjoin⟩
          · simp [Interrupted, hjoin] at hafter
          · simp [Interrupted, hjoin] at hafter
  | recognizing seg state chunks text =>
      obtain ⟨bodies, -, hsends⟩ := pumpSends_of_stepPump h
      generalize r.1 = t' at hsends hafter
      cases hsends with
      | early hearly => simp [Early, hpump] at hearly
      | interrupted _ hinterrupt => simp [hcancel] at hinterrupt
      | _ => simp [Interrupted] at hafter
  | done result => simp [stepPump, hpump] at h

/-- A step of the pump answers nothing; only a failure of the ASR cancels the context, and
tells the client. -/
theorem PumpSends.effect {bodies : List FrameBody} (h : PumpSends t sends t' bodies) :
    t'.finalize = t.finalize ∧ Tally bodies [] ∧
      (t'.cancelled = t.cancelled ∧ bodies.any FrameBody.isAsrFailed = false ∨
        t'.cancelled = true ∧ bodies.any FrameBody.isAsrFailed = true ∧
          t'.pump = .done (.returned "")) := by
  cases h with
  | early hearly hmove _ =>
      cases hmove with
      | finish hpump => simp [Early, hpump] at hearly
      | _ => exact ⟨rfl, .nil, .inl ⟨rfl, rfl⟩⟩
  | transcript =>
      exact ⟨rfl, ⟨by simp [transcriptBody], by simp [transcriptBody, FrameBody.isNoSpeech],
        by simp [transcriptBody, FrameBody.isRejection]⟩,
        .inl ⟨rfl, by simp [transcriptBody, FrameBody.isAsrFailed]⟩⟩
  | failed =>
      exact ⟨rfl, ⟨by simp, by simp [FrameBody.isNoSpeech], by simp [FrameBody.isRejection]⟩,
        .inr ⟨rfl, by simp [FrameBody.isAsrFailed], rfl⟩⟩
  | _ => exact ⟨rfl, .nil, .inl ⟨rfl, rfl⟩⟩

end Turn

/-- What was counted for the active turn, `results`, and while the connection receives,
what is still to come. -/
structure TurnCounted (loop : LoopPhase) (t : Turn vad asr) (frames : List FrameBody)
    (results : List TurnResult) : Prop where
  tally : Tally frames results
  pending : t.finalize ≠ .done → results = []
  single : results.length ≤ 1
  failed : loop = .receiving → (t.cancelled = true ↔ frames.any FrameBody.isAsrFailed = true)
  uncounted : loop = .receiving → t.cancelled = true → results = []
  counted : loop = .receiving → t.finalize = .done → t.cancelled = false → results ≠ []
  returned : loop = .receiving → t.cancelled = true → ∃ text, t.pump = .done (.returned text)
  requested : loop = .receiving → ∀ request, t.finalize = .recognizing request →
    t.cancelled = false
  running : loop = .receiving → ¬ t.Interrupted

namespace TurnCounted

variable {loop loop' : LoopPhase} {t t' : Turn vad asr} {frames bodies : List FrameBody}
  {results : List TurnResult}

theorem opened (maxAudioBytes : Nat) (sessionId : PyStr) (turnId : Int) (control : StartControl)
    (nBest : Int) :
    TurnCounted .receiving
      (StreamSession.newTurn maxAudioBytes sessionId turnId control nBest : Turn vad asr) [] []
      where
  tally := .nil
  pending := fun _ => rfl
  single := by simp
  failed := fun _ => by simp [StreamSession.newTurn]
  uncounted := fun _ _ => rfl
  counted := fun _ h => by simp [StreamSession.newTurn] at h
  returned := fun _ h => by simp [StreamSession.newTurn] at h
  requested := fun _ _ h => by simp [StreamSession.newTurn] at h
  running := fun _ => by simp [Turn.Interrupted, StreamSession.newTurn]

/-- The loop counts nothing. -/
theorem turnChange (h : TurnCounted loop t frames results)
    (hchange : TurnChange loop loop' t t') : TurnCounted loop' t' frames results where
  tally := h.tally
  pending := hchange.finalize ▸ h.pending
  single := h.single
  failed hloop := by
    rw [(hchange.receiving hloop).2]
    exact h.failed (hchange.receiving hloop).1
  uncounted hloop := by
    rw [(hchange.receiving hloop).2]
    exact h.uncounted (hchange.receiving hloop).1
  counted hloop := by
    rw [(hchange.receiving hloop).2, hchange.finalize]
    exact h.counted (hchange.receiving hloop).1
  returned hloop := by
    rw [(hchange.receiving hloop).2, hchange.pump]
    exact h.returned (hchange.receiving hloop).1
  requested hloop := by
    rw [(hchange.receiving hloop).2, hchange.finalize]
    exact h.requested (hchange.receiving hloop).1
  running hloop := by
    rw [Turn.Interrupted, hchange.pump]
    exact h.running (hchange.receiving hloop).1

/-- A step that leaves the pump, the finalizer and `cancelled` alone, with frames that
tell of nothing counted. -/
theorem aside (h : TurnCounted loop t frames results) (hpump : t'.pump = t.pump)
    (hfinalize : t'.finalize = t.finalize) (hcancelled : t'.cancelled = t.cancelled)
    (htally : Tally bodies []) (hbodies : bodies.any FrameBody.isAsrFailed = false) :
    TurnCounted loop t' (frames ++ bodies) results where
  tally := by simpa using h.tally.append htally
  pending := hfinalize ▸ h.pending
  single := h.single
  failed hloop := by
    rw [hcancelled, List.any_append, hbodies, Bool.or_false]
    exact h.failed hloop
  uncounted := hcancelled ▸ h.uncounted
  counted := by
    rw [hfinalize, hcancelled]
    exact h.counted
  returned := by
    rw [hpump, hcancelled]
    exact h.returned
  requested := by
    rw [hfinalize, hcancelled]
    exact h.requested
  running := by
    rw [Turn.Interrupted, hpump]
    exact h.running

variable {sends : Bool} {reply : OrchestratorAnswer} {r : Turn vad asr × List ServerFrame}

theorem stepPump (h : TurnCounted loop t frames results) (hsettled : Settled loop t)
    (hstep : t.stepPump sends = some r) :
    ∃ bodies, r.2 = bodies.map t.frame ∧ TurnCounted loop r.1 (frames ++ bodies) results := by
  obtain ⟨bodies, hsent, hsends⟩ := Turn.pumpSends_of_stepPump hstep
  obtain ⟨hfinalize, htally, hcancelled⟩ := hsends.effect
  have hopen : t.pumpDone = false := by
    cases hpump : t.pump with
    | done result => simp [Turn.stepPump, hpump] at hstep
    | _ => simp [Turn.pumpDone, hpump]
  have hlive (hloop : loop = .receiving) : t.cancelled = false := by
    by_contra hcancel
    simp [(hsettled.receiving hloop).1 (by simpa using hcancel)] at hopen
  have hwaits : t.finalize = .created ∨ t.finalize = .awaitingPump := by
    by_contra hpast
    push Not at hpast
    simp [hsettled.answering hpast.1 hpast.2] at hopen
  have huncounted : results = [] := h.pending (by rcases hwaits with hw | hw <;> simp [hw])
  refine ⟨bodies, hsent, ?_⟩
  refine
    { tally := by simpa using h.tally.append htally
      pending := fun _ => huncounted
      single := h.single
      failed := ?_
      uncounted := fun _ _ => huncounted
      counted := ?_
      returned := ?_
      requested := ?_
      running := ?_ }
  · intro hloop
    have hnone : frames.any FrameBody.isAsrFailed = false := by
      rw [← Bool.not_eq_true, ← h.failed hloop, hlive hloop]
      simp
    rw [List.any_append, hnone, Bool.false_or]
    rcases hcancelled with ⟨hkept, hbodies⟩ | ⟨hcancel, hbodies, -⟩
    · simp [hkept, hlive hloop, hbodies]
    · simp [hcancel, hbodies]
  · intro hloop hdone
    rw [hfinalize] at hdone
    rcases hwaits with hw | hw
    · cases hw.symm.trans hdone
    · cases hw.symm.trans hdone
  · intro hloop hcancel
    rcases hcancelled with ⟨hkept, -⟩ | ⟨-, -, hpump⟩
    · rw [hkept, hlive hloop] at hcancel
      cases hcancel
    · exact ⟨"", hpump⟩
  · intro hloop request hrequest
    rw [hfinalize] at hrequest
    rcases hwaits with hw | hw
    · cases hw.symm.trans hrequest
    · cases hw.symm.trans hrequest
  · intro hloop hafter
    exact h.running hloop
      (Turn.interrupted_of_stepPump (hsettled.receiving hloop).2.1 hstep hafter)

theorem stepFinalize (h : TurnCounted loop t frames results) (hsettled : Settled loop t)
    (hstep : t.stepFinalize reply sends = some r) :
    ∃ bodies, r.2 = bodies.map t.frame ∧
      TurnCounted loop r.1 (frames ++ bodies) (results ++ t.counts reply sends) := by
  obtain ⟨bodies, hsent, hconcludes⟩ := Turn.concludes_of_stepFinalize hstep
  have hopen : t.finalize ≠ .done := by
    intro hdone
    simp [Turn.stepFinalize, hdone] at hstep
  refine ⟨bodies, hsent, ?_⟩
  rw [h.pending hopen, List.nil_append]
  obtain ⟨finalize, finalizeCancel, hr⟩ := Turn.stepFinalize_cases hstep
  rw [hr] at hconcludes ⊢
  generalize t.counts reply sends = more at hconcludes
  have hbefore : results = [] := h.pending hopen
  cases hconcludes with
  | goesOn hgoes hlive =>
      exact
        { tally := by simpa [hbefore] using h.tally
          pending := fun _ => rfl
          single := by simp
          failed := by simpa using h.failed
          uncounted := fun _ _ => rfl
          counted := fun _ hdone => absurd hdone hgoes
          returned := h.returned
          requested := fun _ => hlive
          running := h.running }
  | cancelled hcancel =>
      refine
        { tally := by simpa [hbefore] using h.tally
          pending := fun _ => rfl
          single := by simp
          failed := by simpa using h.failed
          uncounted := fun _ _ => rfl
          counted := ?_
          returned := h.returned
          requested := by simp
          running := h.running }
      intro hloop _ hlive
      rcases hcancel with hcancel | hcancel | hpump
      · rw [(hsettled.receiving hloop).2.2] at hcancel
        cases hcancel
      · cases hlive.symm.trans hcancel
      · exact absurd (.inr (.inr hpump)) (h.running hloop)
  | counted hlive htally hbodies =>
      refine
        { tally := by simpa [hbefore] using h.tally.append htally
          pending := by simp
          single := by simp
          failed := ?_
          uncounted := ?_
          counted := by simp
          returned := h.returned
          requested := by simp
          running := h.running }
      · intro hloop
        rw [List.any_append, hbodies, Bool.or_false]
        exact h.failed hloop
      · intro hloop hcancel
        rcases hlive with ⟨-, hlive | hpump⟩ | ⟨request, hrequest⟩
        · cases hlive.symm.trans hcancel
        · obtain ⟨text, hreturned⟩ := h.returned hloop hcancel
          cases hpump.symm.trans hreturned
        · cases (h.requested hloop request hrequest).symm.trans hcancel

/-- A step of one of the turn's tasks, with what it does to the counts. -/
theorem stepLabel {label : StreamLabel} (h : TurnCounted loop t frames results)
    (hsettled : Settled loop t) (hstep : t.stepLabel label = some r) :
    ∃ bodies more, r.2 = bodies.map t.frame ∧
      (∀ m, (t.meter r.1 m label).counted = m.counted ++ more.map (fun result =>
        (t.turnId, result))) ∧
      TurnCounted loop r.1 (frames ++ bodies) (results ++ more) := by
  cases label with
  | client frame sends => cases hstep
  | loop => cases hstep
  | fan =>
      obtain ⟨t', hfan, rfl⟩ := Option.map_eq_some_iff.mp hstep
      refine ⟨[], [], rfl, by simp [Turn.meter], ?_⟩
      rw [List.append_nil results]
      obtain ⟨-, ⟨-, rfl⟩ | ⟨_, _, -, -, rfl⟩⟩ := Turn.stepFan_cases hfan
      · exact h.aside rfl rfl rfl .nil rfl
      · exact h.aside rfl rfl rfl .nil rfl
  | events sends =>
      obtain ⟨bodies, hsent, hsends⟩ := Turn.eventsSends_of_stepEvents hstep
      refine ⟨bodies, [], hsent, by simp [Turn.meter], ?_⟩
      rw [List.append_nil]
      generalize r.1 = t' at hsends
      cases hsends with
      | silent hmove =>
          cases hmove with
          | _ => exact h.aside rfl rfl rfl .nil rfl
      | event hevents hnext =>
          exact h.aside rfl rfl rfl ⟨by simp, by simp [FrameBody.isNoSpeech],
            by simp [FrameBody.isRejection]⟩ rfl
  | pump sends =>
      obtain ⟨bodies, hsent, hcounted⟩ := h.stepPump hsettled hstep
      refine ⟨bodies, [], hsent, ?_, by simpa using hcounted⟩
      intro m
      simp only [Turn.meter, Turn.meterPump, List.map_nil, List.append_nil]
      split
      · split <;> rfl
      · rfl
      · split <;> rfl
  | finalize reply sends =>
      obtain ⟨bodies, hsent, hcounted⟩ := h.stepFinalize hsettled hstep
      exact ⟨bodies, _, hsent, fun _ => rfl, hcounted⟩

end TurnCounted

/-- The gauge is moved by the pump only. -/
theorem Turn.meter_activeTurns {t : Turn vad asr} {r : Turn vad asr × List ServerFrame}
    {label : StreamLabel} (m : StreamMetrics) (hstep : t.stepLabel label = some r) :
    (t.meter r.1 m label).activeTurns = m.activeTurns + (r.1.active - t.active) := by
  have hsame (hpump : r.1.pump = t.pump) : r.1.active - t.active = 0 := by
    rw [Turn.active_of_pump hpump, sub_self]
  cases label with
  | client frame sends => cases hstep
  | loop => cases hstep
  | fan =>
      obtain ⟨t', hfan, rfl⟩ := Option.map_eq_some_iff.mp hstep
      rw [hsame]
      · simp [Turn.meter]
      · obtain ⟨-, ⟨-, rfl⟩ | ⟨_, _, -, -, rfl⟩⟩ := Turn.stepFan_cases hfan
        · rfl
        · rfl
  | events sends =>
      rw [hsame]
      · simp [Turn.meter]
      · have hmove := Turn.eventsMove_of_stepEvents hstep
        generalize r.1 = t' at hmove
        cases hmove with
        | _ => rfl
  | pump sends => exact Turn.meterPump_activeTurns hstep
  | finalize reply sends =>
      rw [hsame]
      · simp [Turn.meter]
      · obtain ⟨_, _, hr⟩ := Turn.stepFinalize_cases hstep
        rw [hr]

/-- What was counted for a turn. -/
def StreamMetrics.results (m : StreamMetrics) (turnId : Int) : List TurnResult :=
  (m.counted.filter (fun e => e.1 = turnId)).map Prod.snd

/-- What the gauge is to show for a session. -/
def StreamSession.activeTurns (σ : StreamSession vad asr) : Int :=
  match σ.turn with
  | none => 0
  | some t => t.active

/-- The loop is gone only when the pump is. -/
def Closing (loop : LoopPhase) (t : Turn vad asr) : Prop :=
  Settled loop t ∧ (loop = .closed → t.pumpDone = true)

theorem closing_maintained : StreamSession.Maintained (@Closing vad asr) (fun _ => True) where
  opened maxAudioBytes sessionId turnId control nBest :=
    ⟨Settled.maintained.opened maxAudioBytes sessionId turnId control nBest, by simp⟩
  received item accum overflow h hlive :=
    ⟨Settled.maintained.received item accum overflow h.1 hlive, by simp⟩
  cancelled next h hlive hopen hallowed :=
    ⟨Settled.maintained.cancelled next h.1 hlive hopen hallowed, by simp⟩
  droppedCancelled next h hcancelled :=
    ⟨Settled.maintained.droppedCancelled next h.1 hcancelled, by simp⟩
  droppedDone next h hlive hdone :=
    ⟨Settled.maintained.droppedDone next h.1 hlive hdone, by simp⟩
  droppedAfter next next' h hdone :=
    ⟨Settled.maintained.droppedAfter next next' h.1 hdone, by simp⟩
  finalizeCancelled next h := ⟨Settled.maintained.finalizeCancelled next h.1, by simp⟩
  closed next h :=
    ⟨Settled.maintained.closed next h.1, fun _ => h.1.dropped ⟨next, rfl⟩⟩
  task {loop t t'} h hstep := by
    refine ⟨h.1.taskStep hstep, fun hloop => ?_⟩
    have hdone := h.2 hloop
    cases hstep with
    | fan hfan =>
        obtain ⟨-, ⟨-, rfl⟩ | ⟨_, _, -, -, rfl⟩⟩ := Turn.stepFan_cases hfan
        · exact hdone
        · exact hdone
    | @events r sends hevents =>
        have hmove := Turn.eventsMove_of_stepEvents hevents
        generalize r.1 = t' at hmove
        cases hmove with
        | _ => exact hdone
    | pump sends hpump =>
        cases hover : t.pump with
        | done result => simp [Turn.stepPump, hover] at hpump
        | _ => simp [Turn.pumpDone, hover] at hdone
    | finalize reply sends hfinalize =>
        obtain ⟨_, _, hr⟩ := Turn.stepFinalize_cases hfinalize
        rw [hr]
        exact hdone

/-- The metrics agree with the connection. -/
structure MetricsInv (μ : MeteredConnection vad asr) : Prop where
  connection : ConnectionInv μ.connection
  closing : StreamSession.Holds Closing μ.connection.session
  gauge : μ.metrics.activeTurns = μ.connection.session.activeTurns
  opened : ∀ e ∈ μ.metrics.counted, e.1 ≤ μ.connection.session.currentTurnId
  active : ∀ t, μ.connection.session.turn = some t →
    TurnCounted μ.connection.session.loop t (turnFrames t.turnId μ.connection.session.sent)
      (μ.metrics.results t.turnId)
  tally : ∀ turnId, Tally (turnFrames turnId μ.connection.session.sent)
    (μ.metrics.results turnId)
  single : ∀ turnId, (μ.metrics.results turnId).length ≤ 1

namespace MetricsInv

variable {μ μ' : MeteredConnection vad asr}

theorem accepted (maxAudioBytes : Nat) :
    MetricsInv (MeteredConnection.accepted vad asr maxAudioBytes) where
  connection := .accepted maxAudioBytes
  closing := by
    intro t hturn
    cases hturn
  gauge := rfl
  opened := by
    intro e he
    cases he
  active := by
    intro t hturn
    cases hturn
  tally := fun _ => .nil
  single := fun _ => Nat.zero_le 1

theorem results_append {m m' : StreamMetrics} {turnId : Int} {more : List TurnResult}
    (h : m'.counted = m.counted ++ more.map (fun result => (turnId, result))) (other : Int) :
    m'.results other = m.results other ++ if turnId = other then more else [] := by
  simp only [StreamMetrics.results, h, List.filter_append, List.map_append]
  split
  case isTrue heq => simp [heq, List.filter_eq_self.mpr, Function.comp_def]
  case isFalse hne => simp [List.filter_eq_nil_iff.mpr, hne]

/-- A task of the active turn moves. -/
theorem task (h : MetricsInv μ) {σ' : StreamSession vad asr} {t : Turn vad asr}
    {label : StreamLabel} {r : Turn vad asr × List ServerFrame}
    (hturn : μ.connection.session.turn = some t) (hstep : t.stepLabel label = some r)
    (hσ' : σ' = { μ.connection.session with
      turn := some r.1, sent := μ.connection.session.sent ++ r.2 })
    {retired : List (Turn vad asr)} (hconnection : ConnectionInv ⟨σ', retired⟩)
    (hclosing : StreamSession.Holds Closing σ') :
    MetricsInv ⟨⟨σ', retired⟩, t.meter r.1 μ.metrics label⟩ := by
  obtain ⟨bodies, more, hsent, hcounts, hcounted⟩ :=
    (h.active t hturn).stepLabel (h.connection.settled t hturn) hstep
  obtain ⟨bodies', hsent', hsends⟩ := Turn.sends_of_stepLabel hstep
  have hbodies : bodies' = bodies := by
    have hmap := congrArg (List.map ServerFrame.body) (hsent'.symm.trans hsent)
    simpa [Function.comp_def, Turn.frame] using hmap
  subst hbodies
  have hframes (turnId : Int) : turnFrames turnId σ'.sent =
      turnFrames turnId μ.connection.session.sent ++ if t.turnId = turnId then bodies' else [] := by
    rw [hσ', turnFrames_append, hsent]
    split
    case isTrue heq => rw [← heq, turnFrames_of_eq t hsends.not_refusal]
    case isFalse hne => rw [turnFrames_of_ne hne]
  have hresults := results_append (hcounts μ.metrics)
  refine
    { connection := hconnection
      closing := hclosing
      gauge := ?_
      opened := ?_
      active := ?_
      tally := ?_
      single := ?_ }
  · have hbefore := h.gauge
    simp only [StreamSession.activeTurns, hturn] at hbefore
    rw [Turn.meter_activeTurns _ hstep, hbefore, hσ']
    simp [StreamSession.activeTurns]
  · intro e he
    rw [hcounts] at he
    have hcurrent : σ'.currentTurnId = μ.connection.session.currentTurnId := by rw [hσ']
    change e.1 ≤ σ'.currentTurnId
    rw [hcurrent]
    rcases List.mem_append.mp he with hold | hnew
    · exact h.opened e hold
    · obtain ⟨result, -, rfl⟩ := List.mem_map.mp hnew
      exact h.connection.active t hturn
  · intro t' hturn'
    have heq : t' = r.1 := by
      rw [hσ'] at hturn'
      exact (Option.some.inj hturn').symm
    have hloop : σ'.loop = μ.connection.session.loop := by rw [hσ']
    subst heq
    change TurnCounted σ'.loop r.1 (turnFrames r.1.turnId σ'.sent) _
    rw [hframes, hresults, hloop, hsends.turnId, if_pos rfl, if_pos rfl]
    exact hcounted
  · intro turnId
    change Tally (turnFrames turnId σ'.sent) _
    rw [hframes, hresults]
    split
    case isTrue heq => exact heq ▸ hcounted.tally
    case isFalse => simpa using h.tally turnId
  · intro turnId
    rw [hresults]
    split
    case isTrue heq => exact heq ▸ hcounted.single
    case isFalse => simpa using h.single turnId

theorem results_eq_nil {m : StreamMetrics} {turnId : Int} (h : ∀ e ∈ m.counted, e.1 < turnId) :
    m.results turnId = [] := by
  rw [StreamMetrics.results, List.map_eq_nil_iff, List.filter_eq_nil_iff]
  intro e he heq
  exact absurd (of_decide_eq_true heq) (ne_of_lt (h e he))

/-- The loop moves. -/
theorem loop (h : MetricsInv μ) {σ' : StreamSession vad asr} {label : StreamLabel}
    (hlabel : ∀ t : Turn vad asr, t.stepLabel label = none)
    (hadvance : Advance μ.connection.session label σ') {retired : List (Turn vad asr)}
    (hconnection : ConnectionInv ⟨σ', retired⟩) (hclosing : StreamSession.Holds Closing σ') :
    MetricsInv ⟨⟨σ', retired⟩, μ.metrics⟩ := by
  cases hadvance with
  | @task t r hturn hstep => cases (hlabel t).symm.trans hstep
  | keep hsent hrefusals hkept hcurrent _ =>
      have hframes (turnId : Int) :
          turnFrames turnId σ'.sent = turnFrames turnId μ.connection.session.sent := by
        rw [hsent, turnFrames_append, turnFrames_of_refusals hrefusals, List.append_nil]
      refine
        { connection := hconnection
          closing := hclosing
          gauge := h.gauge.trans ?_
          opened := fun e he => le_trans (h.opened e he) hcurrent
          active := ?_
          tally := fun turnId => (hframes turnId).symm ▸ h.tally turnId
          single := h.single }
      · simp only [StreamSession.activeTurns]
        generalize μ.connection.session.turn = before at hkept
        generalize σ'.turn = after at hkept
        cases hkept with
        | none => rfl
        | some hchange => exact (Turn.active_of_pump hchange.pump).symm
      · intro t' hturn'
        change σ'.turn = some t' at hturn'
        rw [hturn'] at hkept
        generalize hturn : μ.connection.session.turn = turn at hkept
        cases hkept with
        | some hchange =>
            have hcounted := (h.active _ hturn).turnChange hchange
            rw [← hchange.turnId, ← hframes] at hcounted
            exact hcounted
  | @opened sessionId turnId control nBest hnew hold =>
      refine
        { connection := hconnection
          closing := hclosing
          gauge := h.gauge.trans ?_
          opened := fun e he => le_of_lt (lt_of_le_of_lt (h.opened e he) hnew)
          active := ?_
          tally := h.tally
          single := h.single }
      · have hlast : μ.connection.session.activeTurns = 0 := by
          rw [StreamSession.activeTurns]
          split
          case h_1 => rfl
          case h_2 t hturn =>
            have hdone := (Turn.Finished.of_settled (h.connection.settled t hturn)
              (hold t hturn)).pump
            cases hpump : t.pump with
            | done result => simp [Turn.active, Turn.pumpActive, hpump]
            | _ => simp [Turn.pumpDone, hpump] at hdone
        rw [hlast]
        rfl
      · intro t hturn
        cases hturn
        have hframes := h.connection.unborn turnId hnew
        have hresults : μ.metrics.results turnId = [] :=
          results_eq_nil (fun e he => lt_of_le_of_lt (h.opened e he) hnew)
        simp only [StreamSession.newTurn, hframes, hresults]
        exact .opened _ _ _ _ _

theorem step (h : MetricsInv μ) {label : ConnectionLabel} (hstep : μ.step label = some μ') :
    MetricsInv μ' := by
  obtain ⟨c', hconnection, rfl⟩ := Option.map_eq_some_iff.mp hstep
  have hinv := h.connection.step hconnection
  obtain ⟨label', rfl, hsession, -⟩ := h.connection.step_session hconnection
  have hadvance := Advance.of_step h.connection.waits hsession
  have hclosing : StreamSession.Holds Closing c'.session := by
    refine closing_maintained.step h.closing ?_ hsession
    cases label' with
    | client frame sends => exact fun _ _ _ _ => trivial
    | _ => trivial
  have htask {f : Turn vad asr → Option (Turn vad asr × List ServerFrame)}
      (hf : ∀ t, f t = t.stepLabel label')
      (hstep : μ.connection.session.stepTask f = some c'.session) :
      MetricsInv ⟨c', MeteredConnection.meter μ.connection c' μ.metrics (.session label')⟩ := by
    obtain ⟨t, r, hturn, hr, hσ'⟩ := StreamSession.stepTask_cases hstep
    have hturn' : c'.session.turn = some r.1 := by rw [hσ']
    simp only [MeteredConnection.meter, hturn, hturn']
    exact h.task hturn (hf t ▸ hr) hσ' hinv hclosing
  have hloop (hmeter : ∀ (t t' : Turn vad asr) m, t.meter t' m label' = m)
      (hlabel : ∀ t : Turn vad asr, t.stepLabel label' = none) :
      MetricsInv ⟨c', MeteredConnection.meter μ.connection c' μ.metrics (.session label')⟩ := by
    have hsame : MeteredConnection.meter μ.connection c' μ.metrics (.session label') =
        μ.metrics := by
      rw [MeteredConnection.meter]
      split
      · exact hmeter _ _ _
      · rfl
    rw [hsame]
    exact h.loop hlabel hadvance hinv hclosing
  cases label' with
  | client frame sends => exact hloop (fun _ _ _ => rfl) (fun _ => rfl)
  | loop => exact hloop (fun _ _ _ => rfl) (fun _ => rfl)
  | fan => exact htask (fun _ => rfl) hsession
  | events sends => exact htask (fun _ => rfl) hsession
  | pump sends => exact htask (fun _ => rfl) hsession
  | finalize reply sends => exact htask (fun _ => rfl) hsession

theorem run (maxAudioBytes : Nat) {labels : List ConnectionLabel}
    (hrun : (MeteredConnection.accepted vad asr maxAudioBytes).run labels = some μ) :
    MetricsInv μ :=
  runSteps_invariant (P := fun _ _ => True) (fun h _ hstep => h.step hstep)
    (accepted maxAudioBytes) (alongRun_of_forall (fun _ _ => trivial) _ _) hrun

end MetricsInv

/-- **The gauge.**  In every state of a connection `ws_active_turns` is one while the
active turn has a pump between its `inc` and its `dec`, and zero otherwise: no turn leaks,
whatever was cancelled, and a connection that is gone has left the gauge at zero. -/
theorem active_turns (vad : Vad) (asr : Asr) (maxAudioBytes : Nat)
    (labels : List ConnectionLabel) (μ : MeteredConnection vad asr)
    (hrun : (MeteredConnection.accepted vad asr maxAudioBytes).run labels = some μ) :
    (μ.metrics.activeTurns = 0 ∨ μ.metrics.activeTurns = 1) ∧
    (μ.metrics.activeTurns = 1 ↔
      ∃ t, μ.connection.session.turn = some t ∧ t.pumpActive = true) ∧
    (μ.connection.session.loop = .closed → μ.metrics.activeTurns = 0) := by
  have h := MetricsInv.run maxAudioBytes hrun
  have hgauge := h.gauge
  rw [StreamSession.activeTurns] at hgauge
  cases hturn : μ.connection.session.turn with
  | none =>
      simp only [hturn] at hgauge
      simp [hgauge]
  | some t =>
      simp only [hturn, Turn.active] at hgauge
      cases hactive : t.pumpActive with
      | false => simp [hgauge, hactive]
      | true =>
          simp only [hgauge, hactive, if_true, Option.some.injEq, exists_eq_left', one_ne_zero,
            or_true, imp_false, true_and]
          intro hloop
          have hdone := (h.closing t hturn).2 hloop
          cases hpump : t.pump with
          | done result => simp [Turn.pumpActive, hpump] at hactive
          | _ => simp [Turn.pumpDone, hpump] at hdone

/-- **The counts.**  In every state each turn has been counted at most once, as `ok` if
and only if it was sent its result, as `no_speech` if and only if it was sent that error,
and as an error if it was told why the orchestrator has refused.  A turn that has come to
its end with the connection still receiving was not counted exactly if it was told of a
failure of the ASR. -/
theorem turns_counted (vad : Vad) (asr : Asr) (maxAudioBytes : Nat)
    (labels : List ConnectionLabel) (μ : MeteredConnection vad asr)
    (hrun : (MeteredConnection.accepted vad asr maxAudioBytes).run labels = some μ) :
    (∀ turnId, (μ.metrics.results turnId).length ≤ 1 ∧
      Tally (turnFrames turnId μ.connection.session.sent) (μ.metrics.results turnId)) ∧
    ∀ t, μ.connection.session.turn = some t → μ.connection.session.loop = .receiving →
      t.finalize = .done → (μ.metrics.results t.turnId = [] ↔
        (turnFrames t.turnId μ.connection.session.sent).any FrameBody.isAsrFailed = true) := by
  have h := MetricsInv.run maxAudioBytes hrun
  refine ⟨fun turnId => ⟨h.single turnId, h.tally turnId⟩, ?_⟩
  intro t hturn hloop hdone
  have hcounted := h.active t hturn
  rw [← hcounted.failed hloop]
  constructor
  · intro hnone
    by_contra hlive
    exact hcounted.counted hloop hdone (by simpa using hlive) hnone
  · exact hcounted.uncounted hloop

section Examples

/-- A turn that is replaced while its request is with the orchestrator; the pump of the
new one has begun. -/
def replacedRun : List ConnectionLabel :=
  finishedRun (startControl 5) ++ ([startFrame 2, .finalize .ok true, .loop, .pump true] :
    List StreamLabel).map .session

/-- The client goes; the tasks of the turn end one after the other. -/
def leavingRun : List ConnectionLabel :=
  ([.client .disconnect, .pump true, .fan, .pump true, .events true, .events true, .pump true,
    .loop, .finalize .ok true, .loop] : List StreamLabel).map .session

/-- The gauge shows the second turn, and nothing once the connection is closed. -/
theorem active_turns_replaced :
    ∃ μ μ', (MeteredConnection.accepted eagerVad okAsr 8).run replacedRun = some μ ∧
      μ.metrics.activeTurns = 1 ∧
      (∃ t, μ.connection.session.turn = some t ∧ t.pumpActive = true) ∧
      (MeteredConnection.accepted eagerVad okAsr 8).run (replacedRun ++ leavingRun) = some μ' ∧
      μ'.connection.session.loop = .closed ∧ μ'.metrics.activeTurns = 0 := by
  refine ⟨_, _, rfl, by decide, ?_, rfl, rfl, ?_⟩
  · exact (active_turns eagerVad okAsr 8 replacedRun _ rfl).2.1.mp (by decide)
  · exact (active_turns eagerVad okAsr 8 (replacedRun ++ leavingRun) _ rfl).2.2 rfl

/-- A turn with its result: it is counted once, as `ok`. -/
theorem turns_counted_answered :
    ∃ μ, (MeteredConnection.accepted eagerVad okAsr 8).run
        (finishedRun (startControl 5) ++ [.session (.finalize .ok true)]) = some μ ∧
      μ.metrics.counted = [(1, .ok)] ∧
      turnFrames 1 μ.connection.session.sent = [.transcript true "ok" 0 100, .result] ∧
      (μ.metrics.results 1).length ≤ 1 ∧
      Tally (turnFrames 1 μ.connection.session.sent) (μ.metrics.results 1) ∧
      (turnFrames 1 μ.connection.session.sent).any FrameBody.isAsrFailed ≠ true := by
  refine ⟨_, rfl, by decide, by decide, ?_⟩
  have h := turns_counted eagerVad okAsr 8
    (finishedRun (startControl 5) ++ [.session (.finalize .ok true)]) _ rfl
  refine ⟨(h.1 1).1, (h.1 1).2, fun hfailed => ?_⟩
  have hnone := (h.2 _ rfl rfl rfl).mpr hfailed
  cases hnone

end Examples

end Api
end Sandroid
