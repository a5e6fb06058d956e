import Sandroid.Api.StreamSession

/-!
# What the tasks of a turn send

Every step of a task with the frame it sends, if any (`EventsSends`, `PumpSends`,
`FinalizeSends`), and `Settled`: who is over when.  The events task is over before
the pump enters the ASR stream, and the pump before the finalizer answers, since
each is awaited by the next; that holds in every run, whatever is cancelled.
-/

namespace Sandroid
namespace Api

open Lib

variable {vad : Vad} {asr : Asr}

/-- The frame of an ASR result over a segment. -/
def transcriptBody (seg : SegmentResult) (p : PartialTranscript) : FrameBody :=
  .transcript p.isFinal p.text seg.startMs (seg.startMs + p.endMs)

/-- The answer the finalizer sends for an outcome of the orchestrator. -/
def OrchestratorAnswer.body : OrchestratorAnswer → Option FrameBody
  | .ok => some .result
  | .keyError message => some (.error "UNKNOWN_SCENE" message false)
  | .valueError message => some (.error "INVALID_REQUEST" message false)
  | .failed => none

namespace Turn

/-- The step of the task that the label names. -/
def stepLabel (t : Turn vad asr) : StreamLabel → Option (Turn vad asr × List ServerFrame)
  | .fan => t.stepFan.map (fun t => (t, []))
  | .events sends => t.stepEvents (t.takes sends)
  | .pump sends => t.stepPump (t.takes sends)
  | .finalize reply sends => t.stepFinalize reply (t.takes sends)
  | _ => none

/-- The pump has not come to the ASR stream. -/
def Early (t : Turn vad asr) : Prop :=
  match t.pump with
  | .recognizing _ _ _ _ => False
  | .done _ => False
  | _ => True

/-- A step of `forward_events` with what it sends. -/
inductive EventsSends (t : Turn vad asr) : Turn vad asr → List FrameBody → Prop
  | silent {t' : Turn vad asr} (hmove : EventsMove t t') : EventsSends t t' []
  | event {state state' : vad.events.State} {ended : Bool} {ev : SegmentEvent}
      (hevents : t.events = .running state ended)
      (hnext : vad.events.next state = .emit ev state') :
      EventsSends t { t with events := .running state' ended } [.event ev.kind ev.atMs]

/-- What the pump has when it stops reading segments: a segment or none, unless it was
cancelled or `stream_segments` raised. -/
def LeavesWith (t t' : Turn vad asr) : Prop :=
  ∀ state ended outcome, t.pump = .segmenting state ended → t'.pump = .joiningFan outcome →
    t.pumpCancel = true ∨ (∃ message, vad.segments.next state = .fail message) ∨
      ∃ seg, outcome = .segment seg

/-- A step of the pump with what it sends. -/
inductive PumpSends (t : Turn vad asr) (sends : Bool) : Turn vad asr → List FrameBody → Prop
  | early {t' : Turn vad asr} (hearly : t.Early) (hmove : PumpMove t t')
      (hleaves : t.LeavesWith t') : PumpSends t sends t' []
  | interrupted {seg : SegmentResult} {state : asr.State} {chunks : List AudioChunk}
      {text : String} (hpump : t.pump = .recognizing seg state chunks text)
      (hcancel : t.pumpCancel = true) :
      PumpSends t sends
        { t with pump := .done (.raised .cancelled), pumpCancel := false } []
  | skipped {seg : SegmentResult} {state : asr.State} {chunks : List AudioChunk}
      {text : String} (hpump : t.pump = .recognizing seg state chunks text)
      (hcancelled : t.cancelled = true) :
      PumpSends t sends { t with pump := .done (.returned "") } []
  | transcript {seg : SegmentResult} {state state' : asr.State} {chunks : List AudioChunk}
      {text text' : String} {p : PartialTranscript}
      (hpump : t.pump = .recognizing seg state chunks text)
      (hnext : asr.next state = .emit p state') :
      PumpSends t sends { t with pump := .recognizing seg state' chunks text' }
        [transcriptBody seg p]
  | fed {seg : SegmentResult} {state : asr.State} {chunk : AudioChunk} {chunks : List AudioChunk}
      {text : String} {resume : Option AudioChunk → asr.State}
      (hpump : t.pump = .recognizing seg state (chunk :: chunks) text)
      (hnext : asr.next state = .pull resume) :
      PumpSends t sends { t with pump := .recognizing seg (resume (some chunk)) chunks text } []
  | ended {seg : SegmentResult} {state : asr.State} {text : String}
      {resume : Option AudioChunk → asr.State}
      (hpump : t.pump = .recognizing seg state [] text) (hnext : asr.next state = .pull resume) :
      PumpSends t sends { t with pump := .recognizing seg (resume none) [] text } []
  | stopped {seg : SegmentResult} {state : asr.State} {chunks : List AudioChunk} {text : String}
      (hpump : t.pump = .recognizing seg state chunks text) :
      PumpSends t sends { t with pump := .done (.returned text) } []
  | failed {seg : SegmentResult} {state : asr.State} {chunks : List AudioChunk} {text : String}
      (message : String) (hpump : t.pump = .recognizing seg state chunks text)
      (hlive : t.cancelled = false) :
      PumpSends t sends { t with cancelled := true, pump := .done (.returned "") }
        [.error "ASR_FAILED" message false]
  | unsent {seg : SegmentResult} {state : asr.State} {chunks : List AudioChunk} {text : String}
      (hpump : t.pump = .recognizing seg state chunks text) (hsends : sends = false) :
      PumpSends t sends { t with pump := .done (.raised .failed) } []

/-- A step of the finalizer with what it sends. -/
inductive FinalizeSends (t : Turn vad asr) (reply : OrchestratorAnswer) (sends : Bool) :
    Turn vad asr → List FrameBody → Prop
  | interrupted (hcancel : t.finalizeCancel = true) :
      FinalizeSends t reply sends { t with finalize := .done, finalizeCancel := false } []
  | begun (hfinalize : t.finalize = .created) :
      FinalizeSends t reply sends { t with finalize := .awaitingPump } []
  | raised {f : TaskFailure} (hfinalize : t.finalize = .awaitingPump)
      (hpump : t.pump = .done (.raised f)) :
      FinalizeSends t reply sends { t with finalize := .done } []
  | abandoned {text : String} (hfinalize : t.finalize = .awaitingPump)
      (hpump : t.pump = .done (.returned text)) (hcancelled : t.cancelled = true) :
      FinalizeSends t reply sends { t with finalize := .done } []
  | noSpeech {text : String} (hfinalize : t.finalize = .awaitingPump)
      (hpump : t.pump = .done (.returned text)) (hlive : t.cancelled = false) :
      FinalizeSends t reply sends { t with finalize := .done }
        [.error "NO_SPEECH" "no transcript produced" false]
  | requested {text : String} {request : TurnRequest}
      (hfinalize : t.finalize = .awaitingPump) (hpump : t.pump = .done (.returned text))
      (hlive : t.cancelled = false) (hrequest : t.recognitionRequest text = some request) :
      FinalizeSends t reply sends { t with finalize := .recognizing request } []
  | refused {text : String} (hfinalize : t.finalize = .awaitingPump)
      (hpump : t.pump = .done (.returned text)) (hlive : t.cancelled = false)
      (hblank : isBlank text = false) (hrequest : t.recognitionRequest text = none) :
      FinalizeSends t reply sends { t with finalize := .done } []
  | answered {request : TurnRequest} {body : FrameBody}
      (hfinalize : t.finalize = .recognizing request) (hbody : reply.body = some body) :
      FinalizeSends t reply sends { t with finalize := .done } [body]
  | failed {request : TurnRequest} (hfinalize : t.finalize = .recognizing request)
      (hbody : reply.body = none) :
      FinalizeSends t reply sends { t with finalize := .done } []
  | unsent (hfinalize : t.finalize = .awaitingPump ∧ t.pumpDone = true ∨
        ∃ request, t.finalize = .recognizing request) (hsends : sends = false) :
      FinalizeSends t reply sends { t with finalize := .done } []

section Sending

variable {t t' : Turn vad asr} {sends : Bool} {r : Turn vad asr × List ServerFrame}

/-- Every step of `forward_events` is one of `EventsSends`. -/
theorem eventsSends_of_stepEvents (h : t.stepEvents sends = some r) :
    ∃ bodies, r.2 = bodies.map t.frame ∧ EventsSends t r.1 bodies := by
  have hmove := eventsMove_of_stepEvents h
  by_cases hsilent : r.2 = []
  · exact ⟨[], hsilent, .silent hmove⟩
  · simp only [stepEvents] at h
    split at h
    case h_2 => cases h
    case h_1 state ended hevents =>
      split at h
      · cases h
        exact absurd rfl hsilent
      · split at h
        case h_1 ev state' hnext =>
          split_ifs at h
          · cases h
            exact absurd rfl hsilent
          · cases h
            exact ⟨_, rfl, .event hevents hnext⟩
          · cases h
            exact absurd rfl hsilent
        case h_2 resume hnext =>
          split_ifs at h
          · cases h
            exact absurd rfl hsilent
          · split at h
            · cases h
            · cases h
              exact absurd rfl hsilent
        case h_3 =>
          cases h
          exact absurd rfl hsilent
        case h_4 =>
          cases h
          exact absurd rfl hsilent

theorem pumpSends_of_stepAsr {seg : SegmentResult} {state : asr.State} {chunks : List AudioChunk}
    {text : String} (hpump : t.pump = .recognizing seg state chunks text) :
    ∃ bodies, (t.stepAsr sends seg state chunks text).2 = bodies.map t.frame ∧
      PumpSends t sends (t.stepAsr sends seg state chunks text).1 bodies := by
  simp only [stepAsr]
  split
  case h_1 p state' hnext =>
    by_cases hcancelled : t.cancelled = true
    · rw [if_pos hcancelled]
      exact ⟨[], rfl, .skipped hpump hcancelled⟩
    · rw [if_neg hcancelled]
      cases sends with
      | true => exact ⟨_, rfl, .transcript hpump hnext⟩
      | false => exact ⟨[], rfl, .unsent hpump rfl⟩
  case h_2 resume hnext =>
    cases chunks with
    | nil => exact ⟨[], rfl, .ended hpump hnext⟩
    | cons chunk chunks => exact ⟨[], rfl, .fed hpump hnext⟩
  case h_3 => exact ⟨[], rfl, .stopped hpump⟩
  case h_4 message hnext =>
    by_cases hcancelled : t.cancelled = true
    · rw [if_pos hcancelled]
      exact ⟨[], rfl, .skipped hpump hcancelled⟩
    · rw [if_neg hcancelled]
      cases sends with
      | true => exact ⟨[.error _ _ _], rfl, .failed _ hpump (by simpa using hcancelled)⟩
      | false => exact ⟨[], rfl, .unsent hpump rfl⟩

/-- Before the ASR stream the pump is silent. -/
theorem stepPump_silent (hearly : t.Early) (h : t.stepPump sends = some r) : r.2 = [] := by
  simp only [stepPump] at h
  split at h
  case h_1 => split_ifs at h <;> cases h <;> rfl
  case h_2 =>
    split at h
    · cases h
      rfl
    · split at h
      · cases h
        rfl
      · split at h
        · cases h
          rfl
        · split at h
          · cases h
          · cases h
            rfl
      · cases h
        rfl
      · cases h
        rfl
  case h_3 =>
    split_ifs at h
    cases h
    rfl
  case h_4 =>
    split_ifs at h
    cases h
    rfl
  case h_5 hpump => simp [Early, hpump] at hearly
  case h_6 => cases h

theorem leavesWith_of_stepPump (h : t.stepPump sends = some r) : t.LeavesWith r.1 := by
  intro state ended outcome hpump houtcome
  simp only [stepPump, hpump] at h
  split at h
  · exact Or.inl ‹_›
  · split at h
    · cases h
      cases houtcome
      exact Or.inr (Or.inr ⟨_, rfl⟩)
    · split at h
      · cases h
        cases houtcome
      · split at h
        · cases h
        · cases h
          cases houtcome
    · cases h
      cases houtcome
      exact Or.inr (Or.inr ⟨_, rfl⟩)
    · exact Or.inr (Or.inl ⟨_, ‹_›⟩)

/-- Every step of the pump is one of `PumpSends`. -/
theorem pumpSends_of_stepPump (h : t.stepPump sends = some r) :
    ∃ bodies, r.2 = bodies.map t.frame ∧ PumpSends t sends r.1 bodies := by
  by_cases hearly : t.Early
  · exact ⟨[], stepPump_silent hearly h, .early hearly (pumpMove_of_stepPump h)
      (leavesWith_of_stepPump h)⟩
  · cases hpump : t.pump with
    | recognizing seg state chunks text =>
        simp only [stepPump, hpump] at h
        split_ifs at h with hcancel
        · cases h
          exact ⟨[], rfl, .interrupted hpump hcancel⟩
        · cases h
          exact pumpSends_of_stepAsr hpump
    | done result => simp [stepPump, hpump] at h
    | _ => exact absurd (by simp [Early, hpump]) hearly

theorem finalizeSends_of_answer {reply : OrchestratorAnswer} {body : FrameBody}
    (hsent : FinalizeSends t reply true { t with finalize := .done } [body])
    (hunsent : FinalizeSends t reply false { t with finalize := .done } []) :
    ∃ bodies, (t.answer sends body).2 = bodies.map t.frame ∧
      FinalizeSends t reply sends (t.answer sends body).1 bodies := by
  cases sends with
  | true => exact ⟨[body], rfl, hsent⟩
  | false => exact ⟨[], rfl, hunsent⟩

/-- Every step of the finalizer is one of `FinalizeSends`. -/
theorem finalizeSends_of_stepFinalize {reply : OrchestratorAnswer}
    (h : t.stepFinalize reply sends = some r) :
    ∃ bodies, r.2 = bodies.map t.frame ∧ FinalizeSends t reply sends r.1 bodies := by
  simp only [stepFinalize] at h
  by_cases hcancel : t.finalizeCancel = true
  · rw [if_pos hcancel] at h
    split at h
    · cases h
    · cases h
      exact ⟨[], rfl, .interrupted hcancel⟩
  · rw [if_neg hcancel] at h
    split at h
    case h_1 hfinalize =>
      cases h
      exact ⟨[], rfl, .begun hfinalize⟩
    case h_2 hfinalize =>
      split at h
      case h_1 f hpump =>
        cases h
        exact ⟨[], rfl, .raised hfinalize hpump⟩
      case h_2 text hpump =>
        by_cases hcancelled : t.cancelled = true
        · rw [if_pos hcancelled] at h
          cases h
          exact ⟨[], rfl, .abandoned hfinalize hpump hcancelled⟩
        · rw [if_neg hcancelled] at h
          have hlive : t.cancelled = false := by simpa using hcancelled
          by_cases hblank : isBlank text = true
          · rw [if_pos hblank] at h
            cases h
            refine finalizeSends_of_answer (.noSpeech hfinalize hpump hlive) (.unsent ?_ rfl)
            exact Or.inl ⟨hfinalize, by simp [pumpDone, hpump]⟩
          · rw [if_neg hblank] at h
            split at h
            case h_1 request hrequest =>
              cases h
              exact ⟨[], rfl, .requested hfinalize hpump hlive hrequest⟩
            case h_2 hrequest =>
              cases h
              exact ⟨[], rfl, .refused hfinalize hpump hlive (by simpa using hblank) hrequest⟩
      case h_3 => cases h
    case h_3 request hfinalize =>
      cases reply with
      | ok =>
          cases h
          exact finalizeSends_of_answer (.answered hfinalize rfl)
            (.unsent (Or.inr ⟨request, hfinalize⟩) rfl)
      | keyError message =>
          cases h
          exact finalizeSends_of_answer (.answered hfinalize rfl)
            (.unsent (Or.inr ⟨request, hfinalize⟩) rfl)
      | valueError message =>
          cases h
          exact finalizeSends_of_answer (.answered hfinalize rfl)
            (.unsent (Or.inr ⟨request, hfinalize⟩) rfl)
      | failed =>
          cases h
          exact ⟨[], rfl, .failed hfinalize rfl⟩
    case h_4 => cases h

/-- A step of a task with what it sends. -/
inductive Sends (t : Turn vad asr) : StreamLabel → Turn vad asr → List FrameBody → Prop
  | fan {t' : Turn vad asr} (h : t.stepFan = some t') : Sends t .fan t' []
  | events {t' : Turn vad asr} {bodies : List FrameBody} (sends : Bool)
      (h : EventsSends t t' bodies) : Sends t (.events sends) t' bodies
  | pump {t' : Turn vad asr} {bodies : List FrameBody} (sends : Bool)
      (h : PumpSends t (t.takes sends) t' bodies) : Sends t (.pump sends) t' bodies
  | finalize {t' : Turn vad asr} {bodies : List FrameBody} (reply : OrchestratorAnswer)
      (sends : Bool) (h : FinalizeSends t reply (t.takes sends) t' bodies) :
      Sends t (.finalize reply sends) t' bodies

theorem sends_of_stepLabel {label : StreamLabel} (h : t.stepLabel label = some r) :
    ∃ bodies, r.2 = bodies.map t.frame ∧ Sends t label r.1 bodies := by
  cases label with
  | client frame sends => cases h
  | loop => cases h
  | fan =>
      simp only [stepLabel, Option.map_eq_some_iff] at h
      obtain ⟨t', hstep, rfl⟩ := h
      exact ⟨[], rfl, .fan hstep⟩
  | events sends =>
      obtain ⟨bodies, hsent, hsends⟩ := eventsSends_of_stepEvents h
      exact ⟨bodies, hsent, .events sends hsends⟩
  | pump sends =>
      obtain ⟨bodies, hsent, hsends⟩ := pumpSends_of_stepPump h
      exact ⟨bodies, hsent, .pump sends hsends⟩
  | finalize reply sends =>
      obtain ⟨bodies, hsent, hsends⟩ := finalizeSends_of_stepFinalize h
      exact ⟨bodies, hsent, .finalize reply sends hsends⟩

/-- Tasks do not touch the ids of their context. -/
theorem Sends.turnId {label : StreamLabel} {bodies : List FrameBody}
    (h : Sends t label t' bodies) : t'.turnId = t.turnId := by
  cases h with
  | fan h =>
      obtain ⟨-, ⟨-, rfl⟩ | ⟨_, _, -, -, rfl⟩⟩ := stepFan_cases h
      · rfl
      · rfl
  | events sends h =>
      cases h with
      | silent hmove => cases hmove <;> rfl
      | event => rfl
  | pump sends h =>
      cases h with
      | early _ hmove _ => cases hmove <;> rfl
      | _ => rfl
  | finalize reply sends h => cases h <;> rfl

end Sending

end Turn

/-- Who is over when, in every run. -/
structure Settled (loop : LoopPhase) (t : Turn vad asr) : Prop where
  /-- the pump has joined its two tasks -/
  quiet : ¬ t.Early → t.fan ≠ .running ∧ t.eventsRunning = false
  joined : (∃ outcome, t.pump = .joiningEvents outcome) → t.fan ≠ .running
  eventsWoken : (∃ outcome, t.pump = .joiningEvents outcome) → t.pumpCancel = true →
    t.eventsRunning = false
  fanWoken : (∃ outcome, t.pump = .joiningFan outcome) → t.pumpCancel = true → t.fan ≠ .running
  fresh : t.pump = .created → t.fan ≠ .running ∧ t.eventsRunning = false
  receiving : loop = .receiving → (t.cancelled = true → t.pumpDone = true) ∧
    t.pumpCancel = false ∧ t.finalizeCancel = false
  dropped : (∃ next, loop = .dropping next) → t.pumpDone = true
  /-- the finalizer has got past its wait, or is woken out of turn -/
  answering : t.finalize ≠ .created → t.finalize ≠ .awaitingPump → t.pumpDone = true
  finalizeCancel : t.finalizeCancel = true → t.pumpDone = true

namespace Settled

variable {loop : LoopPhase} {t t' : Turn vad asr}

theorem not_early_of_pumpDone (h : t.pumpDone = true) : ¬ t.Early := by
  cases hpump : t.pump <;> simp_all [Turn.pumpDone, Turn.Early]

/-- A change of the fan-out and its queues only, while it was alive. -/
theorem withFan (h : Settled loop t) (hfan : t.fan = .running)
    (queue eventsQ segmentsQ : List (Option Pcm)) (fan : FanOut) :
    Settled loop { t with
      queue := queue
      eventsQ := eventsQ
      segmentsQ := segmentsQ
      fan := fan } := by
  have hearly : t.Early := by
    by_contra hlate
    exact (h.quiet hlate).1 hfan
  have hjoined : ¬ ∃ outcome, t.pump = .joiningEvents outcome := fun hj => h.joined hj hfan
  have hfresh : t.pump ≠ .created := fun hc => (h.fresh hc).1 hfan
  have hwoken : (∃ outcome, t.pump = .joiningFan outcome) → t.pumpCancel ≠ true :=
    fun hj hcancel => h.fanWoken hj hcancel hfan
  exact
    { quiet := fun hlate => absurd hearly hlate
      joined := fun hj => absurd hj hjoined
      eventsWoken := fun hj => absurd hj hjoined
      fanWoken := fun hj hcancel => absurd hcancel (hwoken hj)
      fresh := fun hc => absurd hc hfresh
      receiving := h.receiving
      dropped := h.dropped
      answering := h.answering
      finalizeCancel := h.finalizeCancel }

theorem stepFan (h : Settled loop t) (hstep : t.stepFan = some t') : Settled loop t' := by
  obtain ⟨hfan, hcases⟩ := Turn.stepFan_cases hstep
  obtain ⟨-, rfl⟩ | ⟨item, queue, -, -, rfl⟩ := hcases
  · exact h.withFan hfan t.queue t.eventsQ t.segmentsQ .done
  · exact h.withFan hfan queue (t.eventsQ ++ [item]) (t.segmentsQ ++ [item]) _

/-- A change of the events task only, which was alive. -/
theorem withEvents (h : Settled loop t) (hrunning : t.eventsRunning = true)
    (queue : List (Option Pcm)) (events : EventsTask vad) :
    Settled loop { t with eventsQ := queue, events := events } := by
  have hearly : t.Early := by
    by_contra hlate
    simp [(h.quiet hlate).2] at hrunning
  have hwoken : (∃ outcome, t.pump = .joiningEvents outcome) → t.pumpCancel ≠ true := by
    intro hj hcancel
    simp [h.eventsWoken hj hcancel] at hrunning
  have hfresh : t.pump ≠ .created := by
    intro hc
    simp [(h.fresh hc).2] at hrunning
  exact
    { quiet := fun hlate => absurd hearly hlate
      joined := h.joined
      eventsWoken := fun hj hcancel => absurd hcancel (hwoken hj)
      fanWoken := h.fanWoken
      fresh := fun hc => absurd hc hfresh
      receiving := h.receiving
      dropped := h.dropped
      answering := h.answering
      finalizeCancel := h.finalizeCancel }

theorem eventsMove (h : Settled loop t) (hmove : t.EventsMove t') : Settled loop t' := by
  have hrunning {state : vad.events.State} {ended : Bool}
      (hevents : t.events = .running state ended) : t.eventsRunning = true := by
    simp [Turn.eventsRunning, hevents]
  cases hmove with
  | finish hevents => exact h.withEvents (hrunning hevents) t.eventsQ _
  | emit hevents _ => exact h.withEvents (hrunning hevents) t.eventsQ _
  | past hevents _ => exact h.withEvents (hrunning hevents) t.eventsQ _
  | take hevents _ _ => exact h.withEvents (hrunning hevents) _ _

/-- A pump that is not done lets nothing follow it. -/
theorem waiting (h : Settled loop t) (hpump : t.pumpDone = false) :
    (loop = .receiving → t.cancelled = false) ∧ (¬ ∃ next, loop = .dropping next) ∧
      (t.finalize = .created ∨ t.finalize = .awaitingPump) ∧ t.finalizeCancel = false := by
  refine ⟨?_, ?_, ?_, ?_⟩
  · intro hloop
    by_contra hcancelled
    have := (h.receiving hloop).1 (by simpa using hcancelled)
    simp [hpump] at this
  · intro hdropped
    simp [h.dropped hdropped] at hpump
  · by_contra hfinalize
    push Not at hfinalize
    simp [h.answering hfinalize.1 hfinalize.2] at hpump
  · by_contra hcancel
    simp [h.finalizeCancel (by simpa using hcancel)] at hpump

/-- A move of the pump, from what holds of its two tasks where it arrives. -/
theorem withPump (h : Settled loop t) (hpump : t.pumpDone = false) {fan : FanOut}
    {events : EventsTask vad} {queue : List (Option Pcm)} {pump : Pump vad asr}
    {cancelled pumpCancel : Bool}
    (hquiet : ¬ ({ t with fan := fan, events := events, pump := pump } : Turn vad asr).Early →
      fan ≠ .running ∧ ({ t with events := events } : Turn vad asr).eventsRunning = false)
    (hjoined : (∃ outcome, pump = .joiningEvents outcome) → fan ≠ .running)
    (hcreated : pump ≠ .created) (hcancel : t.pumpCancel = false → pumpCancel = false)
    (hwoken : (∃ outcome, pump = .joiningEvents outcome ∨ pump = .joiningFan outcome) →
      pumpCancel = false)
    (hcancelled : loop = .receiving → cancelled = true →
      ({ t with pump := pump } : Turn vad asr).pumpDone = true) :
    Settled loop
      { t with
        fan := fan
        events := events
        segmentsQ := queue
        pump := pump
        cancelled := cancelled
        pumpCancel := pumpCancel } := by
  obtain ⟨-, hdropping, hfinalize, hfinalizeCancel⟩ := h.waiting hpump
  exact
    { quiet := hquiet
      joined := hjoined
      eventsWoken := by
        rintro ⟨outcome, houtcome⟩ hcancel'
        simp [hwoken ⟨outcome, Or.inl houtcome⟩] at hcancel'
      fanWoken := by
        rintro ⟨outcome, houtcome⟩ hcancel'
        simp [hwoken ⟨outcome, Or.inr houtcome⟩] at hcancel'
      fresh := fun hc => absurd hc hcreated
      receiving := fun hloop =>
        ⟨hcancelled hloop, hcancel (h.receiving hloop).2.1, hfinalizeCancel⟩
      dropped := fun hd => absurd hd hdropping
      answering := by
        intro hc ha
        obtain hf | hf := hfinalize
        · exact absurd hf hc
        · exact absurd hf ha
      finalizeCancel := by simp [hfinalizeCancel] }

theorem pumpMove (h : Settled loop t) (hmove : t.PumpMove t') : Settled loop t' := by
  have hnot {pump : Pump vad asr} (hpump : t.pump = pump) (hopen : ∀ result, pump ≠ .done result) :
      t.pumpDone = false := by
    cases pump with
    | done result => exact absurd rfl (hopen result)
    | _ => simp [Turn.pumpDone, hpump]
  -- the turn is live as long as the pump runs, so nothing has to be said of `cancelled`
  have hlive (hopen : t.pumpDone = false) {pump : Pump vad asr} (hloop : loop = .receiving)
      (hcancelled : t.cancelled = true) :
      ({ t with pump := pump } : Turn vad asr).pumpDone = true := by
    simp [(h.waiting hopen).1 hloop] at hcancelled
  cases hmove with
  | abort hpump hcancel =>
      have hopen := hnot hpump nofun
      exact h.withPump hopen (fun _ => h.fresh hpump) nofun nofun (fun _ => rfl) (fun _ => rfl)
        (hlive hopen)
  | fork hpump =>
      have hopen := hnot hpump nofun
      exact h.withPump hopen (fun hlate => absurd trivial hlate) nofun nofun id
        (by simp) (hlive hopen)
  | read hpump =>
      have hopen := hnot hpump nofun
      exact h.withPump hopen (fun hlate => absurd trivial hlate) nofun nofun id
        (by simp) (hlive hopen)
  | leave hpump =>
      have hopen := hnot hpump nofun
      exact h.withPump hopen (fun hlate => absurd trivial hlate) nofun nofun (fun _ => rfl)
        (fun _ => rfl) (hlive hopen)
  | @joinFan outcome hpump hfan =>
      have hopen := hnot hpump nofun
      have hover : t.fan ≠ .running := by
        obtain hdone | hcancel := hfan
        · simp [hdone]
        · exact h.fanWoken ⟨outcome, hpump⟩ hcancel
      exact h.withPump hopen (fun hlate => absurd trivial hlate) (fun _ => hover) nofun
        (fun _ => rfl) (fun _ => rfl) (hlive hopen)
  | @joinEvents outcome hpump hevents =>
      have hopen := hnot hpump nofun
      have hfan : t.fan ≠ .running := h.joined ⟨outcome, hpump⟩
      have hover : t.eventsRunning = false := by
        obtain hdone | hcancel := hevents
        · exact hdone
        · exact h.eventsWoken ⟨outcome, hpump⟩ hcancel
      exact h.withPump hopen (fun _ => ⟨hfan, hover⟩) (fun _ => hfan)
        (Turn.afterJoin_ne_created outcome) (fun _ => rfl) (fun _ => rfl) (hlive hopen)
  | transcribe hpump =>
      have hopen := hnot hpump nofun
      exact h.withPump hopen (fun _ => h.quiet (by simp [Turn.Early, hpump])) nofun nofun id
        (by simp) (hlive hopen)
  | finish hpump hcancelled hcancel =>
      have hopen := hnot hpump nofun
      exact h.withPump hopen (fun _ => h.quiet (by simp [Turn.Early, hpump])) nofun nofun hcancel
        (by simp) (fun _ _ => rfl)

theorem finalizeSends {reply : OrchestratorAnswer} {sends : Bool} {bodies : List FrameBody}
    (h : Settled loop t) (hsends : t.FinalizeSends reply sends t' bodies) : Settled loop t' := by
  have hkeep {finalize : Finalize} (hdone : t.pumpDone = true) :
      Settled loop { t with finalize := finalize } :=
    { h with answering := fun _ _ => hdone }
  have hreturned {text : String} (hpump : t.pump = .done (.returned text)) :
      t.pumpDone = true := by
    simp [Turn.pumpDone, hpump]
  have hrecognizing {request : TurnRequest}
      (hfinalize : t.finalize = .recognizing request) : t.pumpDone = true :=
    h.answering (by simp [hfinalize]) (by simp [hfinalize])
  cases hsends with
  | interrupted hcancel =>
      have hdone := h.finalizeCancel hcancel
      exact
        { h with
          receiving := fun hloop => ⟨(h.receiving hloop).1, (h.receiving hloop).2.1, rfl⟩
          answering := fun _ _ => hdone
          finalizeCancel := nofun }
  | begun hfinalize => exact { h with answering := fun _ ha => absurd rfl ha }
  | raised hfinalize hpump => exact hkeep (by simp [Turn.pumpDone, hpump])
  | abandoned hfinalize hpump hcancelled => exact hkeep (hreturned hpump)
  | noSpeech hfinalize hpump hlive => exact hkeep (hreturned hpump)
  | requested hfinalize hpump hlive hrequest => exact hkeep (hreturned hpump)
  | refused hfinalize hpump hlive hblank hrequest => exact hkeep (hreturned hpump)
  | answered hfinalize hbody => exact hkeep (hrecognizing hfinalize)
  | failed hfinalize hbody => exact hkeep (hrecognizing hfinalize)
  | unsent hfinalize hfails =>
      obtain ⟨-, hdone⟩ | ⟨request, hfinalize⟩ := hfinalize
      · exact hkeep hdone
      · exact hkeep (hrecognizing hfinalize)

theorem taskStep (h : Settled loop t) (hstep : t.TaskStep t') : Settled loop t' := by
  cases hstep with
  | fan hstep => exact h.stepFan hstep
  | events sends hstep => exact h.eventsMove (Turn.eventsMove_of_stepEvents hstep)
  | pump sends hstep => exact h.pumpMove (Turn.pumpMove_of_stepPump hstep)
  | finalize reply sends hstep =>
      obtain ⟨bodies, -, hsends⟩ := Turn.finalizeSends_of_stepFinalize hstep
      exact h.finalizeSends hsends

theorem markCancelled (h : Settled .receiving t) (next : After) :
    Settled (.cancelling next) t.markCancelled :=
  { quiet := h.quiet
    joined := h.joined
    eventsWoken := h.eventsWoken
    fanWoken := h.fanWoken
    fresh := h.fresh
    receiving := nofun
    dropped := by
      rintro ⟨next', hnext⟩
      cases hnext
    answering := h.answering
    finalizeCancel := h.finalizeCancel }

theorem cancelPump {next : After} (h : Settled (.cancelling next) t) :
    Settled (.cancelling next) t.cancelPump := by
  simp only [Turn.cancelPump]
  split
  case h_1 => exact h
  case h_2 outcome hpump =>
    split_ifs with hfan
    · exact { h with receiving := by simp }
    · exact
        { h with
          receiving := by simp
          eventsWoken := by simp [hpump]
          fanWoken := fun _ _ => hfan }
  case h_3 outcome hpump =>
    split_ifs with hevents
    · exact { h with receiving := by simp }
    · have hover : t.eventsRunning = false := by simpa using hevents
      exact
        { h with
          receiving := by simp
          eventsWoken := fun _ _ => hover
          fanWoken := by simp [hpump] }
  case h_4 hdone hfan hevents =>
    exact
      { h with
        receiving := by simp
        eventsWoken := by
          rintro ⟨outcome, hpump⟩
          exact absurd hpump (hevents outcome)
        fanWoken := by
          rintro ⟨outcome, hpump⟩
          exact absurd hpump (hfan outcome) }

theorem dropping (h : Settled loop t) (next : After) (hdone : t.pumpDone = true) :
    Settled (.dropping next) t :=
  { h with receiving := nofun, dropped := fun _ => hdone }

theorem cancelFinalize {next : After} (h : Settled (.dropping next) t) :
    Settled (.dropping next) t.cancelFinalize := by
  have hdone := h.dropped ⟨next, rfl⟩
  have hflag : Settled (.dropping next) { t with finalizeCancel := true } :=
    { h with receiving := nofun, finalizeCancel := fun _ => hdone }
  simp only [Turn.cancelFinalize]
  split
  · exact h
  · rw [if_pos hdone]
    exact hflag
  · exact hflag

theorem newTurn {maxAudioBytes : Nat} {sessionId : PyStr} {turnId nBest : Int}
    {control : StartControl} :
    Settled .receiving
      (StreamSession.newTurn maxAudioBytes sessionId turnId control nBest : Turn vad asr) :=
  { quiet := fun hlate => absurd trivial hlate
    joined := nofun
    eventsWoken := nofun
    fanWoken := nofun
    fresh := fun _ => ⟨nofun, rfl⟩
    receiving := fun _ => ⟨nofun, rfl, rfl⟩
    dropped := by
      rintro ⟨next, hnext⟩
      cases hnext
    answering := fun hc => absurd rfl hc
    finalizeCancel := nofun }

/-- A turn that was dropped stays as it is when the connection closes. -/
theorem gone {next : After} (h : Settled (.dropping next) t) : Settled .closed t :=
  { h with
    receiving := nofun
    dropped := by
      rintro ⟨next', hnext⟩
      cases hnext }

/-- It holds of the active turn in every run. -/
theorem maintained : StreamSession.Maintained (@Settled vad asr) (fun _ => True) where
  opened _ _ _ _ _ := newTurn
  received _ _ _ h _ := { h with }
  cancelled next h _ _ _ := (h.markCancelled next).cancelPump
  droppedCancelled next h hcancelled := h.dropping next ((h.receiving rfl).1 hcancelled)
  droppedDone _ h _ hdone :=
    { h with receiving := nofun, dropped := fun _ => hdone }
  droppedAfter _ next' h hdone := h.dropping next' hdone
  finalizeCancelled _ h := h.cancelFinalize
  closed _ h := h.gone
  task h hstep := h.taskStep hstep

end Settled

end Api
end Sandroid
