import Sandroid.Api.StreamTypes
import Sandroid.Core.Orchestrator
import Sandroid.Lib.Generator
import Sandroid.Lib.PyText

/-!
# The tasks of one streamed turn

`_pump_vad_asr_inner`, `_stream_segment_through_asr` and `_finalize_turn` of
`api/routes.py` as cooperative tasks.  A turn has its context (`ctx`), the queues
that `fan_out` feeds, and four tasks: the pump, its `fan_out` and
`forward_events`, and the finalizer.  A step takes one task from one suspension
to the next.

Cancelling follows asyncio: a task that waits for another unfinished task passes
the cancellation on to it, any other task gets `CancelledError` at its next step
(the `…Cancel` flags).

The VAD and ASR backends are generators, the orchestrator's answer and the fate
of a `send_json` are inputs of a step.  Where two sends follow each other without a
suspension between them, as a partial and the error about it, they have one fate.
-/

namespace Sandroid
namespace Api

open Lib

/-- `VoiceActivityDetector`: its two streaming channels. -/
structure Vad where
  events : Generator Pcm SegmentEvent
  segments : Generator Pcm SegmentResult

/-- `ASRBackend.stream`. -/
abbrev Asr := Generator AudioChunk PartialTranscript

/-- Contents of a frame to the client. -/
inductive FrameBody where
  | event (kind : EventKind) (atMs : Nat)
  | transcript (isFinal : Bool) (text : String) (startMs endMs : Nat)
  | error (code message : String) (fatal : Bool)
  | result
deriving DecidableEq, Repr

/-- A frame to the client, with the ids it is tagged with. -/
structure ServerFrame where
  sessionId : Option PyStr
  turnId : Option Int
  body : FrameBody
deriving DecidableEq, Repr

/-- The socket takes a frame with this session id: a client that is gone takes none, and
the encoder takes no surrogate. -/
def takes (sends : Bool) : Option PyStr → Bool
  | none => sends
  | some sessionId => sends && sessionId.encodes

/-- How a task ends without a value. -/
inductive TaskFailure where
  | cancelled
  | failed
deriving DecidableEq, Repr

/-- What `first_segment` leaves for the code after the `finally`. -/
inductive SegmentOutcome where
  | segment (seg : Option SegmentResult)
  | raised (f : TaskFailure)
deriving DecidableEq, Repr

inductive PumpResult where
  | returned (text : String)
  | raised (f : TaskFailure)
deriving DecidableEq, Repr

inductive FanOut where
  | absent
  | running
  | done
deriving DecidableEq, Repr

/-- `forward_events`; `ended` once its source has met the sentinel. -/
inductive EventsTask (vad : Vad) where
  | absent
  | running (state : vad.events.State) (ended : Bool)
  | done

/-- The pump: reading segments, in the `finally` at `await fan_task` and at
`await events_task`, in the ASR stream over a segment, or done. -/
inductive Pump (vad : Vad) (asr : Asr) where
  | created
  | segmenting (state : vad.segments.State) (ended : Bool)
  | joiningFan (outcome : SegmentOutcome)
  | joiningEvents (outcome : SegmentOutcome)
  | recognizing (seg : SegmentResult) (state : asr.State) (chunks : List AudioChunk)
      (text : String)
  | done (result : PumpResult)

/-- A `RecognitionRequest` with the strings of the start frame, whose fields take any
string. -/
structure TurnRequest where
  sceneId : Option PyStr
  categoryPath : Option PyStr
  text : String
  audio : Option Pcm
  sessionId : PyStr
  nBest : Core.NBest

/-- The request as the orchestrator takes it, where its strings are text. -/
def TurnRequest.toCore (request : TurnRequest) : Option Core.RecognitionRequest := do
  let sceneId ← request.sceneId.mapM PyStr.asText
  let categoryPath ← request.categoryPath.mapM PyStr.asText
  let sessionId ← request.sessionId.asText
  return { sceneId := sceneId
           categoryPath := categoryPath
           text := request.text
           audio := request.audio
           sessionId := some sessionId
           nBest := request.nBest }

inductive Finalize where
  | created
  | awaitingPump
  | recognizing (request : TurnRequest)
  | done

/-- How `orchestrator.recognize` ends. -/
inductive OrchestratorAnswer where
  | ok
  | keyError (message : String)
  | valueError (message : String)
  | failed
deriving DecidableEq, Repr

/-- What a `start` frame has under `scene_id` or `category_path`, if not `null`: nothing
but a string gets past the request's own check. -/
inductive FieldValue where
  | str (s : PyStr)
  /-- a number, a truth value, a list or an object -/
  | other
deriving DecidableEq, Repr

instance : Coe String FieldValue :=
  ⟨fun s => .str s⟩

/-- The check `str | None` of a request's field. -/
def FieldValue.asText : Option FieldValue → Option (Option PyStr)
  | none => some none
  | some (.str s) => some (some s)
  | some .other => none

/-- A `_TurnContext` with its queues and tasks. -/
structure Turn (vad : Vad) (asr : Asr) where
  sessionId : PyStr
  turnId : Int
  sceneId : Option FieldValue
  categoryPath : Option FieldValue
  nBest : Int
  maxAudioBytes : Nat
  queue : List (Option Pcm) := []
  cancelled : Bool := false
  audioAccum : Pcm := []
  audioOverflow : Bool := false
  eventsQ : List (Option Pcm) := []
  segmentsQ : List (Option Pcm) := []
  fan : FanOut := .absent
  fanCancel : Bool := false
  events : EventsTask vad := .absent
  eventsCancel : Bool := false
  pump : Pump vad asr := .created
  pumpCancel : Bool := false
  finalize : Finalize := .created
  finalizeCancel : Bool := false

/-- The chunks of `segment_chunks`: 200 ms each. -/
def segmentChunks (seg : SegmentResult) : List AudioChunk :=
  let sliceBytes := max 2 (seg.sampleRate / 5 * 2)
  (List.range ((seg.pcm16.length + sliceBytes - 1) / sliceBytes)).map (fun i =>
    { pcm16 := (seg.pcm16.drop (i * sliceBytes)).take sliceBytes, sequence := i })

/-- `not text.strip()`. -/
def isBlank (text : String) : Bool :=
  (Core.strip text.toList).isEmpty

namespace Turn

variable {vad : Vad} {asr : Asr}

/-- A frame of this turn. -/
def frame (t : Turn vad asr) (body : FrameBody) : ServerFrame :=
  { sessionId := some t.sessionId, turnId := some t.turnId, body := body }

def takes (t : Turn vad asr) (sends : Bool) : Bool :=
  Api.takes sends (some t.sessionId)

def pumpDone (t : Turn vad asr) : Bool :=
  match t.pump with
  | .done _ => true
  | _ => false

def eventsRunning (t : Turn vad asr) : Bool :=
  match t.events with
  | .running _ _ => true
  | _ => false

/-- `fan_task`: pass one item on to both queues. -/
def stepFan (t : Turn vad asr) : Option (Turn vad asr) :=
  match t.fan with
  | .running =>
      if t.fanCancel then
        some { t with fan := .done }
      else
        match t.queue with
        | [] => none
        | item :: queue =>
            some { t with
              queue := queue
              eventsQ := t.eventsQ ++ [item]
              segmentsQ := t.segmentsQ ++ [item]
              fan := if item = none then .done else .running }
  | _ => none

/-- `events_task`. -/
def stepEvents (t : Turn vad asr) (sends : Bool) : Option (Turn vad asr × List ServerFrame) :=
  match t.events with
  | .running state ended =>
      if t.eventsCancel then
        some ({ t with events := .done }, [])
      else
        match vad.events.next state with
        | .emit ev state =>
            if t.cancelled then
              some ({ t with events := .done }, [])
            else if sends then
              some ({ t with events := .running state ended }, [t.frame (.event ev.kind ev.atMs)])
            else
              some ({ t with events := .done }, [])
        | .pull resume =>
            if ended then
              some ({ t with events := .running (resume none) true }, [])
            else
              match t.eventsQ with
              | [] => none
              | item :: queue =>
                  some ({ t with
                    eventsQ := queue
                    events := .running (resume item) item.isNone }, [])
        | .stop => some ({ t with events := .done }, [])
        | .fail _ => some ({ t with events := .done }, [])
  | _ => none

/-- The pump after its `finally`. -/
def afterJoin (t : Turn vad asr) (outcome : SegmentOutcome) : Pump vad asr :=
  match outcome with
  | .raised f => .done (.raised f)
  | .segment none => .done (.returned "")
  | .segment (some seg) =>
      if t.cancelled ∨ seg.pcm16 = [] then
        .done (.returned "")
      else
        .recognizing seg asr.start (segmentChunks seg) ""

/-- One step of `_stream_segment_through_asr`. -/
def stepAsr (t : Turn vad asr) (sends : Bool) (seg : SegmentResult) (state : asr.State)
    (chunks : List AudioChunk) (text : String) : Turn vad asr × List ServerFrame :=
  match asr.next state with
  | .emit p state =>
      if t.cancelled then
        ({ t with pump := .done (.returned "") }, [])
      else if sends then
        ({ t with
            pump := .recognizing seg state chunks (if p.isFinal then p.text else text) },
          [t.frame (.transcript p.isFinal p.text seg.startMs (seg.startMs + p.endMs))])
      else
        -- the socket does not take the ASR_FAILED of the handler either
        ({ t with pump := .done (.raised .failed) }, [])
  | .pull resume =>
      match chunks with
      | [] => ({ t with pump := .recognizing seg (resume none) [] text }, [])
      | chunk :: chunks =>
          ({ t with pump := .recognizing seg (resume (some chunk)) chunks text }, [])
  | .stop => ({ t with pump := .done (.returned text) }, [])
  | .fail message =>
      if t.cancelled then
        ({ t with pump := .done (.returned "") }, [])
      else if sends then
        ({ t with cancelled := true, pump := .done (.returned "") },
          [t.frame (.error "ASR_FAILED" ("ASR backend error: " ++ message) false)])
      else
        ({ t with pump := .done (.raised .failed) }, [])

/-- One step of the pump. -/
def stepPump (t : Turn vad asr) (sends : Bool) : Option (Turn vad asr × List ServerFrame) :=
  match t.pump with
  | .created =>
      if t.pumpCancel then
        some ({ t with pump := .done (.raised .cancelled), pumpCancel := false }, [])
      else
        some ({ t with
          fan := .running
          events := .running vad.events.start false
          pump := .segmenting vad.segments.start false }, [])
  | .segmenting state ended =>
      if t.pumpCancel then
        some ({ t with pump := .joiningFan (.raised .cancelled), pumpCancel := false }, [])
      else
        match vad.segments.next state with
        | .emit seg _ =>
            some ({ t with
              pump := .joiningFan (.segment (if t.cancelled then none else some seg)) }, [])
        | .pull resume =>
            if ended then
              some ({ t with pump := .segmenting (resume none) true }, [])
            else
              match t.segmentsQ with
              | [] => none
              | item :: queue =>
                  some ({ t with
                    segmentsQ := queue
                    pump := .segmenting (resume item) item.isNone }, [])
        | .stop => some ({ t with pump := .joiningFan (.segment none) }, [])
        | .fail _ => some ({ t with pump := .joiningFan (.raised .failed) }, [])
  | .joiningFan outcome =>
      -- both ways out of the await are suppressed
      if t.fan = .done ∨ t.pumpCancel then
        some ({ t with pump := .joiningEvents outcome, pumpCancel := false }, [])
      else
        none
  | .joiningEvents outcome =>
      if ¬ t.eventsRunning ∨ t.pumpCancel then
        some ({ t with pump := t.afterJoin outcome, pumpCancel := false }, [])
      else
        none
  | .recognizing seg state chunks text =>
      if t.pumpCancel then
        some ({ t with pump := .done (.raised .cancelled), pumpCancel := false }, [])
      else
        some (t.stepAsr sends seg state chunks text)
  | .done _ => none

/-- The request of the turn; its constructor rejects an `n_best` out of range, and a
`scene_id` or a `category_path` that is no string. -/
def recognitionRequest (t : Turn vad asr) (text : String) : Option TurnRequest :=
  match FieldValue.asText t.sceneId, FieldValue.asText t.categoryPath with
  | some sceneId, some categoryPath =>
      if h : 1 ≤ t.nBest.toNat ∧ t.nBest.toNat ≤ 20 then
        some
          { sceneId := sceneId
            categoryPath := categoryPath
            text := text
            audio := if t.audioOverflow then none else some t.audioAccum
            sessionId := t.sessionId
            nBest := ⟨t.nBest.toNat, h⟩ }
      else
        none
  | _, _ => none

/-- A turn whose start frame has text in its fields asks the orchestrator for just that. -/
theorem toCore_of_recognitionRequest {t : Turn vad asr} {text sessionId : String}
    {sceneId categoryPath : Option String} {request : TurnRequest}
    (hsession : t.sessionId = .text sessionId)
    (hscene : t.sceneId = sceneId.map fun s => .str (.text s))
    (hpath : t.categoryPath = categoryPath.map fun s => .str (.text s))
    (h : t.recognitionRequest text = some request) :
    request.toCore = some
      { sceneId := sceneId
        categoryPath := categoryPath
        text := text
        audio := if t.audioOverflow then none else some t.audioAccum
        sessionId := some sessionId
        nBest := request.nBest } := by
  have hfield (field : Option String) :
      FieldValue.asText (field.map fun s => .str (.text s)) = some (field.map .text) := by
    cases field <;> rfl
  rw [recognitionRequest, hscene, hpath, hfield, hfield] at h
  by_cases hrange : 1 ≤ t.nBest.toNat ∧ t.nBest.toNat ≤ 20
  · simp only [dif_pos hrange] at h
    cases h
    cases sceneId <;> cases categoryPath <;> simp [TurnRequest.toCore, hsession, PyStr.asText]
  · simp only [dif_neg hrange] at h
    cases h

/-- The finalizer ends, with the frame if the socket takes it. -/
def answer (t : Turn vad asr) (sends : Bool) (body : FrameBody) :
    Turn vad asr × List ServerFrame :=
  ({ t with finalize := .done }, if sends then [t.frame body] else [])

/-- One step of `_finalize_turn`. -/
def stepFinalize (t : Turn vad asr) (reply : OrchestratorAnswer) (sends : Bool) :
    Option (Turn vad asr × List ServerFrame) :=
  if t.finalizeCancel then
    match t.finalize with
    | .done => none
    | _ => some ({ t with finalize := .done, finalizeCancel := false }, [])
  else
    match t.finalize with
    | .created => some ({ t with finalize := .awaitingPump }, [])
    | .awaitingPump =>
        match t.pump with
        | .done (.raised _) => some ({ t with finalize := .done }, [])
        | .done (.returned text) =>
            if t.cancelled then
              some ({ t with finalize := .done }, [])
            else if isBlank text then
              some (t.answer sends (.error "NO_SPEECH" "no transcript produced" false))
            else
              match t.recognitionRequest text with
              | some request => some ({ t with finalize := .recognizing request }, [])
              | none => some ({ t with finalize := .done }, [])
        | _ => none
    | .recognizing _ =>
        match reply with
        | .ok => some (t.answer sends .result)
        | .keyError message => some (t.answer sends (.error "UNKNOWN_SCENE" message false))
        | .valueError message => some (t.answer sends (.error "INVALID_REQUEST" message false))
        | .failed => some ({ t with finalize := .done }, [])
    | .done => none

/-- What `_cancel_turn` does first: mark the context and queue the sentinel. -/
def markCancelled (t : Turn vad asr) : Turn vad asr :=
  { t with cancelled := true, queue := t.queue ++ [none] }

/-- `ctx.task.cancel()`: a pump that waits for an unfinished task cancels that one. -/
def cancelPump (t : Turn vad asr) : Turn vad asr :=
  match t.pump with
  | .done _ => t
  | .joiningFan _ =>
      if t.fan = .running then { t with fanCancel := true } else { t with pumpCancel := true }
  | .joiningEvents _ =>
      if t.eventsRunning then { t with eventsCancel := true } else { t with pumpCancel := true }
  | _ => { t with pumpCancel := true }

/-- `self._finalize.cancel()`. -/
def cancelFinalize (t : Turn vad asr) : Turn vad asr :=
  match t.finalize with
  | .done => t
  | .awaitingPump => if t.pumpDone then { t with finalizeCancel := true } else t.cancelPump
  | _ => { t with finalizeCancel := true }

/-- A step of one of the turn's tasks. -/
inductive TaskStep (t : Turn vad asr) : Turn vad asr → Prop
  | fan {t' : Turn vad asr} (h : t.stepFan = some t') : TaskStep t t'
  | events {r : Turn vad asr × List ServerFrame} (sends : Bool)
      (h : t.stepEvents (t.takes sends) = some r) : TaskStep t r.1
  | pump {r : Turn vad asr × List ServerFrame} (sends : Bool)
      (h : t.stepPump (t.takes sends) = some r) : TaskStep t r.1
  | finalize {r : Turn vad asr × List ServerFrame} (reply : OrchestratorAnswer) (sends : Bool)
      (h : t.stepFinalize reply (t.takes sends) = some r) : TaskStep t r.1

section Moves

variable {t t' : Turn vad asr} {sends : Bool} {r : Turn vad asr × List ServerFrame}

/-- What a step of `fan_out` can do. -/
theorem stepFan_cases (h : t.stepFan = some t') :
    t.fan = .running ∧
      ((t.fanCancel = true ∧ t' = { t with fan := .done }) ∨
        ∃ item queue, t.fanCancel = false ∧ t.queue = item :: queue ∧
          t' = { t with
            queue := queue
            eventsQ := t.eventsQ ++ [item]
            segmentsQ := t.segmentsQ ++ [item]
            fan := if item = none then .done else .running }) := by
  simp only [stepFan] at h
  split at h
  case h_2 => cases h
  case h_1 hfan =>
    refine ⟨hfan, ?_⟩
    split_ifs at h with hcancel
    · cases h
      exact Or.inl ⟨hcancel, rfl⟩
    · split at h
      case h_1 => cases h
      case h_2 item queue hqueue =>
        cases h
        exact Or.inr ⟨item, queue, by simpa using hcancel, hqueue, rfl⟩

/-- The moves of `forward_events`: it ends, its generator yields, or asks for the
next item, which is the end of the source or the head of the queue. -/
inductive EventsMove (t : Turn vad asr) : Turn vad asr → Prop
  | finish {state : vad.events.State} {ended : Bool} (hevents : t.events = .running state ended) :
      EventsMove t { t with events := .done }
  | emit {state state' : vad.events.State} {ended : Bool} {ev : SegmentEvent}
      (hevents : t.events = .running state ended)
      (hnext : vad.events.next state = .emit ev state') :
      EventsMove t { t with events := .running state' ended }
  | past {state : vad.events.State} {resume : Option Pcm → vad.events.State}
      (hevents : t.events = .running state true) (hnext : vad.events.next state = .pull resume) :
      EventsMove t { t with events := .running (resume none) true }
  | take {state : vad.events.State} {resume : Option Pcm → vad.events.State} {item : Option Pcm}
      {queue : List (Option Pcm)} (hevents : t.events = .running state false)
      (hnext : vad.events.next state = .pull resume) (hqueue : t.eventsQ = item :: queue) :
      EventsMove t { t with eventsQ := queue, events := .running (resume item) item.isNone }

/-- Every step of `forward_events` is one of the moves. -/
theorem eventsMove_of_stepEvents (h : t.stepEvents sends = some r) : EventsMove t r.1 := by
  simp only [stepEvents] at h
  split at h
  case h_2 => cases h
  case h_1 state ended hevents =>
    split at h
    · cases h
      exact .finish hevents
    · split at h
      case h_1 ev state' hnext =>
        split_ifs at h with hcancelled hsends
        · cases h
          exact .finish hevents
        · cases h
          exact .emit hevents hnext
        · cases h
          exact .finish hevents
      case h_2 resume hnext =>
        split_ifs at h with hended
        · cases h
          exact .past (hended ▸ hevents) hnext
        · split at h
          case h_1 => cases h
          case h_2 item queue hqueue =>
            cases h
            have hopen : ended = false := by simpa using hended
            exact .take (hopen ▸ hevents) hnext hqueue
      case h_3 hnext =>
        cases h
        exact .finish hevents
      case h_4 message hnext =>
        cases h
        exact .finish hevents

/-- The finalizer touches nothing but itself. -/
theorem stepFinalize_cases {reply : OrchestratorAnswer}
    (h : t.stepFinalize reply sends = some r) :
    ∃ finalize finalizeCancel,
      r.1 = { t with finalize := finalize, finalizeCancel := finalizeCancel } := by
  have hkeep : ∀ {finalize : Finalize} {frames : List ServerFrame},
      some ({ t with finalize := finalize }, frames) = some r →
        ∃ finalize finalizeCancel,
          r.1 = { t with finalize := finalize, finalizeCancel := finalizeCancel } := by
    intro finalize frames h
    cases h
    exact ⟨finalize, t.finalizeCancel, rfl⟩
  simp only [stepFinalize, answer] at h
  split at h
  · split at h
    · cases h
    · cases h
      exact ⟨_, _, rfl⟩
  · split at h
    case h_1 => exact hkeep h
    case h_2 =>
      split at h
      case h_1 => exact hkeep h
      case h_2 text hpump =>
        split at h
        · exact hkeep h
        · split at h
          · exact hkeep h
          · split at h
            · exact hkeep h
            · exact hkeep h
      case h_3 => cases h
    case h_3 => cases reply <;> exact hkeep h
    case h_4 => cases h

/-- The moves of the pump. -/
inductive PumpMove (t : Turn vad asr) : Turn vad asr → Prop
  | abort (hpump : t.pump = .created) (hcancel : t.pumpCancel = true) :
      PumpMove t { t with pump := .done (.raised .cancelled), pumpCancel := false }
  | fork (hpump : t.pump = .created) :
      PumpMove t
        { t with
          fan := .running
          events := .running vad.events.start false
          pump := .segmenting vad.segments.start false }
  | read {state state' : vad.segments.State} {ended ended' : Bool} {queue : List (Option Pcm)}
      (hpump : t.pump = .segmenting state ended) :
      PumpMove t { t with segmentsQ := queue, pump := .segmenting state' ended' }
  | leave {state : vad.segments.State} {ended : Bool} {outcome : SegmentOutcome}
      (hpump : t.pump = .segmenting state ended) :
      PumpMove t { t with pump := .joiningFan outcome, pumpCancel := false }
  | joinFan {outcome : SegmentOutcome} (hpump : t.pump = .joiningFan outcome)
      (hfan : t.fan = .done ∨ t.pumpCancel = true) :
      PumpMove t { t with pump := .joiningEvents outcome, pumpCancel := false }
  | joinEvents {outcome : SegmentOutcome} (hpump : t.pump = .joiningEvents outcome)
      (hevents : t.eventsRunning = false ∨ t.pumpCancel = true) :
      PumpMove t { t with pump := t.afterJoin outcome, pumpCancel := false }
  | transcribe {seg : SegmentResult} {state state' : asr.State} {chunks chunks' : List AudioChunk}
      {text text' : String} (hpump : t.pump = .recognizing seg state chunks text) :
      PumpMove t { t with pump := .recognizing seg state' chunks' text' }
  | finish {seg : SegmentResult} {state : asr.State} {chunks : List AudioChunk}
      {text : String} {result : PumpResult} {cancelled pumpCancel : Bool}
      (hpump : t.pump = .recognizing seg state chunks text)
      (hcancelled : t.cancelled = true → cancelled = true)
      (hcancel : t.pumpCancel = false → pumpCancel = false) :
      PumpMove t
        { t with pump := .done result, cancelled := cancelled, pumpCancel := pumpCancel }

theorem pumpMove_of_stepAsr {seg : SegmentResult} {state : asr.State} {chunks : List AudioChunk}
    {text : String} (hpump : t.pump = .recognizing seg state chunks text) :
    PumpMove t (t.stepAsr sends seg state chunks text).1 := by
  simp only [stepAsr]
  split
  case h_1 p state' hnext =>
    split_ifs
    · exact .finish hpump id id
    · exact .transcribe hpump
    · exact .transcribe hpump
    · exact .finish hpump id id
  case h_2 resume hnext =>
    split
    · exact .transcribe hpump
    · exact .transcribe hpump
  case h_3 hnext => exact .finish hpump id id
  case h_4 message hnext =>
    split_ifs
    · exact .finish hpump id id
    · exact .finish hpump (fun _ => rfl) id
    · exact .finish hpump id id

theorem afterJoin_ne_created (outcome : SegmentOutcome) : t.afterJoin outcome ≠ .created := by
  cases outcome with
  | raised f => simp [afterJoin]
  | segment seg =>
      cases seg with
      | none => simp [afterJoin]
      | some seg =>
          simp only [afterJoin]
          split_ifs <;> simp

/-- Every step of the pump is one of the moves. -/
theorem pumpMove_of_stepPump (h : t.stepPump sends = some r) : PumpMove t r.1 := by
  simp only [stepPump] at h
  split at h
  case h_1 hpump =>
    split_ifs at h with hcancel
    · cases h
      exact .abort hpump hcancel
    · cases h
      exact .fork hpump
  case h_2 state ended hpump =>
    split at h
    · cases h
      exact .leave hpump
    · rename_i hcancel
      have hleave (outcome : SegmentOutcome) :
          PumpMove t { t with pump := .joiningFan outcome } := by
        have hmove : PumpMove t { t with pump := .joiningFan outcome, pumpCancel := false } :=
          .leave hpump
        simpa [show t.pumpCancel = false by simpa using hcancel] using hmove
      split at h
      · cases h
        exact hleave _
      · split at h
        · cases h
          exact .read hpump
        · split at h
          · cases h
          · cases h
            exact .read hpump
      · cases h
        exact hleave _
      · cases h
        exact hleave _
  case h_3 outcome hpump =>
    split_ifs at h with hfan
    cases h
    exact .joinFan hpump hfan
  case h_4 outcome hpump =>
    split_ifs at h with hevents
    cases h
    exact .joinEvents hpump (by simpa using hevents)
  case h_5 seg state chunks text hpump =>
    split_ifs at h
    · cases h
      exact .finish hpump id (fun _ => rfl)
    · cases h
      exact pumpMove_of_stepAsr hpump
  case h_6 => cases h

/-- Tasks never take a cancellation back. -/
theorem TaskStep.cancelled (h : TaskStep t t') (hcancelled : t.cancelled = true) :
    t'.cancelled = true := by
  cases h with
  | fan h =>
      obtain ⟨-, ⟨-, rfl⟩ | ⟨_, _, -, -, rfl⟩⟩ := stepFan_cases h
      · exact hcancelled
      · exact hcancelled
  | @events r sends h =>
      have hmove := eventsMove_of_stepEvents h
      generalize r.1 = t' at hmove ⊢
      cases hmove <;> exact hcancelled
  | @pump r sends h =>
      have hmove := pumpMove_of_stepPump h
      generalize r.1 = t' at hmove ⊢
      cases hmove with
      | finish hpump hkeep hcancel => exact hkeep hcancelled
      | _ => exact hcancelled
  | finalize reply sends h =>
      obtain ⟨_, _, hr⟩ := stepFinalize_cases h
      rw [hr]
      exact hcancelled

@[simp] theorem cancelled_cancelPump : t.cancelPump.cancelled = t.cancelled := by
  simp only [cancelPump]
  split
  · rfl
  · split_ifs <;> rfl
  · split_ifs <;> rfl
  · rfl

@[simp] theorem cancelled_cancelFinalize : t.cancelFinalize.cancelled = t.cancelled := by
  simp only [cancelFinalize]
  split
  · rfl
  · split_ifs
    · rfl
    · exact cancelled_cancelPump
  · rfl

/-- At `await fan_task` the pump only moves on once that is over. -/
theorem PumpMove.of_joiningFan {outcome : SegmentOutcome} (h : PumpMove t t')
    (hpump : t.pump = .joiningFan outcome) :
    (t.fan = .done ∨ t.pumpCancel = true) ∧
      t' = { t with pump := .joiningEvents outcome, pumpCancel := false } := by
  cases h with
  | abort hpump' _ => simp [hpump] at hpump'
  | fork hpump' => simp [hpump] at hpump'
  | read hpump' => simp [hpump] at hpump'
  | leave hpump' => simp [hpump] at hpump'
  | joinFan hpump' hfan =>
      rw [hpump] at hpump'
      cases hpump'
      exact ⟨hfan, rfl⟩
  | joinEvents hpump' _ => simp [hpump] at hpump'
  | transcribe hpump' => simp [hpump] at hpump'
  | finish hpump' _ _ => simp [hpump] at hpump'

end Moves

end Turn

end Api
end Sandroid
