import Sandroid.Lib.Runs
import Sandroid.Mrcp.DatagramSkipping
import Sandroid.Mrcp.EventStream
import Sandroid.Mrcp.MalformedRequests
import Sandroid.Mrcp.NlsmlText

/-!
# A recognition turn between the client simulator and the server

`handle_connection` of `adapters/mrcp/server.py` as the steps of one connection, and
`recognize_once` of `adapters/mrcp/client_sim.py` at the other end of it.

The control channel is two streams of bytes that arrive in pieces.  The RTP socket gets
datagrams of the client, each any number of times and in any order; what arrives while no
socket is bound, or after `drain_rtp` has ended, is lost.  `drain_rtp`, the reading of the
sentinel, the timeout of `wait_for` and the ASR stream take their steps in any order.

Beside what the source keeps, a turn records its messages and the datagrams that
`drain_rtp` has received.
-/

namespace Sandroid
namespace Mrcp

open Lib Api Sandroid.Core

inductive MrcpMessage where
  | response (resp : MrcpResponse)
  | event (ev : MrcpEvent)
deriving DecidableEq

/-- The bytes of a message; three passes are enough for its length. -/
def MrcpMessage.serialize : MrcpMessage → Except MrcpError Bytes
  | .response resp => serializeResponse 3 resp
  | .event ev => serializeEvent 3 ev

/-- "Method Not Allowed" -/
def notAllowed (requestId : Int) : MrcpMessage :=
  .response ⟨405, requestId, "COMPLETE", Dict.empty, []⟩

def inProgress (requestId : Int) : MrcpMessage :=
  .response ⟨200, requestId, "IN-PROGRESS", Dict.empty, []⟩

def startOfInput (requestId : Int) : MrcpMessage :=
  .event ⟨"START-OF-INPUT", requestId, "IN-PROGRESS", Dict.empty, []⟩

/-- The event of `_emit_complete`. -/
def recognitionComplete (requestId : Int) (text : String) (confidence : ℚ) : MrcpMessage :=
  .event
    { eventName := "RECOGNITION-COMPLETE"
      requestId := requestId
      requestState := "COMPLETE"
      headers := (Dict.empty.set "Completion-Cause"
          (if text = "" then "001 no-input-timeout" else "000 success")).set
        "Content-Type" "application/nlsml+xml"
      body := nlsmlTranscript text confidence }

/-- What has become of `sentinel_task`. -/
inductive SentinelTask where
  | pending
  | byte (b : UInt8)
  /-- `IncompleteReadError`, or the error of the connection -/
  | raised
deriving DecidableEq

/-- Where `handle_connection` stands. -/
inductive TurnPhase (asr : Asr) where
  /-- in `_read_request` -/
  | reading
  /-- 200 has been sent, and the RTP socket is not bound -/
  | acknowledged
  /-- in `_collect_rtp_until_sentinel`; `draining` as long as `drain_rtp` waits for more -/
  | collecting (jitter : JitterBuffer) (pcm : Bytes) (draining : Bool) (sentinel : SentinelTask)
  /-- in `_run_asr`: the stream, the chunks it has not taken, and its last final -/
  | recognizing (state : asr.State) (chunks : List AudioChunk)
      (final : Option PartialTranscript)
  /-- after `writer.close()` -/
  | closed
  /-- the handler has raised -/
  | raised

structure RecognizeTurn (asr : Asr) where
  /-- what has arrived on the control channel and has not been read -/
  stream : Bytes := []
  eof : Bool := false
  /-- the connection has been lost -/
  broken : Bool := false
  phase : TurnPhase asr := .reading
  requestId : Int := 0
  sent : List MrcpMessage := []
  /-- what has been written to the control channel -/
  written : Bytes := []
  heard : List Bytes := []

inductive TurnLabel where
  | arrive (data : Bytes)
  | hangUp
  | breakDown
  | datagram (data : Bytes)
  | readRequest
  /-- the port of the RTP socket may be taken -/
  | bindSocket (binds : Bool)
  /-- `sentinel_task` completes -/
  | sentinel
  /-- `asyncio.wait` returns -/
  | resume
  | timeout
  /-- the ASR stream takes a step -/
  | asr
deriving DecidableEq

/-- The chunks of `_run_asr`: 200 ms each. -/
def sliceChunks (pcm16 : Bytes) : List AudioChunk :=
  let sliceBytes := 16000 / 5 * 2
  (List.range ((pcm16.length + sliceBytes - 1) / sliceBytes)).map fun seq =>
    { pcm16 := (pcm16.drop (seq * sliceBytes)).take sliceBytes, sequence := seq }

/-- `final`, after one more item. -/
def keepFinal (final : Option PartialTranscript) (p : PartialTranscript) :
    Option PartialTranscript :=
  if p.isFinal then some p else final

/-- What `_run_asr` returns. -/
def asrResult : Option PartialTranscript → String × ℚ
  | none => ("", 0)
  | some final => (final.text, 1)

namespace RecognizeTurn

variable {asr : Asr}

/-- `_send`, and where the handler goes on. -/
def send (t : RecognizeTurn asr) (message : MrcpMessage) (next : TurnPhase asr) :
    RecognizeTurn asr :=
  match message.serialize with
  | .error _ => { t with phase := .raised }
  | .ok payload =>
      if t.broken then
        { t with phase := .raised }
      else
        { t with
          sent := t.sent ++ [message]
          written := t.written ++ payload
          phase := next }

/-- After `_read_request`. -/
def accept (t : RecognizeTurn asr) (request : MrcpRequest) : RecognizeTurn asr :=
  let t := { t with requestId := request.requestId }
  if request.method ≠ "RECOGNIZE" then
    t.send (notAllowed request.requestId) .closed
  else
    t.send (inProgress request.requestId) .acknowledged

/-- After the audio has been collected. -/
def collected (t : RecognizeTurn asr) (pcm : Bytes) : RecognizeTurn asr :=
  if pcm = [] then
    t.send (recognitionComplete t.requestId "" 0) .closed
  else
    t.send (startOfInput t.requestId) (.recognizing asr.start (sliceChunks pcm) none)

/-- `_read_request`, as soon as it need not wait. -/
def read (t : RecognizeTurn asr) : Option (RecognizeTurn asr) :=
  if t.broken then
    some { t with phase := .closed }
  else
    match Mrcp.readRequest t.stream with
    | .ok (request, rest) => some (accept { t with stream := rest } request)
    | .error e =>
        if e = .incompleteRead ∧ t.eof = false then
          none
        else
          some { t with phase := if e.caught then .closed else .raised }

/-- `reader.readexactly(1)`, as soon as it need not wait. -/
def readSentinel (t : RecognizeTurn asr) : Option (SentinelTask × Bytes) :=
  if t.broken then
    some (.raised, t.stream)
  else
    match t.stream with
    | b :: rest => some (.byte b, rest)
    | [] => if t.eof then some (.raised, []) else none

/-- The end of `_collect_rtp_until_sentinel`. -/
def finishCollecting (t : RecognizeTurn asr) (jitter : JitterBuffer) (pcm : Bytes) :
    SentinelTask → RecognizeTurn asr
  | .pending => t.collected pcm
  | .raised => { t with phase := .raised }
  | .byte _ =>
      match extendPcm pcm jitter.flush.1 with
      | (pcm, true) => t.collected pcm
      | (_, false) => { t with phase := .raised }

/-- A step of `_run_asr`. -/
def stepAsr (t : RecognizeTurn asr) (state : asr.State) (chunks : List AudioChunk)
    (final : Option PartialTranscript) : RecognizeTurn asr :=
  match asr.next state with
  | .emit p state => { t with phase := .recognizing state chunks (keepFinal final p) }
  | .pull resume =>
      { t with phase := .recognizing (resume chunks.head?) chunks.tail final }
  | .stop =>
      t.send (recognitionComplete t.requestId (asrResult final).1 (asrResult final).2) .closed
  | .fail _ => { t with phase := .raised }

def step (t : RecognizeTurn asr) : TurnLabel → Option (RecognizeTurn asr)
  | .arrive data => if t.eof then none else some { t with stream := t.stream ++ data }
  | .hangUp => some { t with eof := true }
  | .breakDown => some { t with broken := true }
  | .datagram data =>
      match t.phase with
      | .collecting jitter pcm true sentinel =>
          let (jitter, pcm, draining) := drainRtp jitter pcm [data]
          some { t with
            phase := .collecting jitter pcm draining sentinel
            heard := t.heard ++ [data] }
      | _ => some t
  | .readRequest =>
      match t.phase with
      | .reading => t.read
      | _ => none
  | .bindSocket binds =>
      match t.phase with
      | .acknowledged =>
          some { t with
            phase := if binds then .collecting { capacity := 8 } [] true .pending else .raised }
      | _ => none
  | .sentinel =>
      match t.phase with
      | .collecting jitter pcm draining .pending =>
          t.readSentinel.map fun (sentinel, rest) =>
            { t with phase := .collecting jitter pcm draining sentinel, stream := rest }
      | _ => none
  | .resume =>
      match t.phase with
      | .collecting jitter pcm draining sentinel =>
          if draining ∧ sentinel = .pending then none
          else some (t.finishCollecting jitter pcm sentinel)
      | _ => none
  | .timeout =>
      match t.phase with
      | .collecting _ _ _ _ => some (t.collected [])
      | _ => none
  | .asr =>
      match t.phase with
      | .recognizing state chunks final => some (t.stepAsr state chunks final)
      | _ => none

def run (t : RecognizeTurn asr) (labels : List TurnLabel) : Option (RecognizeTurn asr) :=
  runSteps step t labels

/-- The steps of a turn, each with where it is taken. -/
inductive Moves (t : RecognizeTurn asr) : TurnLabel → RecognizeTurn asr → Prop
  | arrive (data : Bytes) : Moves t (.arrive data) { t with stream := t.stream ++ data }
  | hangUp : Moves t .hangUp { t with eof := true }
  | breakDown : Moves t .breakDown { t with broken := true }
  | lost (data : Bytes) : Moves t (.datagram data) t
  | hear {jitter : JitterBuffer} {pcm : Bytes} {sentinel : SentinelTask}
      (hphase : t.phase = .collecting jitter pcm true sentinel) (data : Bytes) :
      Moves t (.datagram data)
        { t with
          phase := .collecting (drainRtp jitter pcm [data]).1 (drainRtp jitter pcm [data]).2.1
            (drainRtp jitter pcm [data]).2.2 sentinel
          heard := t.heard ++ [data] }
  | turnDown (hphase : t.phase = .reading) : Moves t .readRequest { t with phase := .closed }
  | failRead (hphase : t.phase = .reading) : Moves t .readRequest { t with phase := .raised }
  | accept (hphase : t.phase = .reading) {request : MrcpRequest} {rest : Bytes}
      (hread : Mrcp.readRequest t.stream = .ok (request, rest)) :
      Moves t .readRequest (accept { t with stream := rest } request)
  | bindSocket (hphase : t.phase = .acknowledged) :
      Moves t (.bindSocket true)
        { t with phase := .collecting { capacity := 8 } [] true .pending }
  | failBind (hphase : t.phase = .acknowledged) :
      Moves t (.bindSocket false) { t with phase := .raised }
  | sentinel {jitter : JitterBuffer} {pcm : Bytes} {draining : Bool}
      (hphase : t.phase = .collecting jitter pcm draining .pending) (sentinel : SentinelTask)
      (rest : Bytes) :
      Moves t .sentinel
        { t with phase := .collecting jitter pcm draining sentinel, stream := rest }
  | resume {jitter : JitterBuffer} {pcm : Bytes} {draining : Bool} {sentinel : SentinelTask}
      (hphase : t.phase = .collecting jitter pcm draining sentinel)
      (hdone : ¬ (draining = true ∧ sentinel = .pending)) :
      Moves t .resume (t.finishCollecting jitter pcm sentinel)
  | timeout {jitter : JitterBuffer} {pcm : Bytes} {draining : Bool} {sentinel : SentinelTask}
      (hphase : t.phase = .collecting jitter pcm draining sentinel) :
      Moves t .timeout (t.collected [])
  | asr {state : asr.State} {chunks : List AudioChunk} {final : Option PartialTranscript}
      (hphase : t.phase = .recognizing state chunks final) :
      Moves t .asr (t.stepAsr state chunks final)

theorem moves_of_step {t t' : RecognizeTurn asr} {label : TurnLabel}
    (hstep : t.step label = some t') : t.Moves label t' := by
  cases label with
  | arrive data =>
      simp only [step] at hstep
      split_ifs at hstep
      cases hstep
      exact .arrive data
  | hangUp =>
      cases hstep
      exact .hangUp
  | breakDown =>
      cases hstep
      exact .breakDown
  | datagram data =>
      simp only [step] at hstep
      split at hstep
      next hphase =>
        cases hstep
        exact .hear hphase data
      next =>
        cases hstep
        exact .lost data
  | readRequest =>
      simp only [step] at hstep
      split at hstep
      next hphase =>
        rw [RecognizeTurn.read] at hstep
        split_ifs at hstep
        · cases hstep
          exact .turnDown hphase
        · split at hstep
          next request rest hread =>
            cases hstep
            exact .accept hphase hread
          next =>
            split_ifs at hstep
            · cases hstep
              exact .turnDown hphase
            · cases hstep
              exact .failRead hphase
      next => cases hstep
  | bindSocket binds =>
      simp only [step] at hstep
      split at hstep
      next hphase =>
        cases hstep
        cases binds with
        | true => exact .bindSocket hphase
        | false => exact .failBind hphase
      next => cases hstep
  | sentinel =>
      simp only [step] at hstep
      split at hstep
      next hphase =>
        obtain ⟨⟨sentinel, rest⟩, -, rfl⟩ := Option.map_eq_some_iff.mp hstep
        exact .sentinel hphase sentinel rest
      next => cases hstep
  | resume =>
      simp only [step] at hstep
      split at hstep
      next hphase =>
        split_ifs at hstep with hpending
        cases hstep
        exact .resume hphase hpending
      next => cases hstep
  | timeout =>
      simp only [step] at hstep
      split at hstep
      next hphase =>
        cases hstep
        exact .timeout hphase
      next => cases hstep
  | asr =>
      simp only [step] at hstep
      split at hstep
      next hphase =>
        cases hstep
        exact .asr hphase
      next => cases hstep

end RecognizeTurn

end Mrcp
end Sandroid
