import Sandroid.Mrcp.BridgeReplies
import Sandroid.Mrcp.ResultAttribution

/-!
# A plugin channel with all of its requests

`native/unimrcp-plugin/src/sandroid_recog_engine.c` for one channel, from
OPEN_CHANNEL to CLOSE_CHANNEL: `sandroid_recog_msg_process` with the dispatch of every
request, the stream callback, and the result loader with the file it falls back to.

The engine opens a channel first, then passes requests and frames, and closes it last.  A
step that calls a sender of the bridge client ends when the sender has returned; while the
media thread is held up in `sbr_wait_result`, the task goes on with requests.

Beside what the source keeps, a channel records the messages sent, the calls of the senders,
the recognitions that the answer to a STOP has ended, and those whose end of speech the
detector has reported.
-/

namespace Sandroid
namespace Mrcp

open Lib

/-- `method_id` of a request, with what the handlers read of it. -/
inductive RecogMethod where
  | setParams
  | getParams
  | defineGrammar
  | recognize (request : RecognizeRequest)
  | getResult
  | startInputTimers
  | stop
  | other

inductive StatusCode where
  | success
  | methodFailed
deriving DecidableEq, Repr

inductive RequestState where
  | complete
  | inProgress
deriving DecidableEq, Repr

/-- RECOGNITION-COMPLETE; a body has the content type `application/x-nlsml`. -/
structure PluginCompletion where
  request : Nat
  cause : CompletionCause
  body : Option Bytes
deriving DecidableEq, Repr

/-- What the channel sends to the engine; requests by number. -/
inductive PluginMessage where
  | channelOpened
  | channelClosed
  | response (request : Nat) (status : StatusCode) (state : RequestState)
  | startOfInput (request : Nat)
  | recognitionComplete (completion : PluginCompletion)
deriving DecidableEq, Repr

/-- `sandroid_recog_channel_t`; `timers_started` has no value before the first RECOGNIZE or
START-INPUT-TIMERS. -/
structure PluginChannel where
  recogRequest : Option Nat := none
  stopResponse : Option Nat := none
  timersStarted : Option Bool := none
  bridge : Bool := false
  useCanned : Bool := false
  bridgeStarted : Bool := false
  bridgeEosSent : Bool := false
  /-- the request and the frame held up in `sbr_wait_result` -/
  waiting : Option (Nat × MediaFrame) := none
deriving DecidableEq, Repr

/-- What a handler has done: the channel, what the socket will answer next, the messages and
the calls of senders. -/
structure PluginOutcome where
  channel : PluginChannel
  socket : List SockAnswer
  messages : List PluginMessage := []
  calls : List CallRecord := []

/-- Call a sender: its code and its record, or `none` while it is still running. -/
def callSender (call : Call) (socket : List SockAnswer) : Option (Int × CallRecord) :=
  match (call.send socket).outcome with
  | .blocked => none
  | .ret rc => some (rc, ⟨call, call.send socket⟩)

namespace PluginChannel

/-- Close the bridge and fall back to the canned result. -/
def dropBridge (c : PluginChannel) : PluginChannel :=
  { c with bridge := false, useCanned := true }

/-- The frame of a START for this request. -/
def startCall (request : RecognizeRequest) (sampleRate : UInt32) : Call :=
  .start (some request.sessionId) (some request.sessionId) sampleRate (some RecogChannel.lpcm)

/-- The bridge is told to start before it gets audio. -/
def startBridge (c : PluginChannel) (socket : List SockAnswer) (call : Call) :
    Option PluginOutcome :=
  if c.bridge ∧ ¬ c.bridgeStarted then
    match callSender call socket with
    | none => none
    | some (rc, record) =>
        some
          { channel :=
              if rc = 0 then { c with bridgeStarted := true, bridgeEosSent := false }
              else c.dropBridge
            socket := record.result.rest
            calls := [record] }
  else
    some { channel := c, socket := socket }

/-- Process RECOGNIZE as request number `id`. -/
def recognize (c : PluginChannel) (socket : List SockAnswer) (id : Nat)
    (request : RecognizeRequest) : Option PluginOutcome :=
  match request.sampleRate with
  | none =>
      some
        { channel := c, socket := socket, messages := [.response id .methodFailed .complete] }
  | some sampleRate =>
      let c := { c with timersStarted := some (request.startInputTimers.getD true) }
      (c.startBridge socket (startCall request sampleRate)).map fun o =>
        { o with
          channel := { o.channel with recogRequest := some id }
          messages := [.response id .success .inProgress] }

/-- `sandroid_recog_channel_request_dispatch`; what is not handled is answered at once. -/
def dispatch (c : PluginChannel) (socket : List SockAnswer) (id : Nat) :
    RecogMethod → Option PluginOutcome
  | .recognize request => c.recognize socket id request
  | .startInputTimers =>
      some
        { channel := { c with timersStarted := some true }
          socket := socket
          messages := [.response id .success .complete] }
  | .stop => some { channel := { c with stopResponse := some id }, socket := socket }
  | _ => some { channel := c, socket := socket, messages := [.response id .success .complete] }

/-- The last part of the stream callback: forward the frame's audio. -/
def forwardAudio (c : PluginChannel) (socket : List SockAnswer) (frame : MediaFrame) :
    Option PluginOutcome :=
  match frame.audio with
  | none => some { channel := c, socket := socket }
  | some pcm =>
      if c.bridge ∧ c.bridgeStarted ∧ ¬ c.bridgeEosSent then
        match callSender (.audio pcm) socket with
        | none => none
        | some (rc, record) =>
            some
              { channel := if rc < 0 then c.dropBridge else c
                socket := record.result.rest
                calls := [record] }
      else
        some { channel := c, socket := socket }

/-- Go on with the last part of the callback after what has been done already. -/
def thenForward (o : PluginOutcome) (frame : MediaFrame) : Option PluginOutcome :=
  (o.channel.forwardAudio o.socket frame).map fun o' =>
    { o' with messages := o.messages ++ o'.messages, calls := o.calls ++ o'.calls }

/-- `sandroid_recog_recognition_complete`, its body given. -/
def complete (c : PluginChannel) (id : Nat) (cause : CompletionCause) (body : Option Bytes) :
    PluginChannel × PluginMessage :=
  ({ c with recogRequest := none }, .recognitionComplete ⟨id, cause, body⟩)

/-- End of speech is signalled to the bridge, once. -/
def signalEos (c : PluginChannel) (socket : List SockAnswer) : Option PluginOutcome :=
  if c.bridge ∧ c.bridgeStarted ∧ ¬ c.bridgeEosSent then
    match callSender .eos socket with
    | none => none
    | some (rc, record) =>
        some
          { channel := if rc = 0 then { c with bridgeEosSent := true } else c.dropBridge
            socket := record.result.rest
            calls := [record] }
  else
    some { channel := c, socket := socket }

/-- What `result.xml` gives: at most 1024 bytes of it, if there is such a file. -/
def cannedBody (resultXml : Option Bytes) : Option Bytes :=
  resultXml.map fun text => text.take 1024

/-- End of speech: EOS, then `sandroid_recog_result_load`. -/
def inactivity (resultXml : Option Bytes) (c : PluginChannel) (socket : List SockAnswer)
    (id : Nat) (frame : MediaFrame) : Option PluginOutcome :=
  match c.signalEos socket with
  | none => none
  | some o =>
      if o.channel.bridge ∧ o.channel.bridgeEosSent then
        some { o with channel := { o.channel with waiting := some (id, frame) } }
      else
        let r := o.channel.complete id .success (cannedBody resultXml)
        thenForward { o with channel := r.1, messages := [r.2] } frame

/-- `sandroid_recog_stream_write` on a frame with the detector's event, up to the wait for a
result. -/
def streamWrite (resultXml : Option Bytes) (c : PluginChannel) (socket : List SockAnswer)
    (frame : MediaFrame) (event : DetectorEvent) : Option PluginOutcome :=
  match c.stopResponse with
  | some stop =>
      some
        { channel := { c with stopResponse := none, recogRequest := none }
          socket := socket
          messages := [.response stop .success .complete] }
  | none =>
      match c.recogRequest with
      | none => some { channel := c, socket := socket }
      | some id =>
          match event with
          | .inactivity => c.inactivity resultXml socket id frame
          | .noinput =>
              if c.timersStarted = some true then
                let r := c.complete id .noInputTimeout none
                thenForward { channel := r.1, socket := socket, messages := [r.2] } frame
              else
                thenForward { channel := c, socket := socket } frame
          | .activity =>
              thenForward { channel := c, socket := socket, messages := [.startOfInput id] } frame
          | .none => thenForward { channel := c, socket := socket } frame

/-- The body once `sbr_wait_result` has returned `rc` and a document. -/
def loadedBody (resultXml : Option Bytes) (rc : Int) (nlsml : Option Bytes) : Option Bytes :=
  match nlsml with
  | some text => if rc = 0 ∧ 0 < text.length then some text else cannedBody resultXml
  | none => cannedBody resultXml

/-- The rest of the stream callback after the wait. -/
def resume (resultXml : Option Bytes) (c : PluginChannel) (socket : List SockAnswer) (rc : Int)
    (nlsml : Option Bytes) : Option PluginOutcome :=
  match c.waiting with
  | none => none
  | some (id, frame) =>
      let r := { c with waiting := none }.complete id .success (loadedBody resultXml rc nlsml)
      thenForward { channel := r.1, socket := socket, messages := [r.2] } frame

/-- CLOSE_CHANNEL: STOP, and the bridge is closed. -/
def closeBridge (c : PluginChannel) (socket : List SockAnswer) : Option PluginOutcome :=
  if c.bridge then
    match callSender .stop socket with
    | none => none
    | some (_, record) =>
        some
          { channel := { c with bridge := false }
            socket := record.result.rest
            messages := [.channelClosed]
            calls := [record] }
  else
    some { channel := c, socket := socket, messages := [.channelClosed] }

/-- OPEN_CHANNEL, with the outcome of `sbr_connect`. -/
def openBridge (c : PluginChannel) (connected : Bool) : PluginChannel :=
  if connected then { c with bridge := true } else { c with bridge := false, useCanned := true }

end PluginChannel

inductive ChannelPhase where
  | created
  | opened
  | closed
deriving DecidableEq, Repr

/-- A channel on its socket, with the records of the run. -/
structure Plugin where
  phase : ChannelPhase := .created
  channel : PluginChannel := {}
  /-- what the socket will answer -/
  socket : List SockAnswer
  /-- number of the next request -/
  nextRequest : Nat := 0
  sent : List PluginMessage := []
  calls : List CallRecord := []
  cancelled : List Nat := []
  speechEnded : List Nat := []

/-- Steps of the engine's task and of the media thread. -/
inductive PluginLabel where
  | openChannel (connected : Bool)
  | request (method : RecogMethod)
  | write (frame : MediaFrame) (event : DetectorEvent)
  /-- `sbr_wait_result` returns -/
  | waited (rc : Int) (nlsml : Option Bytes)
  | closeChannel

namespace Plugin

/-- A channel that has just been created. -/
def created (socket : List SockAnswer) : Plugin := { socket := socket }

/-- Put the outcome of a handler into effect. -/
def after (σ : Plugin) (o : PluginOutcome) : Plugin :=
  { σ with
    channel := o.channel
    socket := o.socket
    sent := σ.sent ++ o.messages
    calls := σ.calls ++ o.calls }

/-- The recognition that a frame ends because of a STOP. -/
def stopped (c : PluginChannel) : List Nat :=
  if c.stopResponse = none then [] else c.recogRequest.toList

/-- The recognition whose end of speech a frame reports. -/
def ended (c : PluginChannel) (event : DetectorEvent) : List Nat :=
  if c.stopResponse = none ∧ event = .inactivity then c.recogRequest.toList else []

def step (resultXml : Option Bytes) (σ : Plugin) : PluginLabel → Option Plugin
  | .openChannel connected =>
      if σ.phase = .created then
        some { σ with
          phase := .opened
          channel := σ.channel.openBridge connected
          sent := σ.sent ++ [.channelOpened] }
      else
        none
  | .request method =>
      if σ.phase = .opened then
        (σ.channel.dispatch σ.socket σ.nextRequest method).map fun o =>
          { σ.after o with nextRequest := σ.nextRequest + 1 }
      else
        none
  | .write frame event =>
      if σ.phase = .opened ∧ σ.channel.waiting = none then
        (σ.channel.streamWrite resultXml σ.socket frame event).map fun o =>
          { σ.after o with
            cancelled := σ.cancelled ++ stopped σ.channel
            speechEnded := σ.speechEnded ++ ended σ.channel event }
      else
        none
  | .waited rc nlsml =>
      if σ.phase = .opened then
        (σ.channel.resume resultXml σ.socket rc nlsml).map σ.after
      else
        none
  | .closeChannel =>
      -- the stream has been closed: no frame is being written
      if σ.phase = .opened ∧ σ.channel.waiting = none then
        (σ.channel.closeBridge σ.socket).map fun o => { σ.after o with phase := .closed }
      else
        none

/-- Run a list of steps. -/
def run (resultXml : Option Bytes) (σ : Plugin) (labels : List PluginLabel) : Option Plugin :=
  runSteps (step resultXml) σ labels

end Plugin

end Mrcp
end Sandroid
