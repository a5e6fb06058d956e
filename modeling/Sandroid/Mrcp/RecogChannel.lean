import Sandroid.Mrcp.BridgeClient
import Sandroid.Mrcp.BridgeServer

/-!
# A recognizer channel of the plugin

The request handlers, the stream callback and the result loader of
`native/unimrcp-plugin/src/sandroid_recog_engine.c` for one channel.  Requests
are processed by the engine's task, frames by the media thread; the media thread
is held up inside `sbr_wait_result` while the task goes on, so `waiting` is a
state of the channel.

The bridge is up and its socket takes every frame: a sender fails only where it
refuses its arguments.  `plugin_simulated` is about the channel with its failures.
-/

namespace Sandroid
namespace Mrcp

/-- Events of the activity detector. -/
inductive DetectorEvent where
  | none
  | activity
  | inactivity
  | noinput
deriving DecidableEq, Repr

/-- A frame of the media stream; `audio` is `none` unless its type has the audio
flag. -/
structure MediaFrame where
  audio : Option Bytes
deriving DecidableEq, Repr

/-- Why a recognition completed. -/
inductive CompletionCause where
  | success
  | noInputTimeout
deriving DecidableEq, Repr

/-- The body of a RECOGNITION-COMPLETE event. -/
inductive CompletionBody where
  | empty
  /-- the text of `result.xml` -/
  | canned
  | bridge (r : ResultFrame)
deriving DecidableEq, Repr

/-- RECOGNITION-COMPLETE for a request. -/
structure Completion where
  request : Nat
  cause : CompletionCause
  body : CompletionBody
deriving DecidableEq, Repr

/-- `sandroid_recog_channel_t`, with requests by number. -/
structure RecogChannel where
  recogRequest : Option Nat := none
  stopResponse : Bool := false
  timersStarted : Bool := false
  bridge : Bool := true
  useCanned : Bool := false
  bridgeStarted : Bool := false
  bridgeEosSent : Bool := false
  /-- the request and the frame held up in `sbr_wait_result` -/
  waiting : Option (Nat × MediaFrame) := none
deriving DecidableEq, Repr

/-- What a RECOGNIZE request brings along. -/
structure RecognizeRequest where
  sessionId : CString
  /-- the codec descriptor's sampling rate, if there is a descriptor -/
  sampleRate : Option UInt32
  startInputTimers : Option Bool := none

namespace RecogChannel

/-- Give the bridge up for the canned result. -/
def dropBridge (c : RecogChannel) : RecogChannel :=
  { c with bridge := false, useCanned := true }

def lpcm : CString := ⟨ascii "LPCM", by decide⟩

/-- Process RECOGNIZE as request number `id`. -/
def recognize (c : RecogChannel) (id : Nat) (request : RecognizeRequest) :
    RecogChannel × List ToBridge :=
  match request.sampleRate with
  | none => (c, [])
  | some sampleRate =>
      let c := { c with timersStarted := request.startInputTimers.getD true }
      if c.bridge ∧ ¬ c.bridgeStarted then
        match encodeStart (some request.sessionId) (some request.sessionId) sampleRate
            (some lpcm) with
        | some _ =>
            ({ c with
                bridgeStarted := true
                bridgeEosSent := false
                recogRequest := some id },
              [.start request.sessionId.val request.sessionId.val sampleRate.toNat lpcm.val])
        | none => ({ c.dropBridge with recogRequest := some id }, [])
      else
        ({ c with recogRequest := some id }, [])

/-- Process STOP: the answer waits for the next frame. -/
def stop (c : RecogChannel) : RecogChannel :=
  { c with stopResponse := true }

/-- Process START-INPUT-TIMERS. -/
def timersStart (c : RecogChannel) : RecogChannel :=
  { c with timersStarted := true }

/-- The last part of the stream callback: forward the frame's audio. -/
def forwardAudio (c : RecogChannel) (frame : MediaFrame) : RecogChannel × List ToBridge :=
  match frame.audio with
  | none => (c, [])
  | some pcm =>
      if c.bridge ∧ c.bridgeStarted ∧ ¬ c.bridgeEosSent then
        if pcm.length = 0 then
          (c, [])
        else if pcm.length > maxFrameSize - 1 then
          (c.dropBridge, [])
        else
          (c, [.audio pcm])
      else
        (c, [])

/-- `sandroid_recog_recognition_complete` for the active request, its body given. -/
def complete (c : RecogChannel) (id : Nat) (cause : CompletionCause) (body : CompletionBody) :
    RecogChannel × Completion :=
  ({ c with recogRequest := none }, { request := id, cause := cause, body := body })

/-- What one run of the stream callback did: the channel, the frames sent and the
event raised. -/
structure WriteOutcome where
  channel : RecogChannel
  sent : List ToBridge := []
  completion : Option Completion := none

/-- End of speech: EOS once, then `sandroid_recog_result_load`. -/
def inactivity (c : RecogChannel) (id : Nat) (frame : MediaFrame) : WriteOutcome :=
  let sendsEos := c.bridge ∧ c.bridgeStarted ∧ ¬ c.bridgeEosSent
  let sent := if sendsEos then [.eos] else []
  let c := if sendsEos then { c with bridgeEosSent := true } else c
  if c.bridge ∧ c.bridgeEosSent then
    { channel := { c with waiting := some (id, frame) }, sent := sent }
  else
    let r := c.complete id .success .canned
    let f := r.1.forwardAudio frame
    { channel := f.1, sent := sent ++ f.2, completion := some r.2 }

/-- `sandroid_recog_stream_write` on a frame with the detector's event, up to the
wait for a result. -/
def streamWrite (c : RecogChannel) (frame : MediaFrame) (event : DetectorEvent) :
    WriteOutcome :=
  if c.stopResponse then
    { channel := { c with stopResponse := false, recogRequest := none } }
  else
    match c.recogRequest with
    | none => { channel := c }
    | some id =>
        match event with
        | .inactivity => c.inactivity id frame
        | .noinput =>
            if c.timersStarted then
              let r := c.complete id .noInputTimeout .empty
              let f := r.1.forwardAudio frame
              { channel := f.1, sent := f.2, completion := some r.2 }
            else
              let f := c.forwardAudio frame
              { channel := f.1, sent := f.2 }
        | .activity =>
            let f := c.forwardAudio frame
            { channel := f.1, sent := f.2 }
        | .none =>
            let f := c.forwardAudio frame
            { channel := f.1, sent := f.2 }

/-- The rest of the stream callback once `sbr_wait_result` has returned: with a
reply, or with `none` on a timeout. -/
def resume (c : RecogChannel) (reply : Option Reply) : WriteOutcome :=
  match c.waiting with
  | none => { channel := c }
  | some (id, frame) =>
      let body := match reply with
        | some (.result r) =>
            if 0 < r.nlsml.length ∧ r.nlsml.length ≤ maxFrameSize then .bridge r else .canned
        | _ => .canned
      let r := { c with waiting := none }.complete id .success body
      let f := r.1.forwardAudio frame
      { channel := f.1, sent := f.2, completion := some r.2 }

end RecogChannel

end Mrcp
end Sandroid
