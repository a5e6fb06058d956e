import Sandroid.Mrcp.BridgeFrames

/-!
# The bridge's connection handler

`BridgeServer._handle` of `adapters/mrcp/bridge.py` for one connection, with its
frames already decoded.  The handler takes one frame at a time; `_handle_eos`
suspends it until the ASR task of the latest START has ended.  Every START makes
a task of its own, and all tasks read the one `audio_queue`.

The ASR backend and the orchestrator behind `_match_intent` are parameters.  A
result keeps what it was computed from beside its NLSML text.  `connection_simulated`
is about the handler on bytes.
-/

namespace Sandroid
namespace Mrcp

/-- Frames on the way to the bridge. -/
inductive ToBridge where
  | start (channelId sessionId : Bytes) (sampleRate : Nat) (codec : Bytes)
  | audio (pcm : Bytes)
  | eos
  | stop
deriving DecidableEq, Repr

/-- A RESULT frame: the chunks the ASR stream received, the audio handed to the
orchestrator for Path B, and the NLSML document. -/
structure ResultFrame where
  chunks : List Bytes
  pathB : Option Bytes
  nlsml : Bytes
deriving DecidableEq, Repr

/-- Frames on the way back to the plugin. -/
inductive Reply where
  | result (r : ResultFrame)
  | error (code message : String)
deriving DecidableEq, Repr

/-- What the handler calls out to. -/
structure BridgeBackend where
  /-- the final text of an ASR stream over the chunks, or the exception's text -/
  asr : List Bytes → Except String String
  /-- `_match_intent` and `render_nlsml`: transcript, Path B audio, session id -/
  nlsml : String → Option Bytes → Bytes → Bytes
  /-- `_resolve_max_audio_bytes()` -/
  maxAudioBytes : Nat

/-- `_Channel`. -/
structure BridgeChannel where
  channelId : Bytes := []
  sessionId : Bytes := []
  sampleRate : Nat := 16000
  codec : Bytes := [0x4c, 0x50, 0x43, 0x4d]
  started : Bool := false
  eosSeen : Bool := false
  audioQueue : List (Option Bytes) := []
  audioAccum : Bytes := []
  audioOverflow : Bool := false
  maxAudioBytes : Nat := 0
deriving DecidableEq, Repr

/-- `_run_asr`: the chunks taken from the queue, and whether the stream has seen
its end. -/
structure AsrTask where
  chunks : List Bytes := []
  ended : Bool := false
deriving DecidableEq, Repr

/-- Where the handler stands. -/
inductive HandlerPhase where
  | reading
  | awaitingAsr
  | closed
deriving DecidableEq, Repr

/-- `_HandlerCtx`; the current `asr_task` is the last one. -/
structure Handler where
  channel : BridgeChannel := {}
  tasks : List AsrTask := []
  phase : HandlerPhase := .reading
deriving DecidableEq, Repr

section Dispatch

variable (backend : BridgeBackend)

/-- Send ERROR and end the connection. -/
def Handler.refuse (h : Handler) (code message : String) : Handler × List Reply :=
  ({ h with phase := .closed }, [.error code message])

def handleStart (h : Handler) (channelId sessionId : Bytes) (sampleRate : Nat) (codec : Bytes) :
    Handler × List Reply :=
  ({ h with
      channel := { h.channel with
        channelId := channelId
        sessionId := sessionId
        sampleRate := sampleRate
        codec := codec
        started := true
        maxAudioBytes := backend.maxAudioBytes }
      tasks := h.tasks ++ [{}] }, [])

/-- The accumulator for Path B; overflow empties it for good. -/
def accumulate (ch : BridgeChannel) (payload : Bytes) : BridgeChannel :=
  if ch.audioOverflow then
    ch
  else if ch.audioAccum.length + payload.length > ch.maxAudioBytes then
    { ch with audioOverflow := true, audioAccum := [] }
  else
    { ch with audioAccum := ch.audioAccum ++ payload }

def handleAudio (h : Handler) (payload : Bytes) : Handler × List Reply :=
  if ¬ h.channel.started then
    h.refuse "UNEXPECTED_FRAME" "AUDIO before START"
  else
    let ch := accumulate h.channel payload
    ({ h with channel := { ch with audioQueue := ch.audioQueue ++ [some payload] } }, [])

/-- `_handle_eos` up to its wait for the ASR task. -/
def handleEos (h : Handler) : Handler × List Reply :=
  if ¬ h.channel.started ∨ h.channel.eosSeen then
    h.refuse "UNEXPECTED_FRAME" "bad EOS"
  else
    let ch := { h.channel with
      eosSeen := true
      audioQueue := h.channel.audioQueue ++ [none] }
    if h.tasks = [] then
      Handler.refuse { h with channel := ch } "INTERNAL" "no asr task"
    else
      ({ h with channel := ch, phase := .awaitingAsr }, [])

def dispatch (h : Handler) : ToBridge → Handler × List Reply
  | .start channelId sessionId sampleRate codec =>
      handleStart backend h channelId sessionId sampleRate codec
  | .audio payload => handleAudio h payload
  | .eos => handleEos h
  | .stop => ({ h with phase := .closed }, [])

/-- An ASR task takes the next item of the queue. -/
def asrRead (h : Handler) (i : Nat) : Option Handler :=
  match h.tasks[i]?, h.channel.audioQueue with
  | some task, item :: queue =>
      if task.ended then
        none
      else
        let task := match item with
          | some chunk => { task with chunks := task.chunks ++ [chunk] }
          | none => { task with ended := true }
        some { h with
          channel := { h.channel with audioQueue := queue }
          tasks := h.tasks.set i task }
  | _, _ => none

/-- The audio of a `RecognitionRequest`. -/
def pathBAudio (ch : BridgeChannel) : Option Bytes :=
  if ch.audioOverflow then none else some ch.audioAccum

/-- The rest of `_handle_eos`, once the task has ended. -/
def finishEos (h : Handler) : Option (Handler × List Reply) :=
  match h.phase, h.tasks.getLast? with
  | .awaitingAsr, some task =>
      if task.ended then
        match backend.asr task.chunks with
        | .error e => some (h.refuse "ASR_FAILED" e)
        | .ok transcript =>
            some ({ h with phase := .reading },
              [.result
                { chunks := task.chunks
                  pathB := pathBAudio h.channel
                  nlsml := backend.nlsml transcript (pathBAudio h.channel) h.channel.sessionId }])
      else
        none
  | _, _ => none

/-- `wait_for(ctx.asr_task, timeout=10.0)` gives up. -/
def asrTimeout (h : Handler) : Option (Handler × List Reply) :=
  match h.phase with
  | .awaitingAsr => some (h.refuse "ASR_FAILED" "asr timeout")
  | _ => none

end Dispatch

end Mrcp
end Sandroid
