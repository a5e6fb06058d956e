import Sandroid.Api.StreamTypes
import Sandroid.Lib.Generator
import Sandroid.Lib.PyText
import Sandroid.Lib.Rounding
import Sandroid.Lib.Runs
import Sandroid.Mrcp.BridgeCbor
import Sandroid.Mrcp.BridgeServer

/-!
# One connection of the bridge, on bytes

`BridgeServer._handle` of `adapters/mrcp/bridge.py` over the bytes of its peer:
`read_frame`, `_dispatch` with its handlers, `_run_asr` as the task it is, and
`_match_intent` with `render_nlsml`.

The handler and the ASR tasks are interleaved in any order.  Any task that asks for
audio may take the next item of the queue, whichever waits there the longest.  The
input is all that the peer sends until it closes its side; bytes that are still
under way are bytes that the handler has not come to read.

The ASR backend, the orchestrator and the text of a nested map are parameters.
Beside what the source keeps, a connection records the frames it has read, the
requests made to the orchestrator and the frames written.
-/

namespace Sandroid
namespace Mrcp

open Lib Api

abbrev Asr := Generator AudioChunk PartialTranscript

def placeholderIntent : String := "PLACEHOLDER_INTENT"

/-- `text.replace(old, new)` for one character. -/
def replaceChar (old : Char) (new text : List Char) : List Char :=
  text.flatMap fun x => if x = old then new else [x]

def xmlEscape (text : String) : String :=
  String.ofList (replaceChar '>' "&gt;".toList (replaceChar '<' "&lt;".toList
    (replaceChar '&' "&amp;".toList text.toList)))

/-- The format `.2f`. -/
def fixed2 (q : ℚ) : String :=
  let n := (roundHalfEven (|q| * 100)).toNat
  let digits := decimal (n % 100)
  (if q < 0 then "-" else "") ++ String.ofList (decimal (n / 100)) ++ "." ++
    (if digits.length < 2 then "0" else "") ++ String.ofList digits

def renderNlsml (transcript : String) (confidence : ℚ) (intentId : String) : Bytes :=
  utf8 ("<?xml version=\"1.0\"?>\n" ++
    "<result xmlns=\"http://www.ietf.org/xml/ns/mrcpv2\"\n" ++
    "        grammar=\"session:grammar@sandroid\">\n" ++
    "  <interpretation confidence=\"" ++ fixed2 confidence ++ "\">\n" ++
    "    <input mode=\"speech\">" ++ xmlEscape transcript ++ "</input>\n" ++
    "    <instance>" ++ xmlEscape intentId ++ "</instance>\n" ++
    "  </interpretation>\n" ++
    "</result>\n")

/-- The fields of a `RecognitionRequest` that the bridge sets; the session id is the
UTF-8 of its text. -/
structure BridgeRequest where
  sceneId : String
  text : String
  audio : Option Bytes
  sessionId : Option Bytes
deriving DecidableEq, Repr

/-- What a server is made with. -/
structure BridgeConfig where
  /-- `asr.stream` -/
  asr : Asr
  /-- `recognize`: intent and confidence of the top hit, or an exception -/
  orchestrator : Option (BridgeRequest → Except String (Option (String × ℚ)))
  defaultScene : Option String
  /-- `_resolve_max_audio_bytes()` -/
  maxAudioBytes : Nat
  /-- nested calls of `_cbor_decode` beyond the two that a plain map takes -/
  spareCalls : Nat
  /-- `str()` of a nested map -/
  mapText : List (CborKey × CborItem) → String

inductive AsrStatus where
  | running
  | returned
  | raised (message : String)
  | cancelled
deriving DecidableEq, Repr

/-- `_run_asr`: the state of the stream, the counter of `chunks()` and whether that
generator has returned, the text of the last final transcript, and the chunks that
the stream has received. -/
structure RunAsr (asr : Asr) where
  state : asr.State := asr.start
  seq : Nat := 0
  exhausted : Bool := false
  finalText : String := ""
  received : List AudioChunk := []
  status : AsrStatus := .running

/-- A frame written, the number of frames read before it, and for a RESULT the chunks
behind its transcript. -/
structure Written where
  after : Nat
  frame : Frame
  heard : List AudioChunk := []
deriving DecidableEq, Repr

structure Connection (config : BridgeConfig) where
  /-- what the peer has sent, or will send, and the handler has not read -/
  input : Bytes
  channel : BridgeChannel := {}
  /-- the tasks of all STARTs; the last is `ctx.asr_task` -/
  tasks : List (RunAsr config.asr) := []
  phase : HandlerPhase := .reading
  arrived : List Frame := []
  requests : List BridgeRequest := []
  written : List Written := []

/-- A connection that has just been accepted. -/
def connected (config : BridgeConfig) (input : Bytes) : Connection config :=
  { input := input }

section Task

variable {asr : Asr}

/-- `final_text` after one more transcript. -/
def takeFinal (text : String) (p : PartialTranscript) : String :=
  if p.isFinal then p.text else text

/-- One step of the task on the queue: `none` while it waits for audio, and when it
has ended. -/
def RunAsr.step (task : RunAsr asr) (queue : List (Option Bytes)) :
    Option (RunAsr asr × List (Option Bytes)) :=
  if task.status ≠ .running then
    none
  else
    match asr.next task.state with
    | .emit item state =>
        some ({ task with state := state, finalText := takeFinal task.finalText item }, queue)
    | .stop => some ({ task with status := .returned }, queue)
    | .fail message => some ({ task with status := .raised message }, queue)
    | .pull resume =>
        if task.exhausted then
          some ({ task with state := resume none }, queue)
        else
          match queue with
          | [] => none
          | none :: queue => some ({ task with state := resume none, exhausted := true }, queue)
          | some pcm :: queue =>
              let chunk : AudioChunk := ⟨pcm, task.seq⟩
              some ({ task with
                state := resume (some chunk)
                seq := task.seq + 1
                received := task.received ++ [chunk] }, queue)

/-- The steps of a task, on itself and on the queue. -/
inductive RunAsr.Moves (task : RunAsr asr) :
    List (Option Bytes) → RunAsr asr → List (Option Bytes) → Prop
  | emit {queue : List (Option Bytes)} {item : PartialTranscript} {state : asr.State}
      (hnext : asr.next task.state = .emit item state) :
      Moves task queue
        { task with state := state, finalText := takeFinal task.finalText item } queue
  | stop {queue : List (Option Bytes)} (hnext : asr.next task.state = .stop) :
      Moves task queue { task with status := .returned } queue
  | fail {queue : List (Option Bytes)} {message : String}
      (hnext : asr.next task.state = .fail message) :
      Moves task queue { task with status := .raised message } queue
  | again {queue : List (Option Bytes)} {resume : Option AudioChunk → asr.State}
      (hnext : asr.next task.state = .pull resume) (hexhausted : task.exhausted = true) :
      Moves task queue { task with state := resume none } queue
  | finish {queue : List (Option Bytes)} {resume : Option AudioChunk → asr.State}
      (hnext : asr.next task.state = .pull resume) (hexhausted : task.exhausted = false) :
      Moves task (none :: queue) { task with state := resume none, exhausted := true } queue
  | pull {pcm : Bytes} {queue : List (Option Bytes)} {resume : Option AudioChunk → asr.State}
      (hnext : asr.next task.state = .pull resume) (hexhausted : task.exhausted = false) :
      Moves task (some pcm :: queue)
        { task with
          state := resume (some ⟨pcm, task.seq⟩)
          seq := task.seq + 1
          received := task.received ++ [⟨pcm, task.seq⟩] } queue

theorem RunAsr.moves_of_step {task task' : RunAsr asr} {queue queue' : List (Option Bytes)}
    (h : task.step queue = some (task', queue')) :
    task.status = .running ∧ task.Moves queue task' queue' := by
  rw [RunAsr.step] at h
  by_cases hstatus : task.status = .running
  · rw [if_neg (not_not.mpr hstatus)] at h
    refine ⟨hstatus, ?_⟩
    split at h
    next item state hnext =>
      cases h
      exact .emit hnext
    next hnext =>
      cases h
      exact .stop hnext
    next message hnext =>
      cases h
      exact .fail hnext
    next resume hnext =>
      cases hexhausted : task.exhausted with
      | true =>
        rw [if_pos hexhausted] at h
        cases h
        exact .again hnext hexhausted
      | false =>
        rw [if_neg (by rw [hexhausted]; exact Bool.false_ne_true)] at h
        split at h
        next => cases h
        next queue =>
          cases h
          exact .finish hnext hexhausted
        next pcm queue =>
          cases h
          exact .pull hnext hexhausted
  · rw [if_pos hstatus] at h
    cases h

end Task

namespace Connection

variable {config : BridgeConfig}

/-- The end of `_handle`: the current task is cancelled. -/
def close (c : Connection config) : Connection config :=
  { c with
    phase := .closed
    tasks := c.tasks.dropLast ++ c.tasks.getLast?.toList.map fun task =>
      if task.status = .running then { task with status := .cancelled } else task }

def write (c : Connection config) (frame : Frame) (heard : List AudioChunk) :
    Connection config :=
  { c with written := c.written ++ [⟨c.arrived.length, frame, heard⟩] }

/-- The frame of `_send_error`. -/
def errorFrame? (code message : String) : Option Frame :=
  let fields : Dict String CborScalar :=
    (Dict.empty.set "code" (.str code)).set "message" (.str message)
  match cborEncodeMap fields with
  | .error _ => none
  | .ok payload => some ⟨frameError, payload⟩

/-- `_send_error` and `return False`. -/
def refuse (c : Connection config) (code message : String) : Connection config :=
  match errorFrame? code message with
  | none => c.close
  | some frame => (c.write frame []).close

def str (config : BridgeConfig) : CborItem → String
  | .uint n => String.ofList (decimal n)
  | .tstr s => s
  | .map entries => config.mapText entries

/-- `str(meta.get(key, default))`. -/
def textField (config : BridgeConfig) (fields : List (CborKey × CborItem))
    (key default : String) : String :=
  match Dict.lookup (.tstr key) fields with
  | none => default
  | some item => str config item

/-- `sr = meta.get("sample_rate", 16000)`, if it is an integer. -/
def sampleRateField (fields : List (CborKey × CborItem)) : Nat :=
  match Dict.lookup (.tstr "sample_rate") fields with
  | some (.uint n) => n
  | _ => 16000

/-- `_handle_start` on a decoded map. -/
def openChannel (c : Connection config) (fields : List (CborKey × CborItem)) :
    Connection config :=
  { c with
    channel := { c.channel with
      channelId := utf8 (textField config fields "channel_id" "")
      sessionId := utf8 (textField config fields "session_id" "")
      sampleRate := sampleRateField fields
      codec := utf8 (textField config fields "codec" "LPCM")
      started := true
      maxAudioBytes := config.maxAudioBytes }
    tasks := c.tasks ++ [{}] }

/-- The text of a `CBORError`; the other exceptions are not caught. -/
def cborErrorText : CborError → Option String
  | .empty => some "empty"
  | .additionalInfo ai => some ("unsupported additional info " ++ String.ofList (decimal ai))
  | .majorType major => some ("unsupported major type " ++ String.ofList (decimal major))
  | _ => none

def handleStart (c : Connection config) (payload : Bytes) : Connection config :=
  match cborDecode (config.spareCalls + 2) payload with
  | .error e =>
      match cborErrorText e with
      | some message => c.refuse "BAD_START" message
      | none => c.close
  | .ok (.map fields, _) => c.openChannel fields
  | .ok _ => c.refuse "BAD_START" "not a map"

def handleAudio (c : Connection config) (payload : Bytes) : Connection config :=
  if ¬ c.channel.started then
    c.refuse "UNEXPECTED_FRAME" "AUDIO before START"
  else
    let ch := accumulate c.channel payload
    { c with channel := { ch with audioQueue := ch.audioQueue ++ [some payload] } }

/-- `_handle_eos` up to its wait for the ASR task. -/
def handleEos (c : Connection config) : Connection config :=
  if ¬ c.channel.started ∨ c.channel.eosSeen then
    c.refuse "UNEXPECTED_FRAME" "bad EOS"
  else
    let ch := { c.channel with
      eosSeen := true
      audioQueue := c.channel.audioQueue ++ [none] }
    if c.tasks = [] then
      refuse { c with channel := ch } "INTERNAL" "no asr task"
    else
      { c with channel := ch, phase := .awaitingAsr }

/-- `_dispatch`. -/
def dispatch (c : Connection config) (f : Frame) : Connection config :=
  if f.ftype = frameStart then
    c.handleStart f.payload
  else if f.ftype = frameAudio then
    c.handleAudio f.payload
  else if f.ftype = frameEos then
    c.handleEos
  else if f.ftype = frameStop then
    c.close
  else
    c

/-- The connection with one more frame taken from its input. -/
def taken (c : Connection config) (f : Frame) (rest : Bytes) : Connection config :=
  { c with input := rest, arrived := c.arrived ++ [f] }

/-- The next turn of the loop in `_handle`.  The end of the input ends the loop, and a
frame of an invalid size raises. -/
def readNext (c : Connection config) : Connection config :=
  match readFrame c.input with
  | .incomplete => c.close
  | .invalidSize _ => c.close
  | .frame f rest => (c.taken f rest).dispatch f

/-- The request of `_match_intent`, when there is an orchestrator to ask. -/
def request? (c : Connection config) (transcript : String) : Option BridgeRequest :=
  match config.orchestrator, config.defaultScene with
  | some _, some scene =>
      some
        { sceneId := scene
          text := transcript
          audio := pathBAudio c.channel
          sessionId := if c.channel.sessionId = [] then none else some c.channel.sessionId }
  | _, _ => none

/-- `_match_intent`, given its request. -/
def matchIntent (config : BridgeConfig) : Option BridgeRequest → String × ℚ
  | none => (placeholderIntent, 9 / 10)
  | some request =>
      match config.orchestrator with
      | none => (placeholderIntent, 9 / 10)
      | some recognize =>
          match recognize request with
          | .ok (some top) => top
          | _ => (placeholderIntent, 9 / 10)

/-- The document for a transcript. -/
def nlsmlFor (c : Connection config) (transcript : String) : Bytes :=
  let top := matchIntent config (c.request? transcript)
  renderNlsml transcript top.2 top.1

/-- The rest of `_handle_eos` after its task has returned; `encode_frame` raises when
the length does not fit. -/
def sendResult (c : Connection config) (task : RunAsr config.asr) : Connection config :=
  let nlsml := c.nlsmlFor task.finalText
  let c' : Connection config :=
    { c with requests := c.requests ++ (c.request? task.finalText).toList }
  if 2 ^ 32 ≤ nlsml.length + 1 then
    c'.close
  else
    { c'.write ⟨frameResult, nlsml⟩ task.received with phase := .reading }

/-- The wait for the ASR task is over. -/
def finishEos (c : Connection config) : Option (Connection config) :=
  match c.phase, c.tasks.getLast? with
  | .awaitingAsr, some task =>
      match task.status with
      | .returned => some (c.sendResult task)
      | .raised message => some (c.refuse "ASR_FAILED" message)
      | _ => none
  | _, _ => none

/-- `wait_for(ctx.asr_task, timeout=10.0)` gives up. -/
def timeout (c : Connection config) : Option (Connection config) :=
  match c.phase, c.tasks.getLast? with
  | .awaitingAsr, some task =>
      if task.status = .running then some (c.refuse "ASR_FAILED" "asr timeout") else none
  | _, _ => none

/-- A step of the task of the `i`-th START. -/
def asrStep (c : Connection config) (i : Nat) : Option (Connection config) :=
  match c.tasks[i]? with
  | none => none
  | some task =>
      match task.step c.channel.audioQueue with
      | none => none
      | some (task, queue) =>
          some { c with
            channel := { c.channel with audioQueue := queue }
            tasks := c.tasks.set i task }

inductive Label where
  | read
  | asr (i : Nat)
  | finish
  | timeout
deriving DecidableEq, Repr

def step (c : Connection config) : Label → Option (Connection config)
  | .read => if c.phase = .reading then some c.readNext else none
  | .asr i => c.asrStep i
  | .finish => c.finishEos
  | .timeout => c.timeout

section Handlers

variable {c c' : Connection config} {f : Frame}

theorem readNext_of_frame {rest : Bytes} (h : readFrame c.input = .frame f rest) :
    c.readNext = (c.taken f rest).dispatch f := by
  rw [readNext, h]

theorem dispatch_start (h : f.ftype = frameStart) : c.dispatch f = c.handleStart f.payload := by
  rw [dispatch, if_pos h]

theorem dispatch_audio (h : f.ftype = frameAudio) : c.dispatch f = c.handleAudio f.payload := by
  rw [dispatch, h, if_neg (by decide), if_pos rfl]

theorem dispatch_eos (h : f.ftype = frameEos) : c.dispatch f = c.handleEos := by
  rw [dispatch, h, if_neg (by decide), if_neg (by decide), if_pos rfl]

theorem dispatch_stop (h : f.ftype = frameStop) : c.dispatch f = c.close := by
  rw [dispatch, h, if_neg (by decide), if_neg (by decide), if_neg (by decide), if_pos rfl]

theorem dispatch_unknown (hstart : f.ftype ≠ frameStart) (haudio : f.ftype ≠ frameAudio)
    (heos : f.ftype ≠ frameEos) (hstop : f.ftype ≠ frameStop) : c.dispatch f = c := by
  rw [dispatch, if_neg hstart, if_neg haudio, if_neg heos, if_neg hstop]

theorem handleStart_of_map {payload : Bytes} {fields : List (CborKey × CborItem)} {n : Nat}
    (h : cborDecode (config.spareCalls + 2) payload = .ok (.map fields, n)) :
    c.handleStart payload = c.openChannel fields := by
  rw [handleStart, h]

theorem handleAudio_of_started (h : c.channel.started = true) (payload : Bytes) :
    c.handleAudio payload =
      { c with
        channel := { accumulate c.channel payload with
          audioQueue := (accumulate c.channel payload).audioQueue ++ [some payload] } } := by
  rw [handleAudio, if_neg (not_not.mpr h)]

theorem handleAudio_refused (h : ¬ c.channel.started = true) (payload : Bytes) :
    c.handleAudio payload = c.refuse "UNEXPECTED_FRAME" "AUDIO before START" := by
  rw [handleAudio, if_pos h]

theorem handleEos_of_started (hstarted : c.channel.started = true)
    (heos : ¬ c.channel.eosSeen = true) (htasks : c.tasks ≠ []) :
    c.handleEos =
      { c with
        channel := { c.channel with
          eosSeen := true
          audioQueue := c.channel.audioQueue ++ [none] }
        phase := .awaitingAsr } := by
  rw [handleEos, if_neg]
  · simp only
    rw [if_neg htasks]
  · rintro (h | h)
    · exact h hstarted
    · exact heos h

theorem handleEos_refused (h : ¬ c.channel.started = true ∨ c.channel.eosSeen = true) :
    c.handleEos = c.refuse "UNEXPECTED_FRAME" "bad EOS" := by
  rw [handleEos, if_pos h]

theorem nlsmlFor_eq (c : Connection config) (transcript : String) :
    c.nlsmlFor transcript = renderNlsml transcript
      (matchIntent config (c.request? transcript)).2
      (matchIntent config (c.request? transcript)).1 := rfl

theorem sendResult_of_short {task : RunAsr config.asr}
    (h : (c.nlsmlFor task.finalText).length + 1 < 2 ^ 32) :
    c.sendResult task =
      { c with
        requests := c.requests ++ (c.request? task.finalText).toList
        written := c.written ++
          [⟨c.arrived.length, ⟨frameResult, c.nlsmlFor task.finalText⟩, task.received⟩]
        phase := .reading } := by
  rw [sendResult]
  simp only
  rw [if_neg (Nat.not_le.mpr h)]
  rfl

theorem sendResult_of_long {task : RunAsr config.asr}
    (h : 2 ^ 32 ≤ (c.nlsmlFor task.finalText).length + 1) :
    c.sendResult task =
      close { c with requests := c.requests ++ (c.request? task.finalText).toList } := by
  rw [sendResult]
  simp only
  rw [if_pos h]

theorem finishEos_of_returned {task : RunAsr config.asr} (hphase : c.phase = .awaitingAsr)
    (hlast : c.tasks.getLast? = some task) (hreturned : task.status = .returned) :
    c.finishEos = some (c.sendResult task) := by
  rw [Connection.finishEos, hphase, hlast]
  simp only [hreturned]

theorem asrStep_eq_some {i : Nat} (h : c.asrStep i = some c') :
    ∃ t t' queue, c.tasks[i]? = some t ∧ t.status = .running ∧
      t.Moves c.channel.audioQueue t' queue ∧
      c' = { c with
        channel := { c.channel with audioQueue := queue }
        tasks := c.tasks.set i t' } := by
  rw [asrStep] at h
  split at h
  next => cases h
  next t ht =>
    split at h
    next => cases h
    next t' queue hstep =>
      obtain ⟨hrunning, hmoves⟩ := RunAsr.moves_of_step hstep
      exact ⟨t, t', queue, ht, hrunning, hmoves, (Option.some.inj h).symm⟩

/-- Everything but the read leaves the input as it is. -/
def SameInput (c c' : Connection config) : Prop :=
  c'.input = c.input ∧ c'.arrived = c.arrived

theorem sameInput_refuse (code message : String) : c.SameInput (c.refuse code message) := by
  rw [refuse]
  split <;> exact ⟨rfl, rfl⟩

theorem sameInput_handleEos : c.SameInput c.handleEos := by
  by_cases hbad : ¬ c.channel.started = true ∨ c.channel.eosSeen = true
  · rw [handleEos_refused hbad]
    exact sameInput_refuse _ _
  · rw [handleEos, if_neg hbad]
    by_cases htasks : c.tasks = []
    · simp only [if_pos htasks]
      exact ⟨(sameInput_refuse _ _).1, (sameInput_refuse _ _).2⟩
    · simp only [if_neg htasks]
      exact ⟨rfl, rfl⟩

theorem sameInput_dispatch (f : Frame) : c.SameInput (c.dispatch f) := by
  rw [dispatch]
  split_ifs
  · rw [handleStart]
    split
    · split
      · exact sameInput_refuse _ _
      · exact ⟨rfl, rfl⟩
    · exact ⟨rfl, rfl⟩
    · exact sameInput_refuse _ _
  · rw [handleAudio]
    split_ifs
    · exact ⟨rfl, rfl⟩
    · exact sameInput_refuse _ _
  · exact sameInput_handleEos
  · exact ⟨rfl, rfl⟩
  · exact ⟨rfl, rfl⟩

theorem sameInput_sendResult (task : RunAsr config.asr) : c.SameInput (c.sendResult task) := by
  by_cases hlong : 2 ^ 32 ≤ (c.nlsmlFor task.finalText).length + 1
  · rw [sendResult_of_long hlong]
    exact ⟨rfl, rfl⟩
  · rw [sendResult_of_short (not_le.mp hlong)]
    exact ⟨rfl, rfl⟩

theorem sameInput_finishEos (h : c.finishEos = some c') : c.SameInput c' := by
  rw [finishEos] at h
  split at h
  next task hphase hlast =>
    split at h
    next =>
      rw [← Option.some.inj h]
      exact sameInput_sendResult task
    next =>
      rw [← Option.some.inj h]
      exact sameInput_refuse _ _
    next => cases h
  next => cases h

theorem sameInput_timeout (h : c.timeout = some c') : c.SameInput c' := by
  rw [timeout] at h
  split at h
  next =>
    split_ifs at h
    rw [← Option.some.inj h]
    exact sameInput_refuse _ _
  next => cases h

end Handlers

end Connection

inductive Scripted where
  | listening (n : Nat)
  | speaking (n : Nat)
  | finished

/-- A backend that counts its chunks and ends with a scripted transcript. -/
def scriptedAsr (script : Nat → String) : Asr where
  State := Scripted
  start := .listening 0
  next
    | .listening n => .pull fun
        | some _ => .listening (n + 1)
        | none => .speaking n
    | .speaking n => .emit ⟨script n, true, 0, 0⟩ .finished
    | .finished => .stop

/-- A server without an orchestrator. -/
def scriptedConfig (script : Nat → String) : BridgeConfig where
  asr := scriptedAsr script
  orchestrator := none
  defaultScene := none
  maxAudioBytes := 1024
  spareCalls := 0
  mapText := fun _ => ""

/-- The parts of the document that are not fixed. -/
theorem length_renderNlsml_le (transcript : String) (confidence : ℚ) (intentId : String) :
    (renderNlsml transcript confidence intentId).length ≤
      (utf8 (fixed2 confidence)).length + (utf8 (xmlEscape transcript)).length +
        (utf8 (xmlEscape intentId)).length + 300 := by
  have h₁ : (utf8 "<?xml version=\"1.0\"?>\n").length = 22 := by
    exact length_utf8_ascii (by decide)
  have h₂ : (utf8 "<result xmlns=\"http://www.ietf.org/xml/ns/mrcpv2\"\n").length = 50 := by
    exact length_utf8_ascii (by decide)
  have h₃ : (utf8 "        grammar=\"session:grammar@sandroid\">\n").length = 44 := by
    exact length_utf8_ascii (by decide)
  have h₄ : (utf8 "  <interpretation confidence=\"").length = 30 := by
    exact length_utf8_ascii (by decide)
  have h₅ : (utf8 "\">\n").length = 3 := by
    exact length_utf8_ascii (by decide)
  have h₆ : (utf8 "    <input mode=\"speech\">").length = 25 := by
    exact length_utf8_ascii (by decide)
  have h₇ : (utf8 "</input>\n").length = 9 := by
    exact length_utf8_ascii (by decide)
  have h₈ : (utf8 "    <instance>").length = 14 := by
    exact length_utf8_ascii (by decide)
  have h₉ : (utf8 "</instance>\n").length = 12 := by
    exact length_utf8_ascii (by decide)
  have h₁₀ : (utf8 "  </interpretation>\n").length = 20 := by
    exact length_utf8_ascii (by decide)
  have h₁₁ : (utf8 "</result>\n").length = 10 := by
    exact length_utf8_ascii (by decide)
  simp only [renderNlsml, utf8_append, List.length_append, h₁, h₂, h₃, h₄, h₅, h₆, h₇, h₈, h₉,
    h₁₀, h₁₁]
  omega

theorem length_nlsmlFor_scripted {script : Nat → String} {text : String}
    (c : Connection (scriptedConfig script)) (hshort : (utf8 (xmlEscape text)).length ≤ 1000) :
    (c.nlsmlFor text).length + 1 < 2 ^ 32 := by
  have hintent : (utf8 (xmlEscape placeholderIntent)).length = 18 := by decide +kernel
  have hconfidence : (utf8 (fixed2 (9 / 10))).length = 4 := by decide +kernel
  have hlength := length_renderNlsml_le text (9 / 10) placeholderIntent
  rw [Connection.nlsmlFor_eq]
  change (renderNlsml text (9 / 10) placeholderIntent).length + 1 < 2 ^ 32
  omega

/-- Without an orchestrator a short transcript is answered. -/
theorem finish_scripted {script : Nat → String} {c : Connection (scriptedConfig script)}
    {task : RunAsr (scriptedAsr script)} (hphase : c.phase = .awaitingAsr)
    (hlast : c.tasks.getLast? = some task) (hreturned : task.status = .returned)
    (hshort : (utf8 (xmlEscape task.finalText)).length ≤ 1000) :
    ∃ c' : Connection (scriptedConfig script), runSteps Connection.step c [.finish] = some c' ∧
      c'.arrived = c.arrived ∧
      c'.written = c.written ++
        [⟨c.arrived.length, ⟨frameResult, c.nlsmlFor task.finalText⟩, task.received⟩] := by
  have hnlsml := length_nlsmlFor_scripted c hshort
  refine ⟨c.sendResult task, ?_, ?_, ?_⟩
  · rw [runSteps, Connection.step, Connection.finishEos_of_returned hphase hlast hreturned]
    rfl
  · rw [Connection.sendResult_of_short hnlsml]
  · rw [Connection.sendResult_of_short hnlsml]

end Mrcp
end Sandroid
