import Sandroid.Mrcp.BridgeConnection
import Sandroid.Mrcp.BridgeUtterance
import Sandroid.Mrcp.StartCodec
import Mathlib.Tactic

/-!
# A turn of a conforming client

START, AUDIO frames and EOS, with frames of unknown types among them, from the
client's encoders to the handler's RESULT.  Whatever the schedule, the ASR receives
the payloads as numbered chunks, the orchestrator gets their concatenation unless it
is too long, and one frame is written.

`TurnAt` is where the connection stands, with a bound on the steps that are left;
every step makes the bound smaller, and until the connection is closed some step is
possible.
-/

namespace Sandroid
namespace Mrcp

open Lib Api

/-- The chunks that `chunks()` makes of payloads, counting from `n`. -/
def numberFrom : Nat → List Bytes → List AudioChunk
  | _, [] => []
  | n, pcm :: audio => ⟨pcm, n⟩ :: numberFrom (n + 1) audio

theorem numberFrom_concat (pcm : Bytes) : ∀ (n : Nat) (audio : List Bytes),
    numberFrom n (audio ++ [pcm]) = numberFrom n audio ++ [⟨pcm, n + audio.length⟩]
  | _, [] => rfl
  | n, first :: audio => by
      rw [List.cons_append, numberFrom, numberFrom_concat pcm (n + 1) audio, numberFrom,
        List.cons_append, List.length_cons]
      congr 4
      omega

section Task

variable {asr : Asr} {transcript : String} {task task' : RunAsr asr} {j : Nat}

/-- The task has read `heard`, still expects `left`, and needs `j` steps to end with the
transcript. -/
structure Listening (transcript : String) (task : RunAsr asr) (heard left : List Bytes)
    (j : Nat) : Prop where
  status : task.status = .running
  exhausted : task.exhausted = false
  seq : task.seq = heard.length
  received : task.received = numberFrom 0 heard
  drains : ∃ ys, asr.Drains j task.state (numberFrom heard.length left) ys ∧
    ys.foldl takeFinal task.finalText = transcript

/-- The task knows that there is no more audio. -/
structure Speaking (transcript : String) (task : RunAsr asr) (heard : List Bytes) (j : Nat) :
    Prop where
  status : task.status = .running
  exhausted : task.exhausted = true
  received : task.received = numberFrom 0 heard
  drained : ∃ ys, asr.Drained j task.state ys ∧ ys.foldl takeFinal task.finalText = transcript

/-- The task has returned the transcript. -/
structure Returned (transcript : String) (task : RunAsr asr) (heard : List Bytes) : Prop where
  status : task.status = .returned
  received : task.received = numberFrom 0 heard
  finalText : task.finalText = transcript

variable {heard pending todo : List Bytes} {tail queue queue' : List (Option Bytes)}

/-- A step of a task that listens: it goes on, or it learns of the end. -/
theorem Listening.moves (h : Listening transcript task heard (pending ++ todo) j)
    (htail : ∀ pcm rest, tail ≠ some pcm :: rest)
    (hmove : task.Moves (pending.map some ++ tail) task' queue') :
    (∃ heard' pending' j', j' < j ∧ queue' = pending'.map some ++ tail ∧
      heard' ++ pending' = heard ++ pending ∧
      Listening transcript task' heard' (pending' ++ todo) j') ∨
    (pending = [] ∧ tail = none :: queue' ∧
      (todo = [] → ∃ j', j' < j ∧ Speaking transcript task' heard j')) := by
  obtain ⟨ys, hdrains, htext⟩ := h.drains
  generalize hq : pending.map some ++ tail = items at hmove
  cases hmove with
  | emit hnext =>
    obtain ⟨j', ys', hlt, rfl, hrest⟩ := hdrains.of_emit hnext
    exact Or.inl ⟨heard, pending, j', hlt, hq.symm, rfl, h.status, h.exhausted, h.seq,
      h.received, ys', hrest, htext⟩
  | stop hnext =>
    rcases hdrains.goes_on with ⟨y, s', hgo⟩ | ⟨resume, hgo⟩
    · rw [hnext] at hgo
      cases hgo
    · rw [hnext] at hgo
      cases hgo
  | fail hnext =>
    rcases hdrains.goes_on with ⟨y, s', hgo⟩ | ⟨resume, hgo⟩
    · rw [hnext] at hgo
      cases hgo
    · rw [hnext] at hgo
      cases hgo
  | again hnext hexhausted =>
    rw [h.exhausted] at hexhausted
    cases hexhausted
  | finish hnext hexhausted =>
    cases pending with
    | cons pcm pending => cases hq
    | nil =>
      refine Or.inr ⟨rfl, hq, ?_⟩
      rintro rfl
      obtain ⟨j', hlt, hrest⟩ := Generator.Drains.of_finish hdrains hnext
      exact ⟨j', hlt, h.status, rfl, h.received, ys, hrest, htext⟩
  | @pull pcm _ _ hnext hexhausted =>
    cases pending with
    | nil => exact absurd hq (htail _ _)
    | cons pcm' pending =>
      cases hq
      rw [List.cons_append, numberFrom] at hdrains
      obtain ⟨j', hlt, hrest⟩ := hdrains.of_pull hnext
      refine Or.inl ⟨heard ++ [pcm], pending, j', hlt, rfl, by simp, h.status, h.exhausted,
        ?_, ?_, ys, ?_, htext⟩
      · simp [h.seq]
      · simp only [h.received, h.seq, numberFrom_concat, Nat.zero_add]
      · rw [List.length_append, List.length_singleton]
        simpa only [h.seq] using hrest

/-- A step of a task that has learnt of the end. -/
theorem Speaking.moves (h : Speaking transcript task heard j)
    (hmove : task.Moves queue task' queue') :
    queue' = queue ∧
      ((∃ j', j' < j ∧ Speaking transcript task' heard j') ∨ Returned transcript task' heard) := by
  obtain ⟨ys, hdrained, htext⟩ := h.drained
  cases hmove with
  | emit hnext =>
    obtain ⟨j', ys', hlt, rfl, hrest⟩ := hdrained.of_emit hnext
    exact ⟨rfl, Or.inl ⟨j', hlt, h.status, h.exhausted, h.received, ys', hrest, htext⟩⟩
  | stop hnext =>
    rw [hdrained.of_stop hnext] at htext
    exact ⟨rfl, Or.inr ⟨rfl, h.received, htext⟩⟩
  | fail hnext =>
    rcases hdrained.goes_on with hgo | ⟨y, s', hgo⟩ | ⟨resume, hgo⟩
    · rw [hnext] at hgo
      cases hgo
    · rw [hnext] at hgo
      cases hgo
    · rw [hnext] at hgo
      cases hgo
  | again hnext hexhausted =>
    obtain ⟨j', hlt, hrest⟩ := hdrained.of_pull hnext
    exact ⟨rfl, Or.inl ⟨j', hlt, h.status, h.exhausted, h.received, ys, hrest, htext⟩⟩
  | finish hnext hexhausted =>
    rw [h.exhausted] at hexhausted
    cases hexhausted
  | pull hnext hexhausted =>
    rw [h.exhausted] at hexhausted
    cases hexhausted

/-- A task that listens can move while the end is in the queue. -/
theorem Listening.enabled (h : Listening transcript task heard pending j) :
    (task.step (pending.map some ++ [none])).isSome := by
  obtain ⟨ys, hdrains, _⟩ := h.drains
  rw [RunAsr.step, if_neg (not_not.mpr h.status)]
  rcases hdrains.goes_on with ⟨y, s', hgo⟩ | ⟨resume, hgo⟩
  · rw [hgo]
    rfl
  · rw [hgo]
    simp only [h.exhausted, Bool.false_eq_true, if_false]
    cases pending with
    | nil => rfl
    | cons pcm pending => rfl

theorem Speaking.enabled (h : Speaking transcript task heard j) (queue : List (Option Bytes)) :
    (task.step queue).isSome := by
  obtain ⟨ys, hdrained, _⟩ := h.drained
  rw [RunAsr.step, if_neg (not_not.mpr h.status)]
  rcases hdrained.goes_on with hgo | ⟨y, s', hgo⟩ | ⟨resume, hgo⟩
  · rw [hgo]
    rfl
  · rw [hgo]
    rfl
  · rw [hgo]
    simp only [h.exhausted, if_true]
    rfl

end Task

/-- The types that `_dispatch` knows. -/
def knownType (f : Frame) : Bool :=
  f.ftype = frameStart || f.ftype = frameAudio || f.ftype = frameEos || f.ftype = frameStop

/-- A START map with the fields of the protocol, payloads, and the frames that are sent:
among frames of unknown types START, an AUDIO frame for each payload and EOS, none of
them larger than a frame may be. -/
structure ClientTurn where
  fields : Dict String CborScalar
  channelId : String
  sessionId : String
  sampleRate : Nat
  codec : String
  audio : List Bytes
  payload : Bytes
  frames : List Frame
  channelId_eq : fields.get? "channel_id" = some (.str channelId)
  sessionId_eq : fields.get? "session_id" = some (.str sessionId)
  sampleRate_eq : fields.get? "sample_rate" = some (.int sampleRate)
  codec_eq : fields.get? "codec" = some (.str codec)
  encoded : cborEncodeMap fields = .ok payload
  known : frames.filter knownType =
    ⟨frameStart, payload⟩ :: (audio.map (Frame.mk frameAudio) ++ [⟨frameEos, []⟩])
  fits : ∀ f ∈ frames, f.Fits

namespace ClientTurn

/-- The bytes on the connection. -/
def wire (turn : ClientTurn) : Bytes :=
  turn.frames.flatMap Frame.wire

/-- Path B audio: the concatenation, up to the cap. -/
def pathB (turn : ClientTurn) (cap : Nat) : Option Bytes :=
  if turn.audio.flatten.length ≤ cap then some turn.audio.flatten else none

/-- The request that the orchestrator should see for a transcript. -/
def request? (turn : ClientTurn) (config : BridgeConfig) (transcript : String) :
    Option BridgeRequest :=
  match config.orchestrator, config.defaultScene with
  | some _, some scene =>
      some
        { sceneId := scene
          text := transcript
          audio := turn.pathB config.maxAudioBytes
          sessionId := if turn.sessionId = "" then none else some (utf8 turn.sessionId) }
  | _, _ => none

/-- The document that the client should receive for a transcript. -/
def nlsml (turn : ClientTurn) (config : BridgeConfig) (transcript : String) : Bytes :=
  let top := Connection.matchIntent config (turn.request? config transcript)
  renderNlsml transcript top.2 top.1

end ClientTurn

/-- The accumulator holds the audio as long as it is within the cap. -/
def Accumulated (ch : BridgeChannel) (audio : List Bytes) : Prop :=
  if audio.flatten.length ≤ ch.maxAudioBytes then
    ch.audioOverflow = false ∧ ch.audioAccum = audio.flatten
  else
    ch.audioOverflow = true

@[simp] theorem accumulate_maxAudioBytes (ch : BridgeChannel) (payload : Bytes) :
    (accumulate ch payload).maxAudioBytes = ch.maxAudioBytes := by
  simp only [accumulate]
  split_ifs <;> rfl

@[simp] theorem accumulate_sessionId (ch : BridgeChannel) (payload : Bytes) :
    (accumulate ch payload).sessionId = ch.sessionId := by
  simp only [accumulate]
  split_ifs <;> rfl

theorem accumulate_of_overflow {ch : BridgeChannel} (h : ch.audioOverflow = true)
    (payload : Bytes) : accumulate ch payload = ch := by
  rw [accumulate, if_pos h]

theorem accumulate_of_fits {ch : BridgeChannel} {payload : Bytes} (h : ch.audioOverflow = false)
    (hfits : ch.audioAccum.length + payload.length ≤ ch.maxAudioBytes) :
    accumulate ch payload = { ch with audioAccum := ch.audioAccum ++ payload } := by
  rw [accumulate, h, if_neg Bool.false_ne_true, if_neg (Nat.not_lt.mpr hfits)]

theorem accumulate_of_exceeds {ch : BridgeChannel} {payload : Bytes}
    (h : ch.audioOverflow = false)
    (hexceeds : ch.maxAudioBytes < ch.audioAccum.length + payload.length) :
    accumulate ch payload = { ch with audioOverflow := true, audioAccum := [] } := by
  rw [accumulate, h, if_neg Bool.false_ne_true, if_pos hexceeds]

theorem Accumulated.within {ch : BridgeChannel} {audio : List Bytes} (h : Accumulated ch audio)
    (hwithin : audio.flatten.length ≤ ch.maxAudioBytes) :
    ch.audioOverflow = false ∧ ch.audioAccum = audio.flatten := by
  rw [Accumulated, if_pos hwithin] at h
  exact h

theorem Accumulated.exceeded {ch : BridgeChannel} {audio : List Bytes} (h : Accumulated ch audio)
    (hexceeds : ¬ audio.flatten.length ≤ ch.maxAudioBytes) : ch.audioOverflow = true := by
  rw [Accumulated, if_neg hexceeds] at h
  exact h

theorem accumulated_nil {ch : BridgeChannel} (hover : ch.audioOverflow = false)
    (haccum : ch.audioAccum = []) : Accumulated ch [] := by
  have hzero : ([] : List Bytes).flatten.length ≤ ch.maxAudioBytes := Nat.zero_le _
  rw [Accumulated, if_pos hzero]
  exact ⟨hover, haccum⟩

/-- Once the total is over the cap it stays so, and until then nothing is dropped. -/
theorem Accumulated.accumulate {ch : BridgeChannel} {audio : List Bytes}
    (h : Accumulated ch audio) (payload : Bytes) :
    Accumulated (accumulate ch payload) (audio ++ [payload]) := by
  have hlength : (audio ++ [payload]).flatten.length =
      audio.flatten.length + payload.length := by
    simp
  rw [Accumulated, accumulate_maxAudioBytes, hlength]
  by_cases hwithin : audio.flatten.length ≤ ch.maxAudioBytes
  · obtain ⟨hover, haccum⟩ := h.within hwithin
    by_cases hfits : audio.flatten.length + payload.length ≤ ch.maxAudioBytes
    · rw [if_pos hfits, accumulate_of_fits hover (by rw [haccum]; exact hfits)]
      exact ⟨hover, by simp [haccum]⟩
    · rw [if_neg hfits, accumulate_of_exceeds hover (by rw [haccum]; omega)]
  · rw [if_neg (by omega), accumulate_of_overflow (h.exceeded hwithin)]
    exact h.exceeded hwithin

theorem Accumulated.pathBAudio {ch : BridgeChannel} {audio : List Bytes}
    (h : Accumulated ch audio) :
    pathBAudio ch =
      if audio.flatten.length ≤ ch.maxAudioBytes then some audio.flatten else none := by
  rw [Mrcp.pathBAudio]
  by_cases hwithin : audio.flatten.length ≤ ch.maxAudioBytes
  · obtain ⟨hover, haccum⟩ := h.within hwithin
    rw [if_pos hwithin, hover, if_neg Bool.false_ne_true, haccum]
  · rw [if_neg hwithin, if_pos (h.exceeded hwithin)]

/-- The lookup of a field in the decoded map. -/
theorem lookup_cborEntry (key : String) : ∀ entries : List (String × CborScalar),
    Dict.lookup (.tstr key) (entries.map cborEntry) =
      (Dict.lookup key entries).map CborScalar.item
  | [] => rfl
  | (k, v) :: entries => by
      have ih := lookup_cborEntry key entries
      rw [List.map_cons, cborEntry, Dict.lookup, Dict.lookup]
      by_cases hk : k = key
      · rw [if_pos hk, if_pos (congrArg CborKey.tstr hk)]
        rfl
      · rw [if_neg hk, if_neg (fun h => hk (CborKey.tstr.inj h))]
        exact ih

section Turn

variable {config : BridgeConfig} (turn : ClientTurn) (transcript : String)

/-- The frames still in the input. -/
structure Input (c : Connection config) (rest : List Frame) : Prop where
  input : c.input = rest.flatMap Frame.wire
  fits : ∀ f ∈ rest, f.Fits

/-- The channel of a turn whose audio has come as far as `audio`. -/
structure Opened (c : Connection config) (audio : List Bytes) : Prop where
  started : c.channel.started = true
  sessionId : c.channel.sessionId = utf8 turn.sessionId
  maxAudioBytes : c.channel.maxAudioBytes = config.maxAudioBytes
  accumulated : Accumulated c.channel audio

/-- Nothing has been asked or answered yet. -/
structure Quiet (c : Connection config) : Prop where
  requests : c.requests = []
  written : c.written = []

/-- The turn is over: one request, one RESULT. -/
structure Answered (c : Connection config) : Prop where
  heard : ∃ task, c.tasks = [task] ∧ Returned transcript task turn.audio
  requests : c.requests = (turn.request? config transcript).toList
  written : c.written.map Written.frame = [⟨frameResult, turn.nlsml config transcript⟩]

/-- The stages of the turn, each with a bound on the steps that are left; `k` is the
number of steps of the ASR stream. -/
inductive TurnAt (k : Nat) : Connection config → Nat → Prop
  | opening {c : Connection config} {rest : List Frame} (input : Input c rest)
      (known : rest.filter knownType =
        ⟨frameStart, turn.payload⟩ ::
          (turn.audio.map (Frame.mk frameAudio) ++ [⟨frameEos, []⟩]))
      (channel : c.channel = {}) (tasks : c.tasks = []) (phase : c.phase = .reading)
      (quiet : Quiet c) : TurnAt k c (rest.length + k + 3)
  | hearing {c : Connection config} {rest : List Frame} {task : RunAsr config.asr}
      {heard pending todo : List Bytes} {j : Nat} (input : Input c rest)
      (known : rest.filter knownType = todo.map (Frame.mk frameAudio) ++ [⟨frameEos, []⟩])
      (audio : heard ++ pending ++ todo = turn.audio) (opened : Opened turn c (heard ++ pending))
      (eosSeen : c.channel.eosSeen = false) (queue : c.channel.audioQueue = pending.map some)
      (tasks : c.tasks = [task]) (listening : Listening transcript task heard (pending ++ todo) j)
      (phase : c.phase = .reading) (quiet : Quiet c) : TurnAt k c (rest.length + j + 3)
  | awaiting {c : Connection config} {rest : List Frame} {task : RunAsr config.asr}
      {heard pending : List Bytes} {j : Nat} (input : Input c rest)
      (known : rest.filter knownType = []) (audio : heard ++ pending = turn.audio)
      (opened : Opened turn c turn.audio)
      (queue : c.channel.audioQueue = pending.map some ++ [none])
      (tasks : c.tasks = [task]) (listening : Listening transcript task heard (pending ++ []) j)
      (phase : c.phase = .awaitingAsr) (quiet : Quiet c) : TurnAt k c (rest.length + j + 3)
  | speaking {c : Connection config} {rest : List Frame} {task : RunAsr config.asr} {j : Nat}
      (input : Input c rest) (known : rest.filter knownType = [])
      (opened : Opened turn c turn.audio) (tasks : c.tasks = [task])
      (speaking : Speaking transcript task turn.audio j)
      (phase : c.phase = .awaitingAsr) (quiet : Quiet c) : TurnAt k c (rest.length + j + 3)
  | returned {c : Connection config} {rest : List Frame} {task : RunAsr config.asr}
      (input : Input c rest) (known : rest.filter knownType = [])
      (opened : Opened turn c turn.audio) (tasks : c.tasks = [task])
      (returned : Returned transcript task turn.audio)
      (phase : c.phase = .awaitingAsr) (quiet : Quiet c) : TurnAt k c (rest.length + 2)
  | answered {c : Connection config} {rest : List Frame} (input : Input c rest)
      (known : rest.filter knownType = []) (phase : c.phase = .reading)
      (answered : Answered turn transcript c) : TurnAt k c (rest.length + 1)
  | closed {c : Connection config} (phase : c.phase = .closed)
      (answered : Answered turn transcript c) : TurnAt k c 0

variable {turn transcript}

theorem Opened.request? {c : Connection config} (h : Opened turn c turn.audio)
    (transcript : String) : c.request? transcript = turn.request? config transcript := by
  rw [Connection.request?, ClientTurn.request?, h.accumulated.pathBAudio, h.maxAudioBytes,
    h.sessionId]
  have hsession : utf8 turn.sessionId = [] ↔ turn.sessionId = "" := by
    constructor
    · intro hnil
      exact utf8_injective (hnil.trans rfl)
    · intro hnil
      rw [hnil]
      rfl
  simp only [hsession]
  rfl

theorem Opened.nlsmlFor {c : Connection config} (h : Opened turn c turn.audio)
    (transcript : String) : c.nlsmlFor transcript = turn.nlsml config transcript := by
  rw [Connection.nlsmlFor, ClientTurn.nlsml, h.request?]

section Steps

variable {c c' : Connection config} {f : Frame} {rest : List Frame} {k m : Nat}

theorem Input.readNext (h : Input c (f :: rest)) :
    c.readNext = (c.taken f (rest.flatMap Frame.wire)).dispatch f := by
  apply Connection.readNext_of_frame
  rw [h.input, List.flatMap_cons]
  exact readFrame_wire (h.fits f (by simp)) _

theorem Input.taken (h : Input c (f :: rest)) :
    Input (c.taken f (rest.flatMap Frame.wire)) rest :=
  ⟨rfl, fun g hg => h.fits g (by simp [hg])⟩

theorem dispatch_of_not_known (h : ¬ knownType f = true) : c.dispatch f = c := by
  simp only [knownType, Bool.or_eq_true, decide_eq_true_eq, not_or] at h
  obtain ⟨⟨⟨hstart, haudio⟩, heos⟩, hstop⟩ := h
  exact Connection.dispatch_unknown hstart haudio heos hstop

/-- A frame at the head of the input is unknown, or the next of the known ones. -/
theorem filter_known_cons {expected : List Frame}
    (h : (f :: rest).filter knownType = expected) :
    (¬ knownType f = true ∧ rest.filter knownType = expected) ∨
      ∃ more, expected = f :: more ∧ rest.filter knownType = more := by
  by_cases hf : knownType f = true
  · rw [List.filter_cons_of_pos hf] at h
    exact Or.inr ⟨_, h.symm, rfl⟩
  · rw [List.filter_cons_of_neg hf] at h
    exact Or.inl ⟨hf, h⟩

/-- The fields that the handler takes from the decoded map. -/
theorem openChannel_sessionId (c : Connection config) :
    (c.openChannel (turn.fields.entries.map cborEntry)).channel.sessionId =
      utf8 turn.sessionId := by
  change utf8 (Connection.textField config (turn.fields.entries.map cborEntry) "session_id" "") = _
  have hfield : Dict.lookup "session_id" turn.fields.entries = some (.str turn.sessionId) :=
    turn.sessionId_eq
  rw [Connection.textField, lookup_cborEntry, hfield]
  rfl

/-- START opens the channel and the ASR stream. -/
theorem TurnAt.start (hasr : ∃ ys, config.asr.Drains k config.asr.start
      (numberFrom 0 turn.audio) ys ∧ ys.foldl takeFinal "" = transcript)
    (input : Input c (⟨frameStart, turn.payload⟩ :: rest))
    (known : rest.filter knownType = turn.audio.map (Frame.mk frameAudio) ++ [⟨frameEos, []⟩])
    (channel : c.channel = {}) (tasks : c.tasks = []) (phase : c.phase = .reading)
    (quiet : Quiet c) : TurnAt turn transcript k c.readNext (rest.length + k + 3) := by
  have hdecode : cborDecode (config.spareCalls + 2) turn.payload =
      .ok (.map (turn.fields.entries.map cborEntry), turn.payload.length) := by
    have h := cborDecode_encodeMap config.spareCalls turn.encoded []
    rw [List.append_nil] at h
    exact h
  rw [input.readNext, Connection.dispatch_start rfl, Connection.handleStart_of_map hdecode]
  have hover : c.channel.audioOverflow = false := by rw [channel]
  have haccum : c.channel.audioAccum = [] := by rw [channel]
  refine @TurnAt.hearing _ _ _ _ _ rest {} [] [] turn.audio k ?_ known rfl ?_ ?_ ?_ ?_ ?_ phase
    ⟨quiet.requests, quiet.written⟩
  · exact ⟨rfl, input.taken.fits⟩
  · exact ⟨rfl, openChannel_sessionId _, rfl, accumulated_nil hover haccum⟩
  · change c.channel.eosSeen = false
    rw [channel]
  · change c.channel.audioQueue = []
    rw [channel]
  · exact congrArg (· ++ [({} : RunAsr config.asr)]) tasks
  · exact ⟨rfl, rfl, rfl, rfl, hasr⟩

/-- AUDIO goes to the accumulator and to the queue. -/
theorem TurnAt.audio {task : RunAsr config.asr} {heard pending todo : List Bytes} {pcm : Bytes}
    {j : Nat} (input : Input c (⟨frameAudio, pcm⟩ :: rest))
    (known : rest.filter knownType = todo.map (Frame.mk frameAudio) ++ [⟨frameEos, []⟩])
    (audio : heard ++ pending ++ pcm :: todo = turn.audio)
    (opened : Opened turn c (heard ++ pending))
    (eosSeen : c.channel.eosSeen = false) (queue : c.channel.audioQueue = pending.map some)
    (tasks : c.tasks = [task])
    (listening : Listening transcript task heard (pending ++ pcm :: todo) j)
    (phase : c.phase = .reading) (quiet : Quiet c) :
    TurnAt turn transcript k c.readNext (rest.length + j + 3) := by
  rw [input.readNext, Connection.dispatch_audio rfl,
    Connection.handleAudio_of_started
      (show (c.taken _ _).channel.started = true from opened.started)]
  refine @TurnAt.hearing _ _ _ _ _ rest task heard (pending ++ [pcm]) todo j ?_ known ?_ ?_ ?_ ?_
    tasks ?_ phase ⟨quiet.requests, quiet.written⟩
  · exact ⟨rfl, input.taken.fits⟩
  · rw [← audio]
    simp
  · refine ⟨?_, ?_, ?_, ?_⟩
    · exact (accumulate_started _ _).trans opened.started
    · exact (accumulate_sessionId _ _).trans opened.sessionId
    · exact (accumulate_maxAudioBytes _ _).trans opened.maxAudioBytes
    · rw [← List.append_assoc]
      exact opened.accumulated.accumulate pcm
  · exact (accumulate_eosSeen _ _).trans eosSeen
  · change (accumulate c.channel pcm).audioQueue ++ [some pcm] = _
    rw [accumulate_audioQueue, queue, List.map_append]
    rfl
  · rw [List.append_assoc]
    exact listening

/-- EOS ends the audio, and the handler waits for the ASR. -/
theorem TurnAt.eos {task : RunAsr config.asr} {heard pending : List Bytes} {j : Nat}
    (input : Input c (⟨frameEos, []⟩ :: rest)) (known : rest.filter knownType = [])
    (audio : heard ++ pending = turn.audio) (opened : Opened turn c (heard ++ pending))
    (eosSeen : c.channel.eosSeen = false) (queue : c.channel.audioQueue = pending.map some)
    (tasks : c.tasks = [task]) (listening : Listening transcript task heard (pending ++ []) j)
    (quiet : Quiet c) : TurnAt turn transcript k c.readNext (rest.length + j + 3) := by
  have hseen : ¬ (c.taken ⟨frameEos, []⟩ (rest.flatMap Frame.wire)).channel.eosSeen = true := by
    change ¬ c.channel.eosSeen = true
    rw [eosSeen]
    exact Bool.false_ne_true
  have htasks : (c.taken ⟨frameEos, []⟩ (rest.flatMap Frame.wire)).tasks ≠ [] := by
    change c.tasks ≠ []
    rw [tasks]
    exact List.cons_ne_nil _ _
  rw [input.readNext, Connection.dispatch_eos rfl,
    Connection.handleEos_of_started (show (c.taken _ _).channel.started = true from opened.started)
      hseen htasks]
  rw [audio] at opened
  refine .awaiting ⟨rfl, input.taken.fits⟩ known audio ?_ ?_ tasks listening rfl
    ⟨quiet.requests, quiet.written⟩
  · exact ⟨opened.started, opened.sessionId, opened.maxAudioBytes, opened.accumulated⟩
  · change c.channel.audioQueue ++ [none] = _
    rw [queue]

/-- Reading the next frame, or the end of the input. -/
theorem TurnAt.readNext (hasr : ∃ ys, config.asr.Drains k config.asr.start
      (numberFrom 0 turn.audio) ys ∧ ys.foldl takeFinal "" = transcript)
    (h : TurnAt turn transcript k c m) (hphase : c.phase = .reading) :
    ∃ m', m' < m ∧ TurnAt turn transcript k c.readNext m' := by
  cases h with
  | @opening rest input known channel tasks phase quiet =>
    cases rest with
    | nil => cases known
    | cons f rest =>
      refine ⟨rest.length + k + 3, by simp, ?_⟩
      rcases filter_known_cons known with ⟨hf, hknown⟩ | ⟨more, hhead, hknown⟩
      · rw [input.readNext, dispatch_of_not_known hf]
        exact .opening input.taken hknown channel tasks phase ⟨quiet.requests, quiet.written⟩
      · rw [List.cons.injEq] at hhead
        obtain ⟨rfl, rfl⟩ := hhead
        exact .start hasr input hknown channel tasks phase quiet
  | @hearing rest task heard pending todo j input known audio opened eosSeen queue tasks
      listening phase quiet =>
    cases rest with
    | nil =>
      have hlength := congrArg List.length known
      simp at hlength
    | cons f rest =>
      refine ⟨rest.length + j + 3, by simp, ?_⟩
      rcases filter_known_cons known with ⟨hf, hknown⟩ | ⟨more, hhead, hknown⟩
      · rw [input.readNext, dispatch_of_not_known hf]
        exact .hearing input.taken hknown audio
          ⟨opened.started, opened.sessionId, opened.maxAudioBytes, opened.accumulated⟩ eosSeen
          queue tasks listening phase ⟨quiet.requests, quiet.written⟩
      · cases todo with
        | nil =>
          rw [List.map_nil, List.nil_append, List.cons.injEq] at hhead
          obtain ⟨rfl, rfl⟩ := hhead
          rw [List.append_nil] at audio
          exact .eos input hknown audio opened eosSeen queue tasks listening quiet
        | cons pcm todo =>
          rw [List.map_cons, List.cons_append, List.cons.injEq] at hhead
          obtain ⟨rfl, rfl⟩ := hhead
          exact .audio input hknown audio opened eosSeen queue tasks listening phase quiet
  | awaiting _ _ _ _ _ _ _ phase => rw [phase] at hphase; cases hphase
  | speaking _ _ _ _ _ phase => rw [phase] at hphase; cases hphase
  | returned _ _ _ _ _ phase => rw [phase] at hphase; cases hphase
  | @answered rest input known phase answered =>
    cases rest with
    | nil =>
      have hread : readFrame c.input = .incomplete := by
        rw [input.input]
        rfl
      obtain ⟨task, htasks, hreturned⟩ := answered.heard
      refine ⟨0, by simp, ?_⟩
      rw [Connection.readNext, hread]
      refine .closed rfl ⟨⟨task, ?_, hreturned⟩, answered.requests, answered.written⟩
      have hstatus : ¬ task.status = .running := by
        rw [hreturned.status]
        intro hrunning
        cases hrunning
      simp only [Connection.close, htasks]
      simp [hstatus]
    | cons f rest =>
      refine ⟨rest.length + 1, by simp, ?_⟩
      rcases filter_known_cons known with ⟨hf, hknown⟩ | ⟨more, hhead, hknown⟩
      · rw [input.readNext, dispatch_of_not_known hf]
        exact .answered input.taken hknown phase
          ⟨answered.heard, answered.requests, answered.written⟩
      · cases hhead
  | closed phase => rw [phase] at hphase; cases hphase

theorem getElem?_singleton {α : Type} {x y : α} {i : Nat} (h : [x][i]? = some y) :
    i = 0 ∧ y = x := by
  cases i with
  | zero => exact ⟨rfl, (Option.some.inj h).symm⟩
  | succ i => cases h

/-- A step of an ASR task. -/
theorem TurnAt.asrStep {i : Nat} (h : TurnAt turn transcript k c m)
    (hstep : c.asrStep i = some c') : ∃ m', m' < m ∧ TurnAt turn transcript k c' m' := by
  obtain ⟨t, t', queue', hget, hrunning, hmoves, rfl⟩ := Connection.asrStep_eq_some hstep
  have hended : ∀ {task : RunAsr config.asr}, c.tasks = [task] →
      Returned transcript task turn.audio → False := by
    intro task htasks hreturned
    rw [htasks] at hget
    obtain ⟨_, rfl⟩ := getElem?_singleton hget
    rw [hreturned.status] at hrunning
    cases hrunning
  have hcurrent : ∀ {task : RunAsr config.asr}, c.tasks = [task] →
      t = task ∧ c.tasks.set i t' = [t'] := by
    intro task htasks
    rw [htasks] at hget
    obtain ⟨rfl, rfl⟩ := getElem?_singleton hget
    exact ⟨rfl, by rw [htasks]; rfl⟩
  cases h with
  | opening _ _ _ tasks =>
    rw [tasks] at hget
    cases hget
  | @hearing rest task heard pending todo j input known audio opened eosSeen queue tasks
      listening phase quiet =>
    obtain ⟨rfl, htasks⟩ := hcurrent tasks
    rw [queue, ← List.append_nil (pending.map some)] at hmoves
    have htail : ∀ (pcm : Bytes) (rest : List (Option Bytes)), [] ≠ some pcm :: rest := by simp
    rcases listening.moves htail hmoves with
      ⟨heard', pending', j', hlt, hqueue, hheard, hlistening⟩ | ⟨_, hnil, _⟩
    · refine ⟨rest.length + j' + 3, by omega, ?_⟩
      rw [List.append_nil] at hqueue
      refine .hearing ⟨input.input, input.fits⟩ known ?_ ?_ eosSeen hqueue htasks hlistening phase
        ⟨quiet.requests, quiet.written⟩
      · rw [hheard]
        exact audio
      · rw [hheard]
        exact ⟨opened.started, opened.sessionId, opened.maxAudioBytes, opened.accumulated⟩
    · cases hnil
  | @awaiting rest task heard pending j input known audio opened queue tasks listening phase
      quiet =>
    obtain ⟨rfl, htasks⟩ := hcurrent tasks
    rw [queue] at hmoves
    have htail : ∀ (pcm : Bytes) (rest : List (Option Bytes)), [none] ≠ some pcm :: rest := by
      simp
    have hopened : Opened turn { c with
        channel := { c.channel with audioQueue := queue' }
        tasks := c.tasks.set i t' } turn.audio :=
      ⟨opened.started, opened.sessionId, opened.maxAudioBytes, opened.accumulated⟩
    rcases listening.moves htail hmoves with
      ⟨heard', pending', j', hlt, hqueue, hheard, hlistening⟩ | ⟨hnil, htail', hspeaking⟩
    · exact ⟨rest.length + j' + 3, by omega, .awaiting ⟨input.input, input.fits⟩ known
        (hheard.trans audio) hopened hqueue htasks hlistening phase
        ⟨quiet.requests, quiet.written⟩⟩
    · obtain ⟨j', hlt, hspeaking⟩ := hspeaking rfl
      rw [hnil, List.append_nil] at audio
      rw [audio] at hspeaking
      exact ⟨rest.length + j' + 3, by omega, .speaking ⟨input.input, input.fits⟩ known hopened
        htasks hspeaking phase ⟨quiet.requests, quiet.written⟩⟩
  | @speaking rest task j input known opened tasks speaking phase quiet =>
    obtain ⟨rfl, htasks⟩ := hcurrent tasks
    have hopened : Opened turn { c with
        channel := { c.channel with audioQueue := queue' }
        tasks := c.tasks.set i t' } turn.audio :=
      ⟨opened.started, opened.sessionId, opened.maxAudioBytes, opened.accumulated⟩
    obtain ⟨_, ⟨j', hlt, hspeaking⟩ | hreturned⟩ := speaking.moves hmoves
    · exact ⟨rest.length + j' + 3, by omega, .speaking ⟨input.input, input.fits⟩ known hopened
        htasks hspeaking phase ⟨quiet.requests, quiet.written⟩⟩
    · exact ⟨rest.length + 2, by omega, .returned ⟨input.input, input.fits⟩ known hopened htasks
        hreturned phase ⟨quiet.requests, quiet.written⟩⟩
  | returned _ _ _ tasks returned => exact (hended tasks returned).elim
  | answered _ _ _ answered =>
    obtain ⟨task, htasks, hreturned⟩ := answered.heard
    exact (hended htasks hreturned).elim
  | closed _ answered =>
    obtain ⟨task, htasks, hreturned⟩ := answered.heard
    exact (hended htasks hreturned).elim

/-- The handler waits while the task is running. -/
theorem finishEos_of_running {task : RunAsr config.asr} (htasks : c.tasks = [task])
    (hrunning : task.status = .running) : c.finishEos = none := by
  rw [Connection.finishEos, htasks, List.getLast?_singleton]
  cases c.phase with
  | reading => rfl
  | closed => rfl
  | awaitingAsr =>
    simp only [hrunning]

theorem finishEos_of_phase (hphase : c.phase ≠ .awaitingAsr) : c.finishEos = none := by
  rw [Connection.finishEos]
  split
  next task h _ => exact absurd h hphase
  next => rfl

/-- The ASR has returned: the RESULT is written. -/
theorem TurnAt.finishEos (hsize : (turn.nlsml config transcript).length + 1 < 2 ^ 32)
    (h : TurnAt turn transcript k c m) (hstep : c.finishEos = some c') :
    ∃ m', m' < m ∧ TurnAt turn transcript k c' m' := by
  have hreading : ∀ {phase : HandlerPhase}, c.phase = phase → phase ≠ .awaitingAsr → False := by
    intro phase hphase hne
    rw [finishEos_of_phase (by rw [hphase]; exact hne)] at hstep
    cases hstep
  cases h with
  | opening _ _ _ _ phase => exact (hreading phase (by decide)).elim
  | hearing _ _ _ _ _ _ _ _ phase => exact (hreading phase (by decide)).elim
  | awaiting _ _ _ _ _ tasks listening =>
    rw [finishEos_of_running tasks listening.status] at hstep
    cases hstep
  | speaking _ _ _ tasks speaking =>
    rw [finishEos_of_running tasks speaking.status] at hstep
    cases hstep
  | @returned rest task input known opened tasks returned phase quiet =>
    refine ⟨rest.length + 1, by omega, ?_⟩
    rw [Connection.finishEos_of_returned phase (by rw [tasks]; rfl) returned.status] at hstep
    have hnlsml : c.nlsmlFor task.finalText = turn.nlsml config transcript := by
      rw [returned.finalText]
      exact opened.nlsmlFor transcript
    rw [← Option.some.inj hstep, Connection.sendResult_of_short (by rw [hnlsml]; exact hsize)]
    refine .answered ⟨input.input, input.fits⟩ known rfl ⟨⟨task, tasks, returned⟩, ?_, ?_⟩
    · simp only
      rw [quiet.requests, returned.finalText, opened.request?, List.nil_append]
    · simp only
      rw [quiet.written, hnlsml]
      rfl
  | answered _ _ phase => exact (hreading phase (by decide)).elim
  | closed phase => exact (hreading phase (by decide)).elim

/-- Until the connection is closed, a step is possible. -/
theorem TurnAt.progress (h : TurnAt turn transcript k c m) :
    (∃ label, label ≠ .timeout ∧ (c.step label).isSome) ∨
      (c.phase = .closed ∧ Answered turn transcript c) := by
  have hread : c.phase = .reading →
      ∃ label, label ≠ .timeout ∧ (c.step label).isSome := by
    intro hphase
    refine ⟨.read, by decide, ?_⟩
    rw [Connection.step, if_pos hphase]
    rfl
  have hasr : ∀ {task : RunAsr config.asr}, c.tasks = [task] →
      (task.step c.channel.audioQueue).isSome →
      ∃ label, label ≠ .timeout ∧ (c.step label).isSome := by
    intro task htasks hsome
    refine ⟨.asr 0, by decide, ?_⟩
    obtain ⟨r, hr⟩ := Option.isSome_iff_exists.mp hsome
    rw [Connection.step, Connection.asrStep, htasks, List.getElem?_cons_zero]
    simp only [hr]
    rfl
  cases h with
  | opening _ _ _ _ phase => exact Or.inl (hread phase)
  | hearing _ _ _ _ _ _ _ _ phase => exact Or.inl (hread phase)
  | awaiting _ _ _ _ queue tasks listening =>
    refine Or.inl (hasr tasks ?_)
    rw [List.append_nil] at listening
    rw [queue]
    exact listening.enabled
  | speaking _ _ _ tasks speaking => exact Or.inl (hasr tasks (speaking.enabled _))
  | returned _ _ _ tasks returned phase =>
    refine Or.inl ⟨.finish, by decide, ?_⟩
    rw [Connection.step,
      Connection.finishEos_of_returned phase (by rw [tasks]; rfl) returned.status]
    rfl
  | answered _ _ phase => exact Or.inl (hread phase)
  | closed phase answered => exact Or.inr ⟨phase, answered⟩

theorem TurnAt.step (hasr : ∃ ys, config.asr.Drains k config.asr.start
      (numberFrom 0 turn.audio) ys ∧ ys.foldl takeFinal "" = transcript)
    (hsize : (turn.nlsml config transcript).length + 1 < 2 ^ 32) {label : Connection.Label}
    (h : TurnAt turn transcript k c m) (hlabel : label ≠ .timeout)
    (hstep : c.step label = some c') : ∃ m', m' < m ∧ TurnAt turn transcript k c' m' := by
  cases label with
  | read =>
    rw [Connection.step] at hstep
    split_ifs at hstep with hphase
    rw [← Option.some.inj hstep]
    exact h.readNext hasr hphase
  | asr i => exact h.asrStep hstep
  | finish => exact h.finishEos hsize hstep
  | timeout => exact absurd rfl hlabel

end Steps

theorem turnAt_connected (turn : ClientTurn) (transcript : String) (k : Nat) :
    TurnAt turn transcript k (connected config turn.wire) (turn.frames.length + k + 3) :=
  .opening ⟨rfl, turn.fits⟩ turn.known rfl rfl rfl ⟨rfl, rfl⟩

/-- **A conforming client gets one RESULT.**  If the ASR stream takes its chunks to the
end and returns, and the document fits a frame's length field, then no schedule goes on
forever, and none stops before the connection is closed, the ASR has received the
payloads as chunks 0, 1, 2, …, the orchestrator has been asked with their concatenation,
or with no audio if that is over the cap, and exactly the RESULT has been written. -/
theorem turn_answered_once (turn : ClientTurn) {k : Nat} {ys : List PartialTranscript}
    (hasr : config.asr.Drains k config.asr.start (numberFrom 0 turn.audio) ys)
    (hsize : (turn.nlsml config (ys.foldl takeFinal "")).length + 1 < 2 ^ 32)
    {labels : List Connection.Label} (htimeout : Connection.Label.timeout ∉ labels)
    {c : Connection config}
    (hrun : runSteps Connection.step (connected config turn.wire) labels = some c) :
    labels.length ≤ turn.frames.length + k + 3 ∧
      ((∃ label, label ≠ .timeout ∧ (c.step label).isSome) ∨
        (c.phase = .closed ∧
          c.tasks.map RunAsr.received = [numberFrom 0 turn.audio] ∧
          c.requests = (turn.request? config (ys.foldl takeFinal "")).toList ∧
          c.written.map Written.frame =
            [⟨frameResult, turn.nlsml config (ys.foldl takeFinal "")⟩])) := by
  have hlabels : ∀ label ∈ labels, label ≠ Connection.Label.timeout := by
    intro label hmem hlabel
    exact htimeout (hlabel ▸ hmem)
  obtain ⟨m, hlength, hat⟩ := runSteps_bounded
    (fun h hlabel hstep => TurnAt.step ⟨ys, hasr, rfl⟩ hsize h hlabel hstep)
    (turnAt_connected turn _ k) hlabels hrun
  refine ⟨by omega, ?_⟩
  rcases hat.progress with hnext | ⟨hphase, hanswered⟩
  · exact Or.inl hnext
  · obtain ⟨task, htasks, hreturned⟩ := hanswered.heard
    refine Or.inr ⟨hphase, ?_, hanswered.requests, hanswered.written⟩
    rw [htasks, List.map_singleton, hreturned.received]

end Turn

/-- Two payloads, one of them empty, and a frame of an unknown type. -/
def shortTurn : ClientTurn where
  fields := startMap "c1" "s1" 16000 "LPCM"
  channelId := "c1"
  sessionId := "s1"
  sampleRate := 16000
  codec := "LPCM"
  audio := [[1, 0], []]
  payload := startBytes (utf8 "c1") (utf8 "s1") 16000 (utf8 "LPCM")
  frames := [⟨frameStart, startBytes (utf8 "c1") (utf8 "s1") 16000 (utf8 "LPCM")⟩,
    ⟨0x7f, [9]⟩, ⟨frameAudio, [1, 0]⟩, ⟨frameAudio, []⟩, ⟨frameEos, []⟩]
  channelId_eq := rfl
  sessionId_eq := rfl
  sampleRate_eq := rfl
  codec_eq := rfl
  encoded := cborEncodeMap_startMap (by decide) (by decide) (by decide) (by decide)
  known := rfl
  fits := by
    intro f hf
    have hlength : ∀ b ∈ [⟨frameStart, startBytes (utf8 "c1") (utf8 "s1") 16000 (utf8 "LPCM")⟩,
        ⟨0x7f, [9]⟩, ⟨frameAudio, [1, 0]⟩, ⟨frameAudio, []⟩, (⟨frameEos, []⟩ : Frame)],
        b.payload.length ≤ 1024 * 1024 := by
      decide
    exact hlength f hf

/-- The stream of the scripted backend. -/
theorem scriptedAsr_drains (script : Nat → String) : ∀ (audio : List Bytes) (n : Nat),
    (scriptedAsr script).Drains (audio.length + 3) (.listening n) (numberFrom n audio)
      [⟨script (n + audio.length), true, 0, 0⟩]
  | [], n => by
      have hstop : (scriptedAsr script).Drained 1 .finished [] := .stop rfl
      have hspeak : (scriptedAsr script).Drained 2 (.speaking n) [⟨script n, true, 0, 0⟩] :=
        .emit rfl hstop
      exact .finish rfl hspeak
  | pcm :: audio, n => by
      have ih := scriptedAsr_drains script audio (n + 1)
      rw [List.length_cons, ← Nat.succ_add_eq_add_succ n audio.length]
      exact .pull rfl ih

/-- The frames, with a step of the stream in between; the stream to its end; the answer, and
the end of the connection. -/
def shortSchedule : List Connection.Label :=
  [.read, .read, .read, .asr 0, .read, .read, .asr 0, .asr 0, .asr 0, .asr 0, .finish, .read]

def helloConfig : BridgeConfig :=
  scriptedConfig fun _ => "hello"

theorem nlsml_scripted (turn : ClientTurn) (script : Nat → String) (transcript : String) :
    turn.nlsml (scriptedConfig script) transcript =
      renderNlsml transcript (9 / 10) placeholderIntent := rfl

/-- A closed connection whose streams have ended is at rest. -/
theorem step_of_ended {config : BridgeConfig} {c : Connection config} (hphase : c.phase = .closed)
    (htasks : ∀ task ∈ c.tasks, task.status ≠ .running) {label : Connection.Label}
    (hlabel : label ≠ .timeout) : c.step label = none := by
  cases label with
  | read => simp [Connection.step, hphase]
  | asr i =>
      simp only [Connection.step, Connection.asrStep]
      cases htask : c.tasks[i]? with
      | none => rfl
      | some task =>
          have hended := htasks task (List.mem_of_getElem? htask)
          simp [RunAsr.step, hended]
  | finish => simp [Connection.step, Connection.finishEos, hphase]
  | timeout => exact absurd rfl hlabel

theorem turn_answered_once_short :
    ∃ c, runSteps Connection.step (connected helloConfig shortTurn.wire) shortSchedule = some c ∧
      shortSchedule.length ≤ shortTurn.frames.length + 5 + 3 ∧ c.phase = .closed ∧
      c.tasks.map RunAsr.received = [numberFrom 0 shortTurn.audio] ∧
      c.requests = (shortTurn.request? helloConfig "hello").toList ∧
      c.written.map Written.frame = [⟨frameResult, shortTurn.nlsml helloConfig "hello"⟩] := by
  have hrun : (runSteps Connection.step (connected helloConfig shortTurn.wire)
      shortSchedule).map (fun c => (c.phase, c.tasks.map RunAsr.status)) =
        some (.closed, [.returned]) := by
    decide +kernel
  obtain ⟨c, hc, hview⟩ := Option.map_eq_some_iff.mp hrun
  obtain ⟨hphase, htasks⟩ := Prod.mk.inj hview
  have hasr : helloConfig.asr.Drains 5 helloConfig.asr.start (numberFrom 0 shortTurn.audio)
      [⟨"hello", true, 0, 0⟩] :=
    scriptedAsr_drains (fun _ => "hello") [[1, 0], []] 0
  have hfinal : [(⟨"hello", true, 0, 0⟩ : PartialTranscript)].foldl takeFinal "" = "hello" := rfl
  have hsize : (shortTurn.nlsml helloConfig "hello").length + 1 < 2 ^ 32 := by
    have htext : (utf8 (xmlEscape "hello")).length = 5 := by decide +kernel
    have hintent : (utf8 (xmlEscape placeholderIntent)).length = 18 := by decide +kernel
    have hconfidence : (utf8 (fixed2 (9 / 10))).length = 4 := by decide +kernel
    have hlength := length_renderNlsml_le "hello" (9 / 10) placeholderIntent
    rw [helloConfig, nlsml_scripted]
    omega
  have h := turn_answered_once shortTurn hasr (by rw [hfinal]; exact hsize) (by decide) hc
  rw [hfinal] at h
  refine ⟨c, hc, h.1, h.2.resolve_left ?_⟩
  rintro ⟨label, hlabel, hstep⟩
  rw [step_of_ended hphase ?_ hlabel] at hstep
  · cases hstep
  · intro task htask
    have hstatus := List.mem_map_of_mem (f := RunAsr.status) htask
    rw [htasks, List.mem_singleton] at hstatus
    rw [hstatus]
    exact nofun

/-- A larger payload than `read_frame` takes. -/
theorem readFrame_oversized {f : Frame} (hlong : maxFrameSize < f.payload.length)
    (hlength : f.payload.length + 1 < 2 ^ 32) (rest : Bytes) :
    readFrame (f.wire ++ rest) = .invalidSize (f.payload.length + 1) := by
  simp only [Frame.wire, packU32, List.cons_append, List.nil_append, readFrame,
    unpackU32_packU32 hlength]
  rw [if_pos (Or.inr (by omega))]

theorem replaceChar_of_not_mem {old : Char} {new text : List Char} (h : old ∉ text) :
    replaceChar old new text = text := by
  induction text with
  | nil => rfl
  | cons x text ih =>
    rw [List.mem_cons, not_or] at h
    have ih := ih h.2
    rw [replaceChar] at ih ⊢
    rw [List.flatMap_cons, if_neg (Ne.symm h.1), ih]
    rfl

/-- The document is longer than a plain transcript. -/
theorem length_le_renderNlsml {text : List Char}
    (h : '&' ∉ text ∧ '<' ∉ text ∧ '>' ∉ text) (confidence : ℚ) (intentId : String) :
    (utf8 (String.ofList text)).length ≤
      (renderNlsml (String.ofList text) confidence intentId).length := by
  have hplain : xmlEscape (String.ofList text) = String.ofList text := by
    have htext : (String.ofList text).toList = text := String.toList_ofList
    rw [xmlEscape, htext, replaceChar_of_not_mem h.1, replaceChar_of_not_mem h.2.1,
      replaceChar_of_not_mem h.2.2]
  rw [renderNlsml, hplain]
  simp only [utf8_append, List.length_append]
  omega

theorem length_le_nlsmlFor {config : BridgeConfig} {text : List Char}
    (h : '&' ∉ text ∧ '<' ∉ text ∧ '>' ∉ text) (c : Connection config) :
    (utf8 (String.ofList text)).length ≤ (c.nlsmlFor (String.ofList text)).length := by
  rw [Connection.nlsmlFor_eq]
  exact length_le_renderNlsml h _ _

/-- The START of a client with a channel id of 2^20 letters. -/
def oversizedStart : Bytes :=
  startBytes (utf8 (String.ofList (List.replicate (2 ^ 20) 'A'))) (utf8 "s1") 16000 (utf8 "LPCM")

def oversizedWire : Bytes :=
  [⟨frameStart, oversizedStart⟩, (⟨frameEos, []⟩ : Frame)].flatMap Frame.wire

theorem length_oversizedStart :
    2 ^ 20 < oversizedStart.length ∧ oversizedStart.length < 2 ^ 20 + 100 := by
  have hname := length_utf8_replicate (2 ^ 20)
  have hrest : ∀ id : Bytes, (startBytes id (utf8 "s1") 16000 (utf8 "LPCM")).length =
      id.length + (cborEncodeHead 3 id.length).length + 52 := by
    intro id
    have hkey : (tstrBytes (utf8 "channel_id")).length = 11 := by decide
    have hrest : (tstrBytes (utf8 "session_id") ++ (tstrBytes (utf8 "s1") ++
        (tstrBytes (utf8 "sample_rate") ++ (cborEncodeHead 0 16000 ++
          (tstrBytes (utf8 "codec") ++ (tstrBytes (utf8 "LPCM") ++ [])))))).length = 40 := by
      decide +kernel
    have hhead : (cborEncodeHead 5 4).length = 1 := by decide
    simp only [startBytes, List.length_append] at hrest ⊢
    rw [hhead, hkey, tstrBytes, List.length_append]
    omega
  have hhead :=
    length_cborEncodeHead_le 3 (utf8 (String.ofList (List.replicate (2 ^ 20) 'A'))).length
  rw [oversizedStart, hrest, hname]
  rw [hname] at hhead
  omega

/-- The transcript alone takes 4 GiB. -/
def longConfig : BridgeConfig :=
  scriptedConfig fun _ => String.ofList (List.replicate (2 ^ 32) 'A')

/-- A turn without audio. -/
def silentWire : Bytes :=
  [⟨frameStart, startBytes (utf8 "c1") (utf8 "s1") 16000 (utf8 "LPCM")⟩,
    (⟨frameEos, []⟩ : Frame)].flatMap Frame.wire

theorem silent_returned (script : Nat → String) :
    ∃ c task, runSteps Connection.step (connected (scriptedConfig script) silentWire)
        [.read, .read, .asr 0, .asr 0, .asr 0] = some c ∧
      c.phase = .awaitingAsr ∧ c.tasks = [task] ∧ task.status = .returned ∧
      task.finalText = script 0 ∧ c.written = [] :=
  ⟨_, _, rfl, rfl, rfl, rfl, rfl, rfl⟩

/-- A START that is too large ends the connection, and so does a document that is too
long: in both cases nothing is written. -/
theorem turn_not_answered :
    (cborEncodeMap (startMap (String.ofList (List.replicate (2 ^ 20) 'A')) "s1" 16000 "LPCM") =
        .ok oversizedStart ∧
      ∃ c, runSteps Connection.step (connected helloConfig oversizedWire) [.read] = some c ∧
        c.phase = .closed ∧ c.written = []) ∧
    ∃ c, runSteps Connection.step (connected longConfig silentWire)
        ([.read, .read, .asr 0, .asr 0, .asr 0] ++ [.finish]) = some c ∧
      c.phase = .closed ∧ c.written = [] := by
  refine ⟨⟨?_, ?_⟩, ?_⟩
  · have hname := length_utf8_replicate (2 ^ 20)
    exact cborEncodeMap_startMap (by rw [hname]; decide) (by decide) (by decide) (by decide)
  · obtain ⟨hlong, hshort⟩ := length_oversizedStart
    have hread : readFrame oversizedWire = .invalidSize (oversizedStart.length + 1) :=
      readFrame_oversized (f := ⟨frameStart, oversizedStart⟩)
        (show maxFrameSize < oversizedStart.length from hlong) (by simp only; omega) _
    refine ⟨(connected helloConfig oversizedWire).close, ?_, rfl, rfl⟩
    have hinput : readFrame (connected helloConfig oversizedWire).input =
        .invalidSize (oversizedStart.length + 1) := hread
    have hstep : (connected helloConfig oversizedWire).step .read =
        some (connected helloConfig oversizedWire).close := by
      rw [Connection.step,
        if_pos (show (connected helloConfig oversizedWire).phase = .reading from rfl),
        Connection.readNext, hinput]
    rw [runSteps, hstep]
    rfl
  · obtain ⟨c, task, hrun, hphase, htasks, hreturned, htext, hwritten⟩ :=
      silent_returned fun _ => String.ofList (List.replicate (2 ^ 32) 'A')
    have hplain : '&' ∉ List.replicate (2 ^ 32) 'A' ∧ '<' ∉ List.replicate (2 ^ 32) 'A' ∧
        '>' ∉ List.replicate (2 ^ 32) 'A' := by
      refine ⟨fun h => ?_, fun h => ?_, fun h => ?_⟩ <;>
        exact absurd (List.eq_of_mem_replicate h) (by decide)
    have hlong : 2 ^ 32 ≤ (c.nlsmlFor task.finalText).length + 1 := by
      have hlength := length_utf8_replicate (2 ^ 32)
      have hdocument := length_le_nlsmlFor hplain c
      rw [htext]
      omega
    have hstep : runSteps Connection.step c [.finish] = some (c.sendResult task) := by
      rw [runSteps, Connection.step,
        Connection.finishEos_of_returned hphase (by rw [htasks]; rfl) hreturned]
      rfl
    refine ⟨c.sendResult task, ?_, ?_, ?_⟩
    · exact (runSteps_append _ _ _).trans ((congrArg (Option.bind · _) hrun).trans hstep)
    · rw [Connection.sendResult_of_long hlong]
      rfl
    · rw [Connection.sendResult_of_long hlong]
      exact hwritten

end Mrcp
end Sandroid
