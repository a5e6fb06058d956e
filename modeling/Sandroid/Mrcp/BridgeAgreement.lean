import Sandroid.Mrcp.BridgeStarts
import Sandroid.Mrcp.BridgeTurn
import Sandroid.Mrcp.ChannelAgreement

/-!
# A connection of the bridge on decoded frames

`Handler` takes its frames decoded and asks a function for the transcript; `Connection`
reads bytes and runs the stream of the ASR backend.  As long as the bytes are frames of
messages, and a stream ends no sooner than its audio, each step of a connection is a step of
the handler, or none.

* `exists_serves`: the transcripts of a stream are a function of its chunks;
* `connection_simulated`: along every such run the handler goes with the connection, and its
  replies are the frames written;
* `filterMap_keptFrames`, `waitReturns_of_sent`: the messages are those that the plugin has
  sent, and the replies are what its waits return.
-/

namespace Sandroid
namespace Mrcp

open Lib Api

section Task

variable {asr : Asr} {task task' : RunAsr asr} {queue queue' : List (Option Bytes)}

/-- What `AsrTask` keeps of a task. -/
def RunAsr.asrTask (task : RunAsr asr) : AsrTask where
  chunks := task.received.map AudioChunk.pcm16
  ended := task.exhausted

/-- The chunks of a task are numbered, and its end is that of its stream. -/
structure RunAsr.Numbered (task : RunAsr asr) : Prop where
  ok : task.Ok
  raised : ∀ message, task.status = .raised message → asr.next task.state = .fail message
  seq : task.seq = task.received.length
  received : task.received = numberFrom 0 (task.received.map AudioChunk.pcm16)

theorem RunAsr.numbered_init : RunAsr.Numbered ({} : RunAsr asr) where
  ok := RunAsr.ok_init
  raised := nofun
  seq := rfl
  received := rfl

theorem RunAsr.Numbered.moves (h : task.Numbered) (hstatus : task.status = .running)
    (hmove : task.Moves queue task' queue') : task'.Numbered := by
  have hok := h.ok.moves hstatus hmove
  have hrunning : ∀ message, task.status ≠ .raised message := by
    intro message hraised
    cases hstatus.symm.trans hraised
  cases hmove with
  | emit hnext => exact ⟨hok, fun m hm => absurd hm (hrunning m), h.seq, h.received⟩
  | stop hnext => exact ⟨hok, nofun, h.seq, h.received⟩
  | fail hnext =>
      refine ⟨hok, fun m hm => ?_, h.seq, h.received⟩
      cases hm
      exact hnext
  | again hnext hexhausted =>
      exact ⟨hok, fun m hm => absurd hm (hrunning m), h.seq, h.received⟩
  | finish hnext hexhausted =>
      exact ⟨hok, fun m hm => absurd hm (hrunning m), h.seq, h.received⟩
  | @pull pcm queue resume hnext hexhausted =>
      refine ⟨hok, fun m hm => absurd hm (hrunning m), ?_, ?_⟩
      · simp [h.seq]
      · simp only [List.map_append, List.map_cons, List.map_nil]
        rw [numberFrom_concat, ← h.received, h.seq, List.length_map, Nat.zero_add]

theorem RunAsr.Numbered.cancel (h : task.Numbered) :
    RunAsr.Numbered { task with status := .cancelled } where
  ok := ⟨h.ok.heard, nofun⟩
  raised := nofun
  seq := h.seq
  received := h.received

/-- The task with one more item of the queue. -/
def AsrTask.take (task : AsrTask) : Option Bytes → AsrTask
  | some chunk => { task with chunks := task.chunks ++ [chunk] }
  | none => { task with ended := true }

theorem asrRead_of_cons {h : Handler} {i : Nat} {task : AsrTask} {item : Option Bytes}
    (htask : h.tasks[i]? = some task) (hqueue : h.channel.audioQueue = item :: queue)
    (hopen : task.ended = false) :
    asrRead h i = some { h with
      channel := { h.channel with audioQueue := queue }
      tasks := h.tasks.set i (task.take item) } := by
  have hnot : ¬ task.ended = true := by
    rw [hopen]
    exact Bool.false_ne_true
  rw [asrRead, htask, hqueue]
  cases item with
  | none => exact if_neg hnot
  | some chunk => exact if_neg hnot

/-- A step of the task reads the queue as `asrRead` does, or leaves it alone. -/
theorem RunAsr.asrTask_moves (hmove : task.Moves queue task' queue') :
    queue' = queue ∧ task'.asrTask = task.asrTask ∨
      ∃ item, queue = item :: queue' ∧ task.asrTask.ended = false ∧
        task'.asrTask = task.asrTask.take item := by
  cases hmove with
  | emit hnext => exact Or.inl ⟨rfl, rfl⟩
  | stop hnext => exact Or.inl ⟨rfl, rfl⟩
  | fail hnext => exact Or.inl ⟨rfl, rfl⟩
  | again hnext hexhausted => exact Or.inl ⟨rfl, rfl⟩
  | finish hnext hexhausted => exact Or.inr ⟨none, rfl, hexhausted, rfl⟩
  | @pull pcm queue resume hnext hexhausted =>
      refine Or.inr ⟨some pcm, rfl, hexhausted, ?_⟩
      simp [RunAsr.asrTask, AsrTask.take]

end Task

section Backend

/-- The exception that a stream over exactly these chunks ends with. -/
def Raises (asr : Asr) (chunks : List AudioChunk) (message : String) : Prop :=
  ∃ s ys, asr.Reaches s chunks true ys ∧ asr.next s = .fail message

theorem Transcript.unique {asr : Asr} {chunks : List AudioChunk} {text text' : String}
    (h : Transcript asr chunks text) (h' : Transcript asr chunks text') : text = text' := by
  obtain ⟨s, ys, hs, hstop, rfl⟩ := h
  obtain ⟨s', ys', hs', hstop', rfl⟩ := h'
  rw [(hs.unique hs' (Or.inl hstop) (Or.inl hstop')).2]

theorem Raises.unique {asr : Asr} {chunks : List AudioChunk} {message message' : String}
    (h : Raises asr chunks message) (h' : Raises asr chunks message') : message = message' := by
  obtain ⟨s, ys, hs, hfail⟩ := h
  obtain ⟨s', ys', hs', hfail'⟩ := h'
  obtain ⟨rfl, -⟩ := hs.unique hs' (Or.inr ⟨_, hfail⟩) (Or.inr ⟨_, hfail'⟩)
  rw [hfail] at hfail'
  cases hfail'
  rfl

theorem Raises.not_transcript {asr : Asr} {chunks : List AudioChunk} {text message : String}
    (h : Raises asr chunks message) : ¬ Transcript asr chunks text := by
  obtain ⟨s, ys, hs, hfail⟩ := h
  rintro ⟨s', ys', hs', hstop, -⟩
  obtain ⟨rfl, -⟩ := hs.unique hs' (Or.inr ⟨_, hfail⟩) (Or.inl hstop)
  rw [hfail] at hstop
  cases hstop

/-- The request of `_match_intent` for the audio and the session id of a channel. -/
def requestOf (config : BridgeConfig) (transcript : String) (audio : Option Bytes)
    (sessionId : Bytes) : Option BridgeRequest :=
  match config.orchestrator, config.defaultScene with
  | some _, some scene =>
      some
        { sceneId := scene
          text := transcript
          audio := audio
          sessionId := if sessionId = [] then none else some sessionId }
  | _, _ => none

def document (config : BridgeConfig) (transcript : String) (audio : Option Bytes)
    (sessionId : Bytes) : Bytes :=
  renderNlsml transcript
    (Connection.matchIntent config (requestOf config transcript audio sessionId)).2
    (Connection.matchIntent config (requestOf config transcript audio sessionId)).1

theorem nlsmlFor_eq_document {config : BridgeConfig} (c : Connection config)
    (transcript : String) :
    c.nlsmlFor transcript =
      document config transcript (pathBAudio c.channel) c.channel.sessionId := rfl

/-- What the handler calls out to is what the server was made with. -/
structure Serves (config : BridgeConfig) (backend : BridgeBackend) : Prop where
  returned : ∀ {chunks text}, Transcript config.asr (numberFrom 0 chunks) text →
    backend.asr chunks = .ok text
  raised : ∀ {chunks message}, Raises config.asr (numberFrom 0 chunks) message →
    backend.asr chunks = .error message
  nlsml : backend.nlsml = document config
  maxAudioBytes : backend.maxAudioBytes = config.maxAudioBytes

/-- A stream over these chunks ends in one way. -/
theorem exists_outcome (asr : Asr) (chunks : List AudioChunk) :
    ∃ outcome : Except String String,
      (∀ text, Transcript asr chunks text → outcome = .ok text) ∧
        ∀ message, Raises asr chunks message → outcome = .error message := by
  by_cases htext : ∃ text, Transcript asr chunks text
  · obtain ⟨text, htext⟩ := htext
    refine ⟨.ok text, fun text' h => ?_, fun message h => ?_⟩
    · rw [htext.unique h]
    · exact absurd htext h.not_transcript
  · by_cases hraised : ∃ message, Raises asr chunks message
    · obtain ⟨message, hraised⟩ := hraised
      refine ⟨.error message, fun text h => ?_, fun message' h => ?_⟩
      · exact absurd h hraised.not_transcript
      · rw [hraised.unique h]
    · exact ⟨.ok "", fun text h => absurd ⟨text, h⟩ htext,
        fun message h => absurd ⟨message, h⟩ hraised⟩

theorem exists_serves (config : BridgeConfig) : ∃ backend, Serves config backend := by
  choose outcome houtcome using exists_outcome config.asr
  exact ⟨⟨fun chunks => outcome (numberFrom 0 chunks), document config, config.maxAudioBytes⟩,
    { returned := fun h => (houtcome _).1 _ h
      raised := fun h => (houtcome _).2 _ h
      nlsml := by with_reducible rfl
      maxAudioBytes := rfl }⟩

end Backend

/-- The texts of a START can be decoded. -/
def Call.IsText : Call → Prop
  | start channelId sessionId _ codec =>
      ∃ channelText sessionText codecText : Option CText,
        channelId = channelText.map CText.toCString ∧
          sessionId = sessionText.map CText.toCString ∧ codec = codecText.map CText.toCString
  | _ => True

namespace Connection

variable {config : BridgeConfig} {backend : BridgeBackend} {c c' : Connection config} {f : Frame}

/-- What `Handler` keeps of a connection. -/
def handler (c : Connection config) : Handler where
  channel := c.channel
  tasks := c.tasks.map RunAsr.asrTask
  phase := c.phase

/-- The message that a frame is read as; a START must decode to a map. -/
def message? (config : BridgeConfig) (f : Frame) : Option ToBridge :=
  if f.ftype = frameStart then
    match cborDecode (config.spareCalls + 2) f.payload with
    | .ok (.map fields, _) =>
        some (.start (utf8 (textField config fields "channel_id" ""))
          (utf8 (textField config fields "session_id" "")) (sampleRateField fields)
          (utf8 (textField config fields "codec" "LPCM")))
    | _ => none
  else if f.ftype = frameAudio then
    some (.audio f.payload)
  else if f.ftype = frameEos then
    some .eos
  else if f.ftype = frameStop then
    some .stop
  else
    none

/-- The frame of a call of the plugin is read as its message. -/
theorem frame_bind_message? {call : Call} (htext : call.IsText) :
    call.frame.bind (message? config) = call.message := by
  cases call with
  | start channelId sessionId sampleRate codec =>
      obtain ⟨channelText, sessionText, codecText, rfl, rfl, rfl⟩ := htext
      rw [Call.frame, Call.message]
      cases hpayload : encodeStart (channelText.map CText.toCString)
          (sessionText.map CText.toCString) sampleRate (codecText.map CText.toCString) with
      | none => rfl
      | some payload =>
          rw [Option.map_some, Option.bind_some, message?, if_pos rfl,
            cborDecode_encodeStart config.spareCalls hpayload, orDefault_toCString channelText rfl,
            orDefault_toCString sessionText rfl, orDefault_toCString codecText (by decide)]
          rfl
  | audio pcm =>
      rw [Call.frame, Call.message]
      split_ifs
      · rfl
      · rfl
  | eos => rfl
  | stop => rfl

/-- What the plugin has sent is what the bridge reads. -/
theorem filterMap_keptFrames {records : List CallRecord}
    (htaken : ∀ record ∈ records, record.Taken) (htext : ∀ record ∈ records, record.call.IsText) :
    (keptFrames records).filterMap (message? config) = sentMessages records := by
  induction records with
  | nil => rfl
  | cons record records ih =>
      have hkept : (if record.result.dropped = 0 then record.call.frame.toList else []) =
          record.call.frame.toList := if_pos (htaken record List.mem_cons_self).1
      have hrest := ih (fun r hr => htaken r (List.mem_cons_of_mem record hr))
        (fun r hr => htext r (List.mem_cons_of_mem record hr))
      have hmessage : record.call.frame.toList.filterMap (message? config) =
          record.call.message.toList := by
        have hread : record.call.frame.bind (message? config) = record.call.message :=
          frame_bind_message? (htext record List.mem_cons_self)
        rw [← hread]
        cases record.call.frame with
        | none => rfl
        | some f =>
            rw [Option.toList_some, Option.bind_some, List.filterMap_cons, List.filterMap_nil]
            cases message? config f with
            | none => rfl
            | some m => rfl
      rw [keptFrames, List.flatMap_cons, List.filterMap_append, hkept, hmessage, sentMessages,
        List.flatMap_cons]
      exact congrArg _ hrest

/-- The frame that a reply is written as; a RESULT has the chunks of its own stream. -/
inductive Sent : Reply → Written → Prop
  | result {r : ResultFrame} {w : Written} (hframe : w.frame = ⟨frameResult, r.nlsml⟩)
      (hheard : r.chunks = w.heard.map AudioChunk.pcm16) : Sent (.result r) w
  | error {code message : String} {w : Written}
      (hframe : errorFrame? code message = some w.frame) : Sent (.error code message) w

/-- The connection has done what the handler has. -/
structure Did (c c' : Connection config) (r : Handler × List Reply) : Prop where
  handler : c'.handler = r.1
  written : ∃ more, c'.written = c.written ++ more ∧ List.Forall₂ Sent r.2 more

theorem handler_close (c : Connection config) :
    c.close.handler = { c.handler with phase := .closed } := by
  have htask : ∀ task : RunAsr config.asr,
      (if task.status = .running then { task with status := .cancelled } else task).asrTask =
        task.asrTask := by
    intro task
    split
    · rfl
    · rfl
  have htasks : c.close.tasks.map RunAsr.asrTask = c.tasks.map RunAsr.asrTask := by
    rcases List.eq_nil_or_concat c.tasks with hnone | ⟨front, last, hsplit⟩
    · simp [close, hnone]
    · simp [close, hsplit, htask]
  rw [handler, htasks]
  rfl

theorem did_close (c : Connection config) :
    c.Did c.close ({ c.handler with phase := .closed }, []) :=
  ⟨handler_close c, [], by rw [List.append_nil]; rfl, .nil⟩

theorem did_refuse {code message : String} (h : errorFrame? code message ≠ none) :
    c.Did (c.refuse code message) (c.handler.refuse code message) := by
  obtain ⟨frame, hframe⟩ := Option.ne_none_iff_exists'.mp h
  rw [refuse, hframe]
  exact ⟨handler_close _, _, rfl, .cons (.error hframe) .nil⟩

theorem did_handleAudio (payload : Bytes) :
    c.Did (c.handleAudio payload) (Mrcp.handleAudio c.handler payload) := by
  by_cases hstarted : c.channel.started = true
  · have hstarted' : ¬ ¬ c.handler.channel.started = true := not_not.mpr hstarted
    rw [handleAudio_of_started hstarted, Mrcp.handleAudio, if_neg hstarted']
    exact ⟨rfl, [], (List.append_nil _).symm, .nil⟩
  · have hstarted' : ¬ c.handler.channel.started = true := hstarted
    rw [handleAudio_refused hstarted, Mrcp.handleAudio, if_pos hstarted']
    refine did_refuse ?_
    obtain ⟨frame, hframe⟩ := errorFrame?_audio
    rw [hframe]
    exact Option.some_ne_none frame

theorem did_handleEos : c.Did c.handleEos (Mrcp.handleEos c.handler) := by
  by_cases hbad : ¬ c.channel.started = true ∨ c.channel.eosSeen = true
  · have hbad' : ¬ c.handler.channel.started = true ∨ c.handler.channel.eosSeen = true := hbad
    rw [handleEos_refused hbad, Mrcp.handleEos, if_pos hbad']
    refine did_refuse ?_
    obtain ⟨frame, hframe⟩ := errorFrame?_eos
    rw [hframe]
    exact Option.some_ne_none frame
  · have hbad' : ¬ (¬ c.handler.channel.started = true ∨ c.handler.channel.eosSeen = true) := hbad
    rw [handleEos, if_neg hbad, Mrcp.handleEos, if_neg hbad']
    by_cases htasks : c.tasks = []
    · have htasks' : c.handler.tasks = [] := by rw [handler, htasks]; rfl
      simp only [if_pos htasks, if_pos htasks']
      have hframe : errorFrame? "INTERNAL" "no asr task" ≠ none := by decide +kernel
      have hdid := did_refuse (c := { c with
        channel := { c.channel with
          eosSeen := true
          audioQueue := c.channel.audioQueue ++ [none] } }) hframe
      exact ⟨hdid.handler, hdid.written⟩
    · have htasks' : c.handler.tasks ≠ [] := by
        rw [handler]
        exact fun hnone => htasks (List.map_eq_nil_iff.mp hnone)
      simp only [if_neg htasks, if_neg htasks']
      exact ⟨rfl, [], (List.append_nil _).symm, .nil⟩

/-- A frame that is a message is dispatched as the message. -/
theorem did_dispatch {m : ToBridge} (hserves : Serves config backend)
    (hmessage : message? config f = some m) :
    c.Did (c.dispatch f) (Mrcp.dispatch backend c.handler m) := by
  rw [message?] at hmessage
  split_ifs at hmessage with hstart haudio heos hstop
  · rw [dispatch_start hstart]
    split at hmessage
    · rename_i fields n hdecode
      cases hmessage
      rw [handleStart_of_map hdecode]
      refine ⟨?_, [], (List.append_nil _).symm, .nil⟩
      rw [handler, openChannel, Mrcp.dispatch, Mrcp.handleStart, hserves.maxAudioBytes,
        List.map_append]
      rfl
    · cases hmessage
  · cases hmessage
    rw [dispatch_audio haudio]
    exact did_handleAudio f.payload
  · cases hmessage
    rw [dispatch_eos heos]
    exact did_handleEos
  · cases hmessage
    rw [dispatch_stop hstop]
    exact did_close c

/-- A step of a task is a read of the queue, or none. -/
theorem handler_asrStep {i : Nat} (h : c.asrStep i = some c') :
    (c'.handler = c.handler ∨ Mrcp.asrRead c.handler i = some c'.handler) ∧
      c'.written = c.written ∧ c'.arrived = c.arrived := by
  obtain ⟨t, t', queue, ht, -, hmove, rfl⟩ := asrStep_eq_some h
  refine ⟨?_, rfl, rfl⟩
  have htask : (c.tasks.map RunAsr.asrTask)[i]? = some t.asrTask := by
    rw [List.getElem?_map, ht]
    rfl
  rcases RunAsr.asrTask_moves hmove with ⟨hqueue, hsame⟩ | ⟨item, hqueue, hopen, htake⟩
  · refine Or.inl ?_
    obtain ⟨hi, hget⟩ := List.getElem?_eq_some_iff.mp htask
    have hset : (c.tasks.map RunAsr.asrTask).set i t.asrTask = c.tasks.map RunAsr.asrTask := by
      rw [← hget]
      exact List.set_getElem_self hi
    simp only [handler, List.map_set, hsame, hset, hqueue]
  · have htasks : (c.tasks.set i t').map RunAsr.asrTask =
        (c.tasks.map RunAsr.asrTask).set i (t.asrTask.take item) := by
      rw [List.map_set, htake]
    refine Or.inr ((asrRead_of_cons htask hqueue hopen).trans ?_)
    rw [handler, handler, htasks]

/-- What the handler makes of the end of a stream. -/
theorem handler_finishEos {task : RunAsr config.asr} (hphase : c.phase = .awaitingAsr)
    (hlast : c.tasks.getLast? = some task) (hexhausted : task.exhausted = true) :
    Mrcp.finishEos backend c.handler =
      match backend.asr (task.received.map AudioChunk.pcm16) with
      | .error e => some (c.handler.refuse "ASR_FAILED" e)
      | .ok transcript =>
          some ({ c.handler with phase := .reading },
            [.result
              { chunks := task.received.map AudioChunk.pcm16
                pathB := pathBAudio c.channel
                nlsml :=
                  backend.nlsml transcript (pathBAudio c.channel) c.channel.sessionId }]) := by
  have hlast' : c.handler.tasks.getLast? = some task.asrTask := by
    rw [handler, List.getLast?_map, hlast]
    rfl
  have hphase' : c.handler.phase = .awaitingAsr := hphase
  rw [Mrcp.finishEos, hphase', hlast']
  exact if_pos hexhausted

theorem did_sendResult {task : RunAsr config.asr} (hserves : Serves config backend)
    (hphase : c.phase = .awaitingAsr) (hlast : c.tasks.getLast? = some task)
    (hnumbered : task.Numbered) (hreturned : task.status = .returned)
    (hexhausted : task.exhausted = true)
    (hshort : (c.nlsmlFor task.finalText).length + 1 < 2 ^ 32) :
    ∃ r, Mrcp.finishEos backend c.handler = some r ∧ c.Did (c.sendResult task) r := by
  obtain ⟨ys, hreach, htext⟩ := hnumbered.ok.heard
  have htranscript : Transcript config.asr
      (numberFrom 0 (task.received.map AudioChunk.pcm16)) task.finalText := by
    rw [← hnumbered.received]
    rw [hexhausted] at hreach
    exact ⟨task.state, ys, hreach, hnumbered.ok.returned hreturned, htext⟩
  rw [handler_finishEos hphase hlast hexhausted, hserves.returned htranscript]
  refine ⟨_, rfl, ?_⟩
  rw [sendResult_of_short hshort]
  refine ⟨rfl, _, rfl, .cons (.result ?_ rfl) .nil⟩
  rw [nlsmlFor_eq_document, hserves.nlsml]

theorem did_finishEos {task : RunAsr config.asr} (hserves : Serves config backend)
    (hlast : c.tasks.getLast? = some task) (hnumbered : task.Numbered)
    (hexhausted : task.exhausted = true)
    (hshort : (c.nlsmlFor task.finalText).length + 1 < 2 ^ 32)
    (hmessage : ∀ message, task.status = .raised message →
      errorFrame? "ASR_FAILED" message ≠ none)
    (h : c.finishEos = some c') :
    ∃ r, Mrcp.finishEos backend c.handler = some r ∧ c.Did c' r := by
  rw [finishEos] at h
  split at h
  · rename_i task' hphase hlast'
    cases hlast.symm.trans hlast'
    split at h
    · rename_i hreturned
      rw [← Option.some.inj h]
      exact did_sendResult hserves hphase hlast hnumbered hreturned hexhausted hshort
    · rename_i message hraised
      rw [← Option.some.inj h]
      obtain ⟨ys, hreach, -⟩ := hnumbered.ok.heard
      have hraises : Raises config.asr
          (numberFrom 0 (task.received.map AudioChunk.pcm16)) message := by
        rw [← hnumbered.received]
        rw [hexhausted] at hreach
        exact ⟨task.state, ys, hreach, hnumbered.raised message hraised⟩
      rw [handler_finishEos hphase hlast hexhausted, hserves.raised hraises]
      exact ⟨_, rfl, did_refuse (hmessage message hraised)⟩
    · cases h
  · cases h

theorem did_timeout (h : c.timeout = some c') :
    ∃ r, Mrcp.asrTimeout c.handler = some r ∧ c.Did c' r := by
  rw [timeout] at h
  split at h
  · rename_i task hphase hlast
    split at h
    · rw [← Option.some.inj h]
      have hphase' : c.handler.phase = .awaitingAsr := hphase
      refine ⟨c.handler.refuse "ASR_FAILED" "asr timeout", ?_, did_refuse (by decide +kernel)⟩
      rw [Mrcp.asrTimeout, hphase']
    · cases h
  · cases h

/-- The tasks of all STARTs are numbered. -/
def TasksNumbered (c : Connection config) : Prop :=
  ∀ task ∈ c.tasks, task.Numbered

theorem TasksNumbered.close (h : c.TasksNumbered) : c.close.TasksNumbered := by
  intro task htask
  rcases List.mem_append.mp htask with hfront | hlast
  · exact h task (List.mem_of_mem_dropLast hfront)
  · obtain ⟨last, hmem, rfl⟩ := List.mem_map.mp hlast
    have hold : last.Numbered := h last (List.mem_of_getLast? (Option.mem_toList.mp hmem))
    split
    · exact hold.cancel
    · exact hold

theorem TasksNumbered.refuse (h : c.TasksNumbered) (code message : String) :
    (c.refuse code message).TasksNumbered := by
  rw [Connection.refuse]
  split
  · exact h.close
  · exact TasksNumbered.close h

theorem TasksNumbered.openChannel (h : c.TasksNumbered) (fields : List (CborKey × CborItem)) :
    (c.openChannel fields).TasksNumbered := by
  intro task htask
  rcases List.mem_append.mp htask with hold | hnew
  · exact h task hold
  · rw [List.mem_singleton.mp hnew]
    exact RunAsr.numbered_init

theorem TasksNumbered.dispatch (h : c.TasksNumbered) (f : Frame) :
    (c.dispatch f).TasksNumbered := by
  rw [Connection.dispatch]
  split_ifs
  · rw [handleStart]
    split
    · split
      · exact h.refuse _ _
      · exact h.close
    · exact h.openChannel _
    · exact h.refuse _ _
  · rw [handleAudio]
    split_ifs
    · exact h
    · exact h.refuse _ _
  · by_cases hbad : ¬ c.channel.started = true ∨ c.channel.eosSeen = true
    · rw [handleEos_refused hbad]
      exact h.refuse _ _
    · rw [handleEos, if_neg hbad]
      by_cases htasks : c.tasks = []
      · simp only [if_pos htasks]
        refine TasksNumbered.refuse ?_ _ _
        exact h
      · simp only [if_neg htasks]
        exact h
  · exact h.close
  · exact h

theorem TasksNumbered.step {label : Label} (h : c.TasksNumbered)
    (hstep : c.step label = some c') : c'.TasksNumbered := by
  cases label with
  | read =>
      rw [Connection.step] at hstep
      split at hstep
      · rw [← Option.some.inj hstep, readNext]
        split
        · exact h.close
        · exact h.close
        · refine TasksNumbered.dispatch ?_ _
          exact h
      · cases hstep
  | asr i =>
      obtain ⟨t, t', queue, ht, hstatus, hmove, rfl⟩ := asrStep_eq_some hstep
      intro task htask
      rcases List.mem_or_eq_of_mem_set htask with hold | rfl
      · exact h task hold
      · exact (h t (List.mem_of_getElem? ht)).moves hstatus hmove
  | finish =>
      rw [Connection.step, Connection.finishEos] at hstep
      split at hstep
      · split at hstep
        · rw [← Option.some.inj hstep, sendResult]
          split
          · exact TasksNumbered.close h
          · exact h
        · rw [← Option.some.inj hstep]
          exact h.refuse _ _
        · cases hstep
      · cases hstep
  | timeout =>
      rw [Connection.step, Connection.timeout] at hstep
      split at hstep
      · split at hstep
        · rw [← Option.some.inj hstep]
          exact h.refuse _ _
        · cases hstep
      · cases hstep

/-- The condition on a step: a frame is read, and if it is a START it decodes to a map; a
stream ends after its audio, with a text that fits a frame. -/
def Conforms (c : Connection config) : Label → Prop
  | .read => ∃ f rest, readFrame c.input = .frame f rest ∧
      (f.ftype = frameStart → message? config f ≠ none)
  | .finish => ∀ task, c.tasks.getLast? = some task →
      task.exhausted = true ∧ (c.nlsmlFor task.finalText).length + 1 < 2 ^ 32 ∧
        ∀ message, task.status = .raised message → errorFrame? "ASR_FAILED" message ≠ none
  | _ => True

/-- From `c` to `c'` the connection has read these frames; the system takes these steps on
their messages, and leaves these replies. -/
structure Simulated (backend : BridgeBackend) (c c' : Connection config) (frames : List Frame)
    (labels : List Mrcp.Label) (replies : List Reply) : Prop where
  arrived : c'.arrived = c.arrived ++ frames
  did : c.Did c' (c'.handler, replies)
  run : ∀ (σ : System) (queue : List ToBridge), σ.handler = c.handler →
    System.run backend { σ with toBridge := frames.filterMap (message? config) ++ queue } labels =
      some { σ with
        handler := c'.handler
        toBridge := queue
        toPlugin := σ.toPlugin ++ replies }

theorem simulated_refl (c : Connection config) : Simulated backend c c [] [] [] where
  arrived := (List.append_nil _).symm
  did := ⟨rfl, [], (List.append_nil _).symm, .nil⟩
  run := by
    intro σ queue hhandler
    rw [List.append_nil, ← hhandler]
    rfl

theorem Simulated.trans {c₁ c₂ c₃ : Connection config} {frames frames' : List Frame}
    {labels labels' : List Mrcp.Label} {replies replies' : List Reply}
    (h : Simulated backend c₁ c₂ frames labels replies)
    (h' : Simulated backend c₂ c₃ frames' labels' replies') :
    Simulated backend c₁ c₃ (frames ++ frames') (labels ++ labels') (replies ++ replies') where
  arrived := by rw [h'.arrived, h.arrived, List.append_assoc]
  did := by
    obtain ⟨-, more, hmore, hsent⟩ := h.did
    obtain ⟨-, more', hmore', hsent'⟩ := h'.did
    exact ⟨rfl, more ++ more', by rw [hmore', hmore, List.append_assoc],
      List.rel_append hsent hsent'⟩
  run := by
    intro σ queue hhandler
    have hfirst := h.run σ (frames'.filterMap (message? config) ++ queue) hhandler
    have hsecond := h'.run { σ with handler := c₂.handler, toPlugin := σ.toPlugin ++ replies }
      queue rfl
    rw [System.run] at hfirst hsecond ⊢
    rw [List.filterMap_append, List.append_assoc, runSteps_append, hfirst]
    simpa only [Option.bind_some, List.append_assoc] using hsecond

/-- A step of the handler on its own. -/
theorem simulated_handler {label : Mrcp.Label} {r : Handler × List Reply}
    (harrived : c'.arrived = c.arrived) (hdid : c.Did c' r)
    (hstep : ∀ σ : System, σ.handler = c.handler → σ.step backend label = some (σ.afterHandler r)) :
    Simulated backend c c' [] [label] r.2 where
  arrived := by rw [harrived, List.append_nil]
  did := ⟨rfl, hdid.written⟩
  run := by
    intro σ queue hhandler
    rw [List.filterMap_nil, List.nil_append, System.run, runSteps,
      hstep { σ with toBridge := queue } hhandler, hdid.handler]
    rfl

theorem ftype_of_message?_none (h : message? config f = none)
    (hstart : f.ftype = frameStart → message? config f ≠ none) :
    f.ftype ≠ frameStart ∧ f.ftype ≠ frameAudio ∧ f.ftype ≠ frameEos ∧ f.ftype ≠ frameStop := by
  have hne : f.ftype ≠ frameStart := fun hf => hstart hf h
  rw [message?, if_neg hne] at h
  split_ifs at h with haudio heos hstop
  exact ⟨hne, haudio, heos, hstop⟩

theorem simulated_readNext {rest : Bytes} (hserves : Serves config backend)
    (hphase : c.phase = .reading) (hread : readFrame c.input = .frame f rest)
    (hstart : f.ftype = frameStart → message? config f ≠ none) :
    ∃ labels replies, Simulated backend c c.readNext [f] labels replies := by
  rw [readNext_of_frame hread]
  have harrived : ((c.taken f rest).dispatch f).arrived = c.arrived ++ [f] :=
    (sameInput_dispatch f).2
  cases hmessage : message? config f with
  | some m =>
      have hdid : (c.taken f rest).Did ((c.taken f rest).dispatch f)
          (Mrcp.dispatch backend c.handler m) := did_dispatch hserves hmessage
      refine ⟨[.bridgeRead], (Mrcp.dispatch backend c.handler m).2, harrived,
        ⟨rfl, hdid.written⟩, ?_⟩
      intro σ queue hhandler
      have hreading : σ.handler.phase = .reading := by
        rw [hhandler]
        exact hphase
      rw [System.run, runSteps, System.step, List.filterMap_cons_some hmessage,
        List.filterMap_nil, hdid.handler, ← hhandler]
      simp only [hreading]
      rfl
  | none =>
      obtain ⟨hne, haudio, heos, hstop⟩ := ftype_of_message?_none hmessage hstart
      have hsame : (c.taken f rest).dispatch f = c.taken f rest :=
        dispatch_unknown hne haudio heos hstop
      rw [hsame] at harrived ⊢
      refine ⟨[], [], harrived, ⟨rfl, [], (List.append_nil _).symm, .nil⟩, ?_⟩
      intro σ queue hhandler
      have hhandler' : (c.taken f rest).handler = σ.handler := hhandler.symm
      rw [List.filterMap_cons_none hmessage, List.append_nil, hhandler']
      rfl

/-- A step of the connection is a step of the handler, or none. -/
theorem simulated_step {label : Label} (hserves : Serves config backend)
    (hnumbered : c.TasksNumbered) (hconforms : c.Conforms label)
    (hstep : c.step label = some c') :
    ∃ frames labels replies, Simulated backend c c' frames labels replies := by
  cases label with
  | read =>
      rw [Connection.step] at hstep
      split at hstep
      · rename_i hphase
        obtain ⟨f, rest, hread, hstart⟩ := hconforms
        rw [← Option.some.inj hstep]
        exact ⟨[f], simulated_readNext hserves hphase hread hstart⟩
      · cases hstep
  | asr i =>
      obtain ⟨hhandler | hread, hwritten, harrived⟩ := handler_asrStep hstep
      · refine ⟨[], [], [], ?_, ⟨rfl, [], ?_, .nil⟩, ?_⟩
        · rw [harrived, List.append_nil]
        · rw [hwritten, List.append_nil]
        · intro σ queue hσ
          rw [List.append_nil, hhandler, ← hσ]
          rfl
      · have hdid : c.Did c' (c'.handler, []) :=
          ⟨rfl, [], by rw [hwritten, List.append_nil], .nil⟩
        refine ⟨[], [.asrRead i], [], simulated_handler harrived hdid ?_⟩
        intro σ hσ
        rw [System.step, hσ, hread]
        simp [System.afterHandler]
  | finish =>
      have hphase : ∃ task, c.tasks.getLast? = some task := by
        rw [Connection.step, Connection.finishEos] at hstep
        split at hstep
        · rename_i task hphase hlast
          exact ⟨task, hlast⟩
        · cases hstep
      obtain ⟨task, hlast⟩ := hphase
      obtain ⟨hexhausted, hshort, hmessage⟩ := hconforms task hlast
      obtain ⟨r, hfinish, hdid⟩ := did_finishEos hserves hlast
        (hnumbered task (List.mem_of_getLast? hlast)) hexhausted hshort hmessage hstep
      refine ⟨[], [.finishEos], r.2, simulated_handler (sameInput_finishEos hstep).2 hdid ?_⟩
      intro σ hσ
      rw [System.step, hσ, hfinish]
      rfl
  | timeout =>
      obtain ⟨r, htimeout, hdid⟩ := did_timeout hstep
      refine ⟨[], [.asrTimeout], r.2, simulated_handler (sameInput_timeout hstep).2 hdid ?_⟩
      intro σ hσ
      rw [System.step, hσ, htimeout]
      rfl

theorem simulated_run {labels : List Label} (hserves : Serves config backend)
    (hnumbered : c.TasksNumbered) (hconforms : AlongRun Connection.step Conforms c labels)
    (hrun : runSteps Connection.step c labels = some c') :
    ∃ frames labels' replies, Simulated backend c c' frames labels' replies := by
  induction labels generalizing c with
  | nil =>
      cases hrun
      exact ⟨[], [], [], simulated_refl _⟩
  | cons label labels ih =>
      rw [runSteps] at hrun
      split at hrun
      · cases hrun
      · rename_i c₁ hstep
        obtain ⟨frames, steps, replies, hfirst⟩ :=
          simulated_step hserves hnumbered hconforms.1 hstep
        obtain ⟨frames', steps', replies', hrest⟩ :=
          ih (hnumbered.step hstep) (hconforms.2 c₁ hstep) hrun
        exact ⟨_, _, _, hfirst.trans hrest⟩

/-- A run of a connection whose steps conform is a run of the handler on the messages that
have arrived, and the replies are what has been written. -/
theorem connection_simulated {input : Bytes} {labels : List Label}
    (hserves : Serves config backend)
    (hconforms : AlongRun Connection.step Conforms (connected config input) labels)
    (hrun : runSteps Connection.step (connected config input) labels = some c) :
    ∃ labels' replies,
      System.run backend { toBridge := c.arrived.filterMap (message? config) } labels' =
          some { handler := c.handler, toPlugin := replies } ∧
        List.Forall₂ Sent replies c.written := by
  have hnone : (connected config input).TasksNumbered := by
    intro task htask
    cases htask
  obtain ⟨frames, labels', replies, hsimulated⟩ := simulated_run hserves hnone hconforms hrun
  have harrived : c.arrived = frames := hsimulated.arrived
  obtain ⟨-, more, hmore, hsent⟩ := hsimulated.did
  have hwritten : c.written = more := hmore
  have hstart := hsimulated.run {} [] rfl
  rw [List.append_nil] at hstart
  exact ⟨labels', replies, harrived ▸ hstart, hwritten ▸ hsent⟩

/-- The condition, as a check. -/
def conforms? (c : Connection countingConfig) : Label → Bool
  | .read =>
      match readFrame c.input with
      | .frame f _ => f.ftype ≠ frameStart || (message? countingConfig f).isSome
      | _ => false
  | .finish =>
      c.tasks.all fun task =>
        task.exhausted && task.status = .returned &&
          decide ((utf8 (xmlEscape task.finalText)).length ≤ 1000)
  | _ => true

theorem conforms_of_check (c : Connection countingConfig) (label : Label)
    (h : conforms? c label = true) : c.Conforms label := by
  cases label with
  | read =>
      rw [conforms?] at h
      split at h
      · rename_i f rest hread
        refine ⟨f, rest, hread, fun hstart hnone => ?_⟩
        simp [hstart, hnone] at h
      · cases h
  | finish =>
      intro task hlast
      have htask := List.all_eq_true.mp h task (List.mem_of_getLast? hlast)
      simp only [Bool.and_eq_true, decide_eq_true_eq] at htask
      obtain ⟨⟨hexhausted, hreturned⟩, hshort⟩ := htask
      refine ⟨hexhausted, length_nlsmlFor_scripted c hshort, fun message hraised => ?_⟩
      rw [hreturned] at hraised
      cases hraised
  | asr i => trivial
  | timeout => trivial

/-- One utterance, up to its RESULT. -/
theorem connection_simulated_plain :
    ∃ backend c labels replies, Serves countingConfig backend ∧
      runSteps Connection.step (connected countingConfig plainInput)
        (plainSchedule ++ [.finish]) = some c ∧
      (∃ w, c.written = [w] ∧ w.frame.ftype = frameResult) ∧
      System.run backend { toBridge := c.arrived.filterMap (message? countingConfig) } labels =
        some { handler := c.handler, toPlugin := replies } ∧
      List.Forall₂ Sent replies c.written := by
  obtain ⟨backend, hserves⟩ := exists_serves countingConfig
  have hconforms : AlongRun Connection.step Conforms (connected countingConfig plainInput)
      (plainSchedule ++ [.finish]) :=
    alongRun_of_checkRun conforms_of_check (by decide +kernel)
  obtain ⟨c, w, hrun, hwritten, hftype, -⟩ := result_of_view plain_view (by decide +kernel)
  obtain ⟨labels, replies, hsystem, hsent⟩ := connection_simulated hserves hconforms hrun
  exact ⟨backend, c, labels, replies, hserves, hrun, ⟨w, hwritten, hftype⟩, hsystem, hsent⟩

/-- The plugin's wait on a frame written returns what `RecogChannel` makes of the reply. -/
theorem waitReturns_of_sent {reply : Reply} {w : Written} {budget : Budget}
    {script : List RecvAnswer} (h : Sent reply w) (hfits : w.frame.Fits) (hample : budget.Ample)
    (hsteady : Steady script w.frame.wire.length) (back : Bytes) :
    ∃ rc nlsml rest, sbrWaitResult budget script (w.frame.wire ++ back) =
      ⟨.ret rc, nlsml, back, rest⟩ ∧ WaitReturns (some reply) rc nlsml := by
  have hanswer : ¬ w.frame.PassedOver := by
    rintro ⟨hresult, herror⟩
    cases h with
    | result hframe hheard => exact hresult (congrArg Frame.ftype hframe)
    | error hframe => exact herror (errorFrame?_ftype hframe)
  have hwire : ([] ++ [w.frame]).flatMap Frame.wire = w.frame.wire := List.flatMap_singleton _ _
  obtain ⟨rest, hwait⟩ := sbrWaitResult_prompt budget hample [] nofun w.frame hfits hanswer back
    script (by rwa [hwire])
  rw [hwire] at hwait
  cases h with
  | @result r w hframe hheard =>
      have hsize : r.nlsml.length ≤ maxFrameSize := by
        rw [Frame.Fits, hframe] at hfits
        exact hfits
      rw [if_pos (congrArg Frame.ftype hframe)] at hwait
      refine ⟨0, some w.frame.payload, rest, hwait, ?_⟩
      rw [WaitReturns, if_pos hsize]
      exact ⟨rfl, congrArg (fun f : Frame => some f.payload) hframe⟩
  | @error code message w hframe =>
      have hother : w.frame.ftype ≠ frameResult := by
        rw [errorFrame?_ftype hframe]
        decide
      rw [if_neg hother] at hwait
      exact ⟨-1, none, rest, hwait, rfl, rfl⟩

end Connection

end Mrcp
end Sandroid
