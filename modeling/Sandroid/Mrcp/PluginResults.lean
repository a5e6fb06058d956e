import Sandroid.Mrcp.BridgeErrors
import Sandroid.Mrcp.PluginConversation

/-!
# Plugin, bridge and ASR together

A bridge handler on the bytes that a plugin channel has written, and the channel's waits on
what the handler has written.

* `conversation_inOrder`: the bridge reads frames in order;
* `plugin_results_own_audio`: a result with a document is about exactly the audio that the
  channel has sent, whatever the steps of plugin, bridge and ASR between.
-/

namespace Sandroid
namespace Mrcp

open Lib Api

namespace Connection

variable {config : BridgeConfig} {c c' : Connection config} {input : Bytes}

/-- The connection is at some place of its peer's bytes. -/
structure FromPeer (input : Bytes) (c : Connection config) : Prop where
  bytes : c.arrived.flatMap Frame.wire ++ c.input = input
  fits : ∀ f ∈ c.arrived, f.Fits
  unread : c.arrived = [] → c.channel.audioQueue = [] ∧ c.tasks = []

theorem fromPeer_connected (config : BridgeConfig) (input : Bytes) :
    (connected config input).FromPeer input :=
  ⟨rfl, nofun, fun _ => ⟨rfl, rfl⟩⟩

theorem FromPeer.step {label : Label} (h : c.FromPeer input) (hstep : c.step label = some c') :
    c'.FromPeer input := by
  refine ⟨input_step h.bytes hstep, ?_, ?_⟩
  · intro f hf
    cases label with
    | read =>
        rw [Connection.step] at hstep
        split_ifs at hstep
        cases hstep
        cases hread : readFrame c.input with
        | incomplete =>
            rw [readNext, hread] at hf
            exact h.fits f hf
        | invalidSize total =>
            rw [readNext, hread] at hf
            exact h.fits f hf
        | frame g rest =>
            rw [readNext_of_frame hread, (sameInput_dispatch g).2, taken] at hf
            rcases List.mem_append.mp hf with hf | hf
            · exact h.fits f hf
            · exact List.mem_singleton.mp hf ▸ (readFrame_eq_frame hread).1
    | asr i =>
        obtain ⟨_, _, _, -, -, -, rfl⟩ := asrStep_eq_some hstep
        exact h.fits f hf
    | finish => exact h.fits f ((sameInput_finishEos hstep).2 ▸ hf)
    | timeout => exact h.fits f ((sameInput_timeout hstep).2 ▸ hf)
  · intro hnone
    cases label with
    | read =>
        rw [Connection.step] at hstep
        split_ifs at hstep
        cases hstep
        cases hread : readFrame c.input with
        | incomplete =>
            rw [readNext, hread] at hnone ⊢
            obtain ⟨hqueue, htasks⟩ := h.unread hnone
            exact ⟨hqueue, by simp [close, htasks]⟩
        | invalidSize total =>
            rw [readNext, hread] at hnone ⊢
            obtain ⟨hqueue, htasks⟩ := h.unread hnone
            exact ⟨hqueue, by simp [close, htasks]⟩
        | frame g rest =>
            rw [readNext_of_frame hread, (sameInput_dispatch g).2, taken] at hnone
            exact absurd hnone (by simp)
    | asr i =>
        obtain ⟨t, _, _, hget, -, -, rfl⟩ := asrStep_eq_some hstep
        rw [(h.unread hnone).2] at hget
        cases hget
    | finish =>
        have htasks := (h.unread ((sameInput_finishEos hstep).2 ▸ hnone)).2
        rw [Connection.step, finishEos, htasks, List.getLast?_nil] at hstep
        split at hstep
        · rename_i heq
          cases heq
        · cases hstep
    | timeout =>
        have htasks := (h.unread ((sameInput_timeout hstep).2 ▸ hnone)).2
        rw [Connection.step, timeout, htasks, List.getLast?_nil] at hstep
        split at hstep
        · rename_i heq
          cases heq
        · cases hstep

/-- What is read of a stream of frames are the first of them. -/
theorem FromPeer.arrived (h : c.FromPeer input) {frames : List Frame} {tail : Bytes}
    (hframes : ∀ f ∈ frames, f.Fits) (htail : readFrame tail = .incomplete)
    (hinput : input <+: frames.flatMap Frame.wire ++ tail) : c.arrived <+: frames := by
  obtain ⟨more, hmore⟩ := hinput
  rw [← h.bytes, List.append_assoc] at hmore
  obtain ⟨left, rfl, -⟩ := frames_of_append htail h.fits hframes hmore.symm
  exact List.prefix_append _ _

theorem FromPeer.taken (h : c.FromPeer input) {f : Frame} {rest : Bytes}
    (hread : readFrame c.input = .frame f rest) : (c.taken f rest).FromPeer input := by
  obtain ⟨hfits, hinput⟩ := readFrame_eq_frame hread
  refine ⟨?_, ?_, ?_⟩
  · rw [Connection.taken, List.flatMap_append, List.flatMap_singleton, List.append_assoc,
      ← hinput, h.bytes]
  · intro g hg
    rcases List.mem_append.mp hg with hg | hg
    · exact h.fits g hg
    · exact List.mem_singleton.mp hg ▸ hfits
  · intro hnone
    exact absurd hnone (by simp [Connection.taken])

/-- EOS had been read when a RESULT was written. -/
def AfterEos (c : Connection config) : Prop :=
  ∀ w ∈ c.written, w.after ≤ c.arrived.length ∧
    (w.frame.ftype = frameResult → ∃ f ∈ c.arrived.take w.after, f.ftype = frameEos)

theorem AfterEos.congr (h : c.AfterEos) (hwritten : c'.written = c.written)
    {more : List Frame} (harrived : c'.arrived = c.arrived ++ more) : c'.AfterEos := by
  intro w hw
  obtain ⟨hafter, hresult⟩ := h w (hwritten ▸ hw)
  rw [harrived, List.take_append_of_le_length hafter, List.length_append]
  exact ⟨Nat.le_add_right_of_le hafter, hresult⟩

theorem AfterEos.refuse (h : c.AfterEos) (code message : String) :
    (c.refuse code message).AfterEos := by
  intro w hw
  rw [refuse_arrived]
  rcases mem_written_refuse hw with hold | ⟨herror, hafter⟩
  · exact h w hold
  · refine ⟨hafter.le, fun hresult => ?_⟩
    rw [herror] at hresult
    exact absurd hresult (by decide)

theorem AfterEos.dispatch (h : c.AfterEos) (f : Frame) : (c.dispatch f).AfterEos := by
  have hsame : ∀ {d : Connection config}, d.written = c.written → d.arrived = c.arrived →
      d.AfterEos := by
    intro d hwritten harrived
    exact h.congr hwritten (show d.arrived = c.arrived ++ [] by rw [harrived, List.append_nil])
  rw [Connection.dispatch]
  split_ifs
  · rw [handleStart]
    split
    · split
      · exact h.refuse _ _
      · exact hsame rfl rfl
    · exact hsame rfl rfl
    · exact h.refuse _ _
  · rw [handleAudio]
    split_ifs
    · exact hsame rfl rfl
    · exact h.refuse _ _
  · rw [handleEos]
    split_ifs
    · exact h.refuse _ _
    · refine AfterEos.refuse ?_ _ _
      exact hsame rfl rfl
    · exact hsame rfl rfl
  · exact hsame rfl rfl
  · exact h

theorem AfterEos.step {label : Label} (h : c.AfterEos) (hinv : Inv c)
    (hstep : c.step label = some c') : c'.AfterEos := by
  cases label with
  | read =>
      rw [Connection.step] at hstep
      split_ifs at hstep
      cases hstep
      cases hread : readFrame c.input with
      | incomplete =>
          rw [readNext, hread]
          exact h
      | invalidSize total =>
          rw [readNext, hread]
          exact h
      | frame f rest =>
          rw [readNext_of_frame hread]
          refine AfterEos.dispatch ?_ f
          exact h.congr rfl rfl
  | asr i =>
      obtain ⟨_, _, _, -, -, -, rfl⟩ := asrStep_eq_some hstep
      exact h
  | finish =>
      rw [Connection.step, finishEos] at hstep
      split at hstep
      · rename_i task hphase hlast
        have hlive := hinv.isLive (by simp [hphase])
        split at hstep
        · rw [← Option.some.inj hstep]
          rcases Nat.lt_or_ge ((c.nlsmlFor task.finalText).length + 1) (2 ^ 32) with hshort | hlong
          · rw [sendResult_of_short hshort]
            intro w hw
            rcases List.mem_append.mp hw with hold | hnew
            · exact h w hold
            · rw [List.mem_singleton.mp hnew, List.take_length]
              exact ⟨le_refl _, fun _ => hlive.eosSeen.mp (hlive.eosSeen_of_awaiting hphase)⟩
          · rw [sendResult_of_long hlong]
            exact h
        · rw [← Option.some.inj hstep]
          exact h.refuse _ _
        · cases hstep
      · cases hstep
  | timeout =>
      rw [Connection.step, timeout] at hstep
      split at hstep
      · split_ifs at hstep
        rw [← Option.some.inj hstep]
        exact h.refuse _ _
      · cases hstep

end Connection

section System

variable {config : BridgeConfig} {resultXml : Option Bytes} {socket : List SockAnswer}
  {labels : List PluginLabel} {σ : Plugin} {input : Bytes} {schedule : List Connection.Label}
  {c : Connection config}

/-- The bytes that a channel has put on the wire, as the bridge finds them. -/
theorem plugin_bytes (h : (Plugin.created socket).run resultXml labels = some σ)
    (hclean : CleanRun σ.calls) :
    Orderly (keptAudio σ.calls) (keptFrames σ.calls) ∧
      ∃ whole tail, accepted σ.calls = whole.flatMap Frame.wire ++ tail ∧
        (∀ f ∈ whole, f.Fits) ∧ readFrame tail = .incomplete ∧ whole <+: keptFrames σ.calls := by
  have htalking := (conversing_run h).talking
  obtain ⟨t, hcalls⟩ := htalking.talk.conversation
  refine ⟨htalking.made.orderly hcalls, ?_⟩
  obtain ⟨hrun, -⟩ := htalking.made.runCalls
  obtain ⟨whole, cut, hframed⟩ := framedAs_runCalls (σ.calls.map CallRecord.call) socket
    (hrun.symm ▸ hclean)
  rw [hrun] at hframed
  refine ⟨whole, cut, hframed.bytes, hframed.fits, ?_⟩
  rcases hframed.kept with ⟨rfl, hkept⟩ | ⟨f, hfits, hkept, hpre, hne⟩
  · exact ⟨rfl, hkept ▸ List.prefix_refl _⟩
  · exact ⟨readFrame_cut hfits hpre hne, hkept ▸ List.prefix_append _ _⟩

theorem fromPeer_run
    (hrun : runSteps Connection.step (connected config input) schedule = some c) :
    c.FromPeer input := by
  have hany : AlongRun Connection.step (fun _ _ => True) (connected config input) schedule :=
    alongRun_of_forall (fun _ _ => trivial) _ schedule
  exact runSteps_invariant (fun hpeer _ hstep => hpeer.step hstep)
    (Connection.fromPeer_connected config input) hany hrun

/-- A bridge that reads a conversation finds no START where it is harmful. -/
theorem startsFresh_run {audio : List Bytes} {kept whole : List Frame} {tail : Bytes}
    (horderly : Orderly audio kept) (hwhole : ∀ f ∈ whole, f.Fits)
    (htail : readFrame tail = .incomplete) (hkept : whole <+: kept)
    (hinput : input <+: whole.flatMap Frame.wire ++ tail) :
    AlongRun Connection.step Connection.StartsFresh (connected config input) schedule := by
  refine alongRun_of_invariant (fun hpeer hstep => hpeer.step hstep) ?_
    (Connection.fromPeer_connected config input) schedule
  intro d label hpeer _ f rest hread hstart
  have hfront := ((hpeer.taken hread).arrived hwhole htail hinput).trans hkept
  obtain ⟨hqueue, htasks⟩ := hpeer.unread (orderly_start horderly hfront hstart)
  exact Or.inr ⟨hqueue, fun t ht => absurd (htasks ▸ ht) List.not_mem_nil⟩

/-- **The conversation is in order.**  Whatever a channel does and however far the bridge has
read what the channel has written, what the bridge has read are first frames of one
conversation and none is out of order. -/
theorem conversation_inOrder (resultXml : Option Bytes) (socket : List SockAnswer)
    (labels : List PluginLabel) (σ : Plugin)
    (h : (Plugin.created socket).run resultXml labels = some σ) (hclean : CleanRun σ.calls)
    (config : BridgeConfig) (input : Bytes) (hinput : input <+: accepted σ.calls)
    (schedule : List Connection.Label) (c : Connection config)
    (hrun : runSteps Connection.step (connected config input) schedule = some c) :
    (∃ t : Conversation, σ.calls.map CallRecord.call = t.calls) ∧
      σ.calls = runCalls (σ.calls.map CallRecord.call) socket ∧
      c.arrived <+: keptFrames σ.calls ∧ InOrder c.arrived := by
  have htalking := (conversing_run h).talking
  obtain ⟨horderly, whole, tail, hbytes, hwhole, htail, hkept⟩ := plugin_bytes h hclean
  have harrived := ((fromPeer_run hrun).arrived hwhole htail (hbytes ▸ hinput)).trans hkept
  exact ⟨htalking.talk.conversation, htalking.made.runCalls.1.symm, harrived,
    inOrder_of_prefix (orderly_inOrder horderly) harrived⟩

/-- The documents that a bridge writes for a conversation. -/
theorem document_ownAudio (hasr : config.asr.Exhausts)
    (h : (Plugin.created socket).run resultXml labels = some σ) (hclean : CleanRun σ.calls)
    (hinput : input <+: accepted σ.calls)
    (hrun : runSteps Connection.step (connected config input) schedule = some c)
    {w : Written} (hw : w ∈ c.written) (hresult : w.frame.ftype = frameResult) :
    ∃ text confidence intentId, Transcript config.asr w.heard text ∧
      w.frame.payload = renderNlsml text confidence intentId ∧
      w.heard.map AudioChunk.pcm16 = keptAudio σ.calls := by
  obtain ⟨horderly, whole, tail, hbytes, hwhole, htail, hkept⟩ := plugin_bytes h hclean
  rw [hbytes] at hinput
  have hfresh := @startsFresh_run config input schedule _ _ _ _ horderly hwhole htail hkept hinput
  obtain ⟨hinv, heos⟩ : Connection.Inv c ∧ c.AfterEos :=
    @runSteps_invariant _ _ _ (fun c => Connection.Inv c ∧ c.AfterEos) _
      (fun hinv hfresh hstep => ⟨hinv.1.step hasr hfresh hstep, hinv.2.step hinv.1 hstep⟩)
      _ _ _ ⟨Connection.inv_connected input, nofun⟩ hfresh hrun
  have harrived := ((fromPeer_run hrun).arrived hwhole htail hinput).trans hkept
  obtain ⟨text, confidence, intentId, htranscript, hpayload, hheard⟩ :=
    (hinv.results w hw).1 hresult
  refine ⟨text, confidence, intentId, htranscript, hpayload, hheard.trans ?_⟩
  exact orderly_heard horderly ((List.take_prefix _ _).trans harrived) ((heos w hw).2 hresult)

/-- The bytes of all that the bridge has written. -/
def Connection.replyBytes (c : Connection config) : Bytes :=
  (c.written.map Written.frame).flatMap Frame.wire

/-- **A result is about the channel's own audio.**  When the channel's waits read what the
bridge has written, a completion has the canned text, or a document whose transcript is that
of a stream over exactly the audio the channel has sent. -/
theorem plugin_results_own_audio (resultXml : Option Bytes) (socket : List SockAnswer)
    (labels : List PluginLabel) (σ : Plugin)
    (h : (Plugin.created socket).run resultXml labels = some σ) (hclean : CleanRun σ.calls)
    (config : BridgeConfig) (hasr : config.asr.Exhausts) (input : Bytes)
    (hinput : input <+: accepted σ.calls) (schedule : List Connection.Label)
    (c : Connection config)
    (hrun : runSteps Connection.step (connected config input) schedule = some c)
    (hfits : ∀ w ∈ c.written, w.frame.Fits) (waits : List WaitCall)
    (hbetween : BetweenFrames c.replyBytes (waitCalls waits c.replyBytes))
    (hwaits : ∀ rc text, .waited rc (some text) ∈ labels →
      ∃ r ∈ waitCalls waits c.replyBytes, r.outcome = .ret rc ∧ r.nlsml = some text) :
    ∀ completion, .recognitionComplete completion ∈ σ.sent → completion.cause = .success →
      completion.body = PluginChannel.cannedBody resultXml ∨
        ∃ text confidence intentId heard,
          completion.body = some (renderNlsml text confidence intentId) ∧
          Transcript config.asr heard text ∧
          heard.map AudioChunk.pcm16 = keptAudio σ.calls := by
  intro completion hcompletion hcause
  have hloaded := loadedFrom_run h completion hcompletion
  rw [LoadedFrom, hcause] at hloaded
  rcases hloaded with hcanned | ⟨document, hwaited, -, hbody⟩
  · exact Or.inl hcanned
  · obtain ⟨r, hr, -, hnlsml⟩ := hwaits 0 document hwaited
    have hframes : ∀ f ∈ c.written.map Written.frame, f.Fits := by
      intro f hf
      obtain ⟨w, hw, rfl⟩ := List.mem_map.mp hf
      exact hfits w hw
    have hbytes : c.replyBytes = (c.written.map Written.frame).flatMap Frame.wire ++ [] :=
      (List.append_nil _).symm
    rw [hbytes] at hbetween hr
    obtain ⟨f, hf, hresult, hpayload⟩ := waitCalls_document rfl hframes hbetween hr hnlsml
    obtain ⟨w, hw, rfl⟩ := List.mem_map.mp hf
    obtain ⟨text, confidence, intentId, htranscript, hnlsml, hheard⟩ :=
      document_ownAudio hasr h hclean hinput hrun hw hresult
    exact Or.inr ⟨text, confidence, intentId, w.heard, by rw [hbody, ← hpayload, hnlsml],
      htranscript, hheard⟩

end System

section Examples

/-- A socket that takes six pieces of a hundred bytes. -/
def bridgeSocket : List SockAnswer := List.replicate 6 (.accept 99)

/-- One utterance, with what the wait for its result gives. -/
def callWithBridge (text : Bytes) : List PluginLabel :=
  [.openChannel true, .request (.recognize lineRequest), .write ⟨some [1, 0]⟩ .none,
    .write ⟨none⟩ .inactivity, .waited 0 (some text)]

/-- The senders that are called. -/
def callsOfCall : List Call :=
  [PluginChannel.startCall lineRequest 8000, .audio [1, 0], .eos]

theorem callWithBridge_run (text : Bytes) :
    ∃ σ, (Plugin.created bridgeSocket).run none (callWithBridge text) = some σ ∧
      σ.calls = runCalls callsOfCall bridgeSocket ∧
      σ.sent = [.channelOpened, .response 0 .success .inProgress,
        .recognitionComplete ⟨0, .success, PluginChannel.loadedBody none 0 (some text)⟩] :=
  ⟨_, rfl, rfl, rfl⟩

theorem callsOfCall_clean : CleanRun (runCalls callsOfCall bridgeSocket) := by
  refine ⟨trivial, nofun, ?_, nofun, trivial, nofun, trivial⟩
  change EagainOnlyFirst [.accept 99, .accept 99]
  decide

theorem callsOfCall_view :
    (runSteps Connection.step (connected countingConfig
      (accepted (runCalls callsOfCall bridgeSocket))) plainSchedule).map handlerView =
        some ⟨.awaitingAsr, some (.returned, "1", [⟨[1, 0], 0⟩]), [[1, 0]], 0⟩ := by
  decide +kernel

/-- The bridge answers the call with a short RESULT. -/
theorem callsOfCall_answered :
    ∃ c w, runSteps Connection.step (connected countingConfig
        (accepted (runCalls callsOfCall bridgeSocket))) (plainSchedule ++ [.finish]) = some c ∧
      c.written = [w] ∧ w.frame.ftype = frameResult ∧ w.frame.Fits := by
  obtain ⟨c, hrun, hc⟩ := Option.map_eq_some_iff.mp callsOfCall_view
  simp only [handlerView, HandlerView.mk.injEq, Prod.mk.injEq, Option.map_eq_some_iff] at hc
  obtain ⟨hphase, ⟨task, hlast, hstatus, htext, -⟩, -, hwritten⟩ := hc
  have hone : (utf8 (xmlEscape "1")).length = 1 := by decide +kernel
  have hintent : (utf8 (xmlEscape placeholderIntent)).length = 18 := by decide +kernel
  have hconfidence : (utf8 (fixed2 (9 / 10))).length = 4 := by decide +kernel
  obtain ⟨c', hfinish, -, hwritten'⟩ := finish_scripted hphase hlast hstatus
    (by rw [htext, hone]; decide)
  rw [List.length_eq_zero_iff.mp hwritten, List.nil_append] at hwritten'
  refine ⟨c', ⟨c.arrived.length, ⟨frameResult, c.nlsmlFor task.finalText⟩, task.received⟩, ?_,
    hwritten', rfl, ?_⟩
  · rw [runSteps_append, hrun]
    exact hfinish
  · have hlength := length_renderNlsml_le "1" (9 / 10) placeholderIntent
    have hshort : (renderNlsml "1" (9 / 10) placeholderIntent).length ≤ maxFrameSize := by
      rw [maxFrameSize]
      omega
    have hnlsml : c.nlsmlFor task.finalText = renderNlsml "1" (9 / 10) placeholderIntent := by
      rw [Connection.nlsmlFor_eq, htext]
      rfl
    have hpayload : ∀ payload : Bytes, payload.length ≤ maxFrameSize →
        Frame.Fits ⟨frameResult, payload⟩ := fun _ h => h
    exact hnlsml ▸ hpayload _ hshort

theorem conversation_inOrder_call :
    ∃ σ c, (Plugin.created bridgeSocket).run none (callWithBridge [0x3c]) = some σ ∧
      runSteps Connection.step (connected countingConfig (accepted σ.calls))
        (plainSchedule ++ [.finish]) = some c ∧
      (∃ t : Conversation, σ.calls.map CallRecord.call = t.calls) ∧
      σ.calls = runCalls (σ.calls.map CallRecord.call) bridgeSocket ∧
      c.arrived <+: keptFrames σ.calls ∧ InOrder c.arrived := by
  obtain ⟨σ, hσ, hcalls, -⟩ := callWithBridge_run [0x3c]
  obtain ⟨c, -, hrun, -⟩ := callsOfCall_answered
  rw [← hcalls] at hrun
  exact ⟨σ, c, hσ, hrun, conversation_inOrder none _ _ σ hσ (hcalls ▸ callsOfCall_clean)
    countingConfig _ (List.prefix_refl _) _ c hrun⟩

theorem plugin_results_own_audio_call :
    ∃ text σ, (Plugin.created bridgeSocket).run none (callWithBridge text) = some σ ∧
      ∀ completion, .recognitionComplete completion ∈ σ.sent → completion.cause = .success →
        completion.body = PluginChannel.cannedBody none ∨
          ∃ text confidence intentId heard,
            completion.body = some (renderNlsml text confidence intentId) ∧
            Transcript countingConfig.asr heard text ∧
            heard.map AudioChunk.pcm16 = keptAudio σ.calls := by
  obtain ⟨c, w, hrun, hwritten, hresult, hfits⟩ := callsOfCall_answered
  obtain ⟨σ, hσ, hcalls, -⟩ := callWithBridge_run w.frame.payload
  rw [← hcalls] at hrun
  have hreplies : c.replyBytes = w.frame.wire := by
    simp [Connection.replyBytes, hwritten]
  have hsteady : Steady (List.replicate w.frame.wire.length (.ready 0)) w.frame.wire.length :=
    ⟨by simp, by simp [RecvAnswer.isReady, List.countP_replicate]⟩
  obtain ⟨rest, hwait⟩ := sbrWaitResult_prompt patient patient_ample [] nofun w.frame hfits
    (fun hover => hover.1 hresult) [] (List.replicate w.frame.wire.length (.ready 0))
    (by simpa using hsteady)
  rw [if_pos hresult, List.nil_append, List.flatMap_singleton, List.append_nil] at hwait
  have hcallsOfWait : waitCalls [⟨patient, List.replicate w.frame.wire.length (.ready 0)⟩]
      c.replyBytes = [⟨.ret 0, some w.frame.payload, [], rest⟩] := by
    rw [hreplies, waitCalls, hwait]
    rfl
  refine ⟨w.frame.payload, σ, hσ, plugin_results_own_audio none _ _ σ hσ
    (hcalls ▸ callsOfCall_clean) countingConfig (scriptedAsr_exhausts _) _ (List.prefix_refl _)
    _ c hrun ?_ [⟨patient, List.replicate w.frame.wire.length (.ready 0)⟩] ?_ ?_⟩
  · intro v hv
    rw [hwritten] at hv
    exact List.mem_singleton.mp hv ▸ hfits
  · rw [hcallsOfWait]
    exact ⟨⟨[w.frame], by simpa using hfits, by simp [hreplies]⟩, trivial⟩
  · intro rc text hmem
    rw [hcallsOfWait]
    refine ⟨_, List.mem_singleton_self _, ?_⟩
    have heq : rc = 0 ∧ text = w.frame.payload := by simpa [callWithBridge] using hmem
    exact ⟨by rw [heq.1], by rw [heq.2]⟩

end Examples

end Mrcp
end Sandroid
