import Sandroid.Mrcp.BridgeStarts
import Sandroid.Mrcp.PluginRecognitions

/-!
# The conversation of a plugin channel with the bridge

The calls of the senders that a channel makes are one conversation: a START, the audio, one
EOS, a STOP, broken off at most once (`Conversation`), and every call but the last has
gone through (`Made`).  What this leaves on the wire is in order (`Orderly`).
-/

namespace Sandroid
namespace Mrcp

open Lib Api

section Calls

/-- The calls of a conversation: nothing but a STOP goes without a START. -/
structure Conversation where
  start : Option (CString × UInt32)
  audio : List Bytes
  eos : Bool
  stop : Bool
  opened : start = none → audio = [] ∧ eos = false

namespace Conversation

def calls (t : Conversation) : List Call :=
  (t.start.map fun s => Call.start (some s.1) (some s.1) s.2 (some RecogChannel.lpcm)).toList ++
    (t.audio.map .audio ++ ((if t.eos then [.eos] else []) ++ (if t.stop then [.stop] else [])))

/-- A channel that has not told the bridge to start. -/
def silent : Conversation := ⟨none, [], false, false, fun _ => ⟨rfl, rfl⟩⟩

/-- The calls since a START. -/
def since (start : CString × UInt32) (audio : List Bytes) (eos stop : Bool) : Conversation :=
  ⟨some start, audio, eos, stop, nofun⟩

end Conversation

/-- These records come from calls on this socket, one after another; what the socket will
answer next is left. -/
inductive Made (script : List SockAnswer) : List CallRecord → List SockAnswer → Prop
  | nil : Made script [] script
  | snoc {records : List CallRecord} {socket : List SockAnswer} (h : Made script records socket)
      (hgoes : ∀ record ∈ records, record.result.outcome.goesOn = true) (call : Call) :
      Made script (records ++ [⟨call, call.send socket⟩]) (call.send socket).rest

theorem Made.runCalls {script socket : List SockAnswer} {records : List CallRecord}
    (h : Made script records socket) :
    runCalls (records.map CallRecord.call) script = records ∧
      ((∀ record ∈ records, record.result.outcome.goesOn = true) → ∀ more : List Call,
        runCalls (records.map CallRecord.call ++ more) script =
          records ++ runCalls more socket) := by
  induction h with
  | nil => exact ⟨rfl, fun _ _ => rfl⟩
  | @snoc records socket h hgoes call ih =>
      have hmore := ih.2 hgoes
      refine ⟨?_, fun hall more => ?_⟩
      · rw [List.map_append, List.map_singleton, hmore]
        simp [Mrcp.runCalls]
      · have hcall : (call.send socket).outcome.goesOn = true :=
          hall ⟨call, call.send socket⟩ (List.mem_append_right _ (List.mem_singleton_self _))
        rw [List.map_append, List.map_singleton, List.append_assoc, hmore, List.append_assoc]
        simp [Mrcp.runCalls, hcall]

/-- Where a channel stands in its conversation. -/
inductive Talk (c : PluginChannel) (calls : List Call) : Prop
  | silent (started : c.bridgeStarted = false) (eos : c.bridgeEosSent = false) (none : calls = [])
  | talking {start : CString × UInt32} {audio : List Bytes} (bridge : c.bridge = true)
      (started : c.bridgeStarted = true) (eos : c.bridgeEosSent = false)
      (made : calls = (Conversation.since start audio false false).calls)
  | ended {start : CString × UInt32} {audio : List Bytes} (bridge : c.bridge = true)
      (started : c.bridgeStarted = true) (eos : c.bridgeEosSent = true)
      (made : calls = (Conversation.since start audio true false).calls)
  | closed {t : Conversation} (bridge : c.bridge = false) (made : calls = t.calls)

theorem Talk.streaming {c : PluginChannel} {calls : List Call} (h : Talk c calls)
    (hup : c.bridge = true ∧ c.bridgeStarted = true ∧ ¬ c.bridgeEosSent = true) :
    ∃ start audio, calls = (Conversation.since start audio false false).calls := by
  cases h with
  | silent started eos none => exact absurd hup.2.1 (started ▸ Bool.false_ne_true)
  | talking bridge started eos made => exact ⟨_, _, made⟩
  | ended bridge started eos made => exact absurd eos hup.2.2
  | closed bridge made => exact absurd hup.1 (bridge ▸ Bool.false_ne_true)

/-- A channel, its socket and the calls made so far. -/
structure Talking (script : List SockAnswer) (c : PluginChannel) (socket : List SockAnswer)
    (records : List CallRecord) : Prop where
  made : Made script records socket
  goesOn : c.bridge = true → ∀ record ∈ records, record.result.outcome.goesOn = true
  talk : Talk c (records.map CallRecord.call)

theorem callSender_eq_some {call : Call} {socket : List SockAnswer} {rc : Int}
    {record : CallRecord} (h : callSender call socket = some (rc, record)) :
    record = ⟨call, call.send socket⟩ ∧ record.result.outcome = .ret rc := by
  rw [callSender] at h
  split at h
  · cases h
  · rename_i rc' hret
    cases h
    exact ⟨rfl, hret⟩

variable {script socket : List SockAnswer} {c c' : PluginChannel} {records : List CallRecord}
  {o : PluginOutcome}

/-- The channel has changed in nothing that concerns the bridge. -/
theorem Talking.congr (h : Talking script c socket records) (hbridge : c'.bridge = c.bridge)
    (hstarted : c'.bridgeStarted = c.bridgeStarted)
    (heos : c'.bridgeEosSent = c.bridgeEosSent) : Talking script c' socket records := by
  refine ⟨h.made, hbridge ▸ h.goesOn, ?_⟩
  cases h.talk with
  | silent started eos none => exact .silent (hstarted.trans started) (heos.trans eos) none
  | talking bridge started eos made =>
      exact .talking (hbridge.trans bridge) (hstarted.trans started) (heos.trans eos) made
  | ended bridge started eos made =>
      exact .ended (hbridge.trans bridge) (hstarted.trans started) (heos.trans eos) made
  | closed bridge made => exact .closed (hbridge.trans bridge) made

/-- One more call, while the bridge is up. -/
theorem Talking.call (h : Talking script c socket records) (hbridge : c.bridge = true)
    {call : Call} {rc : Int} {record : CallRecord}
    (hcall : callSender call socket = some (rc, record))
    (hgoes : c'.bridge = true → rc ≠ -1)
    (htalk : Talk c' (records.map CallRecord.call ++ [call])) :
    Talking script c' record.result.rest (records ++ [record]) := by
  obtain ⟨rfl, hret⟩ := callSender_eq_some hcall
  refine ⟨h.made.snoc (h.goesOn hbridge) call, fun hup => ?_, by simpa using htalk⟩
  intro record hrecord
  rcases List.mem_append.mp hrecord with hrecord | hrecord
  · exact h.goesOn hbridge record hrecord
  · rw [List.mem_singleton.mp hrecord, hret, Outcome.goesOn]
    simpa using hgoes hup

theorem Talking.startBridge {request : RecognizeRequest} {sampleRate : UInt32}
    (h : Talking script c socket records)
    (hstart : c.startBridge socket (PluginChannel.startCall request sampleRate) = some o) :
    Talking script o.channel o.socket (records ++ o.calls) := by
  rw [PluginChannel.startBridge] at hstart
  split at hstart
  case isFalse =>
    cases hstart
    simpa using h
  rename_i hup
  split at hstart
  · cases hstart
  · rename_i rc record hcall
    cases hstart
    have hmade : records.map CallRecord.call = [] := by
      cases h.talk with
      | silent started eos none => exact none
      | talking bridge started eos made => exact absurd started hup.2
      | ended bridge started eos made => exact absurd started hup.2
      | closed bridge made => exact absurd hup.1 (bridge ▸ Bool.false_ne_true)
    have hcalls : records.map CallRecord.call ++ [PluginChannel.startCall request sampleRate] =
        (Conversation.since (request.sessionId, sampleRate) [] false false).calls := by
      rw [hmade]
      rfl
    refine h.call hup.1 hcall ?_ ?_
    · intro hbridge
      split at hbridge
      · rename_i hzero
        rw [hzero]
        decide
      · cases hbridge
    · split
      · exact .talking hup.1 rfl rfl hcalls
      · exact .closed rfl hcalls

theorem Talking.forwardAudio {frame : MediaFrame} (h : Talking script c socket records)
    (hforward : c.forwardAudio socket frame = some o) :
    Talking script o.channel o.socket (records ++ o.calls) := by
  rw [PluginChannel.forwardAudio] at hforward
  split at hforward
  · cases hforward
    simpa using h
  · rename_i pcm hpcm
    split at hforward
    case isFalse =>
      cases hforward
      simpa using h
    rename_i hup
    split at hforward
    · cases hforward
    · rename_i rc record hcall
      cases hforward
      obtain ⟨start, audio, hmade⟩ := h.talk.streaming hup
      have hcalls : records.map CallRecord.call ++ [.audio pcm] =
          (Conversation.since start (audio ++ [pcm]) false false).calls := by
        rw [hmade]
        simp [Conversation.calls, Conversation.since]
      refine h.call hup.1 hcall ?_ ?_
      · intro hbridge heq
        rw [heq, if_pos (by decide)] at hbridge
        cases hbridge
      · split
        · exact .closed rfl hcalls
        · exact .talking hup.1 hup.2.1 (eq_false_of_ne_true hup.2.2) hcalls

theorem Talking.signalEos (h : Talking script c socket records)
    (hsignal : c.signalEos socket = some o) :
    Talking script o.channel o.socket (records ++ o.calls) := by
  rw [PluginChannel.signalEos] at hsignal
  split at hsignal
  case isFalse =>
    cases hsignal
    simpa using h
  rename_i hup
  split at hsignal
  · cases hsignal
  · rename_i rc record hcall
    cases hsignal
    obtain ⟨start, audio, hmade⟩ := h.talk.streaming hup
    have hcalls : records.map CallRecord.call ++ [.eos] =
        (Conversation.since start audio true false).calls := by
      rw [hmade]
      simp [Conversation.calls, Conversation.since]
    refine h.call hup.1 hcall ?_ ?_
    · intro hbridge
      split at hbridge
      · rename_i hzero
        rw [hzero]
        decide
      · cases hbridge
    · split
      · exact .ended hup.1 hup.2.1 rfl hcalls
      · exact .closed rfl hcalls

theorem Talking.closeBridge (h : Talking script c socket records)
    (hclose : c.closeBridge socket = some o) :
    Talking script o.channel o.socket (records ++ o.calls) := by
  rw [PluginChannel.closeBridge] at hclose
  split at hclose
  case isFalse =>
    cases hclose
    simpa using h
  rename_i hup
  split at hclose
  · cases hclose
  · rename_i rc record hcall
    cases hclose
    refine h.call hup hcall (by simp) ?_
    cases h.talk with
    | silent started eos none =>
        refine @Talk.closed _ _ ⟨.none, [], false, true, fun _ => ⟨rfl, rfl⟩⟩ rfl ?_
        rw [none]
        rfl
    | @talking start audio bridge started eos made =>
        refine @Talk.closed _ _ (.since start audio false true) rfl ?_
        rw [made]
        simp [Conversation.calls, Conversation.since]
    | @ended start audio bridge started eos made =>
        refine @Talk.closed _ _ (.since start audio true true) rfl ?_
        rw [made]
        simp [Conversation.calls, Conversation.since]
    | closed bridge made => exact absurd hup (bridge ▸ Bool.false_ne_true)

theorem Talking.dispatch {id : Nat} {method : RecogMethod} (h : Talking script c socket records)
    (hdispatch : c.dispatch socket id method = some o) :
    Talking script o.channel o.socket (records ++ o.calls) := by
  have hnone : Talking script c socket (records ++ []) := by simpa using h
  cases method with
  | recognize request =>
      rw [PluginChannel.dispatch, PluginChannel.recognize] at hdispatch
      split at hdispatch
      · cases hdispatch
        exact hnone
      · obtain ⟨o₁, hstart, rfl⟩ := Option.map_eq_some_iff.mp hdispatch
        have htimers : Talking script
            { c with timersStarted := some (request.startInputTimers.getD true) } socket records :=
          h.congr rfl rfl rfl
        exact (htimers.startBridge hstart).congr rfl rfl rfl
  | stop | startInputTimers | setParams | getParams | defineGrammar | getResult | other =>
      cases hdispatch
      exact hnone.congr rfl rfl rfl

theorem Talking.thenForward {o₀ : PluginOutcome} {frame : MediaFrame}
    (h : Talking script o₀.channel o₀.socket (records ++ o₀.calls))
    (hforward : PluginChannel.thenForward o₀ frame = some o) :
    Talking script o.channel o.socket (records ++ o.calls) := by
  rw [PluginChannel.thenForward] at hforward
  obtain ⟨o', haudio, rfl⟩ := Option.map_eq_some_iff.mp hforward
  simpa using h.forwardAudio haudio

theorem Talking.streamWrite {resultXml : Option Bytes} {frame : MediaFrame}
    {event : DetectorEvent} (h : Talking script c socket records)
    (hwrite : c.streamWrite resultXml socket frame event = some o) :
    Talking script o.channel o.socket (records ++ o.calls) := by
  have hnone : Talking script c socket (records ++ []) := by simpa using h
  rw [PluginChannel.streamWrite] at hwrite
  split at hwrite
  · cases hwrite
    exact hnone.congr rfl rfl rfl
  · split at hwrite
    · cases hwrite
      exact hnone
    · cases event with
      | none => exact hnone.thenForward hwrite
      | activity => exact hnone.thenForward hwrite
      | noinput =>
          dsimp only at hwrite
          split at hwrite
          · refine Talking.thenForward ?_ hwrite
            exact hnone.congr rfl rfl rfl
          · exact hnone.thenForward hwrite
      | inactivity =>
          dsimp only at hwrite
          rw [PluginChannel.inactivity] at hwrite
          split at hwrite
          · cases hwrite
          · rename_i o₁ hsignal
            have hsignalled := h.signalEos hsignal
            split at hwrite
            · cases hwrite
              exact hsignalled.congr rfl rfl rfl
            · refine Talking.thenForward ?_ hwrite
              exact hsignalled.congr rfl rfl rfl

theorem Talking.resume {resultXml : Option Bytes} {rc : Int} {nlsml : Option Bytes}
    (h : Talking script c socket records)
    (hresume : c.resume resultXml socket rc nlsml = some o) :
    Talking script o.channel o.socket (records ++ o.calls) := by
  have hnone : Talking script c socket (records ++ []) := by simpa using h
  rw [PluginChannel.resume] at hresume
  split at hresume
  · cases hresume
  · refine Talking.thenForward ?_ hresume
    exact hnone.congr rfl rfl rfl

/-- The conversation of a channel, which begins when the channel is opened. -/
structure Plugin.Conversing (script : List SockAnswer) (σ : Plugin) : Prop where
  talking : Talking script σ.channel σ.socket σ.calls
  created : σ.phase = .created →
    σ.calls = [] ∧ σ.channel.bridgeStarted = false ∧ σ.channel.bridgeEosSent = false

theorem conversing_created (script : List SockAnswer) :
    (Plugin.created script).Conversing script :=
  ⟨⟨.nil, nofun, .silent rfl rfl rfl⟩, fun _ => ⟨rfl, rfl, rfl⟩⟩

theorem conversing_step {resultXml : Option Bytes} {σ σ' : Plugin} {label : PluginLabel}
    (h : σ.Conversing script) (hstep : σ.step resultXml label = some σ') :
    σ'.Conversing script := by
  have hafter : ∀ {o : PluginOutcome}, σ.phase = .opened →
      Talking script o.channel o.socket (σ.calls ++ o.calls) →
      (σ.after o).Conversing script := by
    intro o hphase htalking
    refine ⟨htalking, fun hcreated => ?_⟩
    cases hphase.symm.trans hcreated
  cases label with
  | openChannel connected =>
      rw [Plugin.step] at hstep
      split at hstep
      case isFalse => cases hstep
      rename_i hphase
      cases hstep
      obtain ⟨hcalls, hstarted, heos⟩ := h.created hphase
      refine ⟨⟨h.talking.made, fun _ => ?_, .silent ?_ ?_ ?_⟩, fun hcreated => ?_⟩
      · simp [hcalls]
      · cases connected
        · exact hstarted
        · exact hstarted
      · cases connected
        · exact heos
        · exact heos
      · simp [hcalls]
      · cases hcreated
  | request method =>
      rw [Plugin.step] at hstep
      split at hstep
      case isFalse => cases hstep
      rename_i hphase
      obtain ⟨o, ho, rfl⟩ := Option.map_eq_some_iff.mp hstep
      have hnext := hafter hphase (h.talking.dispatch ho)
      exact ⟨hnext.talking, hnext.created⟩
  | write frame event =>
      rw [Plugin.step] at hstep
      split at hstep
      case isFalse => cases hstep
      rename_i hopen
      obtain ⟨o, ho, rfl⟩ := Option.map_eq_some_iff.mp hstep
      have hnext := hafter hopen.1 (h.talking.streamWrite ho)
      exact ⟨hnext.talking, hnext.created⟩
  | waited rc nlsml =>
      rw [Plugin.step] at hstep
      split at hstep
      case isFalse => cases hstep
      rename_i hphase
      obtain ⟨o, ho, rfl⟩ := Option.map_eq_some_iff.mp hstep
      exact hafter hphase (h.talking.resume ho)
  | closeChannel =>
      rw [Plugin.step] at hstep
      split at hstep
      case isFalse => cases hstep
      rename_i hopen
      obtain ⟨o, ho, rfl⟩ := Option.map_eq_some_iff.mp hstep
      refine ⟨h.talking.closeBridge ho, fun hcreated => ?_⟩
      cases hcreated

theorem conversing_run {resultXml : Option Bytes} {labels : List PluginLabel} {σ : Plugin}
    (h : (Plugin.created script).run resultXml labels = some σ) : σ.Conversing script := by
  have hany : AlongRun (Plugin.step resultXml) (fun _ _ => True) (Plugin.created script) labels :=
    alongRun_of_forall (fun _ _ => trivial) _ labels
  exact runSteps_invariant (fun hinv _ hstep => conversing_step hinv hstep)
    (conversing_created script) hany h

/-- The calls of every channel are a conversation. -/
theorem Talk.conversation {calls : List Call} (h : Talk c calls) :
    ∃ t : Conversation, calls = t.calls := by
  cases h with
  | silent started eos none => exact ⟨.silent, none⟩
  | @talking start audio bridge started eos made => exact ⟨.since start audio false false, made⟩
  | @ended start audio bridge started eos made => exact ⟨.since start audio true false, made⟩
  | @closed t bridge made => exact ⟨t, made⟩

end Calls

section Frames

/-- The AUDIO payloads that were sent whole. -/
def keptAudio (records : List CallRecord) : List Bytes :=
  (keptFrames records).filterMap fun f => if f.ftype = frameAudio then some f.payload else none

/-- The frames of a conversation with this audio. -/
inductive Orderly (audio : List Bytes) : List Frame → Prop
  | unopened {stop : List Frame} (hstop : stop = [] ∨ stop = [⟨frameStop, []⟩])
      (hnone : audio = []) : Orderly audio stop
  | opened {payload : Bytes} {eos stop : List Frame}
      (heos : eos = [] ∨ eos = [⟨frameEos, []⟩]) (hstop : stop = [] ∨ stop = [⟨frameStop, []⟩]) :
      Orderly audio
        (⟨frameStart, payload⟩ :: (audio.map (Frame.mk frameAudio) ++ (eos ++ stop)))

theorem keptFrames_append (records more : List CallRecord) :
    keptFrames (records ++ more) = keptFrames records ++ keptFrames more :=
  List.flatMap_append

/-- A call without arguments leaves its frame or none. -/
theorem keptFrames_single {record : CallRecord} {f : Frame} (h : record.call.frame = some f) :
    keptFrames [record] = [] ∨ keptFrames [record] = [f] := by
  rw [keptFrames, List.flatMap_singleton, h]
  split
  · exact Or.inr rfl
  · exact Or.inl rfl

theorem keptFrames_audio {records : List CallRecord} {audio : List Bytes}
    (h : records.map CallRecord.call = audio.map Call.audio) :
    ∃ kept : List Bytes, keptFrames records = kept.map (Frame.mk frameAudio) := by
  induction records generalizing audio with
  | nil => exact ⟨[], rfl⟩
  | cons record records ih =>
      cases audio with
      | nil => cases h
      | cons pcm audio =>
          obtain ⟨hcall, hrest⟩ := List.cons.inj h
          obtain ⟨kept, hkept⟩ := ih hrest
          have hsplit : keptFrames (record :: records) =
              keptFrames [record] ++ keptFrames records := keptFrames_append [record] records
          have hone : keptFrames [record] = [] ∨ keptFrames [record] = [⟨frameAudio, pcm⟩] := by
            cases hframe : record.call.frame with
            | none => exact Or.inl (by simp [keptFrames, hframe])
            | some f =>
                have hf : f = ⟨frameAudio, pcm⟩ := by
                  rw [hcall, Call.frame] at hframe
                  split at hframe
                  · cases hframe
                  · exact (Option.some.inj hframe).symm
                exact hf ▸ keptFrames_single hframe
          rcases hone with hone | hone
          · exact ⟨kept, by rw [hsplit, hone, hkept, List.nil_append]⟩
          · exact ⟨pcm :: kept, by rw [hsplit, hone, hkept]; rfl⟩

theorem keptFrames_start {start : CString × UInt32} {script : List SockAnswer}
    (h : ((Call.start (some start.1) (some start.1) start.2
      (some RecogChannel.lpcm)).send script).outcome.goesOn = true) :
    ∃ payload, keptFrames
      [⟨.start (some start.1) (some start.1) start.2 (some RecogChannel.lpcm),
        (Call.start (some start.1) (some start.1) start.2 (some RecogChannel.lpcm)).send script⟩] =
      [⟨frameStart, payload⟩] := by
  generalize hcall : Call.start (some start.1) (some start.1) start.2 (some RecogChannel.lpcm) =
    call at h ⊢
  cases hframe : call.frame with
  | none =>
      rw [← hcall, Call.frame, Option.map_eq_none_iff] at hframe
      rw [← hcall, Call.send, sbrSendStart, hframe] at h
      simp [IoResult.done, Outcome.goesOn] at h
  | some f =>
      have hf : ∃ payload, f = ⟨frameStart, payload⟩ := by
        rw [← hcall, Call.frame, Option.map_eq_some_iff] at hframe
        obtain ⟨payload, -, rfl⟩ := hframe
        exact ⟨payload, rfl⟩
      obtain ⟨payload, rfl⟩ := hf
      refine ⟨payload, ?_⟩
      have hkept : (call.send script).dropped = 0 := by
        cases send_spec hframe script with
        | unfinished hout =>
            rcases hout with hout | hout
            · rw [hout] at h
              cases h
            · rw [hout] at h
              exact absurd h (by decide)
        | complete hout hdrop => exact hdrop
        | stopFailed hstop => cases hcall.trans hstop
        | dropped haudio => cases hcall.trans haudio
      simp [keptFrames, hkept, hframe]

theorem orderly_audio {audio : List Bytes} {frames : List Frame} (h : Orderly audio frames) :
    frames.filterMap (fun f => if f.ftype = frameAudio then some f.payload else none) = audio := by
  have hstop : ∀ {stop : List Frame}, stop = [] ∨ stop = [⟨frameStop, []⟩] →
      stop.filterMap (fun f => if f.ftype = frameAudio then some f.payload else none) = [] := by
    rintro stop (rfl | rfl)
    · rfl
    · rfl
  cases h with
  | unopened hlast hnone => rw [hnone, hstop hlast]
  | opened heos hlast =>
      have heosNone : ∀ {eos : List Frame}, eos = [] ∨ eos = [⟨frameEos, []⟩] →
          eos.filterMap (fun f => if f.ftype = frameAudio then some f.payload else none) = [] := by
        rintro eos (rfl | rfl)
        · rfl
        · rfl
      rw [List.filterMap_cons_none (by rfl), List.filterMap_append, List.filterMap_append,
        heosNone heos, hstop hlast, List.append_nil, List.append_nil, List.filterMap_map]
      exact List.filterMap_some

theorem Made.goesOn_front {script socket : List SockAnswer} {records front more : List CallRecord}
    (h : Made script records socket) (hsplit : records = front ++ more) (hmore : more ≠ []) :
    ∀ record ∈ front, record.result.outcome.goesOn = true := by
  cases h with
  | nil => exact absurd (List.append_eq_nil_iff.mp hsplit.symm).2 hmore
  | @snoc records socket h hgoes call =>
      intro record hrecord
      rcases List.eq_nil_or_concat more with rfl | ⟨more', last, rfl⟩
      · exact absurd rfl hmore
      · rw [List.concat_eq_append, ← List.append_assoc] at hsplit
        obtain ⟨rfl, -⟩ := List.append_inj' hsplit rfl
        exact hgoes record (List.mem_append_left _ hrecord)

theorem Made.sent {script socket : List SockAnswer} {records : List CallRecord}
    (h : Made script records socket) :
    ∀ record ∈ records, ∃ answers, record.result = record.call.send answers := by
  induction h with
  | nil => nofun
  | @snoc records socket h hgoes call ih =>
      intro record hrecord
      rcases List.mem_append.mp hrecord with hrecord | hrecord
      · exact ih record hrecord
      · rw [List.mem_singleton.mp hrecord]
        exact ⟨socket, rfl⟩

/-- What the calls of a conversation leave on the wire, without what was dropped. -/
theorem Made.orderly {script socket : List SockAnswer} {records : List CallRecord}
    (h : Made script records socket) {t : Conversation}
    (hcalls : records.map CallRecord.call = t.calls) :
    Orderly (keptAudio records) (keptFrames records) := by
  suffices hexists : ∃ audio, Orderly audio (keptFrames records) by
    obtain ⟨audio, horderly⟩ := hexists
    rwa [keptAudio, orderly_audio horderly]
  have hsingle : ∀ {rs : List CallRecord} {call : Call} {f : Frame} {b : Bool},
      call.frame = some f → rs.map CallRecord.call = (if b = true then [call] else []) →
      keptFrames rs = [] ∨ keptFrames rs = [f] := by
    intro rs call f b hframe hrs
    cases b with
    | false =>
        rw [if_neg Bool.false_ne_true, List.map_eq_nil_iff] at hrs
        exact Or.inl (by rw [hrs]; rfl)
    | true =>
        rw [if_pos rfl, List.map_eq_singleton_iff] at hrs
        obtain ⟨record, rfl, hcall⟩ := hrs
        exact keptFrames_single (hcall ▸ hframe)
  rw [Conversation.calls] at hcalls
  obtain ⟨rs₀, rest, rfl, hstart, hrest⟩ := List.map_eq_append_iff.mp hcalls
  obtain ⟨rs₁, rest', rfl, haudio, hrest⟩ := List.map_eq_append_iff.mp hrest
  obtain ⟨rs₂, rs₃, rfl, heos, hstop⟩ := List.map_eq_append_iff.mp hrest
  have hkeptEos := hsingle (show Call.eos.frame = some ⟨frameEos, []⟩ from rfl) heos
  have hkeptStop := hsingle (show Call.stop.frame = some ⟨frameStop, []⟩ from rfl) hstop
  cases hopened : t.start with
  | none =>
      obtain ⟨hnoAudio, hnoEos⟩ := t.opened hopened
      rw [hopened, Option.map_none, Option.toList_none, List.map_eq_nil_iff] at hstart
      rw [hnoAudio, List.map_nil, List.map_eq_nil_iff] at haudio
      rw [hnoEos, if_neg Bool.false_ne_true, List.map_eq_nil_iff] at heos
      subst hstart haudio heos
      exact ⟨[], .unopened hkeptStop rfl⟩
  | some start =>
      rw [hopened, Option.map_some, Option.toList_some, List.map_eq_singleton_iff] at hstart
      obtain ⟨record, rfl, hcall⟩ := hstart
      obtain ⟨kept, hkept⟩ := keptFrames_audio haudio
      obtain ⟨answers, hresult⟩ := h.sent record (by simp)
      by_cases hlast : rs₁ ++ (rs₂ ++ rs₃) = []
      · have hone : keptFrames [record] = [] ∨
            ∃ payload, keptFrames [record] = [⟨frameStart, payload⟩] := by
          cases hframe : record.call.frame with
          | none => exact Or.inl (by simp [keptFrames, hframe])
          | some f =>
              rcases keptFrames_single hframe with hnone | hkept
              · exact Or.inl hnone
              · rw [hcall, Call.frame, Option.map_eq_some_iff] at hframe
                obtain ⟨payload, -, rfl⟩ := hframe
                exact Or.inr ⟨payload, hkept⟩
        rw [hlast, List.append_nil]
        rcases hone with hnone | ⟨payload, hkept⟩
        · exact ⟨[], hnone ▸ .unopened (Or.inl rfl) rfl⟩
        · exact ⟨[], hkept ▸ .opened (Or.inl rfl) (Or.inl rfl)⟩
      · have hgoes := h.goesOn_front rfl hlast record (List.mem_singleton_self record)
        obtain ⟨payload, hpayload⟩ : ∃ payload,
            keptFrames [record] = [⟨frameStart, payload⟩] := by
          rw [hresult, hcall] at hgoes
          have hrecord : record = ⟨_, _⟩ := rfl
          rw [hrecord, hresult, hcall]
          exact keptFrames_start hgoes
        refine ⟨kept, ?_⟩
        rw [keptFrames_append, keptFrames_append, keptFrames_append, hpayload, hkept]
        exact .opened hkeptEos hkeptStop

theorem frameStart_ne : frameStart ≠ frameAudio ∧ frameStart ≠ frameEos := by decide

theorem frameAudio_ne : frameAudio ≠ frameStart ∧ frameAudio ≠ frameEos := by decide

theorem inOrder_of_prefix {front frames : List Frame} (h : InOrder frames)
    (hfront : front <+: frames) : InOrder front := by
  obtain ⟨tail, rfl⟩ := hfront
  intro before f after hsplit
  exact h before f (after ++ tail) (by rw [hsplit, List.append_assoc, List.cons_append])

/-- AUDIO frames after a START. -/
theorem inOrder_audio (payload : Bytes) (audio : List Bytes) :
    InOrder (⟨frameStart, payload⟩ :: audio.map (Frame.mk frameAudio)) ∧
      audioSinceStart (⟨frameStart, payload⟩ :: audio.map (Frame.mk frameAudio)) = audio := by
  have hempty : InOrder [] := by
    intro before f after hsplit
    simp at hsplit
  induction audio using List.reverseRecOn with
  | nil =>
      refine ⟨hempty.append (f := ⟨frameStart, payload⟩) ?_, rfl⟩
      exact Connection.not_outOfOrder frameStart_ne.1 frameStart_ne.2
  | append_singleton audio pcm ih =>
      rw [List.map_append, List.map_singleton, ← List.cons_append]
      refine ⟨ih.1.append ?_, ?_⟩
      · rintro (⟨-, hnone⟩ | ⟨heos, -⟩)
        · exact hnone ⟨frameStart, payload⟩ List.mem_cons_self rfl
        · exact absurd heos frameAudio_ne.2
      · rw [audioSinceStart_audio rfl, ih.2]

theorem orderly_inOrder {audio : List Bytes} {frames : List Frame} (h : Orderly audio frames) :
    InOrder frames := by
  have hstop : ∀ {front stop : List Frame}, InOrder front →
      stop = [] ∨ stop = [⟨frameStop, []⟩] → InOrder (front ++ stop) := by
    rintro front stop hfront (rfl | rfl)
    · rwa [List.append_nil]
    · exact hfront.append (Connection.not_outOfOrder (by decide) (by decide))
  cases h with
  | unopened hlast hnone =>
      have hempty : InOrder [] := by
        intro before f after hsplit
        simp at hsplit
      exact hstop hempty hlast
  | @opened payload eos stop heos hlast =>
      rw [← List.cons_append, ← List.append_assoc]
      refine hstop ?_ hlast
      rcases heos with rfl | rfl
      · rw [List.append_nil]
        exact (inOrder_audio payload audio).1
      · refine (inOrder_audio payload audio).1.append ?_
        rintro (⟨haudio, -⟩ | ⟨-, hnone | ⟨g, hg, heos⟩⟩)
        · exact absurd haudio (by decide)
        · exact hnone ⟨frameStart, payload⟩ List.mem_cons_self rfl
        · rcases List.mem_cons.mp hg with rfl | hg
          · exact absurd heos frameStart_ne.2
          · obtain ⟨pcm, -, rfl⟩ := List.mem_map.mp hg
            exact absurd heos frameAudio_ne.2

/-- What has been heard when EOS has been read. -/
theorem orderly_heard {audio : List Bytes} {frames front : List Frame} (h : Orderly audio frames)
    (hfront : front <+: frames) (heos : ∃ f ∈ front, f.ftype = frameEos) :
    audioSinceStart front = audio := by
  obtain ⟨f, hf, hftype⟩ := heos
  cases h with
  | unopened hlast hnone =>
      have hmem := hfront.subset hf
      rcases hlast with rfl | rfl
      · exact absurd hmem List.not_mem_nil
      · rw [List.mem_singleton.mp hmem] at hftype
        exact absurd hftype (by decide)
  | @opened payload eos stop heos hlast =>
      rw [← List.cons_append] at hfront
      have hsplit := List.prefix_or_prefix_of_prefix hfront (List.prefix_append _ _)
      rcases hsplit with hshort | ⟨after, rfl⟩
      · rcases List.mem_cons.mp (hshort.subset hf) with rfl | hmem
        · exact absurd hftype frameStart_ne.2
        · obtain ⟨pcm, -, rfl⟩ := List.mem_map.mp hmem
          exact absurd hftype frameAudio_ne.2
      · have hafter : ∀ g ∈ after, g.ftype ≠ frameStart ∧ g.ftype ≠ frameAudio := by
          intro g hg
          have hmem : g ∈ eos ++ stop :=
            ((List.prefix_append_right_inj _).mp hfront).subset hg
          rcases List.mem_append.mp hmem with hmem | hmem
          · rcases heos with rfl | rfl
            · exact absurd hmem List.not_mem_nil
            · rw [List.mem_singleton.mp hmem]
              decide
          · rcases hlast with rfl | rfl
            · exact absurd hmem List.not_mem_nil
            · rw [List.mem_singleton.mp hmem]
              decide
        have hkeeps : ∀ {after : List Frame},
            (∀ g ∈ after, g.ftype ≠ frameStart ∧ g.ftype ≠ frameAudio) →
            audioSinceStart (⟨frameStart, payload⟩ :: audio.map (Frame.mk frameAudio) ++ after) =
              audio := by
          intro after hafter
          induction after using List.reverseRecOn with
          | nil =>
              rw [List.append_nil]
              exact (inOrder_audio payload audio).2
          | append_singleton after g ih =>
              obtain ⟨hstart, haudio⟩ := hafter g (by simp)
              rw [← List.append_assoc, audioSinceStart_other hstart haudio]
              exact ih fun g hg => hafter g (List.mem_append_left _ hg)
        exact hkeeps hafter

/-- A START comes first. -/
theorem orderly_start {audio : List Bytes} {frames before : List Frame} {f : Frame}
    (h : Orderly audio frames) (hfront : before ++ [f] <+: frames) (hf : f.ftype = frameStart) :
    before = [] := by
  obtain ⟨tail, htail⟩ := hfront
  cases before with
  | nil => rfl
  | cons g before =>
      cases h with
      | unopened hlast hnone =>
          rcases hlast with rfl | rfl
          · cases htail
          · simp at htail
      | @opened payload eos stop heos hlast =>
          obtain ⟨-, hrest⟩ := List.cons.inj htail
          have hmem : f ∈ audio.map (Frame.mk frameAudio) ++ (eos ++ stop) := by
            rw [← hrest]
            exact List.mem_append_left _ (List.mem_append_right _ (List.mem_singleton_self f))
          rcases List.mem_append.mp hmem with hmem | hmem
          · obtain ⟨pcm, -, rfl⟩ := List.mem_map.mp hmem
            exact absurd hf frameAudio_ne.1
          rcases List.mem_append.mp hmem with hmem | hmem
          · rcases heos with rfl | rfl
            · exact absurd hmem List.not_mem_nil
            · rw [List.mem_singleton.mp hmem] at hf
              exact absurd hf (by decide)
          · rcases hlast with rfl | rfl
            · exact absurd hmem List.not_mem_nil
            · rw [List.mem_singleton.mp hmem] at hf
              exact absurd hf (by decide)

end Frames

end Mrcp
end Sandroid
