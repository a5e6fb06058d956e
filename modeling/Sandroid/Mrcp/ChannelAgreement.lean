import Sandroid.Mrcp.PluginConversation

/-!
# A plugin channel with its bridge up

`RecogChannel` leaves out what a plugin channel does when its bridge fails.  On a socket
that takes every frame it loses nothing: each step of the channel with all of its requests
is a step of `RecogChannel`, with the same frames sent and the same recognitions completed.

`plugin_simulated`: along every such run of the plugin the two go together, whatever the
bridge answers.  The requests may be numbered differently (`renumber`); the engine numbers
all of them, and `System` only those that are RECOGNIZE.
-/

namespace Sandroid
namespace Mrcp

open Lib

section Moves

/-- What the engine's task and the media thread do with a channel. -/
inductive ChannelMove where
  | recognize (id : Nat) (request : RecognizeRequest)
  | stop
  | timersStart
  | write (frame : MediaFrame) (event : DetectorEvent)
  /-- `sbr_wait_result` has returned -/
  | resume (reply : Option Reply)

def RecogChannel.move (c : RecogChannel) : ChannelMove → RecogChannel.WriteOutcome
  | .recognize id request => { channel := (c.recognize id request).1
                               sent := (c.recognize id request).2 }
  | .stop => { channel := c.stop }
  | .timersStart => { channel := c.timersStart }
  | .write frame event => c.streamWrite frame event
  | .resume reply => c.resume reply

/-- A channel, the frames it has sent and the recognitions it has completed. -/
structure ChannelTrace where
  channel : RecogChannel
  sent : List ToBridge := []
  completions : List Completion := []

def ChannelTrace.after (τ : ChannelTrace) (m : ChannelMove) : ChannelTrace where
  channel := (τ.channel.move m).channel
  sent := τ.sent ++ (τ.channel.move m).sent
  completions := τ.completions ++ (τ.channel.move m).completion.toList

end Moves

namespace System

variable {backend : BridgeBackend} {σ σ' : System}

def trace (σ : System) : ChannelTrace := ⟨σ.channel, σ.sent, σ.completions⟩

/-- What a step does with the channel; the steps of the handler leave it alone. -/
def moves (σ : System) : Label → List ChannelMove
  | .recognize request => [.recognize σ.nextId request]
  | .stop => [.stop]
  | .timersStart => [.timersStart]
  | .write frame event => [.write frame event]
  | .resultArrives => σ.toPlugin.head?.toList.map fun reply => .resume (some reply)
  | .waitTimeout => [.resume none]
  | .bridgeRead => []
  | .asrRead _ => []
  | .finishEos => []
  | .asrTimeout => []

theorem trace_step {label : Label} (h : σ.step backend label = some σ') :
    σ'.trace = (σ.moves label).foldl ChannelTrace.after σ.trace := by
  cases label with
  | recognize _ | stop | timersStart =>
      cases h
      simp [trace, moves, ChannelTrace.after, RecogChannel.move]
  | write frame event =>
      simp only [step] at h
      split at h
      · cases h
      · cases h
        simp [trace, moves, afterWrite, ChannelTrace.after, RecogChannel.move]
  | resultArrives =>
      simp only [step] at h
      split at h
      · rename_i reply replies hwaiting hreply
        cases h
        simp [trace, moves, hreply, afterWrite, ChannelTrace.after, RecogChannel.move]
      · cases h
  | waitTimeout =>
      simp only [step] at h
      split at h
      · cases h
        simp [trace, moves, afterWrite, ChannelTrace.after, RecogChannel.move]
      · cases h
  | bridgeRead =>
      simp only [step] at h
      split at h
      · cases h
        rfl
      · cases h
  | asrRead _ | finishEos | asrTimeout =>
      obtain ⟨r, -, rfl⟩ := Option.map_eq_some_iff.mp h
      rfl

/-- What a run does with the channel. -/
def runMoves (backend : BridgeBackend) (σ : System) : List Label → List ChannelMove
  | [] => []
  | label :: labels =>
      match σ.step backend label with
      | none => []
      | some σ' => σ.moves label ++ runMoves backend σ' labels

theorem trace_run {labels : List Label} (h : σ.run backend labels = some σ') :
    σ'.trace = (σ.runMoves backend labels).foldl ChannelTrace.after σ.trace := by
  induction labels generalizing σ with
  | nil =>
      cases h
      rfl
  | cons label labels ih =>
      rw [run, runSteps] at h
      split at h
      · cases h
      · rename_i σ₁ hstep
        rw [runMoves, hstep, List.foldl_append, ← trace_step hstep]
        exact ih h

end System

section Renumber

variable (f : Nat → Nat)

/-- The same channel with other numbers for the requests. -/
def RecogChannel.renumber (c : RecogChannel) : RecogChannel :=
  { c with
    recogRequest := c.recogRequest.map f
    waiting := c.waiting.map fun w => (f w.1, w.2) }

def Completion.renumber (c : Completion) : Completion := { c with request := f c.request }

def RecogChannel.WriteOutcome.renumber (w : RecogChannel.WriteOutcome) :
    RecogChannel.WriteOutcome where
  channel := w.channel.renumber f
  sent := w.sent
  completion := w.completion.map (Completion.renumber f)

def ChannelMove.renumber : ChannelMove → ChannelMove
  | recognize id request => recognize (f id) request
  | m => m

def ChannelTrace.renumber (τ : ChannelTrace) : ChannelTrace where
  channel := τ.channel.renumber f
  sent := τ.sent
  completions := τ.completions.map (Completion.renumber f)

variable {f} {c : RecogChannel}

theorem RecogChannel.renumber_forwardAudio (frame : MediaFrame) :
    (c.renumber f).forwardAudio frame =
      ((c.forwardAudio frame).1.renumber f, (c.forwardAudio frame).2) := by
  rw [forwardAudio, forwardAudio]
  cases frame.audio with
  | none => rfl
  | some pcm =>
      by_cases hup : c.bridge ∧ c.bridgeStarted ∧ ¬ c.bridgeEosSent
      · have hup' : (c.renumber f).bridge ∧ (c.renumber f).bridgeStarted ∧
            ¬ (c.renumber f).bridgeEosSent := hup
        simp only [if_pos hup, if_pos hup']
        split_ifs
        · rfl
        · rfl
        · rfl
      · have hup' : ¬ ((c.renumber f).bridge ∧ (c.renumber f).bridgeStarted ∧
            ¬ (c.renumber f).bridgeEosSent) := hup
        simp only [if_neg hup, if_neg hup']

theorem RecogChannel.renumber_recognize (id : Nat) (request : RecognizeRequest) :
    (c.renumber f).recognize (f id) request =
      ((c.recognize id request).1.renumber f, (c.recognize id request).2) := by
  rw [recognize, recognize]
  cases request.sampleRate with
  | none => rfl
  | some rate =>
      by_cases hfirst : c.bridge ∧ ¬ c.bridgeStarted
      · have hfirst' : (c.renumber f).bridge ∧ ¬ (c.renumber f).bridgeStarted := hfirst
        simp only [if_pos hfirst, if_pos hfirst']
        split
        · rfl
        · rfl
      · have hfirst' : ¬ ((c.renumber f).bridge ∧ ¬ (c.renumber f).bridgeStarted) := hfirst
        simp only [if_neg hfirst, if_neg hfirst']
        rfl

/-- Complete a recognition, then forward the frame. -/
theorem RecogChannel.renumber_complete (sent : List ToBridge) (id : Nat) (cause : CompletionCause)
    (body : CompletionBody) (frame : MediaFrame) :
    ({ channel := (((c.renumber f).complete (f id) cause body).1.forwardAudio frame).1
       sent := sent ++ (((c.renumber f).complete (f id) cause body).1.forwardAudio frame).2
       completion := some ((c.renumber f).complete (f id) cause body).2 } : WriteOutcome) =
      WriteOutcome.renumber f
        { channel := ((c.complete id cause body).1.forwardAudio frame).1
          sent := sent ++ ((c.complete id cause body).1.forwardAudio frame).2
          completion := some (c.complete id cause body).2 } := by
  have hcomplete : ((c.renumber f).complete (f id) cause body).1 =
      (c.complete id cause body).1.renumber f := rfl
  rw [hcomplete, renumber_forwardAudio]
  rfl

theorem RecogChannel.inactivity_signals (id : Nat) (frame : MediaFrame)
    (h : c.bridge ∧ c.bridgeStarted ∧ ¬ c.bridgeEosSent) :
    c.inactivity id frame =
      { channel := { c with bridgeEosSent := true, waiting := some (id, frame) }
        sent := [.eos] } := by
  simp only [inactivity]
  rw [if_pos h, if_pos h, if_pos ⟨h.1, rfl⟩]

theorem RecogChannel.inactivity_quiet (id : Nat) (frame : MediaFrame)
    (h : ¬ (c.bridge ∧ c.bridgeStarted ∧ ¬ c.bridgeEosSent)) :
    c.inactivity id frame =
      if c.bridge ∧ c.bridgeEosSent then
        { channel := { c with waiting := some (id, frame) } }
      else
        { channel := ((c.complete id .success .canned).1.forwardAudio frame).1
          sent := ((c.complete id .success .canned).1.forwardAudio frame).2
          completion := some (c.complete id .success .canned).2 } := by
  simp only [inactivity]
  rw [if_neg h, if_neg h]
  rfl

theorem RecogChannel.renumber_inactivity (id : Nat) (frame : MediaFrame) :
    (c.renumber f).inactivity (f id) frame = (c.inactivity id frame).renumber f := by
  by_cases hsends : c.bridge ∧ c.bridgeStarted ∧ ¬ c.bridgeEosSent
  · rw [inactivity_signals id frame hsends, inactivity_signals (c := c.renumber f) _ _ hsends]
    rfl
  · rw [inactivity_quiet id frame hsends, inactivity_quiet (c := c.renumber f) _ _ hsends]
    by_cases hwaits : c.bridge ∧ c.bridgeEosSent
    · have hwaits' : (c.renumber f).bridge ∧ (c.renumber f).bridgeEosSent := hwaits
      rw [if_pos hwaits, if_pos hwaits']
      rfl
    · have hwaits' : ¬ ((c.renumber f).bridge ∧ (c.renumber f).bridgeEosSent) := hwaits
      rw [if_neg hwaits, if_neg hwaits']
      exact renumber_complete [] id .success .canned frame

theorem RecogChannel.renumber_streamWrite (frame : MediaFrame) (event : DetectorEvent) :
    (c.renumber f).streamWrite frame event = (c.streamWrite frame event).renumber f := by
  have hforward : ({ channel := ((c.renumber f).forwardAudio frame).1
                     sent := ((c.renumber f).forwardAudio frame).2 } : WriteOutcome) =
      WriteOutcome.renumber f
        { channel := (c.forwardAudio frame).1, sent := (c.forwardAudio frame).2 } := by
    rw [renumber_forwardAudio]
    rfl
  cases hstop : c.stopResponse with
  | true =>
      have hstop' : (c.renumber f).stopResponse = true := hstop
      rw [streamWrite, streamWrite, if_pos hstop, if_pos hstop']
      rfl
  | false =>
      have hstop' : (c.renumber f).stopResponse = false := hstop
      rw [streamWrite, streamWrite, hstop, hstop', if_neg Bool.false_ne_true,
        if_neg Bool.false_ne_true]
      cases hrequest : c.recogRequest with
      | none =>
          have hrequest' : (c.renumber f).recogRequest = none := by rw [renumber, hrequest]; rfl
          rw [hrequest']
          rfl
      | some id =>
          have hrequest' : (c.renumber f).recogRequest = some (f id) := by
            rw [renumber, hrequest]
            rfl
          rw [hrequest']
          cases event with
          | none => exact hforward
          | activity => exact hforward
          | inactivity => exact renumber_inactivity id frame
          | noinput =>
              have htimers : (c.renumber f).timersStarted = c.timersStarted := rfl
              simp only [htimers]
              cases c.timersStarted with
              | true =>
                  rw [if_pos rfl, if_pos rfl]
                  exact renumber_complete [] id .noInputTimeout .empty frame
              | false => exact hforward

theorem RecogChannel.renumber_resume (reply : Option Reply) :
    (c.renumber f).resume reply = (c.resume reply).renumber f := by
  simp only [resume]
  cases hwaiting : c.waiting with
  | none =>
      have hwaiting' : (c.renumber f).waiting = none := by rw [renumber, hwaiting]; rfl
      rw [hwaiting']
      rfl
  | some w =>
      have hwaiting' : (c.renumber f).waiting = some (f w.1, w.2) := by
        rw [renumber, hwaiting]
        rfl
      rw [hwaiting']
      exact renumber_complete (c := { c with waiting := none }) [] w.1 .success _ w.2

theorem ChannelTrace.renumber_after (τ : ChannelTrace) (m : ChannelMove) :
    (τ.after m).renumber f = (τ.renumber f).after (m.renumber f) := by
  have hmove : (τ.channel.renumber f).move (m.renumber f) = (τ.channel.move m).renumber f := by
    cases m with
    | recognize id request =>
        simp only [ChannelMove.renumber, RecogChannel.move, RecogChannel.renumber_recognize]
        rfl
    | stop => rfl
    | timersStart => rfl
    | write frame event => exact RecogChannel.renumber_streamWrite frame event
    | resume reply => exact RecogChannel.renumber_resume reply
  simp only [renumber, after, hmove, RecogChannel.WriteOutcome.renumber, List.map_append,
    Option.toList_map]

theorem ChannelTrace.renumber_foldl (τ : ChannelTrace) (moves : List ChannelMove) :
    (moves.foldl after τ).renumber f =
      (moves.map (ChannelMove.renumber f)).foldl after (τ.renumber f) := by
  induction moves generalizing τ with
  | nil => rfl
  | cons m moves ih => rw [List.foldl_cons, ih, renumber_after, List.map_cons, List.foldl_cons]

end Renumber

section Outcomes

/-- The message that a call puts on the wire. -/
def Call.message : Call → Option ToBridge
  | start channelId sessionId sampleRate codec =>
      (encodeStart channelId sessionId sampleRate codec).map fun _ =>
        .start (orDefault channelId "") (orDefault sessionId "") sampleRate.toNat
          (orDefault codec "LPCM")
  | audio pcm =>
      if pcm.length = 0 ∨ pcm.length > maxFrameSize - 1 then none else some (.audio pcm)
  | eos => some .eos
  | stop => some .stop

def sentMessages (records : List CallRecord) : List ToBridge :=
  records.flatMap fun record => record.call.message.toList

/-- The bridge is up: the sender puts its frame on the wire, if it has one. -/
def CallRecord.Taken (record : CallRecord) : Prop :=
  record.result.dropped = 0 ∧ (record.call.frame ≠ none → record.result.outcome = .ret 0)

instance (record : CallRecord) : Decidable record.Taken :=
  inferInstanceAs (Decidable (record.result.dropped = 0 ∧
    (record.call.frame ≠ none → record.result.outcome = .ret 0)))

/-- What `RecogChannel` keeps of a channel. -/
def PluginChannel.recogChannel (c : PluginChannel) : RecogChannel where
  recogRequest := c.recogRequest
  stopResponse := c.stopResponse.isSome
  timersStarted := c.timersStarted.getD false
  bridge := c.bridge
  useCanned := c.useCanned
  bridgeStarted := c.bridgeStarted
  bridgeEosSent := c.bridgeEosSent
  waiting := c.waiting

def CompletionBody.text (resultXml : Option Bytes) : CompletionBody → Option Bytes
  | empty => none
  | canned => PluginChannel.cannedBody resultXml
  | bridge r => some r.nlsml

def Completion.event (resultXml : Option Bytes) (c : Completion) : PluginCompletion :=
  ⟨c.request, c.cause, c.body.text resultXml⟩

def PluginMessage.completion? : PluginMessage → Option PluginCompletion
  | recognitionComplete completion => some completion
  | _ => none

/-- What `sbr_wait_result` returns on the bridge's reply, or at a timeout. -/
def WaitReturns : Option Reply → Int → Option Bytes → Prop
  | some (.result r), rc, nlsml =>
      if r.nlsml.length ≤ maxFrameSize then rc = 0 ∧ nlsml = some r.nlsml
      else rc = -2 ∧ nlsml = none
  | some (.error _ _), rc, nlsml => rc = -1 ∧ nlsml = none
  | none, rc, nlsml => rc = -1 ∧ nlsml = none

/-- What a request does with the channel; the others are answered at once. -/
def RecogMethod.move? (id : Nat) : RecogMethod → Option ChannelMove
  | recognize request => some (.recognize id request)
  | stop => some .stop
  | startInputTimers => some .timersStart
  | _ => none

/-- The handler of the plugin has done what the other has. -/
structure PluginOutcome.Agrees (resultXml : Option Bytes) (o : PluginOutcome)
    (w : RecogChannel.WriteOutcome) : Prop where
  channel : o.channel.recogChannel = w.channel
  sent : sentMessages o.calls = w.sent
  completions : o.messages.filterMap PluginMessage.completion? =
    (w.completion.map (Completion.event resultXml)).toList

variable {resultXml : Option Bytes} {c : PluginChannel} {socket : List SockAnswer}
  {frame : MediaFrame} {o o₀ : PluginOutcome} {call : Call} {rc : Int} {record : CallRecord}

theorem callSender_taken (h : callSender call socket = some (rc, record)) (htaken : record.Taken)
    (hframe : call.frame ≠ none) : rc = 0 := by
  obtain ⟨rfl, hret⟩ := callSender_eq_some h
  have hzero := htaken.2 hframe
  rw [hret] at hzero
  cases hzero
  rfl

theorem message_callSender (h : callSender call socket = some (rc, record)) :
    sentMessages [record] = call.message.toList := by
  obtain ⟨rfl, -⟩ := callSender_eq_some h
  rw [sentMessages, List.flatMap_singleton]

theorem callSender_start_refused {channelId sessionId codec : Option CString} {rate : UInt32}
    (h : callSender (.start channelId sessionId rate codec) socket = some (rc, record))
    (hrefused : encodeStart channelId sessionId rate codec = none) : rc = -1 := by
  obtain ⟨rfl, hret⟩ := callSender_eq_some h
  simp only [Call.send, sbrSendStart, hrefused, IoResult.done] at hret
  cases hret
  rfl

theorem callSender_audio_empty {pcm : Bytes}
    (h : callSender (.audio pcm) socket = some (rc, record)) (hempty : pcm.length = 0) :
    rc = 0 := by
  obtain ⟨rfl, hret⟩ := callSender_eq_some h
  simp only [Call.send, sbrSendAudio, if_pos hempty, IoResult.done] at hret
  cases hret
  rfl

theorem callSender_audio_long {pcm : Bytes}
    (h : callSender (.audio pcm) socket = some (rc, record)) (hempty : pcm.length ≠ 0)
    (hlong : pcm.length > maxFrameSize - 1) : rc = -1 := by
  obtain ⟨rfl, hret⟩ := callSender_eq_some h
  simp only [Call.send, sbrSendAudio, if_neg hempty, if_pos hlong, IoResult.done] at hret
  cases hret
  rfl

theorem recogChannel_dropBridge (c : PluginChannel) :
    c.dropBridge.recogChannel = c.recogChannel.dropBridge := rfl

theorem forwardAudio_agrees (h : c.forwardAudio socket frame = some o)
    (htaken : ∀ record ∈ o.calls, record.Taken) :
    o.channel.recogChannel = (c.recogChannel.forwardAudio frame).1 ∧
      sentMessages o.calls = (c.recogChannel.forwardAudio frame).2 ∧ o.messages = [] := by
  rw [PluginChannel.forwardAudio] at h
  rw [RecogChannel.forwardAudio]
  cases haudio : frame.audio with
  | none =>
      rw [haudio] at h
      cases h
      exact ⟨rfl, rfl, rfl⟩
  | some pcm =>
      rw [haudio] at h
      by_cases hup : c.bridge ∧ c.bridgeStarted ∧ ¬ c.bridgeEosSent
      · have hup' : c.recogChannel.bridge ∧ c.recogChannel.bridgeStarted ∧
            ¬ c.recogChannel.bridgeEosSent := hup
        simp only [if_pos hup] at h
        simp only [if_pos hup']
        split at h
        · cases h
        · rename_i rc record hcall
          cases h
          have hmessage := message_callSender hcall
          by_cases hempty : pcm.length = 0
          · rw [if_pos hempty, callSender_audio_empty hcall hempty]
            refine ⟨rfl, ?_, rfl⟩
            rw [hmessage, Call.message, if_pos (Or.inl hempty)]
            rfl
          · rw [if_neg hempty]
            by_cases hlong : pcm.length > maxFrameSize - 1
            · rw [if_pos hlong, callSender_audio_long hcall hempty hlong]
              refine ⟨recogChannel_dropBridge c, ?_, rfl⟩
              rw [hmessage, Call.message, if_pos (Or.inr hlong)]
              rfl
            · have hsize : ¬ (pcm.length = 0 ∨ pcm.length > maxFrameSize - 1) := by omega
              have hframe : (Call.audio pcm).frame ≠ none := by
                rw [Call.frame, if_neg hsize]
                exact Option.some_ne_none _
              rw [if_neg hlong, callSender_taken hcall (htaken record (by simp)) hframe]
              refine ⟨rfl, ?_, rfl⟩
              rw [hmessage, Call.message, if_neg hsize]
              rfl
      · have hup' : ¬ (c.recogChannel.bridge ∧ c.recogChannel.bridgeStarted ∧
            ¬ c.recogChannel.bridgeEosSent) := hup
        simp only [if_neg hup] at h
        simp only [if_neg hup']
        cases h
        exact ⟨rfl, rfl, rfl⟩

/-- After what both have done already, the frame is forwarded. -/
theorem thenForward_agrees {w : RecogChannel.WriteOutcome} (hdone : o₀.Agrees resultXml w)
    (h : PluginChannel.thenForward o₀ frame = some o)
    (htaken : ∀ record ∈ o.calls, record.Taken) :
    o.Agrees resultXml
      { channel := (w.channel.forwardAudio frame).1
        sent := w.sent ++ (w.channel.forwardAudio frame).2
        completion := w.completion } := by
  rw [PluginChannel.thenForward] at h
  obtain ⟨o', hforward, rfl⟩ := Option.map_eq_some_iff.mp h
  obtain ⟨hchannel, hsent, hmessages⟩ := forwardAudio_agrees hforward
    (fun record hrecord => htaken record (List.mem_append_right _ hrecord))
  rw [hdone.channel] at hchannel hsent
  refine ⟨hchannel, ?_, ?_⟩
  · rw [sentMessages, List.flatMap_append]
    exact congrArg₂ _ hdone.sent hsent
  · rw [hmessages, List.append_nil]
    exact hdone.completions

theorem agrees_done (c : PluginChannel) (socket : List SockAnswer) :
    PluginOutcome.Agrees resultXml { channel := c, socket := socket }
      { channel := c.recogChannel } :=
  ⟨rfl, rfl, rfl⟩

/-- The recognition is completed by both. -/
theorem agrees_complete (c : PluginChannel) (socket : List SockAnswer) (id : Nat)
    (cause : CompletionCause) (body : CompletionBody) :
    PluginOutcome.Agrees resultXml
      { channel := (c.complete id cause (body.text resultXml)).1
        socket := socket
        messages := [(c.complete id cause (body.text resultXml)).2] }
      { channel := (c.recogChannel.complete id cause body).1
        completion := some (c.recogChannel.complete id cause body).2 } :=
  ⟨rfl, rfl, rfl⟩

theorem recognize_agrees {id : Nat} {request : RecognizeRequest}
    (h : c.recognize socket id request = some o) (htaken : ∀ record ∈ o.calls, record.Taken) :
    o.Agrees resultXml (c.recogChannel.move (.recognize id request)) := by
  rw [PluginChannel.recognize] at h
  rw [RecogChannel.move, RecogChannel.recognize]
  cases hrate : request.sampleRate with
  | none =>
      rw [hrate] at h
      cases h
      exact ⟨rfl, rfl, rfl⟩
  | some rate =>
      rw [hrate] at h
      obtain ⟨o', hstart, rfl⟩ := Option.map_eq_some_iff.mp h
      rw [PluginChannel.startBridge] at hstart
      by_cases hfirst : c.bridge ∧ ¬ c.bridgeStarted
      · have hfirst' : c.recogChannel.bridge ∧ ¬ c.recogChannel.bridgeStarted := hfirst
        rw [if_pos hfirst] at hstart
        simp only [if_pos hfirst']
        split at hstart
        · cases hstart
        · rename_i rc record hcall
          cases hstart
          have hmessage := message_callSender hcall
          cases hencode : encodeStart (some request.sessionId) (some request.sessionId) rate
              (some RecogChannel.lpcm) with
          | none =>
              rw [callSender_start_refused hcall hencode]
              refine ⟨rfl, ?_, rfl⟩
              rw [hmessage, PluginChannel.startCall, Call.message, hencode]
              rfl
          | some payload =>
              have hframe : (PluginChannel.startCall request rate).frame ≠ none := by
                rw [PluginChannel.startCall, Call.frame, hencode]
                exact Option.some_ne_none _
              rw [callSender_taken hcall (htaken record (by simp)) hframe]
              refine ⟨rfl, ?_, rfl⟩
              rw [hmessage, PluginChannel.startCall, Call.message, hencode]
              rfl
      · have hfirst' : ¬ (c.recogChannel.bridge ∧ ¬ c.recogChannel.bridgeStarted) := hfirst
        rw [if_neg hfirst] at hstart
        simp only [if_neg hfirst']
        cases hstart
        exact ⟨rfl, rfl, rfl⟩

theorem signalEos_agrees {o : PluginOutcome} (h : c.signalEos socket = some o)
    (htaken : ∀ record ∈ o.calls, record.Taken) :
    o.messages = [] ∧
      (o.channel = c ∧ sentMessages o.calls = [] ∧
          ¬ (c.bridge ∧ c.bridgeStarted ∧ ¬ c.bridgeEosSent) ∨
        o.channel = { c with bridgeEosSent := true } ∧ sentMessages o.calls = [.eos] ∧
          (c.bridge ∧ c.bridgeStarted ∧ ¬ c.bridgeEosSent)) := by
  rw [PluginChannel.signalEos] at h
  by_cases hup : c.bridge ∧ c.bridgeStarted ∧ ¬ c.bridgeEosSent
  · rw [if_pos hup] at h
    split at h
    · cases h
    · rename_i rc record hcall
      cases h
      have hzero := callSender_taken hcall (htaken record (by simp)) (Option.some_ne_none _)
      refine ⟨rfl, Or.inr ⟨if_pos hzero, ?_, hup⟩⟩
      rw [message_callSender hcall]
      rfl
  · rw [if_neg hup] at h
    cases h
    exact ⟨rfl, Or.inl ⟨rfl, rfl, hup⟩⟩

theorem inactivity_agrees {id : Nat} (h : c.inactivity resultXml socket id frame = some o)
    (htaken : ∀ record ∈ o.calls, record.Taken) :
    o.Agrees resultXml (c.recogChannel.inactivity id frame) := by
  rw [PluginChannel.inactivity] at h
  split at h
  · cases h
  · rename_i o₁ hsignal
    by_cases hwaits : o₁.channel.bridge ∧ o₁.channel.bridgeEosSent
    · rw [if_pos hwaits] at h
      cases h
      obtain ⟨hmessages, hquiet | hsignals⟩ := signalEos_agrees hsignal htaken
      · obtain ⟨hchannel, hsent, hnot⟩ := hquiet
        rw [hchannel] at hwaits ⊢
        have hwaits' : c.recogChannel.bridge ∧ c.recogChannel.bridgeEosSent := hwaits
        rw [RecogChannel.inactivity_quiet (c := c.recogChannel) id frame hnot, if_pos hwaits']
        exact ⟨rfl, hsent, by rw [hmessages]; rfl⟩
      · obtain ⟨hchannel, hsent, hup⟩ := hsignals
        rw [hchannel, RecogChannel.inactivity_signals (c := c.recogChannel) id frame hup]
        exact ⟨rfl, hsent, by rw [hmessages]; rfl⟩
    · rw [if_neg hwaits] at h
      have hcalls : ∀ record ∈ o₁.calls, record.Taken := by
        rw [PluginChannel.thenForward] at h
        obtain ⟨o', -, rfl⟩ := Option.map_eq_some_iff.mp h
        exact fun record hrecord => htaken record (List.mem_append_left _ hrecord)
      obtain ⟨-, hquiet | hsignals⟩ := signalEos_agrees hsignal hcalls
      · obtain ⟨hchannel, hsent, hnot⟩ := hquiet
        rw [hchannel] at h hwaits
        have hwaits' : ¬ (c.recogChannel.bridge ∧ c.recogChannel.bridgeEosSent) := hwaits
        rw [RecogChannel.inactivity_quiet (c := c.recogChannel) id frame hnot, if_neg hwaits']
        have hdone : PluginOutcome.Agrees resultXml
            { o₁ with
              channel := (c.complete id .success (PluginChannel.cannedBody resultXml)).1
              messages := [(c.complete id .success (PluginChannel.cannedBody resultXml)).2] }
            { channel := (c.recogChannel.complete id .success .canned).1
              completion := some (c.recogChannel.complete id .success .canned).2 } :=
          ⟨rfl, hsent, rfl⟩
        exact thenForward_agrees hdone h htaken
      · obtain ⟨hchannel, -, hup⟩ := hsignals
        rw [hchannel] at hwaits
        exact absurd ⟨hup.1, rfl⟩ hwaits

theorem streamWrite_agrees {event : DetectorEvent}
    (h : c.streamWrite resultXml socket frame event = some o)
    (htaken : ∀ record ∈ o.calls, record.Taken) :
    o.Agrees resultXml (c.recogChannel.move (.write frame event)) := by
  rw [PluginChannel.streamWrite] at h
  rw [RecogChannel.move, RecogChannel.streamWrite]
  cases hstop : c.stopResponse with
  | some stop =>
      have hstop' : c.recogChannel.stopResponse = true := by
        rw [PluginChannel.recogChannel, hstop]
        rfl
      rw [hstop] at h
      rw [if_pos hstop']
      cases h
      exact ⟨rfl, rfl, rfl⟩
  | none =>
      have hstop' : ¬ c.recogChannel.stopResponse = true := by
        rw [PluginChannel.recogChannel, hstop]
        exact Bool.false_ne_true
      rw [hstop] at h
      rw [if_neg hstop']
      cases hrequest : c.recogRequest with
      | none =>
          have hrequest' : c.recogChannel.recogRequest = none := hrequest
          rw [hrequest] at h
          rw [hrequest']
          cases h
          exact agrees_done c socket
      | some id =>
          have hrequest' : c.recogChannel.recogRequest = some id := hrequest
          rw [hrequest] at h
          rw [hrequest']
          have hforward : PluginOutcome.Agrees resultXml { channel := c, socket := socket }
              { channel := c.recogChannel } := agrees_done c socket
          cases event with
          | none => exact thenForward_agrees hforward h htaken
          | activity =>
              have hstarted : PluginOutcome.Agrees resultXml
                  { channel := c, socket := socket, messages := [.startOfInput id] }
                  { channel := c.recogChannel } := ⟨rfl, rfl, rfl⟩
              exact thenForward_agrees hstarted h htaken
          | inactivity => exact inactivity_agrees h htaken
          | noinput =>
              by_cases htimers : c.timersStarted = some true
              · have htimers' : c.recogChannel.timersStarted = true := by
                  rw [PluginChannel.recogChannel, htimers]
                  rfl
                simp only [if_pos htimers] at h
                simp only [if_pos htimers']
                exact thenForward_agrees (agrees_complete c socket id .noInputTimeout .empty) h
                  htaken
              · have htimers' : ¬ c.recogChannel.timersStarted = true := by
                  intro hstarted
                  cases hvalue : c.timersStarted with
                  | none => simp [PluginChannel.recogChannel, hvalue] at hstarted
                  | some b =>
                      rw [PluginChannel.recogChannel, hvalue] at hstarted
                      exact htimers (hvalue.trans (congrArg some hstarted))
                simp only [if_neg htimers] at h
                simp only [if_neg htimers']
                exact thenForward_agrees hforward h htaken

/-- The body of a completion after the wait. -/
def repliedBody : Option Reply → CompletionBody
  | some (.result r) =>
      if 0 < r.nlsml.length ∧ r.nlsml.length ≤ maxFrameSize then .bridge r else .canned
  | _ => .canned

theorem loadedBody_of_waitReturns {reply : Option Reply} {nlsml : Option Bytes}
    (h : WaitReturns reply rc nlsml) :
    PluginChannel.loadedBody resultXml rc nlsml = (repliedBody reply).text resultXml := by
  cases reply with
  | none =>
      rw [h.2]
      rfl
  | some reply =>
      cases reply with
      | error code message =>
          rw [h.2]
          rfl
      | result r =>
          rw [WaitReturns] at h
          rw [repliedBody]
          by_cases hsize : r.nlsml.length ≤ maxFrameSize
          · rw [if_pos hsize] at h
            rw [h.1, h.2, PluginChannel.loadedBody]
            by_cases hempty : 0 < r.nlsml.length
            · rw [if_pos ⟨rfl, hempty⟩, if_pos ⟨hempty, hsize⟩]
              rfl
            · rw [if_neg fun hzero => hempty hzero.2, if_neg fun hfits => hempty hfits.1]
              rfl
          · rw [if_neg hsize] at h
            rw [h.2, if_neg fun hfits => hsize hfits.2]
            rfl

theorem resume_agrees {reply : Option Reply} {nlsml : Option Bytes}
    (h : c.resume resultXml socket rc nlsml = some o) (hreply : WaitReturns reply rc nlsml)
    (htaken : ∀ record ∈ o.calls, record.Taken) :
    o.Agrees resultXml (c.recogChannel.move (.resume reply)) := by
  rw [PluginChannel.resume] at h
  simp only [RecogChannel.move, RecogChannel.resume]
  cases hwaiting : c.waiting with
  | none =>
      rw [hwaiting] at h
      cases h
  | some w =>
      have hwaiting' : c.recogChannel.waiting = some w := hwaiting
      rw [hwaiting] at h
      rw [hwaiting']
      simp only [loadedBody_of_waitReturns hreply] at h
      exact thenForward_agrees
        (agrees_complete { c with waiting := none } socket w.1 .success (repliedBody reply))
        h htaken

theorem dispatch_agrees {id : Nat} {method : RecogMethod}
    (h : c.dispatch socket id method = some o) (htaken : ∀ record ∈ o.calls, record.Taken) :
    (∃ m, method.move? id = some m ∧ o.Agrees resultXml (c.recogChannel.move m)) ∨
      method.move? id = none ∧ o.Agrees resultXml { channel := c.recogChannel } := by
  cases method with
  | recognize request => exact Or.inl ⟨_, rfl, recognize_agrees h htaken⟩
  | startInputTimers =>
      cases h
      exact Or.inl ⟨_, rfl, ⟨rfl, rfl, rfl⟩⟩
  | stop =>
      cases h
      exact Or.inl ⟨_, rfl, ⟨rfl, rfl, rfl⟩⟩
  | setParams | getParams | defineGrammar | getResult | other =>
      cases h
      exact Or.inr ⟨rfl, ⟨rfl, rfl, rfl⟩⟩

end Outcomes

section Runs

/-- How many requests a step takes. -/
def PluginLabel.requests : PluginLabel → Nat
  | request _ => 1
  | _ => 0

/-- What a step of an open channel does, when `id` is the number of the next request. -/
inductive PluginLabel.Does (id : Nat) : PluginLabel → List ChannelMove → Prop
  | request (method : RecogMethod) : Does id (.request method) (method.move? id).toList
  | write (frame : MediaFrame) (event : DetectorEvent) :
      Does id (.write frame event) [.write frame event]
  | waited {reply : Option Reply} {rc : Int} {nlsml : Option Bytes}
      (hreply : WaitReturns reply rc nlsml) : Does id (.waited rc nlsml) [.resume reply]

inductive RunDoes : Nat → List PluginLabel → List ChannelMove → Prop
  | nil (id : Nat) : RunDoes id [] []
  | cons {id : Nat} {label : PluginLabel} {labels : List PluginLabel}
      {moves more : List ChannelMove} (h : label.Does id moves)
      (hrest : RunDoes (id + label.requests) labels more) :
      RunDoes id (label :: labels) (moves ++ more)

/-- An open channel of the plugin is where the other one is. -/
structure Plugin.Agrees (resultXml : Option Bytes) (σ : Plugin) (τ : ChannelTrace) : Prop where
  phase : σ.phase = .opened
  channel : σ.channel.recogChannel = τ.channel
  sent : sentMessages σ.calls = τ.sent
  completions :
    σ.sent.filterMap PluginMessage.completion? = τ.completions.map (Completion.event resultXml)

variable {resultXml : Option Bytes} {σ σ' : Plugin} {τ : ChannelTrace} {label : PluginLabel}

theorem Plugin.Agrees.after (h : σ.Agrees resultXml τ) {o : PluginOutcome}
    {w : RecogChannel.WriteOutcome} (ho : o.Agrees resultXml w) :
    (σ.after o).Agrees resultXml
      { channel := w.channel
        sent := τ.sent ++ w.sent
        completions := τ.completions ++ w.completion.toList } where
  phase := h.phase
  channel := ho.channel
  sent := by
    rw [Plugin.after, sentMessages, List.flatMap_append]
    exact congrArg₂ _ h.sent ho.sent
  completions := by
    rw [Plugin.after, List.filterMap_append, h.completions, ho.completions, List.map_append,
      Option.toList_map]

theorem agrees_step {moves : List ChannelMove} (h : σ.Agrees resultXml τ)
    (hstep : σ.step resultXml label = some σ') (hdoes : label.Does σ.nextRequest moves)
    (htaken : ∀ record ∈ σ'.calls, record.Taken) :
    σ'.Agrees resultXml (moves.foldl ChannelTrace.after τ) ∧
      σ'.nextRequest = σ.nextRequest + label.requests := by
  have hcalls : ∀ {o : PluginOutcome}, (∀ record ∈ σ.calls ++ o.calls, record.Taken) →
      ∀ record ∈ o.calls, record.Taken :=
    fun hall record hrecord => hall record (List.mem_append_right _ hrecord)
  cases hdoes with
  | request method =>
      rw [Plugin.step, if_pos h.phase] at hstep
      obtain ⟨o, hdispatch, rfl⟩ := Option.map_eq_some_iff.mp hstep
      refine ⟨?_, rfl⟩
      rcases dispatch_agrees hdispatch (hcalls htaken) with ⟨m, hmove, ho⟩ | ⟨hmove, ho⟩
      · rw [h.channel] at ho
        have hafter := h.after ho
        rw [hmove]
        exact ⟨hafter.phase, hafter.channel, hafter.sent, hafter.completions⟩
      · rw [h.channel] at ho
        have hafter := h.after ho
        rw [List.append_nil] at hafter
        rw [hmove]
        refine ⟨hafter.phase, hafter.channel, hafter.sent, ?_⟩
        simpa using hafter.completions
  | write frame event =>
      rw [Plugin.step] at hstep
      split at hstep
      · obtain ⟨o, hwrite, rfl⟩ := Option.map_eq_some_iff.mp hstep
        have ho := streamWrite_agrees hwrite (hcalls htaken)
        rw [h.channel] at ho
        have hafter := h.after ho
        exact ⟨⟨hafter.phase, hafter.channel, hafter.sent, hafter.completions⟩, rfl⟩
      · cases hstep
  | waited hreply =>
      rw [Plugin.step, if_pos h.phase] at hstep
      obtain ⟨o, hresume, rfl⟩ := Option.map_eq_some_iff.mp hstep
      have ho := resume_agrees hresume hreply (hcalls htaken)
      rw [h.channel] at ho
      exact ⟨h.after ho, rfl⟩

/-- The records of calls only grow. -/
theorem calls_step (h : σ.step resultXml label = some σ') : σ.calls <+: σ'.calls := by
  cases label with
  | openChannel connected =>
      rw [Plugin.step] at h
      split at h
      · cases h
        exact List.prefix_rfl
      · cases h
  | _ =>
      rw [Plugin.step] at h
      split at h
      · obtain ⟨o, -, rfl⟩ := Option.map_eq_some_iff.mp h
        exact List.prefix_append _ _
      · cases h

theorem calls_run {labels : List PluginLabel} (h : σ.run resultXml labels = some σ') :
    σ.calls <+: σ'.calls := by
  have hany : AlongRun (Plugin.step resultXml) (fun _ _ => True) σ labels :=
    alongRun_of_forall (fun _ _ => trivial) _ labels
  have hkeeps : ∀ {s s' : Plugin} {label : PluginLabel}, σ.calls <+: s.calls → True →
      s.step resultXml label = some s' → σ.calls <+: s'.calls :=
    fun hinv _ hstep => hinv.trans (calls_step hstep)
  exact runSteps_invariant hkeeps List.prefix_rfl hany h

theorem agrees_run {labels : List PluginLabel} {moves : List ChannelMove}
    (h : σ.Agrees resultXml τ) (hrun : σ.run resultXml labels = some σ')
    (hdoes : RunDoes σ.nextRequest labels moves) (htaken : ∀ record ∈ σ'.calls, record.Taken) :
    σ'.Agrees resultXml (moves.foldl ChannelTrace.after τ) := by
  induction labels generalizing σ τ moves with
  | nil =>
      cases hdoes
      cases hrun
      exact h
  | cons label labels ih =>
      cases hdoes with
      | @cons _ _ _ first more hfirst hrest =>
          rw [Plugin.run, runSteps] at hrun
          split at hrun
          · cases hrun
          · rename_i σ₁ hstep
            obtain ⟨hagrees, hnext⟩ := agrees_step h hstep hfirst
              (fun record hrecord => htaken record ((calls_run hrun).subset hrecord))
            rw [List.foldl_append]
            exact ih hagrees hrun (hnext ▸ hrest)

/-- A channel whose bridge has just been reached. -/
theorem agrees_opened {script : List SockAnswer}
    (h : (Plugin.created script).step resultXml (.openChannel true) = some σ) :
    σ.Agrees resultXml ⟨{}, [], []⟩ ∧ σ.nextRequest = 0 := by
  cases h
  exact ⟨⟨rfl, rfl, rfl, rfl⟩, rfl⟩

/-- A run of the plugin on a socket that takes every frame, and a run of the system in which
the channel does the same: the channels agree, and so do the frames sent and the recognitions
completed. -/
theorem plugin_simulated {script : List SockAnswer} {labels : List PluginLabel}
    {backend : BridgeBackend} {labels' : List Label} {τ : System} {f : Nat → Nat}
    (hplugin : (Plugin.created script).run resultXml (.openChannel true :: labels) = some σ)
    (htaken : ∀ record ∈ σ.calls, record.Taken)
    (hsystem : ({} : System).run backend labels' = some τ)
    (hdoes : RunDoes 0 labels
      ((({} : System).runMoves backend labels').map (ChannelMove.renumber f))) :
    σ.Agrees resultXml (τ.trace.renumber f) := by
  rw [Plugin.run, runSteps] at hplugin
  split at hplugin
  · cases hplugin
  · rename_i σ₁ hopen
    obtain ⟨hagrees, hnext⟩ := agrees_opened hopen
    have hrun := agrees_run hagrees hplugin (by rwa [hnext]) htaken
    rw [System.trace_run hsystem, ChannelTrace.renumber_foldl]
    exact hrun

/-- Two requests with a STOP between them, which the engine numbers too. -/
def stoppedCall : List PluginLabel :=
  [.request (.recognize System.call), .write ⟨some [1]⟩ .none, .request .stop,
    .write ⟨some [9]⟩ .none, .request (.recognize System.call), .write ⟨some [2]⟩ .none,
    .write ⟨none⟩ .inactivity, .waited 0 (some [0x3c])]

def stoppedSystem : List Label :=
  [.recognize System.call, System.speak [1], .stop, System.speak [9], .recognize System.call,
    System.speak [2], System.silence] ++ System.answer 4 2

theorem plugin_simulated_stopped :
    ∃ σ τ, (Plugin.created (List.replicate 9 (.accept 99))).run none
          (.openChannel true :: stoppedCall) = some σ ∧
        ({} : System).run System.echoBackend stoppedSystem = some τ ∧
        σ.Agrees none (τ.trace.renumber (2 * ·)) := by
  obtain ⟨σ, hplugin, htaken⟩ : ∃ σ, (Plugin.created (List.replicate 9 (.accept 99))).run none
      (.openChannel true :: stoppedCall) = some σ ∧ ∀ record ∈ σ.calls, record.Taken :=
    ⟨_, rfl, by decide⟩
  obtain ⟨τ, hsystem⟩ : ∃ τ, ({} : System).run System.echoBackend stoppedSystem = some τ :=
    ⟨_, rfl⟩
  have hwaits : WaitReturns (some (.result ⟨[[1], [2]], some [1, 2], [0x3c]⟩)) 0
      (some [0x3c]) := by
    rw [WaitReturns, if_pos (by decide)]
    exact ⟨rfl, rfl⟩
  refine ⟨σ, τ, hplugin, hsystem, plugin_simulated hplugin htaken hsystem ?_⟩
  exact .cons (.request _) (.cons (.write _ _) (.cons (.request _) (.cons (.write _ _)
    (.cons (.request _) (.cons (.write _ _) (.cons (.write _ _) (.cons (.waited hwaits)
      (.nil _))))))))

end Runs

end Mrcp
end Sandroid
