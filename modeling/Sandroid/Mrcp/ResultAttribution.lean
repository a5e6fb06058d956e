import Sandroid.Lib.Runs
import Sandroid.Mrcp.BridgeUtterance
import Sandroid.Mrcp.RecogChannel

/-!
# Whose audio a result is about

One plugin channel and the bridge's handler of its connection, exchanging frames
in order.  `heard` records, for each RECOGNIZE, the audio frames written to the
stream while it was the active request.

The plugin sends START once per connection and never resets `bridge_started` or
`bridge_eos_sent`, so a later RECOGNIZE on the channel continues the audio of an
earlier one, or gets canned text after a timeout.  `attributed_of_orderly`: in a
run whose steps are orderly, every successful completion carries a result
computed from exactly the audio of its own request.
-/

namespace Sandroid
namespace Mrcp

open Lib

/-- The channel, the handler, the frames in flight, and the records of the run. -/
structure System where
  channel : RecogChannel := {}
  handler : Handler := {}
  toBridge : List ToBridge := []
  toPlugin : List Reply := []
  /-- number of the next RECOGNIZE -/
  nextId : Nat := 0
  /-- every frame sent on the connection -/
  sent : List ToBridge := []
  /-- audio frames, with the request that was active when they were written -/
  heard : List (Nat × Bytes) := []
  completions : List Completion := []
deriving DecidableEq

/-- Steps of the engine's task, the media thread, the handler and its ASR tasks. -/
inductive Label where
  | recognize (request : RecognizeRequest)
  | stop
  | timersStart
  | write (frame : MediaFrame) (event : DetectorEvent)
  | resultArrives
  | waitTimeout
  | bridgeRead
  | asrRead (task : Nat)
  | finishEos
  | asrTimeout

/-- The audio that was written while a request was active. -/
def heardBy (heard : List (Nat × Bytes)) (id : Nat) : List Bytes :=
  (heard.filter (fun entry => entry.1 = id)).map Prod.snd

/-- The audio of a frame, if it has any. -/
def MediaFrame.chunk (frame : MediaFrame) : List Bytes :=
  match frame.audio with
  | none => []
  | some pcm => if pcm = [] then [] else [pcm]

/-- The record of a frame written while `active` was the request. -/
def recordAudio (active : Option Nat) (frame : MediaFrame) : List (Nat × Bytes) :=
  match active with
  | none => []
  | some id => frame.chunk.map (fun pcm => (id, pcm))

namespace System

variable (backend : BridgeBackend)

/-- Put the outcome of a run of the stream callback into effect. -/
def afterWrite (σ : System) (w : RecogChannel.WriteOutcome) : System :=
  { σ with
    channel := w.channel
    toBridge := σ.toBridge ++ w.sent
    sent := σ.sent ++ w.sent
    completions := σ.completions ++ w.completion.toList }

/-- Put the outcome of a handler step into effect. -/
def afterHandler (σ : System) (r : Handler × List Reply) : System :=
  { σ with handler := r.1, toPlugin := σ.toPlugin ++ r.2 }

def step (σ : System) : Label → Option System
  | .recognize request =>
      let r := σ.channel.recognize σ.nextId request
      some { σ with
        channel := r.1
        toBridge := σ.toBridge ++ r.2
        sent := σ.sent ++ r.2
        nextId := σ.nextId + 1 }
  | .stop => some { σ with channel := σ.channel.stop }
  | .timersStart => some { σ with channel := σ.channel.timersStart }
  | .write frame event =>
      if σ.channel.waiting ≠ none then
        none
      else
        some (({ σ with
          heard := σ.heard ++ recordAudio σ.channel.recogRequest frame }).afterWrite
            (σ.channel.streamWrite frame event))
  | .resultArrives =>
      match σ.channel.waiting, σ.toPlugin with
      | some _, reply :: replies =>
          some (({ σ with toPlugin := replies }).afterWrite (σ.channel.resume (some reply)))
      | _, _ => none
  | .waitTimeout =>
      match σ.channel.waiting with
      | some _ => some (σ.afterWrite (σ.channel.resume none))
      | none => none
  | .bridgeRead =>
      match σ.handler.phase, σ.toBridge with
      | .reading, m :: rest =>
          some (({ σ with toBridge := rest }).afterHandler (dispatch backend σ.handler m))
      | _, _ => none
  | .asrRead i => (asrRead σ.handler i).map (fun h => { σ with handler := h })
  | .finishEos => (finishEos backend σ.handler).map σ.afterHandler
  | .asrTimeout => (asrTimeout σ.handler).map σ.afterHandler

/-- Run a list of steps. -/
def run (σ : System) (labels : List Label) : Option System :=
  runSteps (step backend) σ labels

/-- The event carries a result computed from exactly the audio of its request. -/
def Attributed (heard : List (Nat × Bytes)) (completion : Completion) : Prop :=
  completion.cause = .success →
    ∃ r, completion.body = .bridge r ∧
      r.chunks = heardBy heard completion.request ∧
      (r.pathB = none ∨ r.pathB = some (heardBy heard completion.request).flatten)

/-- Nothing but START has been sent on the connection. -/
def OnlyStarted (σ : System) : Prop :=
  ∀ m, m ∈ σ.sent → ∃ a b c d, m = .start a b c d

/-- The condition on a step: RECOGNIZE finds a connection on which no audio has
been forwarded, and a START it sends fits; frames fit, and the one on which speech
ends carries no audio; the ASR answers in time with a document that fits. -/
def Orderly (σ : System) : Label → Prop
  | .recognize request =>
      ∀ rate, request.sampleRate = some rate →
        OnlyStarted σ ∧
          (σ.channel.bridgeStarted = false →
            (encodeStart (some request.sessionId) (some request.sessionId) rate
              (some RecogChannel.lpcm)).isSome)
  | .write frame event =>
      (∀ pcm, frame.audio = some pcm → pcm.length ≤ maxFrameSize - 1) ∧
        (event = .inactivity → σ.channel.recogRequest ≠ none → σ.channel.stopResponse = false →
          frame.chunk = [])
  | .finishEos =>
      ∀ task, σ.handler.tasks.getLast? = some task →
        ∃ transcript, backend.asr task.chunks = .ok transcript ∧
          ∀ audio, 0 < (backend.nlsml transcript audio σ.handler.channel.sessionId).length ∧
            (backend.nlsml transcript audio σ.handler.channel.sessionId).length ≤ maxFrameSize
  | .waitTimeout => False
  | .asrTimeout => False
  | _ => True

/-- Every step of the run is orderly. -/
def OrderlyRun (σ : System) (labels : List Label) : Prop :=
  AlongRun (step backend) (Orderly backend) σ labels

/-- The plugin's half of an orderly run before a result has been delivered: the
frames sent are those of one utterance, whose audio is what the active request
has heard. -/
inductive Stage (ch : RecogChannel) (sent : List ToBridge) (record : List (Nat × Bytes)) : Prop
  | fresh (started : ch.bridgeStarted = false) (eosSent : ch.bridgeEosSent = false)
      (request : ch.recogRequest = none) (waiting : ch.waiting = none) (frames : sent = [])
  | streaming {a b : Bytes} {c : Nat} {d : Bytes} {audio : List Bytes}
      (started : ch.bridgeStarted = true) (eosSent : ch.bridgeEosSent = false)
      (waiting : ch.waiting = none)
      (frames : sent = utterance (.start a b c d) audio false)
      (heard : ∀ id, ch.recogRequest = some id → heardBy record id = audio)
  | waiting {a b : Bytes} {c : Nat} {d : Bytes} {audio : List Bytes} {id : Nat}
      {frame : MediaFrame} (eosSent : ch.bridgeEosSent = true)
      (waiting : ch.waiting = some (id, frame))
      (frames : sent = utterance (.start a b c d) audio true)
      (heard : heardBy record id = audio)

/-- Nothing has been delivered yet, and the handler follows the frames. -/
structure Pending (σ : System) : Prop where
  bridge : σ.channel.bridge = true
  stage : Stage σ.channel σ.sent σ.heard
  handler : ∃ processed, σ.sent = processed ++ σ.toBridge ∧
    BridgeAt processed σ.handler σ.toPlugin
  noSuccess : ∀ c, c ∈ σ.completions → c.cause ≠ .success

/-- The one result has been delivered. -/
structure Delivered (σ : System) : Prop where
  request : σ.channel.recogRequest = none
  waiting : σ.channel.waiting = none
  eos : ToBridge.eos ∈ σ.sent
  attributed : ∀ c, c ∈ σ.completions → Attributed σ.heard c

/-- Requests are numbered in the order in which they come. -/
structure Numbered (σ : System) : Prop where
  heard : ∀ entry, entry ∈ σ.heard → entry.1 < σ.nextId
  request : ∀ id, σ.channel.recogRequest = some id → id < σ.nextId

/-- What holds after every step of an orderly run. -/
structure Inv (σ : System) : Prop where
  numbered : Numbered σ
  phase : Pending σ ∨ Delivered σ

variable {backend : BridgeBackend} {σ σ' : System}

theorem Stage.oneUtterance {ch : RecogChannel} {sent : List ToBridge}
    {record : List (Nat × Bytes)} (h : Stage ch sent record) : OneUtterance sent := by
  cases h with
  | fresh started eosSent request waiting frames => exact Or.inl frames
  | streaming started eosSent waiting frames heard => exact Or.inr ⟨_, _, _, _, _, _, frames⟩
  | waiting eosSent waiting frames heard => exact Or.inr ⟨_, _, _, _, _, _, frames⟩

/-- A change of the flags that the bridge's protocol does not look at. -/
theorem Inv.signal (c : RecogChannel) (h : Inv σ) (hbridge : c.bridge = σ.channel.bridge)
    (hstarted : c.bridgeStarted = σ.channel.bridgeStarted)
    (heos : c.bridgeEosSent = σ.channel.bridgeEosSent)
    (hrequest : c.recogRequest = σ.channel.recogRequest)
    (hwaiting : c.waiting = σ.channel.waiting) : Inv { σ with channel := c } := by
  refine ⟨⟨h.numbered.heard, ?_⟩, ?_⟩
  · simpa only [hrequest] using h.numbered.request
  · cases h.phase with
    | inl hp =>
        refine Or.inl ⟨hbridge.trans hp.bridge, ?_, hp.handler, hp.noSuccess⟩
        cases hp.stage with
        | fresh started eosSent request waiting frames =>
            exact .fresh (hstarted.trans started) (heos.trans eosSent) (hrequest.trans request)
              (hwaiting.trans waiting) frames
        | streaming started eosSent waiting frames heard =>
            exact .streaming (hstarted.trans started) (heos.trans eosSent)
              (hwaiting.trans waiting) frames (fun id hid => heard id (hrequest ▸ hid))
        | waiting eosSent waiting frames heard =>
            exact .waiting (heos.trans eosSent) (hwaiting.trans waiting) frames heard
    | inr hd =>
        exact Or.inr ⟨hrequest.trans hd.request, hwaiting.trans hd.waiting, hd.eos, hd.attributed⟩

/-- A step of the handler that keeps it in place keeps the invariant. -/
theorem Inv.handlerStep (h : Inv σ) (handler : Handler) (toBridge : List ToBridge)
    (toPlugin : List Reply)
    (hstep : ∀ processed, OneUtterance σ.sent → σ.sent = processed ++ σ.toBridge →
      BridgeAt processed σ.handler σ.toPlugin →
        ∃ processed', σ.sent = processed' ++ toBridge ∧ BridgeAt processed' handler toPlugin) :
    Inv { σ with handler := handler, toBridge := toBridge, toPlugin := toPlugin } := by
  refine ⟨⟨h.numbered.heard, h.numbered.request⟩, ?_⟩
  cases h.phase with
  | inl hp =>
      obtain ⟨processed, hsent, hat⟩ := hp.handler
      exact Or.inl ⟨hp.bridge, hp.stage, hstep processed hp.stage.oneUtterance hsent hat,
        hp.noSuccess⟩
  | inr hd => exact Or.inr ⟨hd.request, hd.waiting, hd.eos, hd.attributed⟩

theorem inv_bridgeRead (h : Inv σ) (hstep : σ.step backend .bridgeRead = some σ') : Inv σ' := by
  simp only [step] at hstep
  split at hstep
  · rename_i m rest hphase hqueue
    cases hstep
    refine h.handlerStep _ _ _ ?_
    intro processed hone hsent hat
    rw [hqueue] at hsent
    refine ⟨processed ++ [m], by simp [hsent], ?_⟩
    exact hat.dispatch (hsent ▸ hone) hphase
  · cases hstep

theorem inv_asrRead {i : Nat} (h : Inv σ) (hstep : σ.step backend (.asrRead i) = some σ') :
    Inv σ' := by
  simp only [step, Option.map_eq_some_iff] at hstep
  obtain ⟨handler, hread, rfl⟩ := hstep
  exact h.handlerStep handler _ _
    (fun processed _ hsent hat => ⟨processed, hsent, hat.asrRead hread⟩)

theorem inv_finishEos (h : Inv σ) (horderly : Orderly backend σ .finishEos)
    (hstep : σ.step backend .finishEos = some σ') : Inv σ' := by
  simp only [step, Option.map_eq_some_iff] at hstep
  obtain ⟨r, hfinish, rfl⟩ := hstep
  exact h.handlerStep _ _ _
    (fun processed _ hsent hat => ⟨processed, hsent, hat.finishEos horderly hfinish⟩)

/-- More frames on their way leave the handler where it is. -/
theorem handler_append {sent toBridge : List ToBridge} {handler : Handler}
    {toPlugin : List Reply} (frames : List ToBridge)
    (h : ∃ processed, sent = processed ++ toBridge ∧ BridgeAt processed handler toPlugin) :
    ∃ processed, sent ++ frames = processed ++ (toBridge ++ frames) ∧
      BridgeAt processed handler toPlugin := by
  obtain ⟨processed, hsent, hat⟩ := h
  exact ⟨processed, by rw [hsent, List.append_assoc], hat⟩

theorem heardBy_eq_nil {heard : List (Nat × Bytes)} {id : Nat}
    (h : ∀ entry, entry ∈ heard → entry.1 < id) : heardBy heard id = [] := by
  simp only [heardBy, List.map_eq_nil_iff, List.filter_eq_nil_iff, decide_eq_true_eq]
  intro entry hentry
  have := h entry hentry
  omega

theorem heardBy_record (heard : List (Nat × Bytes)) (id : Nat) (frame : MediaFrame) :
    heardBy (heard ++ recordAudio (some id) frame) id = heardBy heard id ++ frame.chunk := by
  simp [heardBy, recordAudio, List.filter_map, Function.comp_def]

theorem OnlyStarted.audio_eq_nil {a b : Bytes} {c : Nat} {d : Bytes} {audio : List Bytes}
    {closed : Bool} (hsent : σ.sent = utterance (.start a b c d) audio closed)
    (honly : OnlyStarted σ) : audio = [] := by
  cases audio with
  | nil => rfl
  | cons pcm audio =>
      obtain ⟨_, _, _, _, hm⟩ := honly (.audio pcm) (by simp [hsent, utterance])
      cases hm

theorem not_onlyStarted (heos : ToBridge.eos ∈ σ.sent) : ¬ OnlyStarted σ := by
  intro honly
  obtain ⟨_, _, _, _, hm⟩ := honly .eos heos
  cases hm

theorem recognize_starts {c : RecogChannel} {id : Nat} {request : RecognizeRequest}
    {rate : UInt32} (hrate : request.sampleRate = some rate) (hbridge : c.bridge = true)
    (hstarted : c.bridgeStarted = false)
    (hfits : (encodeStart (some request.sessionId) (some request.sessionId) rate
      (some RecogChannel.lpcm)).isSome) :
    c.recognize id request
      = ({ c with
            timersStarted := request.startInputTimers.getD true
            bridgeStarted := true
            bridgeEosSent := false
            recogRequest := some id },
          [.start request.sessionId.val request.sessionId.val rate.toNat
            RecogChannel.lpcm.val]) := by
  obtain ⟨bytes, hbytes⟩ := Option.isSome_iff_exists.mp hfits
  simp [RecogChannel.recognize, hrate, hbridge, hstarted, hbytes]

theorem recognize_continues {c : RecogChannel} {id : Nat} {request : RecognizeRequest}
    {rate : UInt32} (hrate : request.sampleRate = some rate) (hstarted : c.bridgeStarted = true) :
    c.recognize id request
      = ({ c with
            timersStarted := request.startInputTimers.getD true
            recogRequest := some id }, []) := by
  simp [RecogChannel.recognize, hrate, hstarted]

theorem inv_recognize {request : RecognizeRequest} (h : Inv σ)
    (horderly : Orderly backend σ (.recognize request))
    (hstep : σ.step backend (.recognize request) = some σ') : Inv σ' := by
  simp only [step, Option.some.injEq] at hstep
  subst hstep
  have hheard : ∀ entry, entry ∈ σ.heard → entry.1 < σ.nextId + 1 :=
    fun entry hentry => Nat.lt_succ_of_lt (h.numbered.heard entry hentry)
  have hsilent : ∀ id, some σ.nextId = some id → heardBy σ.heard id = [] := by
    intro id hid
    cases hid
    exact heardBy_eq_nil h.numbered.heard
  have hnew : ∀ id, some σ.nextId = some id → id < σ.nextId + 1 := by
    intro id hid
    cases hid
    omega
  cases hrate : request.sampleRate with
  | none =>
      have hnone : σ.channel.recognize σ.nextId request = (σ.channel, []) := by
        simp [RecogChannel.recognize, hrate]
      simp only [hnone, List.append_nil]
      refine ⟨⟨hheard, fun id hid => Nat.lt_succ_of_lt (h.numbered.request id hid)⟩, ?_⟩
      cases h.phase with
      | inl hp => exact Or.inl ⟨hp.bridge, hp.stage, hp.handler, hp.noSuccess⟩
      | inr hd => exact Or.inr ⟨hd.request, hd.waiting, hd.eos, hd.attributed⟩
  | some rate =>
      obtain ⟨honly, hfits⟩ := horderly rate hrate
      obtain hp | hd := h.phase
      · cases hp.stage with
        | fresh started eosSent request waiting frames =>
            rw [recognize_starts hrate hp.bridge started (hfits started)]
            refine ⟨⟨hheard, hnew⟩, Or.inl ⟨hp.bridge, ?_, handler_append _ hp.handler,
              hp.noSuccess⟩⟩
            exact .streaming rfl rfl waiting (by rw [frames]; rfl) hsilent
        | streaming started eosSent waiting frames heard =>
            have haudio := honly.audio_eq_nil frames
            rw [recognize_continues hrate started]
            simp only [List.append_nil]
            refine ⟨⟨hheard, hnew⟩, Or.inl ⟨hp.bridge, ?_, hp.handler, hp.noSuccess⟩⟩
            exact .streaming started eosSent waiting frames (haudio ▸ hsilent)
        | waiting eosSent waiting frames heard =>
            exact absurd honly (not_onlyStarted (by simp [frames, utterance]))
      · exact absurd honly (not_onlyStarted hd.eos)

/-- While the connection streams, forwarding sends the frame's audio. -/
theorem forwardAudio_streaming {c : RecogChannel} {frame : MediaFrame}
    (hbridge : c.bridge = true) (hstarted : c.bridgeStarted = true)
    (heos : c.bridgeEosSent = false)
    (hfits : ∀ pcm, frame.audio = some pcm → pcm.length ≤ maxFrameSize - 1) :
    c.forwardAudio frame = (c, frame.chunk.map .audio) := by
  cases haudio : frame.audio with
  | none => simp [RecogChannel.forwardAudio, MediaFrame.chunk, haudio]
  | some pcm =>
      have hlen := hfits pcm haudio
      cases pcm with
      | nil => simp [RecogChannel.forwardAudio, MediaFrame.chunk, haudio]
      | cons x pcm =>
          have hempty : ¬ (x :: pcm).length = 0 := by simp
          have hfit : ¬ (x :: pcm).length > maxFrameSize - 1 := by omega
          simp only [RecogChannel.forwardAudio, MediaFrame.chunk, haudio, hbridge, hstarted, heos,
            hempty, hfit, Bool.false_eq_true, not_false_eq_true, and_self, if_true, if_false,
            reduceCtorEq, List.map_cons, List.map_nil]

/-- After EOS nothing is forwarded. -/
theorem forwardAudio_closed {c : RecogChannel} (frame : MediaFrame)
    (heos : c.bridgeEosSent = true) : c.forwardAudio frame = (c, []) := by
  cases haudio : frame.audio with
  | none => simp [RecogChannel.forwardAudio, haudio]
  | some pcm => simp [RecogChannel.forwardAudio, haudio, heos]

/-- A frame of the active request: its audio goes out; no input may complete the
request; or speech ends, EOS goes out and the thread waits. -/
theorem streamWrite_streaming {c : RecogChannel} {frame : MediaFrame} {event : DetectorEvent}
    {id : Nat} (hstop : c.stopResponse = false) (hrequest : c.recogRequest = some id)
    (hbridge : c.bridge = true) (hstarted : c.bridgeStarted = true)
    (heos : c.bridgeEosSent = false)
    (hfits : ∀ pcm, frame.audio = some pcm → pcm.length ≤ maxFrameSize - 1) :
    c.streamWrite frame event = { channel := c, sent := frame.chunk.map .audio } ∨
      c.streamWrite frame event
        = { channel := { c with recogRequest := none }
            sent := frame.chunk.map .audio
            completion := some ⟨id, .noInputTimeout, .empty⟩ } ∨
      event = .inactivity ∧
        c.streamWrite frame event
          = { channel := { c with bridgeEosSent := true, waiting := some (id, frame) }
              sent := [.eos] } := by
  have hforward := forwardAudio_streaming hbridge hstarted heos hfits
  cases event with
  | none => exact Or.inl (by simp [RecogChannel.streamWrite, hstop, hrequest, hforward])
  | activity => exact Or.inl (by simp [RecogChannel.streamWrite, hstop, hrequest, hforward])
  | inactivity =>
      refine Or.inr (Or.inr ⟨rfl, ?_⟩)
      simp [RecogChannel.streamWrite, RecogChannel.inactivity, hstop, hrequest, hbridge, hstarted,
        heos]
  | noinput =>
      cases htimers : c.timersStarted with
      | false =>
          exact Or.inl (by simp [RecogChannel.streamWrite, hstop, hrequest, htimers, hforward])
      | true =>
          refine Or.inr (Or.inl ?_)
          have hforward' : ({ c with recogRequest := none }).forwardAudio frame
              = ({ c with recogRequest := none }, frame.chunk.map .audio) :=
            forwardAudio_streaming hbridge hstarted heos hfits
          simp only [RecogChannel.streamWrite, RecogChannel.complete, hstop, hrequest, htimers,
            if_true, if_false, Bool.false_eq_true]
          simp only [hstop, htimers] at hforward'
          rw [hforward']

/-- A frame that finds no active request, or a STOP to answer, goes nowhere. -/
theorem streamWrite_idle {c : RecogChannel} (frame : MediaFrame) (event : DetectorEvent)
    (h : c.stopResponse = true ∨ c.recogRequest = none) :
    c.streamWrite frame event
      = { channel := { c with stopResponse := false, recogRequest := none } } := by
  by_cases hstop : c.stopResponse = true
  · simp [RecogChannel.streamWrite, hstop]
  · have hrequest := h.resolve_left hstop
    have hc : c = { c with stopResponse := false, recogRequest := none } := by
      cases c
      simp_all
    simp only [RecogChannel.streamWrite, hstop, hrequest, if_false, Bool.false_eq_true]
    rw [← hc]

theorem numbered_write {frame : MediaFrame} (h : Numbered σ) :
    ∀ entry, entry ∈ σ.heard ++ recordAudio σ.channel.recogRequest frame →
      entry.1 < σ.nextId := by
  intro entry hentry
  cases List.mem_append.mp hentry with
  | inl hold => exact h.heard entry hold
  | inr hnew =>
      cases hrequest : σ.channel.recogRequest with
      | none => simp [recordAudio, hrequest] at hnew
      | some id =>
          simp only [recordAudio, hrequest, List.mem_map] at hnew
          obtain ⟨pcm, -, rfl⟩ := hnew
          exact h.request id hrequest

/-- A frame that goes nowhere keeps the invariant. -/
theorem inv_write_idle {frame : MediaFrame} {event : DetectorEvent} (h : Inv σ)
    (hidle : σ.channel.stopResponse = true ∨ σ.channel.recogRequest = none)
    (hstep : σ.step backend (.write frame event) = some σ') : Inv σ' := by
  simp only [step] at hstep
  split_ifs at hstep with hwaiting
  simp only [not_not] at hwaiting
  rw [streamWrite_idle frame event hidle] at hstep
  cases hstep
  simp only [afterWrite, List.append_nil, Option.toList_none]
  refine ⟨⟨numbered_write h.numbered, by simp⟩, ?_⟩
  cases h.phase with
  | inl hp =>
      refine Or.inl ⟨hp.bridge, ?_, hp.handler, hp.noSuccess⟩
      cases hp.stage with
      | fresh started eosSent request waiting frames =>
          exact .fresh started eosSent rfl waiting frames
      | streaming started eosSent waiting frames heard =>
          exact .streaming started eosSent waiting frames (by simp)
      | waiting eosSent waiting frames heard =>
          rw [hwaiting] at waiting
          cases waiting
  | inr hd =>
      refine Or.inr ⟨rfl, hd.waiting, hd.eos, ?_⟩
      simpa [hd.request, recordAudio] using hd.attributed

theorem inv_write {frame : MediaFrame} {event : DetectorEvent} (h : Inv σ)
    (horderly : Orderly backend σ (.write frame event))
    (hstep : σ.step backend (.write frame event) = some σ') : Inv σ' := by
  obtain ⟨hfits, hlast⟩ := horderly
  by_cases hidle : σ.channel.stopResponse = true ∨ σ.channel.recogRequest = none
  · exact inv_write_idle h hidle hstep
  obtain ⟨hstop, hactive⟩ := not_or.mp hidle
  obtain ⟨id, hrequest⟩ := Option.ne_none_iff_exists'.mp hactive
  have hstop' : σ.channel.stopResponse = false := by simpa using hstop
  simp only [step] at hstep
  split_ifs at hstep with hwaiting
  simp only [not_not] at hwaiting
  cases hstep
  obtain hp | hd := h.phase
  · cases hp.stage with
    | fresh started eosSent request waiting frames =>
        rw [hrequest] at request
        cases request
    | waiting eosSent waiting frames heard =>
        rw [hwaiting] at waiting
        cases waiting
    | @streaming a b c d audio started eosSent waiting frames heard =>
        have hheard := heardBy_record σ.heard id frame
        rw [heard id hrequest] at hheard
        have hsent := utterance_append (.start a b c d) audio frame.chunk
        rw [← frames] at hsent
        have hwrite := @streamWrite_streaming _ _ event _ hstop' hrequest hp.bridge started eosSent
          hfits
        obtain hw | hw | ⟨hevent, hw⟩ := hwrite
        · rw [hw]
          simp only [afterWrite, Option.toList_none, List.append_nil]
          refine ⟨⟨numbered_write h.numbered, h.numbered.request⟩, Or.inl ⟨hp.bridge, ?_,
            handler_append _ hp.handler, hp.noSuccess⟩⟩
          refine .streaming started eosSent waiting hsent ?_
          intro id' hid
          rw [hrequest] at hid
          cases hid
          rw [hrequest]
          exact hheard
        · rw [hw]
          simp only [afterWrite, Option.toList_some]
          refine ⟨⟨numbered_write h.numbered, by simp⟩, Or.inl ⟨hp.bridge, ?_,
            handler_append _ hp.handler, ?_⟩⟩
          · exact .streaming started eosSent waiting hsent (by simp)
          · intro c hc
            cases List.mem_append.mp hc with
            | inl hold => exact hp.noSuccess c hold
            | inr hnew =>
                rw [List.mem_singleton.mp hnew]
                nofun
        · rw [hw]
          simp only [afterWrite, Option.toList_none, List.append_nil]
          refine ⟨⟨numbered_write h.numbered, h.numbered.request⟩, Or.inl ⟨hp.bridge, ?_,
            handler_append _ hp.handler, hp.noSuccess⟩⟩
          refine .waiting rfl rfl (by rw [frames, utterance_close]) ?_
          rw [hrequest, hheard, hlast hevent hactive hstop', List.append_nil]
  · rw [hd.request] at hrequest
    cases hrequest

/-- A reply to a closed utterance is the result of its audio. -/
theorem reply_of_waiting {opening : ToBridge} {audio : List Bytes} {reply : Reply}
    {replies : List Reply} (hp : Pending σ) (hsent : σ.sent = utterance opening audio true)
    (hreplies : σ.toPlugin = reply :: replies) :
    ∃ r, reply = .result r ∧ r.chunks = audio ∧
      (r.pathB = none ∨ r.pathB = some audio.flatten) ∧
      0 < r.nlsml.length ∧ r.nlsml.length ≤ maxFrameSize := by
  obtain ⟨processed, hframes, hat⟩ := hp.handler
  rw [hreplies] at hat
  generalize σ.handler = handler at hat
  cases hat with
  | answered tasks phase result =>
      have haudio := (closed_utterance_append (hframes.symm.trans hsent)).1
      obtain ⟨r, hr⟩ := result reply (List.mem_cons_self ..)
      exact ⟨r, haudio ▸ hr⟩

/-- The result of the utterance arrives while its request waits for it. -/
theorem inv_resultArrives (h : Inv σ) (hstep : σ.step backend .resultArrives = some σ') :
    Inv σ' := by
  simp only [step] at hstep
  split at hstep
  case h_2 => cases hstep
  case h_1 held reply replies hwaiting hreplies =>
    cases hstep
    obtain hp | hd := h.phase
    · cases hp.stage with
      | fresh started eosSent request waiting frames =>
          rw [hwaiting] at waiting
          cases waiting
      | streaming started eosSent waiting frames heard =>
          rw [hwaiting] at waiting
          cases waiting
      | @waiting a b c d audio id frame eosSent waiting frames heard =>
          obtain ⟨r, hreply, hchunks, hpathB, hpos, hlen⟩ := reply_of_waiting hp frames hreplies
          have hforward : ({ σ.channel with waiting := none, recogRequest := none }).forwardAudio
              frame = ({ σ.channel with waiting := none, recogRequest := none }, []) :=
            forwardAudio_closed frame eosSent
          have hresume : σ.channel.resume (some reply)
              = { channel := { σ.channel with waiting := none, recogRequest := none }
                  completion := some ⟨id, .success, .bridge r⟩ } := by
            simp only [RecogChannel.resume, RecogChannel.complete, waiting, hreply, hpos, hlen,
              and_self, if_true, hforward]
          simp only [hresume, afterWrite, List.append_nil, Option.toList_some]
          refine ⟨⟨h.numbered.heard, by simp⟩, Or.inr ⟨rfl, rfl, ?_, ?_⟩⟩
          · simp [frames, utterance]
          · intro c hc
            cases List.mem_append.mp hc with
            | inl hold => exact fun hsuccess => absurd hsuccess (hp.noSuccess c hold)
            | inr hnew =>
                rw [List.mem_singleton.mp hnew]
                intro _
                exact ⟨r, rfl, by rw [hchunks, heard], by rw [heard]; exact hpathB⟩
    · rw [hd.waiting] at hwaiting
      cases hwaiting

/-- One step of an orderly run. -/
theorem inv_step {label : Label} (h : Inv σ) (horderly : Orderly backend σ label)
    (hstep : σ.step backend label = some σ') : Inv σ' := by
  cases label with
  | recognize request => exact inv_recognize h horderly hstep
  | stop =>
      cases hstep
      exact h.signal _ rfl rfl rfl rfl rfl
  | timersStart =>
      cases hstep
      exact h.signal _ rfl rfl rfl rfl rfl
  | write frame event => exact inv_write h horderly hstep
  | resultArrives => exact inv_resultArrives h hstep
  | waitTimeout => exact horderly.elim
  | bridgeRead => exact inv_bridgeRead h hstep
  | asrRead task => exact inv_asrRead h hstep
  | finishEos => exact inv_finishEos h horderly hstep
  | asrTimeout => exact horderly.elim

theorem inv_init : Inv {} where
  numbered := ⟨by simp, nofun⟩
  phase := Or.inl
    { bridge := rfl
      stage := .fresh rfl rfl rfl rfl rfl
      handler := ⟨[], rfl, .idle⟩
      noSuccess := by simp }

theorem Inv.attributed (h : Inv σ) : ∀ c, c ∈ σ.completions → Attributed σ.heard c := by
  intro c hc
  cases h.phase with
  | inl hp => exact fun hsuccess => absurd hsuccess (hp.noSuccess c hc)
  | inr hd => exact hd.attributed c hc

/-- In an orderly run every successful completion carries the result of its own
audio. -/
theorem attributed_of_orderly (backend : BridgeBackend) (labels : List Label) (σ : System)
    (horderly : OrderlyRun backend {} labels) (hrun : run backend {} labels = some σ) :
    ∀ c, c ∈ σ.completions → Attributed σ.heard c :=
  (runSteps_invariant inv_step inv_init horderly hrun).attributed

section Examples

/-- An ASR and an NLU that answer with one byte. -/
def echoBackend : BridgeBackend where
  asr := fun _ => .ok "ok"
  nlsml := fun _ _ _ => [0x3c]
  maxAudioBytes := 8

def call : RecognizeRequest where
  sessionId := ⟨[0x31], by decide⟩
  sampleRate := some 8000

def speak (pcm : Bytes) : Label := .write ⟨some pcm⟩ .none

def silence : Label := .write ⟨none⟩ .inactivity

/-- The handler takes `frames` frames and its task as many chunks and the end. -/
def answer (frames chunks : Nat) : List Label :=
  List.replicate frames .bridgeRead ++ List.replicate (chunks + 1) (.asrRead 0) ++
    [.finishEos, .resultArrives]

theorem orderly_speak (pcm : Bytes) (h : pcm.length ≤ maxFrameSize - 1) (σ : System) :
    Orderly backend σ (speak pcm) := by
  refine ⟨?_, nofun⟩
  intro pcm' hpcm
  cases hpcm
  exact h

theorem orderly_silence (σ : System) : Orderly backend σ silence :=
  ⟨nofun, fun _ _ _ => rfl⟩

theorem orderly_echo (σ : System) : Orderly echoBackend σ .finishEos := by
  intro task _
  exact ⟨"ok", rfl, fun _ => by simp [echoBackend, maxFrameSize]⟩

/-- One request, one utterance, one result. -/
theorem attributed_single :
    OrderlyRun echoBackend {} ([.recognize call, speak [1], speak [2], silence] ++ answer 4 2) ∧
      ∃ σ, run echoBackend {} ([.recognize call, speak [1], speak [2], silence] ++ answer 4 2)
          = some σ ∧
        σ.completions = [⟨0, .success, .bridge ⟨[[1], [2]], some [1, 2], [0x3c]⟩⟩] ∧
        ∀ c, c ∈ σ.completions → Attributed σ.heard c := by
  have horderly : OrderlyRun echoBackend {}
      ([.recognize call, speak [1], speak [2], silence] ++ answer 4 2) := by
    refine .cons ?_ rfl ?_
    · intro rate hrate
      cases hrate
      exact ⟨by simp [OnlyStarted], fun _ => by decide⟩
    refine .cons (orderly_speak _ (by decide) _) rfl ?_
    refine .cons (orderly_speak _ (by decide) _) rfl ?_
    refine .cons (orderly_silence _) rfl ?_
    iterate 7 refine .cons trivial rfl ?_
    refine .cons (orderly_echo _) rfl ?_
    exact .cons trivial rfl trivial
  exact ⟨horderly, _, rfl, rfl, attributed_of_orderly _ _ _ horderly rfl⟩

/-- A second request after a stopped one: its result is about the audio of both. -/
theorem attribution_fails :
    ∃ σ, run echoBackend {}
        ([.recognize call, speak [1], .stop, speak [9], .recognize call, speak [2], silence]
          ++ answer 4 2) = some σ ∧
      σ.heard = [(0, [1]), (0, [9]), (1, [2])] ∧
      ∃ c, c ∈ σ.completions ∧ ¬ Attributed σ.heard c := by
  refine ⟨_, rfl, rfl, ⟨1, .success, .bridge ⟨[[1], [2]], some [1, 2], [0x3c]⟩⟩, ?_, ?_⟩
  · decide
  · intro h
    obtain ⟨r, hbody, hchunks, -⟩ := h rfl
    cases hbody
    revert hchunks
    decide

end Examples

end System

end Mrcp
end Sandroid
