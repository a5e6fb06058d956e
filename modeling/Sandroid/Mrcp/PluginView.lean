import Sandroid.Lib.Runs
import Sandroid.Mrcp.PluginChannel

/-!
# A plugin channel seen without its bridge

The messages of a channel depend on the bridge only through the body of a result.
`ViewStep` says once what a step can do to the rest, and `run_view` is the rule of
invariants that follows from it.
-/

namespace Sandroid
namespace Mrcp

open Lib

section View

/-- What the messages of a channel depend on. -/
structure PluginView where
  phase : ChannelPhase
  request : Option Nat
  stop : Option Nat
  timers : Option Bool
  waiting : Option Nat
  next : Nat
  sent : List PluginMessage
  cancelled : List Nat
  ended : List Nat

def Plugin.view (σ : Plugin) : PluginView where
  phase := σ.phase
  request := σ.channel.recogRequest
  stop := σ.channel.stopResponse
  timers := σ.channel.timersStarted
  waiting := σ.channel.waiting.map Prod.fst
  next := σ.nextRequest
  sent := σ.sent
  cancelled := σ.cancelled
  ended := σ.speechEnded

/-- A RECOGNIZE on a channel with a codec descriptor. -/
def RecogMethod.Starts : RecogMethod → Prop
  | .recognize request => request.sampleRate ≠ none
  | _ => False

/-- What the dispatch answers itself. -/
def RecogMethod.Immediate : RecogMethod → Prop
  | .recognize request => request.sampleRate = none
  | .stop => False
  | _ => True

/-- What one step does to the view. -/
inductive ViewStep (resultXml : Option Bytes) (v : PluginView) :
    PluginLabel → PluginView → Prop
  | opened {connected : Bool} (hphase : v.phase = .created) :
      ViewStep resultXml v (.openChannel connected)
        { v with phase := .opened, sent := v.sent ++ [.channelOpened] }
  | answered {method : RecogMethod} {status : StatusCode} {timers : Option Bool}
      (hphase : v.phase = .opened) (hmethod : method.Immediate)
      (htimers : timers = v.timers ∨ timers = some true) :
      ViewStep resultXml v (.request method)
        { v with
          timers := timers
          next := v.next + 1
          sent := v.sent ++ [.response v.next status .complete] }
  | recognized {method : RecogMethod} (timers : Bool)
      (hphase : v.phase = .opened) (hmethod : method.Starts) :
      ViewStep resultXml v (.request method)
        { v with
          request := some v.next
          timers := some timers
          next := v.next + 1
          sent := v.sent ++ [.response v.next .success .inProgress] }
  | stopRequested (hphase : v.phase = .opened) :
      ViewStep resultXml v (.request .stop) { v with stop := some v.next, next := v.next + 1 }
  | stopAnswered {frame : MediaFrame} {event : DetectorEvent} {stop : Nat}
      (hphase : v.phase = .opened) (hwaiting : v.waiting = none) (hstop : v.stop = some stop) :
      ViewStep resultXml v (.write frame event)
        { v with
          stop := none
          request := none
          sent := v.sent ++ [.response stop .success .complete]
          cancelled := v.cancelled ++ v.request.toList }
  | quiet {frame : MediaFrame} {event : DetectorEvent}
      (hphase : v.phase = .opened) (hwaiting : v.waiting = none) :
      ViewStep resultXml v (.write frame event) v
  | speech {frame : MediaFrame} {id : Nat}
      (hphase : v.phase = .opened) (hwaiting : v.waiting = none)
      (hrequest : v.request = some id) :
      ViewStep resultXml v (.write frame .activity)
        { v with sent := v.sent ++ [.startOfInput id] }
  | noInput {frame : MediaFrame} {id : Nat}
      (hphase : v.phase = .opened) (hwaiting : v.waiting = none)
      (hrequest : v.request = some id) (htimers : v.timers = some true) :
      ViewStep resultXml v (.write frame .noinput)
        { v with
          request := none
          sent := v.sent ++ [.recognitionComplete ⟨id, .noInputTimeout, none⟩] }
  | canned {frame : MediaFrame} {id : Nat}
      (hphase : v.phase = .opened) (hwaiting : v.waiting = none)
      (hrequest : v.request = some id) :
      ViewStep resultXml v (.write frame .inactivity)
        { v with
          request := none
          sent := v.sent ++
            [.recognitionComplete ⟨id, .success, PluginChannel.cannedBody resultXml⟩]
          ended := v.ended ++ [id] }
  | waits {frame : MediaFrame} {id : Nat}
      (hphase : v.phase = .opened) (hwaiting : v.waiting = none)
      (hrequest : v.request = some id) :
      ViewStep resultXml v (.write frame .inactivity)
        { v with waiting := some id, ended := v.ended ++ [id] }
  | resumed {rc : Int} {nlsml : Option Bytes} {id : Nat}
      (hphase : v.phase = .opened) (hwaiting : v.waiting = some id) :
      ViewStep resultXml v (.waited rc nlsml)
        { v with
          request := none
          waiting := none
          sent := v.sent ++
            [.recognitionComplete
              ⟨id, .success, PluginChannel.loadedBody resultXml rc nlsml⟩] }
  | closed (hphase : v.phase = .opened) (hwaiting : v.waiting = none) :
      ViewStep resultXml v .closeChannel
        { v with phase := .closed, sent := v.sent ++ [.channelClosed] }

/-- The two channels have the same requests. -/
structure SameRequests (c c' : PluginChannel) : Prop where
  request : c'.recogRequest = c.recogRequest
  stop : c'.stopResponse = c.stopResponse
  timers : c'.timersStarted = c.timersStarted
  waiting : c'.waiting = c.waiting

theorem SameRequests.refl (c : PluginChannel) : SameRequests c c :=
  ⟨rfl, rfl, rfl, rfl⟩

theorem sameRequests_dropBridge (c : PluginChannel) : SameRequests c c.dropBridge :=
  ⟨rfl, rfl, rfl, rfl⟩

variable {c : PluginChannel} {socket : List SockAnswer} {o : PluginOutcome}

theorem startBridge_quiet {call : Call} (h : c.startBridge socket call = some o) :
    o.messages = [] ∧ SameRequests c o.channel := by
  rw [PluginChannel.startBridge] at h
  split at h
  · split at h
    · cases h
    · cases h
      refine ⟨rfl, ?_⟩
      dsimp only
      split
      · exact ⟨rfl, rfl, rfl, rfl⟩
      · exact sameRequests_dropBridge c
  · cases h
    exact ⟨rfl, SameRequests.refl c⟩

theorem forwardAudio_quiet {frame : MediaFrame} (h : c.forwardAudio socket frame = some o) :
    o.messages = [] ∧ SameRequests c o.channel := by
  rw [PluginChannel.forwardAudio] at h
  split at h
  · cases h
    exact ⟨rfl, SameRequests.refl c⟩
  · split at h
    · split at h
      · cases h
      · cases h
        refine ⟨rfl, ?_⟩
        dsimp only
        split
        · exact sameRequests_dropBridge c
        · exact SameRequests.refl c
    · cases h
      exact ⟨rfl, SameRequests.refl c⟩

theorem thenForward_quiet {o₀ : PluginOutcome} {frame : MediaFrame}
    (h : PluginChannel.thenForward o₀ frame = some o) :
    o.messages = o₀.messages ∧ SameRequests o₀.channel o.channel := by
  rw [PluginChannel.thenForward, Option.map_eq_some_iff] at h
  obtain ⟨o', hforward, rfl⟩ := h
  obtain ⟨hmessages, hsame⟩ := forwardAudio_quiet hforward
  exact ⟨by simp [hmessages], hsame⟩

theorem signalEos_quiet (h : c.signalEos socket = some o) :
    o.messages = [] ∧ SameRequests c o.channel := by
  rw [PluginChannel.signalEos] at h
  split at h
  · split at h
    · cases h
    · cases h
      refine ⟨rfl, ?_⟩
      dsimp only
      split
      · exact ⟨rfl, rfl, rfl, rfl⟩
      · exact sameRequests_dropBridge c
  · cases h
    exact ⟨rfl, SameRequests.refl c⟩

theorem sameRequests_openBridge (c : PluginChannel) (connected : Bool) :
    SameRequests c (c.openBridge connected) := by
  cases connected
  · exact ⟨rfl, rfl, rfl, rfl⟩
  · exact ⟨rfl, rfl, rfl, rfl⟩

theorem closeBridge_quiet (h : c.closeBridge socket = some o) :
    o.messages = [.channelClosed] ∧ SameRequests c o.channel := by
  rw [PluginChannel.closeBridge] at h
  split at h
  · split at h
    · cases h
    · cases h
      exact ⟨rfl, rfl, rfl, rfl, rfl⟩
  · cases h
    exact ⟨rfl, SameRequests.refl c⟩

variable {resultXml : Option Bytes} {σ σ' : Plugin}

theorem ViewStep.of_eq {v v' w : PluginView} {label : PluginLabel}
    (h : ViewStep resultXml v label w) (heq : v' = w) : ViewStep resultXml v label v' :=
  heq ▸ h

theorem step_request {method : RecogMethod}
    (h : σ.step resultXml (.request method) = some σ') :
    ViewStep resultXml σ.view (.request method) σ'.view := by
  rw [Plugin.step] at h
  split at h
  case isFalse => cases h
  rename_i hphase
  obtain ⟨o, ho, rfl⟩ := Option.map_eq_some_iff.mp h
  cases method with
  | recognize request =>
      rw [PluginChannel.dispatch, PluginChannel.recognize] at ho
      split at ho
      · rename_i hrate
        cases ho
        exact .answered hphase hrate (Or.inl rfl)
      · rename_i rate hrate
        obtain ⟨o₁, hstart, rfl⟩ := Option.map_eq_some_iff.mp ho
        obtain ⟨-, hsame⟩ := startBridge_quiet hstart
        have hstarts : (RecogMethod.recognize request).Starts := by
          rw [RecogMethod.Starts, hrate]
          exact Option.some_ne_none rate
        refine (ViewStep.recognized (request.startInputTimers.getD true) hphase hstarts).of_eq ?_
        simp [Plugin.view, Plugin.after, hsame.stop, hsame.timers, hsame.waiting]
  | stop =>
      cases ho
      refine (ViewStep.stopRequested hphase).of_eq ?_
      simp [Plugin.view, Plugin.after]
  | startInputTimers =>
      cases ho
      exact .answered hphase trivial (Or.inr rfl)
  | setParams | getParams | defineGrammar | getResult | other =>
      cases ho
      exact .answered hphase trivial (Or.inl rfl)

/-- The view after the last part of the callback. -/
theorem view_thenForward {o₀ : PluginOutcome} {frame : MediaFrame} (cancelled ended : List Nat)
    (h : PluginChannel.thenForward o₀ frame = some o) :
    { σ.after o with cancelled := cancelled, speechEnded := ended }.view =
      { σ.view with
        request := o₀.channel.recogRequest
        stop := o₀.channel.stopResponse
        timers := o₀.channel.timersStarted
        waiting := o₀.channel.waiting.map Prod.fst
        sent := σ.sent ++ o₀.messages
        cancelled := cancelled
        ended := ended } := by
  obtain ⟨hmessages, hsame⟩ := thenForward_quiet h
  simp [Plugin.view, Plugin.after, hmessages, hsame.request, hsame.stop, hsame.timers,
    hsame.waiting]

theorem step_write {frame : MediaFrame} {event : DetectorEvent}
    (h : σ.step resultXml (.write frame event) = some σ') :
    ViewStep resultXml σ.view (.write frame event) σ'.view := by
  rw [Plugin.step] at h
  split at h
  case isFalse => cases h
  rename_i hopen
  obtain ⟨hphase, hnone⟩ := hopen
  have hwaiting : σ.view.waiting = none := by simp [Plugin.view, hnone]
  obtain ⟨o, ho, rfl⟩ := Option.map_eq_some_iff.mp h
  rw [PluginChannel.streamWrite] at ho
  split at ho
  · rename_i stop hstop
    cases ho
    refine (ViewStep.stopAnswered hphase hwaiting hstop).of_eq ?_
    simp [Plugin.view, Plugin.after, Plugin.stopped, Plugin.ended, hstop]
  · rename_i hstop
    split at ho
    · rename_i hrequest
      cases ho
      refine (ViewStep.quiet hphase hwaiting).of_eq ?_
      simp [Plugin.view, Plugin.after, Plugin.stopped, Plugin.ended, hstop, hrequest]
    · rename_i id hrequest
      cases event with
      | none =>
          refine (ViewStep.quiet hphase hwaiting).of_eq ?_
          rw [view_thenForward _ _ ho]
          simp [Plugin.view, Plugin.stopped, Plugin.ended, hstop]
      | activity =>
          refine (ViewStep.speech hphase hwaiting hrequest).of_eq ?_
          rw [view_thenForward _ _ ho]
          simp [Plugin.view, Plugin.stopped, Plugin.ended, hstop]
      | noinput =>
          dsimp only at ho
          split at ho
          · rename_i htimers
            refine (ViewStep.noInput hphase hwaiting hrequest htimers).of_eq ?_
            rw [view_thenForward _ _ ho]
            simp [Plugin.view, Plugin.stopped, Plugin.ended, PluginChannel.complete, hstop]
          · refine (ViewStep.quiet hphase hwaiting).of_eq ?_
            rw [view_thenForward _ _ ho]
            simp [Plugin.view, Plugin.stopped, Plugin.ended, hstop]
      | inactivity =>
          dsimp only at ho
          rw [PluginChannel.inactivity] at ho
          split at ho
          · cases ho
          · rename_i o₁ hsignal
            obtain ⟨hmessages, hsame⟩ := signalEos_quiet hsignal
            split at ho
            · cases ho
              refine (ViewStep.waits hphase hwaiting hrequest).of_eq ?_
              simp [Plugin.view, Plugin.after, Plugin.stopped, Plugin.ended, hstop, hrequest,
                hmessages, hsame.request, hsame.stop, hsame.timers]
            · refine (ViewStep.canned hphase hwaiting hrequest).of_eq ?_
              rw [view_thenForward _ _ ho]
              simp [Plugin.view, Plugin.stopped, Plugin.ended, PluginChannel.complete, hstop,
                hrequest, hsame.stop, hsame.timers, hsame.waiting]

/-- **What a step can do**, seen without the bridge. -/
theorem step_view {label : PluginLabel} (h : σ.step resultXml label = some σ') :
    ViewStep resultXml σ.view label σ'.view := by
  cases label with
  | request method => exact step_request h
  | write frame event => exact step_write h
  | openChannel connected =>
      rw [Plugin.step] at h
      split at h
      case isFalse => cases h
      rename_i hphase
      cases h
      have hsame := sameRequests_openBridge σ.channel connected
      refine (ViewStep.opened hphase).of_eq ?_
      simp [Plugin.view, hsame.request, hsame.stop, hsame.timers, hsame.waiting]
  | waited rc nlsml =>
      rw [Plugin.step] at h
      split at h
      case isFalse => cases h
      rename_i hphase
      obtain ⟨o, ho, rfl⟩ := Option.map_eq_some_iff.mp h
      rw [PluginChannel.resume] at ho
      split at ho
      · cases ho
      · rename_i id frame hwaiting
        have hid : σ.view.waiting = some id := by simp [Plugin.view, hwaiting]
        exact (ViewStep.resumed hphase hid).of_eq
          (view_thenForward σ.cancelled σ.speechEnded ho)
  | closeChannel =>
      rw [Plugin.step] at h
      split at h
      case isFalse => cases h
      rename_i hopen
      obtain ⟨o, ho, rfl⟩ := Option.map_eq_some_iff.mp h
      obtain ⟨hmessages, hsame⟩ := closeBridge_quiet ho
      refine (ViewStep.closed hopen.1 (by simp [Plugin.view, hopen.2])).of_eq ?_
      simp [Plugin.view, Plugin.after, hmessages, hsame.request, hsame.stop, hsame.timers,
        hsame.waiting]

/-- What every step of the view keeps holds wherever a run of the channel ends. -/
theorem run_view {Inv : PluginView → Prop} {labels : List PluginLabel}
    (hkeeps : ∀ {v v' : PluginView} {label : PluginLabel},
      Inv v → ViewStep resultXml v label v' → Inv v')
    (h : Inv σ.view) (hrun : σ.run resultXml labels = some σ') : Inv σ'.view := by
  have hany : AlongRun (Plugin.step resultXml) (fun _ _ => True) σ labels :=
    alongRun_of_forall (fun _ _ => trivial) σ labels
  exact @runSteps_invariant _ _ _ (fun σ => Inv σ.view) _
    (fun hinv _ hstep => hkeeps hinv (step_view hstep)) _ _ _ h hany hrun

end View

end Mrcp
end Sandroid
