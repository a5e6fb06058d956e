import Sandroid.Mrcp.PluginMessages

/-!
# What becomes of the recognitions of a plugin channel

* `recognitions_kept_iff`: when no recognition is lost;
* `speech_answered`: each reported end of speech ends in a result, whatever the bridge does.
-/

namespace Sandroid
namespace Mrcp

open Lib

section Kept

/-- The recognition that is waited for, else the one that listens. -/
def PluginView.current (v : PluginView) : Option Nat := v.waiting.or v.request

def PluginChannel.current (c : PluginChannel) : Option Nat :=
  (c.waiting.map Prod.fst).or c.recogRequest

def PluginLabel.Starts : PluginLabel → Prop
  | .request method => method.Starts
  | _ => False

def Started (n : Nat) (sent : List PluginMessage) : Prop :=
  .response n .success .inProgress ∈ sent

def Completed (n : Nat) (sent : List PluginMessage) : Prop :=
  ∃ completion, .recognitionComplete completion ∈ sent ∧ completion.request = n

/-- The recognition has been completed or stopped, or the channel is at work on it. -/
def Settled (v : PluginView) (n : Nat) : Prop :=
  Completed n v.sent ∨ n ∈ v.cancelled ∨ v.current = some n

def Kept (v : PluginView) : Prop := ∀ n, Started n v.sent → Settled v n

/-- A RECOGNIZE that starts comes when no recognition is under way. -/
def OneAtATime (σ : Plugin) (label : PluginLabel) : Prop :=
  label.Starts → σ.channel.current = none

/-- What has been stopped does not come back. -/
structure StopsFinal (v : PluginView) : Prop where
  accounted : Accounted v
  cancelled : ∀ n, n ∈ v.cancelled → n < v.next ∧ v.request ≠ some n ∧ v.waiting ≠ some n

variable {resultXml : Option Bytes} {v v' : PluginView}

theorem RecogMethod.Immediate.not_starts {method : RecogMethod} (h : method.Immediate) :
    ¬ method.Starts := by
  cases method with
  | recognize request => exact not_not_intro h
  | _ => exact not_false

theorem started_append {n : Nat} {sent : List PluginMessage} {message : PluginMessage} :
    Started n (sent ++ [message]) ↔
      Started n sent ∨ message = .response n .success .inProgress := by
  rw [Started, Started, List.mem_append, List.mem_singleton, @eq_comm _ message]

theorem completed_append {n : Nat} {sent : List PluginMessage} {message : PluginMessage} :
    Completed n (sent ++ [message]) ↔
      Completed n sent ∨
        ∃ completion, message = .recognitionComplete completion ∧ completion.request = n := by
  simp only [Completed, List.mem_append, List.mem_singleton, or_and_right, exists_or,
    @eq_comm _ message]

theorem stopsFinal_step {label : PluginLabel} (h : StopsFinal v)
    (hstep : ViewStep resultXml v label v') : StopsFinal v' := by
  refine ⟨accounted_step h.accounted hstep, ?_⟩
  cases hstep with
  | opened => exact h.cancelled
  | closed => exact h.cancelled
  | answered =>
      intro n hn
      obtain ⟨hlt, hkept⟩ := h.cancelled n hn
      exact ⟨Nat.lt_succ_of_lt hlt, hkept⟩
  | recognized =>
      intro n hn
      obtain ⟨hlt, -, hwaiting⟩ := h.cancelled n hn
      exact ⟨Nat.lt_succ_of_lt hlt, fun heq => Nat.ne_of_gt hlt (Option.some.inj heq), hwaiting⟩
  | stopRequested =>
      intro n hn
      obtain ⟨hlt, hkept⟩ := h.cancelled n hn
      exact ⟨Nat.lt_succ_of_lt hlt, hkept⟩
  | stopAnswered hphase hwaiting =>
      intro n hn
      refine ⟨?_, nofun, by simp [hwaiting]⟩
      rcases List.mem_append.mp hn with hn | hn
      · exact (h.cancelled n hn).1
      · exact (h.accounted.active n (Or.inl (Option.mem_toList.mp hn))).1
  | quiet => exact h.cancelled
  | speech => exact h.cancelled
  | noInput =>
      intro n hn
      obtain ⟨hlt, -, hwaiting⟩ := h.cancelled n hn
      exact ⟨hlt, nofun, hwaiting⟩
  | canned =>
      intro n hn
      obtain ⟨hlt, -, hwaiting⟩ := h.cancelled n hn
      exact ⟨hlt, nofun, hwaiting⟩
  | waits hphase hwaiting hrequest =>
      intro n hn
      obtain ⟨hlt, hne, -⟩ := h.cancelled n hn
      exact ⟨hlt, hne, hrequest ▸ hne⟩
  | resumed =>
      intro n hn
      exact ⟨(h.cancelled n hn).1, nofun, nofun⟩

theorem Accounted.started_lt (h : Accounted v) {n : Nat} (hn : Started n v.sent) :
    n < v.next := by
  by_contra hle
  have hmem : PluginMessage.response n .success .inProgress ∈ about n v.sent :=
    List.mem_filter.mpr ⟨hn, beq_self_eq_true n⟩
  rw [h.fresh n (Nat.le_of_not_lt hle)] at hmem
  exact List.not_mem_nil hmem

theorem Accounted.not_completed (h : Accounted v) {n : Nat}
    (hn : v.next ≤ n ∨ v.request = some n ∨ v.waiting = some n) : ¬ Completed n v.sent := by
  rintro ⟨completion, hcompletion, habout⟩
  have hmem : PluginMessage.recognitionComplete completion ∈ about n v.sent :=
    List.mem_filter.mpr ⟨hcompletion, beq_iff_eq.mpr habout⟩
  rcases hn with hn | hn
  · rw [h.fresh n hn] at hmem
    exact List.not_mem_nil hmem
  · obtain ⟨-, k, hk⟩ := h.active n hn
    rw [hk] at hmem
    simp [underWay] at hmem

theorem Accounted.active_started (h : Accounted v) {n : Nat}
    (hn : v.request = some n ∨ v.waiting = some n) : Started n v.sent := by
  obtain ⟨-, k, hk⟩ := h.active n hn
  have hmem : PluginMessage.response n .success .inProgress ∈ about n v.sent := by
    rw [hk]
    exact List.mem_cons_self
  exact (List.mem_filter.mp hmem).1

/-- A step that starts nothing and settles what was settled. -/
theorem kept_congr (hstarted : ∀ n, Started n v'.sent ↔ Started n v.sent)
    (hsettled : ∀ n, Settled v' n ↔ Settled v n) : Kept v' ↔ Kept v :=
  forall_congr' fun n => imp_congr (hstarted n) (hsettled n)

/-- A message that neither starts nor completes. -/
theorem kept_send {message : PluginMessage}
    (hstart : ∀ n, message ≠ .response n .success .inProgress)
    (hcomplete : ∀ completion, message ≠ .recognitionComplete completion)
    (hsent : v'.sent = v.sent ++ [message]) (hcancelled : v'.cancelled = v.cancelled)
    (hcurrent : v'.current = v.current) : Kept v' ↔ Kept v := by
  refine kept_congr (fun n => ?_) fun n => ?_
  · rw [hsent, started_append, or_iff_left (hstart n)]
  · have hcompleted : Completed n v'.sent ↔ Completed n v.sent := by
      rw [hsent, completed_append, or_iff_left]
      rintro ⟨completion, heq, -⟩
      exact hcomplete completion heq
    rw [Settled, Settled, hcompleted, hcancelled, hcurrent]

/-- The result of what the channel is at work on. -/
theorem kept_complete {id : Nat} {cause : CompletionCause} {body : Option Bytes}
    (hsent : v'.sent = v.sent ++ [.recognitionComplete ⟨id, cause, body⟩])
    (hcancelled : v'.cancelled = v.cancelled) (hbefore : v.current = some id)
    (hafter : v'.current = none) : Kept v' ↔ Kept v := by
  refine kept_congr (fun n => ?_) fun n => ?_
  · rw [hsent, started_append, or_iff_left nofun]
  · have hcompleted : Completed n v'.sent ↔ Completed n v.sent ∨ id = n := by
      rw [hsent, completed_append]
      exact or_congr_right ⟨fun ⟨c, hc, hn⟩ => by cases hc; exact hn, fun hn => ⟨_, rfl, hn⟩⟩
    rw [Settled, Settled, hcompleted, hcancelled, hbefore, hafter]
    simp only [reduceCtorEq, or_false, Option.some.injEq]
    tauto

theorem kept_recognized (h : StopsFinal v) {timers : Bool} :
    Kept { v with
      request := some v.next
      timers := some timers
      next := v.next + 1
      sent := v.sent ++ [.response v.next .success .inProgress] } ↔
      Kept v ∧ v.current = none := by
  have hcompleted : ∀ {n : Nat},
      Completed n (v.sent ++ [.response v.next .success .inProgress]) → Completed n v.sent := by
    intro n hn
    rcases completed_append.mp hn with hn | ⟨completion, heq, -⟩
    · exact hn
    · cases heq
  constructor
  · intro hkept
    have hnone : v.current = none := by
      cases hwaiting : v.waiting with
      | some id =>
          obtain hdone | hstop | hwork := hkept v.next (started_append.mpr (Or.inr rfl))
          · exact absurd (hcompleted hdone) (h.accounted.not_completed (Or.inl (le_refl _)))
          · exact absurd (h.cancelled _ hstop).1 (Nat.lt_irrefl _)
          · rw [PluginView.current, hwaiting] at hwork
            have hlt := (h.accounted.active id (Or.inr hwaiting)).1
            exact absurd (Option.some.inj hwork) (Nat.ne_of_lt hlt)
      | none =>
          rw [PluginView.current, hwaiting, Option.none_or, Option.eq_none_iff_forall_ne_some]
          intro id hrequest
          obtain hdone | hstop | hwork := hkept id
            (started_append.mpr (Or.inl (h.accounted.active_started (Or.inl hrequest))))
          · exact absurd (hcompleted hdone)
              (h.accounted.not_completed (Or.inr (Or.inl hrequest)))
          · exact absurd hrequest (h.cancelled id hstop).2.1
          · rw [PluginView.current, hwaiting, Option.none_or] at hwork
            have hlt := (h.accounted.active id (Or.inl hrequest)).1
            exact absurd (Option.some.inj hwork) (Nat.ne_of_gt hlt)
    refine ⟨fun n hn => ?_, hnone⟩
    obtain hdone | hstop | hwork := hkept n (started_append.mpr (Or.inl hn))
    · exact Or.inl (hcompleted hdone)
    · exact Or.inr (Or.inl hstop)
    · have hwaiting : v.waiting = none := (Option.or_eq_none_iff.mp hnone).1
      rw [PluginView.current, hwaiting, Option.none_or] at hwork
      exact absurd (Option.some.inj hwork) (Nat.ne_of_gt (h.accounted.started_lt hn))
  · rintro ⟨hkept, hnone⟩ n hn
    rcases started_append.mp hn with hn | heq
    · obtain hdone | hstop | hwork := hkept n hn
      · exact Or.inl (completed_append.mpr (Or.inl hdone))
      · exact Or.inr (Or.inl hstop)
      · rw [hnone] at hwork
        cases hwork
    · cases heq
      have hwaiting : v.waiting = none := (Option.or_eq_none_iff.mp hnone).1
      refine Or.inr (Or.inr ?_)
      rw [PluginView.current, hwaiting, Option.none_or]

/-- A step that starts no recognition. -/
theorem kept_other {label : PluginLabel} (hlabel : ¬ label.Starts) (h : Kept v' ↔ Kept v) :
    Kept v' ↔ Kept v ∧ (label.Starts → v.current = none) :=
  h.trans (and_iff_left fun hstarts => absurd hstarts hlabel).symm

theorem kept_step {label : PluginLabel} (h : StopsFinal v)
    (hstep : ViewStep resultXml v label v') :
    Kept v' ↔ Kept v ∧ (label.Starts → v.current = none) := by
  cases hstep with
  | opened =>
      refine kept_other not_false (kept_send ?_ ?_ rfl rfl rfl)
      · exact nofun
      · exact nofun
  | closed =>
      refine kept_other not_false (kept_send ?_ ?_ rfl rfl rfl)
      · exact nofun
      · exact nofun
  | answered hphase hmethod =>
      refine kept_other hmethod.not_starts (kept_send ?_ ?_ rfl rfl rfl)
      · exact nofun
      · exact nofun
  | recognized timers hphase hmethod =>
      exact (kept_recognized h).trans
        (and_congr_right fun _ => ⟨fun hnone _ => hnone, fun hnone => hnone hmethod⟩)
  | stopRequested => exact kept_other not_false Iff.rfl
  | stopAnswered hphase hwaiting =>
      refine kept_other not_false (kept_congr (fun n => ?_) fun n => ?_)
      · rw [started_append, or_iff_left nofun]
      · have hcompleted : ∀ stop, Completed n (v.sent ++ [.response stop .success .complete]) ↔
            Completed n v.sent := by
          intro stop
          rw [completed_append, or_iff_left]
          rintro ⟨completion, heq, -⟩
          cases heq
        simp only [Settled, hcompleted, PluginView.current, hwaiting, Option.none_or,
          List.mem_append, Option.mem_toList, reduceCtorEq, or_false]
  | quiet => exact kept_other not_false Iff.rfl
  | speech =>
      refine kept_other not_false (kept_send ?_ ?_ rfl rfl rfl)
      · exact nofun
      · exact nofun
  | noInput hphase hwaiting hrequest =>
      refine kept_other not_false (kept_complete rfl rfl ?_ ?_)
      · rw [PluginView.current, hwaiting, Option.none_or, hrequest]
      · rw [PluginView.current, hwaiting]
        rfl
  | canned hphase hwaiting hrequest =>
      refine kept_other not_false (kept_complete rfl rfl ?_ ?_)
      · rw [PluginView.current, hwaiting, Option.none_or, hrequest]
      · rw [PluginView.current, hwaiting]
        rfl
  | waits hphase hwaiting hrequest =>
      refine kept_other not_false (kept_congr (fun n => Iff.rfl) fun n => ?_)
      rw [Settled, Settled, PluginView.current, PluginView.current, hwaiting, hrequest]
      rfl
  | resumed hphase hwaiting =>
      refine kept_other not_false (kept_complete rfl rfl ?_ rfl)
      rw [PluginView.current, hwaiting, Option.some_or]

/-- **No recognition is lost.**  In the state a run reaches, every recognition that was
started has been completed or stopped or is the one the channel is at work on, exactly if
every RECOGNIZE of the run that starts one has found none under way. -/
theorem recognitions_kept_iff (resultXml : Option Bytes) (socket : List SockAnswer)
    (labels : List PluginLabel) (σ : Plugin)
    (h : (Plugin.created socket).run resultXml labels = some σ) :
    (∀ n, Started n σ.sent →
        Completed n σ.sent ∨ n ∈ σ.cancelled ∨ σ.channel.current = some n) ↔
      AlongRun (Plugin.step resultXml) OneAtATime (Plugin.created socket) labels := by
  have hiff := @runSteps_iff _ _ (Plugin.step resultXml) (fun σ => StopsFinal σ.view)
    (fun σ => Kept σ.view) OneAtATime
    (fun hfinal hstep => stopsFinal_step hfinal (step_view hstep))
    (fun hfinal hstep => kept_step hfinal (step_view hstep))
    _ _ _ ⟨accounted_created socket, nofun⟩ h
  have hnone : Kept (Plugin.created socket).view := fun n hn => absurd hn List.not_mem_nil
  rwa [and_iff_right hnone] at hiff

/-- A second RECOGNIZE while one is under way. -/
def twoRecognitions : List PluginLabel :=
  [.openChannel false, .request (.recognize lineRequest), .request (.recognize lineRequest),
    .write ⟨none⟩ .inactivity]

/-- The first of two recognitions never completes. -/
theorem recognitions_kept_lost :
    ∃ σ, (Plugin.created []).run none twoRecognitions = some σ ∧
      σ.sent = [.channelOpened, .response 0 .success .inProgress,
        .response 1 .success .inProgress, .recognitionComplete ⟨1, .success, none⟩] ∧
      ¬ AlongRun (Plugin.step none) OneAtATime (Plugin.created []) twoRecognitions := by
  have hrun : ∃ σ, (Plugin.created []).run none twoRecognitions = some σ ∧
      σ.sent = [.channelOpened, .response 0 .success .inProgress,
        .response 1 .success .inProgress, .recognitionComplete ⟨1, .success, none⟩] ∧
      σ.cancelled = [] ∧ σ.channel.current = none := ⟨_, rfl, rfl, rfl, rfl⟩
  obtain ⟨σ, hrun, hsent, hcancelled, hcurrent⟩ := hrun
  refine ⟨σ, hrun, hsent, fun halong => ?_⟩
  have hstarted : Started 0 σ.sent := by
    rw [Started, hsent]
    decide
  obtain hdone | hstop | hwork := (recognitions_kept_iff _ _ _ _ hrun).mpr halong 0 hstarted
  · obtain ⟨completion, hmem, hzero⟩ := hdone
    rw [hsent] at hmem
    simp at hmem
    rw [hmem] at hzero
    exact absurd hzero (by decide)
  · simp [hcancelled] at hstop
  · simp [hcurrent] at hwork

end Kept

section Speech

/-- The recognition that a message completes with success. -/
def PluginMessage.succeeded : PluginMessage → Option Nat
  | .recognitionComplete ⟨id, .success, _⟩ => some id
  | _ => none

/-- The body of a completion: the document of a wait that went well, or the canned text. -/
def LoadedFrom (resultXml : Option Bytes) (labels : List PluginLabel)
    (completion : PluginCompletion) : Prop :=
  match completion.cause with
  | .noInputTimeout => completion.body = none
  | .success =>
      completion.body = PluginChannel.cannedBody resultXml ∨
        ∃ text, .waited 0 (some text) ∈ labels ∧ text ≠ [] ∧ completion.body = some text

variable {resultXml : Option Bytes} {labels : List PluginLabel} {v v' : PluginView}

theorem loadedBody_from {rc : Int} {nlsml : Option Bytes}
    (h : PluginLabel.waited rc nlsml ∈ labels) (id : Nat) :
    LoadedFrom resultXml labels ⟨id, .success, PluginChannel.loadedBody resultXml rc nlsml⟩ := by
  cases nlsml with
  | none => exact Or.inl rfl
  | some text =>
      rw [LoadedFrom, PluginChannel.loadedBody]
      dsimp only
      split
      · rename_i hgood
        obtain ⟨rfl, hpos⟩ := hgood
        exact Or.inr ⟨text, h, List.ne_nil_of_length_pos hpos, rfl⟩
      · exact Or.inl rfl

/-- Each end of speech has been answered, in order, apart from the one waited for. -/
def SpeechAnswered (v : PluginView) : Prop :=
  v.ended = v.sent.filterMap PluginMessage.succeeded ++ v.waiting.toList

theorem speechAnswered_step {label : PluginLabel} (h : SpeechAnswered v)
    (hstep : ViewStep resultXml v label v') : SpeechAnswered v' := by
  have hother : ∀ {message : PluginMessage}, message.succeeded = none →
      v.ended = (v.sent ++ [message]).filterMap PluginMessage.succeeded ++ v.waiting.toList := by
    intro message hnone
    simpa [hnone, SpeechAnswered] using h
  have hsuccess : ∀ (id : Nat) (body : Option Bytes),
      (v.sent ++ [PluginMessage.recognitionComplete ⟨id, .success, body⟩]).filterMap
          PluginMessage.succeeded =
        v.sent.filterMap PluginMessage.succeeded ++ [id] := by
    intro id body
    rw [List.filterMap_append]
    rfl
  cases hstep with
  | opened => exact hother rfl
  | closed => exact hother rfl
  | answered => exact hother rfl
  | recognized => exact hother rfl
  | stopRequested => exact h
  | stopAnswered => exact hother rfl
  | quiet => exact h
  | speech => exact hother rfl
  | noInput => exact hother rfl
  | canned hphase hwaiting =>
      rw [SpeechAnswered] at h ⊢
      rw [h, hsuccess, hwaiting]
      simp
  | waits hphase hwaiting =>
      rw [SpeechAnswered] at h ⊢
      rw [h, hwaiting]
      simp
  | resumed hphase hwaiting =>
      rw [SpeechAnswered] at h ⊢
      rw [h, hsuccess, hwaiting]
      simp

theorem loadedFrom_step {label : PluginLabel}
    (h : ∀ completion, .recognitionComplete completion ∈ v.sent →
      LoadedFrom resultXml labels completion)
    (hlabel : label ∈ labels) (hstep : ViewStep resultXml v label v') :
    ∀ completion, .recognitionComplete completion ∈ v'.sent →
      LoadedFrom resultXml labels completion := by
  have hsend : ∀ {message : PluginMessage},
      (∀ completion, message = .recognitionComplete completion →
        LoadedFrom resultXml labels completion) →
      ∀ completion, .recognitionComplete completion ∈ v.sent ++ [message] →
        LoadedFrom resultXml labels completion := by
    intro message hmessage completion hmem
    rcases List.mem_append.mp hmem with hmem | hmem
    · exact h completion hmem
    · exact hmessage completion (List.mem_singleton.mp hmem).symm
  cases hstep with
  | opened => exact hsend nofun
  | closed => exact hsend nofun
  | answered => exact hsend nofun
  | recognized => exact hsend nofun
  | stopRequested => exact h
  | stopAnswered => exact hsend nofun
  | quiet => exact h
  | speech => exact hsend nofun
  | noInput =>
      refine hsend fun completion heq => ?_
      cases heq
      exact rfl
  | canned =>
      refine hsend fun completion heq => ?_
      cases heq
      exact Or.inl rfl
  | waits => exact h
  | resumed =>
      refine hsend fun completion heq => ?_
      cases heq
      exact loadedBody_from hlabel _

theorem loadedFrom_run {socket : List SockAnswer} {σ : Plugin}
    (h : (Plugin.created socket).run resultXml labels = some σ) :
    ∀ completion, .recognitionComplete completion ∈ σ.sent →
      LoadedFrom resultXml labels completion := by
  have hlabels : AlongRun (Plugin.step resultXml) (fun _ label => label ∈ labels)
      (Plugin.created socket) labels :=
    alongRun_of_labels _ fun _ hlabel => hlabel
  exact @runSteps_invariant _ _ _
    (fun σ => ∀ completion, .recognitionComplete completion ∈ σ.sent →
      LoadedFrom resultXml labels completion) _
    (fun hinv hlabel hstep => loadedFrom_step hinv hlabel (step_view hstep))
    _ _ _ (fun _ hnone => absurd hnone List.not_mem_nil) hlabels h

/-- **Speech is answered, whatever becomes of the bridge.**  The recognitions completed with
success are, in order, those whose end of speech the detector has reported, but for one
that is still waited for; the body of a result is a document that the bridge has returned
or the canned text, and a timeout has no body. -/
theorem speech_answered (resultXml : Option Bytes) (socket : List SockAnswer)
    (labels : List PluginLabel) (σ : Plugin)
    (h : (Plugin.created socket).run resultXml labels = some σ) :
    σ.speechEnded = σ.sent.filterMap PluginMessage.succeeded ++
        (σ.channel.waiting.map Prod.fst).toList ∧
      ∀ completion, .recognitionComplete completion ∈ σ.sent →
        LoadedFrom resultXml labels completion := by
  have hcreated : SpeechAnswered (Plugin.created socket).view := rfl
  have hanswered : SpeechAnswered σ.view := run_view speechAnswered_step hcreated h
  exact ⟨hanswered, loadedFrom_run h⟩

/-- A call whose bridge answers once: a document, a wait that fails, a timeout, and an
utterance that is still waited for. -/
def callWithUtterances : List PluginLabel :=
  [.openChannel true, .request (.recognize lineRequest), .write ⟨some [1]⟩ .activity,
    .write ⟨none⟩ .inactivity, .waited 0 (some [0x3c, 0x61]), .request (.recognize lineRequest),
    .write ⟨none⟩ .inactivity, .waited (-1) none, .request (.recognize lineRequest),
    .write ⟨none⟩ .noinput, .request (.recognize lineRequest), .write ⟨none⟩ .inactivity]

theorem speech_answered_call :
    ∃ σ, (Plugin.created (List.replicate 6 (.accept 99))).run (some [0x3c])
        callWithUtterances = some σ ∧
      σ.sent = [.channelOpened, .response 0 .success .inProgress, .startOfInput 0,
        .recognitionComplete ⟨0, .success, some [0x3c, 0x61]⟩, .response 1 .success .inProgress,
        .recognitionComplete ⟨1, .success, some [0x3c]⟩, .response 2 .success .inProgress,
        .recognitionComplete ⟨2, .noInputTimeout, none⟩, .response 3 .success .inProgress] ∧
      σ.speechEnded = [0, 1, 3] ∧ σ.channel.waiting = some (3, ⟨none⟩) ∧
      σ.speechEnded = σ.sent.filterMap PluginMessage.succeeded ++
        (σ.channel.waiting.map Prod.fst).toList ∧
      ∀ completion, .recognitionComplete completion ∈ σ.sent →
        LoadedFrom (some [0x3c]) callWithUtterances completion := by
  exact ⟨_, rfl, rfl, rfl, rfl,
    speech_answered (some [0x3c]) (List.replicate 6 (.accept 99)) callWithUtterances _ rfl⟩

end Speech

end Mrcp
end Sandroid
