import Sandroid.Mrcp.PluginView

/-!
# What a plugin channel sends for its requests

* `messages_inOrder`: the order of the messages about each request;
* `one_response_iff`: when every request is answered.
-/

namespace Sandroid
namespace Mrcp

open Lib

section Requests

/-- The message is about request number `n`. -/
def PluginMessage.isAbout (n : Nat) : PluginMessage → Bool
  | .channelOpened => false
  | .channelClosed => false
  | .response id _ _ => id == n
  | .startOfInput id => id == n
  | .recognitionComplete completion => completion.request == n

/-- The messages about request number `n`, in order. -/
def about (n : Nat) (sent : List PluginMessage) : List PluginMessage :=
  sent.filter (PluginMessage.isAbout n)

/-- The messages of a recognition that has been started. -/
def underWay (n k : Nat) : List PluginMessage :=
  .response n .success .inProgress :: List.replicate k (.startOfInput n)

/-- What the messages about one request may be. -/
inductive RequestMessages (n : Nat) : List PluginMessage → Prop
  | unanswered : RequestMessages n []
  | answered (status : StatusCode) : RequestMessages n [.response n status .complete]
  | started (k : Nat) : RequestMessages n (underWay n k)
  | completed (k : Nat) (cause : CompletionCause) (body : Option Bytes) :
      RequestMessages n (underWay n k ++ [.recognitionComplete ⟨n, cause, body⟩])

/-- The channel says first that it is open, and last that it is closed. -/
def Enclosed (phase : ChannelPhase) (sent : List PluginMessage) : Prop :=
  ∃ requests,
    sent = (if phase = .created then [] else [.channelOpened]) ++ requests ++
      (if phase = .closed then [.channelClosed] else []) ∧
    (phase = .created → requests = []) ∧
    ∀ message, message ∈ requests → message ≠ .channelOpened ∧ message ≠ .channelClosed

/-- The bookkeeping of a channel's requests. -/
structure Accounted (v : PluginView) : Prop where
  fresh : ∀ n, v.next ≤ n → about n v.sent = []
  pending : ∀ n, v.stop = some n → n < v.next ∧ about n v.sent = []
  active : ∀ n, v.request = some n ∨ v.waiting = some n →
    n < v.next ∧ ∃ k, about n v.sent = underWay n k
  order : ∀ n, RequestMessages n (about n v.sent)

theorem about_append_self {n : Nat} {message : PluginMessage} (sent : List PluginMessage)
    (h : message.isAbout n = true) : about n (sent ++ [message]) = about n sent ++ [message] := by
  simp [about, h]

theorem about_append_other {n : Nat} {message : PluginMessage} (sent : List PluginMessage)
    (h : message.isAbout n = false) : about n (sent ++ [message]) = about n sent := by
  simp [about, h]

theorem underWay_succ (n k : Nat) : underWay n k ++ [.startOfInput n] = underWay n (k + 1) := by
  simp [underWay, List.replicate_succ']

theorem accounted_created (socket : List SockAnswer) :
    Accounted (Plugin.created socket).view where
  fresh := by
    intro n _
    rfl
  pending := by
    intro n h
    cases h
  active := by
    intro n h
    rcases h with h | h
    · cases h
    · cases h
  order := fun n => .unanswered

variable {resultXml : Option Bytes} {v : PluginView}

/-- A message about an old request, after which its messages are still in order. -/
theorem Accounted.send (h : Accounted v) {message : PluginMessage} {id : Nat}
    {request stop waiting : Option Nat} (hid : ∀ n, message.isAbout n = (id == n))
    (hold : id < v.next) (horder : RequestMessages id (about id v.sent ++ [message]))
    (hstop : ∀ n, stop = some n → v.stop = some n ∧ n ≠ id)
    (hactive : ∀ n, request = some n ∨ waiting = some n →
      (v.request = some n ∨ v.waiting = some n) ∧
        (n = id → ∃ k, about id v.sent ++ [message] = underWay id k))
    (cancelled ended : List Nat) :
    Accounted { v with
      request := request
      stop := stop
      waiting := waiting
      sent := v.sent ++ [message]
      cancelled := cancelled
      ended := ended } := by
  have hself : about id (v.sent ++ [message]) = about id v.sent ++ [message] :=
    about_append_self v.sent (by rw [hid]; exact beq_self_eq_true id)
  have hother : ∀ n, id ≠ n → about n (v.sent ++ [message]) = about n v.sent := fun n hne =>
    about_append_other v.sent (by rw [hid]; exact beq_false_of_ne hne)
  refine ⟨?_, ?_, ?_, ?_⟩
  · intro n hn
    have hne : id ≠ n := by
      rintro rfl
      exact absurd hold (Nat.not_lt.mpr hn)
    exact (hother n hne).trans (h.fresh n hn)
  · intro n hn
    obtain ⟨hpending, hne⟩ := hstop n hn
    obtain ⟨hlt, hnone⟩ := h.pending n hpending
    exact ⟨hlt, (hother n hne.symm).trans hnone⟩
  · intro n hn
    obtain ⟨hbefore, hunder⟩ := hactive n hn
    obtain ⟨hlt, k, hk⟩ := h.active n hbefore
    refine ⟨hlt, ?_⟩
    by_cases hne : n = id
    · obtain ⟨k', hk'⟩ := hunder hne
      rw [hne]
      exact ⟨k', hself.trans hk'⟩
    · exact ⟨k, (hother n (Ne.symm hne)).trans hk⟩
  · intro n
    by_cases hne : n = id
    · rw [hne]
      exact hself.symm ▸ horder
    · exact (hother n (Ne.symm hne)).symm ▸ h.order n

/-- The response that the dispatch itself sends. -/
theorem Accounted.respond (h : Accounted v) {status : StatusCode} {state : RequestState}
    {request : Option Nat} (timers : Option Bool)
    (horder : RequestMessages v.next [.response v.next status state])
    (hactive : ∀ n, request = some n → v.request = some n ∨
      n = v.next ∧ [PluginMessage.response v.next status state] = underWay n 0) :
    Accounted { v with
      request := request
      timers := timers
      next := v.next + 1
      sent := v.sent ++ [.response v.next status state] } := by
  have hfresh := h.fresh v.next (le_refl _)
  have hself : about v.next (v.sent ++ [.response v.next status state]) =
      [.response v.next status state] := by
    have habout : (PluginMessage.response v.next status state).isAbout v.next = true :=
      beq_self_eq_true v.next
    rw [about_append_self v.sent habout, hfresh, List.nil_append]
  have hother : ∀ n, v.next ≠ n →
      about n (v.sent ++ [.response v.next status state]) = about n v.sent := fun n hne =>
    about_append_other v.sent (beq_false_of_ne hne)
  have hold : ∀ n, v.request = some n ∨ v.waiting = some n → n < v.next + 1 ∧
      ∃ k, about n (v.sent ++ [.response v.next status state]) = underWay n k := by
    intro n hn
    obtain ⟨hlt, k, hk⟩ := h.active n hn
    exact ⟨Nat.lt_succ_of_lt hlt, k, (hother n (Nat.ne_of_gt hlt)).trans hk⟩
  refine ⟨?_, ?_, ?_, ?_⟩
  · intro n hn
    have hne : v.next ≠ n := Nat.ne_of_lt hn
    exact (hother n hne).trans (h.fresh n (Nat.le_of_succ_le hn))
  · intro n hn
    obtain ⟨hlt, hnone⟩ := h.pending n hn
    exact ⟨Nat.lt_succ_of_lt hlt, (hother n (Nat.ne_of_gt hlt)).trans hnone⟩
  · rintro n (hn | hn)
    · rcases hactive n hn with hn | ⟨rfl, hunder⟩
      · exact hold n (Or.inl hn)
      · exact ⟨Nat.lt_succ_self _, 0, hself.trans hunder⟩
    · exact hold n (Or.inr hn)
  · intro n
    by_cases hne : n = v.next
    · rw [hne]
      exact hself.symm ▸ horder
    · exact (hother n (Ne.symm hne)).symm ▸ h.order n

/-- A message about the channel itself. -/
theorem Accounted.announce (h : Accounted v) {message : PluginMessage} (phase : ChannelPhase)
    (hown : ∀ n, message.isAbout n = false) :
    Accounted { v with phase := phase, sent := v.sent ++ [message] } := by
  have habout : ∀ n, about n (v.sent ++ [message]) = about n v.sent := fun n =>
    about_append_other v.sent (hown n)
  refine ⟨fun n hn => ?_, fun n hn => ?_, fun n hn => ?_, fun n => ?_⟩
  all_goals rw [habout]
  · exact h.fresh n hn
  · exact h.pending n hn
  · exact h.active n hn
  · exact h.order n

theorem accounted_step {v' : PluginView} {label : PluginLabel} (h : Accounted v)
    (hstep : ViewStep resultXml v label v') : Accounted v' := by
  have hne : ∀ {n id : Nat}, v.stop = some n → v.request = some id ∨ v.waiting = some id →
      n ≠ id := by
    rintro n id hstop hactive rfl
    obtain ⟨-, k, hk⟩ := h.active n hactive
    exact List.cons_ne_nil _ _ (hk.symm.trans (h.pending n hstop).2)
  have hresult : ∀ {id : Nat} (cause : CompletionCause) (body : Option Bytes)
      (ended : List Nat), v.request = some id ∨ v.waiting = some id →
      Accounted { v with
        request := none
        waiting := none
        sent := v.sent ++ [.recognitionComplete ⟨id, cause, body⟩]
        ended := ended } := by
    intro id cause body ended hactive
    obtain ⟨hlt, k, hk⟩ := h.active id hactive
    exact h.send (fun n => rfl) hlt (hk ▸ .completed k cause body)
      (fun n hn => ⟨hn, hne hn hactive⟩) (by simp) v.cancelled ended
  cases hstep with
  | opened => exact h.announce .opened fun _ => rfl
  | closed => exact h.announce .closed fun _ => rfl
  | @answered method status timers =>
      exact h.respond timers (.answered status) fun n hn => Or.inl hn
  | recognized timers =>
      refine h.respond (some timers) (.started 0) fun n hn => Or.inr ⟨?_, ?_⟩
      · exact (Option.some.inj hn).symm
      · rw [Option.some.inj hn]
        rfl
  | stopRequested =>
      refine ⟨fun n hn => h.fresh n (Nat.le_of_succ_le hn), fun n hn => ?_, fun n hn => ?_,
        h.order⟩
      · cases hn
        exact ⟨Nat.lt_succ_self _, h.fresh _ (le_refl _)⟩
      · obtain ⟨hlt, hunder⟩ := h.active n hn
        exact ⟨Nat.lt_succ_of_lt hlt, hunder⟩
  | @stopAnswered frame event stop _ hwaiting hstop =>
      obtain ⟨hlt, hnone⟩ := h.pending stop hstop
      have horder : RequestMessages stop
          (about stop v.sent ++ [.response stop .success .complete]) := by
        rw [hnone]
        exact .answered .success
      refine h.send (fun n => rfl) hlt horder (by simp) ?_ _ v.ended
      intro n hn
      simp [hwaiting] at hn
  | quiet => exact h
  | @speech frame id _ hwaiting hrequest =>
      obtain ⟨hlt, k, hk⟩ := h.active id (Or.inl hrequest)
      have hmore : about id v.sent ++ [.startOfInput id] = underWay id (k + 1) :=
        hk ▸ underWay_succ id k
      exact h.send (fun n => rfl) hlt (hmore ▸ .started (k + 1))
        (fun n hn => ⟨hn, hne hn (Or.inl hrequest)⟩) (fun n hn => ⟨hn, fun _ => ⟨k + 1, hmore⟩⟩)
        v.cancelled v.ended
  | @noInput frame id _ hwaiting hrequest =>
      exact hwaiting ▸ hresult .noInputTimeout none v.ended (Or.inl hrequest)
  | @canned frame id _ hwaiting hrequest =>
      exact hwaiting ▸ hresult .success _ (v.ended ++ [id]) (Or.inl hrequest)
  | @waits frame id _ hwaiting hrequest =>
      refine ⟨h.fresh, h.pending, fun n hn => ?_, h.order⟩
      rcases hn with hn | hn
      · exact h.active n (Or.inl hn)
      · cases hn
        exact h.active id (Or.inl hrequest)
  | @resumed rc nlsml id _ hwaiting =>
      exact hresult .success _ v.ended (Or.inr hwaiting)

theorem Enclosed.send {phase : ChannelPhase} {sent : List PluginMessage}
    (h : Enclosed phase sent) (hphase : phase = .opened) {message : PluginMessage}
    (hne : message ≠ .channelOpened ∧ message ≠ .channelClosed) :
    Enclosed phase (sent ++ [message]) := by
  obtain ⟨requests, hsent, -, hrequests⟩ := h
  subst hphase
  refine ⟨requests ++ [message], by simp [hsent], nofun, fun m hm => ?_⟩
  rcases List.mem_append.mp hm with hm | hm
  · exact hrequests m hm
  · exact List.mem_singleton.mp hm ▸ hne

theorem enclosed_step {v' : PluginView} {label : PluginLabel} (h : Enclosed v.phase v.sent)
    (hstep : ViewStep resultXml v label v') : Enclosed v'.phase v'.sent := by
  cases hstep with
  | opened hphase =>
      obtain ⟨requests, hsent, hnone, -⟩ := h
      rw [hphase] at hsent
      refine ⟨[], ?_, fun _ => rfl, nofun⟩
      simpa [hnone hphase] using hsent
  | closed hphase =>
      obtain ⟨requests, hsent, -, hrequests⟩ := h
      rw [hphase] at hsent
      exact ⟨requests, by simp [hsent], nofun, hrequests⟩
  | answered hphase => exact h.send hphase ⟨nofun, nofun⟩
  | recognized timers hphase => exact h.send hphase ⟨nofun, nofun⟩
  | stopRequested => exact h
  | stopAnswered hphase => exact h.send hphase ⟨nofun, nofun⟩
  | quiet => exact h
  | speech hphase => exact h.send hphase ⟨nofun, nofun⟩
  | noInput hphase => exact h.send hphase ⟨nofun, nofun⟩
  | canned hphase => exact h.send hphase ⟨nofun, nofun⟩
  | waits => exact h
  | resumed hphase => exact h.send hphase ⟨nofun, nofun⟩

variable {socket : List SockAnswer} {labels : List PluginLabel} {σ : Plugin}

theorem accounted_run (h : (Plugin.created socket).run resultXml labels = some σ) :
    Accounted σ.view :=
  run_view accounted_step (accounted_created socket) h

/-- A request on a line with a codec. -/
def lineRequest : RecognizeRequest where
  sessionId := ⟨[0x37], by decide⟩
  sampleRate := some 8000

/-- A call that has no bridge: one utterance, and a STOP. -/
def callWithoutBridge : List PluginLabel :=
  [.openChannel false, .request (.recognize lineRequest), .write ⟨some [1]⟩ .activity,
    .write ⟨none⟩ .inactivity, .request .stop, .write ⟨none⟩ .none, .closeChannel]

/-- **The order of messages.**  In any run the messages about a request are its response,
and for a recognition then any number of START-OF-INPUT and at most one
RECOGNITION-COMPLETE; they stand between the two messages about the channel. -/
theorem messages_inOrder (resultXml : Option Bytes) (socket : List SockAnswer)
    (labels : List PluginLabel) (σ : Plugin)
    (h : (Plugin.created socket).run resultXml labels = some σ) :
    (∀ n, RequestMessages n (about n σ.sent)) ∧
      (∀ n, σ.nextRequest ≤ n → about n σ.sent = []) ∧
      Enclosed σ.phase σ.sent := by
  have haccounted := accounted_run h
  refine ⟨haccounted.order, haccounted.fresh, ?_⟩
  exact @run_view _ _ _ (fun v => Enclosed v.phase v.sent) _ enclosed_step
    ⟨[], rfl, fun _ => rfl, nofun⟩ h

theorem callWithoutBridge_run :
    ∃ σ, (Plugin.created []).run (some [0x3c]) callWithoutBridge = some σ ∧
      σ.sent = [.channelOpened, .response 0 .success .inProgress, .startOfInput 0,
        .recognitionComplete ⟨0, .success, some [0x3c]⟩, .response 1 .success .complete,
        .channelClosed] :=
  ⟨_, rfl, rfl⟩

theorem messages_inOrder_call :
    ∃ σ, (Plugin.created []).run (some [0x3c]) callWithoutBridge = some σ ∧
      σ.sent = [.channelOpened, .response 0 .success .inProgress, .startOfInput 0,
        .recognitionComplete ⟨0, .success, some [0x3c]⟩, .response 1 .success .complete,
        .channelClosed] ∧
      (∀ n, RequestMessages n (about n σ.sent)) ∧
      (∀ n, σ.nextRequest ≤ n → about n σ.sent = []) ∧
      Enclosed σ.phase σ.sent := by
  obtain ⟨σ, hrun, hsent⟩ := callWithoutBridge_run
  exact ⟨σ, hrun, hsent, messages_inOrder _ _ _ _ hrun⟩

end Requests

section OneResponse

/-- The responses to request number `n`. -/
def responses (n : Nat) (sent : List PluginMessage) : Nat :=
  (about n sent).countP fun
    | .response _ _ _ => true
    | _ => false

theorem responses_underWay (n k : Nat) :
    (underWay n k).countP (fun | .response _ _ _ => true | _ => false) = 1 := by
  simp [underWay, List.countP_replicate]

theorem responses_of_order {n : Nat} {sent : List PluginMessage}
    (h : RequestMessages n (about n sent)) :
    responses n sent = if about n sent = [] then 0 else 1 := by
  rw [responses]
  generalize about n sent = messages at h
  cases h with
  | unanswered => rfl
  | answered status => rfl
  | started k => exact responses_underWay n k
  | completed k cause body =>
      rw [List.countP_append, responses_underWay]
      rfl

/-- Every request has been answered, apart from a STOP that is still pending. -/
def Answering (v : PluginView) : Prop :=
  ∀ n, n < v.next → v.stop ≠ some n → about n v.sent ≠ []

/-- A STOP comes when no other is pending. -/
def StopAlone (σ : Plugin) (label : PluginLabel) : Prop :=
  label = .request .stop → σ.channel.stopResponse = none

variable {resultXml : Option Bytes} {v v' : PluginView}

theorem about_append_ne_nil {n : Nat} {sent : List PluginMessage} (more : List PluginMessage)
    (h : about n sent ≠ []) : about n (sent ++ more) ≠ [] := by
  rw [about, List.filter_append]
  exact List.append_ne_nil_of_left_ne_nil h _

/-- A message that is about no unanswered request. -/
theorem answering_send {message : PluginMessage} {request waiting : Option Nat}
    {phase : ChannelPhase} {cancelled ended : List Nat}
    (h : ∀ n, n < v.next → v.stop ≠ some n → message.isAbout n = true → about n v.sent ≠ []) :
    Answering { v with
      phase := phase
      request := request
      waiting := waiting
      sent := v.sent ++ [message]
      cancelled := cancelled
      ended := ended } ↔ Answering v := by
  constructor
  · intro hall n hn hstop
    by_cases habout : message.isAbout n = true
    · exact h n hn hstop habout
    · have hkept := hall n hn hstop
      rwa [about_append_other v.sent (eq_false_of_ne_true habout)] at hkept
  · exact fun hall n hn hstop => about_append_ne_nil [message] (hall n hn hstop)

/-- The number of a request that is answered at once. -/
theorem answering_respond {status : StatusCode} {state : RequestState}
    {request : Option Nat} {timers : Option Bool} :
    Answering { v with
      request := request
      timers := timers
      next := v.next + 1
      sent := v.sent ++ [.response v.next status state] } ↔ Answering v := by
  constructor
  · intro hall n hn hstop
    have habout : (PluginMessage.response v.next status state).isAbout n = false :=
      beq_false_of_ne (Nat.ne_of_gt hn)
    have hkept := hall n (Nat.lt_succ_of_lt hn) hstop
    rwa [about_append_other v.sent habout] at hkept
  · intro hall n hn hstop
    rcases Nat.lt_succ_iff_lt_or_eq.mp hn with hlt | rfl
    · exact about_append_ne_nil _ (hall n hlt hstop)
    · have habout : (PluginMessage.response v.next status state).isAbout v.next = true :=
        beq_self_eq_true v.next
      rw [about_append_self v.sent habout]
      exact List.append_ne_nil_of_right_ne_nil _ (List.cons_ne_nil _ _)

theorem answering_step {label : PluginLabel} (h : Accounted v)
    (hstep : ViewStep resultXml v label v') :
    Answering v' ↔ Answering v ∧ (label = .request .stop → v.stop = none) := by
  have hactive : ∀ {id n : Nat}, v.request = some id ∨ v.waiting = some id →
      (id == n) = true → about n v.sent ≠ [] := by
    intro id n hid hn
    obtain ⟨-, k, hk⟩ := h.active id hid
    rw [← eq_of_beq hn, hk]
    exact List.cons_ne_nil _ _
  cases hstep with
  | opened => exact (answering_send fun _ _ _ => Bool.false_ne_true.elim).trans (by simp)
  | closed => exact (answering_send fun _ _ _ => Bool.false_ne_true.elim).trans (by simp)
  | @answered method status timers hphase hmethod =>
      refine answering_respond.trans (iff_self_and.mpr fun _ hstop => ?_)
      cases hstop
      exact absurd hmethod not_false
  | @recognized method timers hphase hmethod =>
      refine answering_respond.trans (iff_self_and.mpr fun _ hstop => ?_)
      cases hstop
      exact absurd hmethod not_false
  | stopRequested =>
      constructor
      · intro hall
        have hnone : v.stop = none := by
          -- the STOP that was pending would have no response and never get one
          rw [Option.eq_none_iff_forall_ne_some]
          intro stop hstop
          obtain ⟨hlt, hempty⟩ := h.pending stop hstop
          exact hall stop (Nat.lt_succ_of_lt hlt)
            (fun heq => Nat.ne_of_gt hlt (Option.some.inj heq)) hempty
        refine ⟨fun n hn _ => hall n (Nat.lt_succ_of_lt hn) ?_, fun _ => hnone⟩
        exact fun heq => Nat.ne_of_gt hn (Option.some.inj heq)
      · rintro ⟨hall, hnone⟩ n hn hne
        rcases Nat.lt_succ_iff_lt_or_eq.mp hn with hlt | rfl
        · exact hall n hlt (by simp [hnone])
        · exact absurd rfl hne
  | @stopAnswered frame event stop _ hwaiting hstop =>
      simp only [reduceCtorEq, false_implies, and_true]
      have habout : (PluginMessage.response stop .success .complete).isAbout stop = true :=
        beq_self_eq_true stop
      constructor
      · intro hall n hn hne
        have hother : stop ≠ n := fun heq => hne (heq ▸ hstop)
        have hfalse : (PluginMessage.response stop .success .complete).isAbout n = false :=
          beq_false_of_ne hother
        have hkept := hall n hn nofun
        rwa [about_append_other v.sent hfalse] at hkept
      · intro hall n hn _
        by_cases heq : n = stop
        · rw [heq, about_append_self v.sent habout]
          exact List.append_ne_nil_of_right_ne_nil _ (List.cons_ne_nil _ _)
        · refine about_append_ne_nil _ (hall n hn fun hpending => heq ?_)
          exact Option.some.inj (hpending.symm.trans hstop)
  | quiet => simp
  | @speech frame id hphase hwaiting hrequest =>
      refine (answering_send ?_).trans (by simp)
      exact fun n _ _ => hactive (Or.inl hrequest)
  | @noInput frame id hphase hwaiting hrequest =>
      refine (answering_send ?_).trans (by simp)
      exact fun n _ _ => hactive (Or.inl hrequest)
  | @canned frame id hphase hwaiting hrequest =>
      refine (answering_send ?_).trans (by simp)
      exact fun n _ _ => hactive (Or.inl hrequest)
  | waits => exact (iff_self_and.mpr fun _ => nofun)
  | @resumed rc nlsml id hphase hwaiting =>
      refine (answering_send ?_).trans (by simp)
      exact fun n _ _ => hactive (Or.inr hwaiting)

/-- **One and only one response.**  No request has two responses; every request has one,
apart from a STOP that is pending, exactly if no STOP of the run has come while another was
pending. -/
theorem one_response_iff (resultXml : Option Bytes) (socket : List SockAnswer)
    (labels : List PluginLabel) (σ : Plugin)
    (h : (Plugin.created socket).run resultXml labels = some σ) :
    (∀ n, responses n σ.sent ≤ 1) ∧
      ((∀ n, n < σ.nextRequest → σ.channel.stopResponse ≠ some n → responses n σ.sent = 1) ↔
        AlongRun (Plugin.step resultXml) StopAlone (Plugin.created socket) labels) := by
  have horder : ∀ n, RequestMessages n (about n σ.sent) := (accounted_run h).order
  have hiff := @runSteps_iff _ _ (Plugin.step resultXml) (fun σ => Accounted σ.view)
    (fun σ => Answering σ.view) StopAlone
    (fun haccounted hstep => accounted_step haccounted (step_view hstep))
    (fun haccounted hstep => answering_step haccounted (step_view hstep))
    _ _ _ (accounted_created socket) h
  have hnone : Answering (Plugin.created socket).view := fun n hn => absurd hn (Nat.not_lt_zero n)
  rw [and_iff_right hnone] at hiff
  rw [← hiff]
  refine ⟨fun n => ?_, forall_congr' fun n => imp_congr_right fun _ =>
    imp_congr_right fun _ => ?_⟩
  · rw [responses_of_order (horder n)]
    split
    · exact Nat.zero_le 1
    · exact le_refl 1
  · have hcount := responses_of_order (horder n)
    constructor
    · intro hone (hempty : about n σ.sent = [])
      rw [if_pos hempty] at hcount
      exact absurd (hone.symm.trans hcount) Nat.one_ne_zero
    · intro hne
      exact hcount.trans (if_neg hne)

/-- Two STOPs before the next frame. -/
def twoStops : List PluginLabel :=
  [.openChannel false, .request .stop, .request .stop, .write ⟨none⟩ .none]

/-- The first of two STOPs has no response. -/
theorem one_response_lost :
    ∃ σ, (Plugin.created []).run none twoStops = some σ ∧
      σ.sent = [.channelOpened, .response 1 .success .complete] ∧
      (∀ n, responses n σ.sent ≤ 1) ∧
      ¬ AlongRun (Plugin.step none) StopAlone (Plugin.created []) twoStops := by
  have hrun : ∃ σ, (Plugin.created []).run none twoStops = some σ ∧
      σ.sent = [.channelOpened, .response 1 .success .complete] ∧
      σ.nextRequest = 2 ∧ σ.channel.stopResponse = none := ⟨_, rfl, rfl, rfl, rfl⟩
  obtain ⟨σ, hrun, hsent, hnext, hstop⟩ := hrun
  obtain ⟨hmost, hiff⟩ := one_response_iff _ _ _ _ hrun
  refine ⟨σ, hrun, hsent, hmost, fun halong => ?_⟩
  have hone := hiff.mpr halong 0 (by simp [hnext]) (by simp [hstop])
  rw [hsent] at hone
  exact absurd hone (by decide)

end OneResponse

end Mrcp
end Sandroid
