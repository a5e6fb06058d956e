import Sandroid.Api.TurnFrames

/-!
# A connection with all of its turns

A new start replaces the context of the session, but the tasks of the old turn are
objects of their own: `StreamConnection` keeps the turns that have been replaced, and
in its runs their tasks may take steps like those of the active one.

`Advance` says what a step of the session can do: a task of the active turn moves, the
active turn is kept, or a new one takes its place.
-/

namespace Sandroid
namespace Api

open Lib

variable {vad : Vad} {asr : Asr}

/-- An error that `handle_start` answers itself. -/
def FrameBody.isRefusal : FrameBody → Bool
  | .error code _ _ => code = "STALE_TURN" ∨ code = "BAD_START" ∨ code = "SESSION_MISMATCH"
  | _ => false

/-- The frames sent for a turn, the refusals of `handle_start` aside. -/
def turnFrames (turnId : Int) (sent : List ServerFrame) : List FrameBody :=
  ((sent.filter (fun f => f.turnId = some turnId)).map ServerFrame.body).filter
    (fun body => !body.isRefusal)

theorem turnFrames_append (turnId : Int) (sent more : List ServerFrame) :
    turnFrames turnId (sent ++ more) = turnFrames turnId sent ++ turnFrames turnId more := by
  simp [turnFrames]

theorem turnFrames_of_refusals {turnId : Int} {sent : List ServerFrame}
    (h : ∀ f ∈ sent, f.body.isRefusal = true) : turnFrames turnId sent = [] := by
  simp only [turnFrames, List.filter_eq_nil_iff, List.mem_map, List.mem_filter]
  rintro body ⟨f, ⟨hf, -⟩, rfl⟩
  simp [h f hf]

theorem turnFrames_of_ne {t : Turn vad asr} {turnId : Int} (h : t.turnId ≠ turnId)
    (bodies : List FrameBody) : turnFrames turnId (bodies.map t.frame) = [] := by
  simp [turnFrames, Turn.frame, h]

theorem turnFrames_of_eq (t : Turn vad asr) {bodies : List FrameBody}
    (h : ∀ body ∈ bodies, body.isRefusal = false) :
    turnFrames t.turnId (bodies.map t.frame) = bodies := by
  induction bodies with
  | nil => rfl
  | cons body bodies ih =>
      have htail := ih (fun b hb => h b (by simp [hb]))
      have hhead : turnFrames t.turnId [t.frame body] = [body] := by
        simp [turnFrames, Turn.frame, h body (by simp)]
      have hcons := turnFrames_append t.turnId [t.frame body] (bodies.map t.frame)
      rw [hhead, htail] at hcons
      exact hcons

/-- No task answers with a refusal. -/
theorem Turn.Sends.not_refusal {t t' : Turn vad asr} {label : StreamLabel}
    {bodies : List FrameBody} (h : t.Sends label t' bodies) :
    ∀ body ∈ bodies, body.isRefusal = false := by
  have hone {b : FrameBody} (hb : b.isRefusal = false) : ∀ body ∈ [b], body.isRefusal = false := by
    simpa using hb
  cases h with
  | fan h => nofun
  | events sends h =>
      cases h with
      | silent hmove => nofun
      | event => exact hone rfl
  | pump sends h =>
      cases h with
      | transcript => exact hone rfl
      | failed message => exact hone (by simp [FrameBody.isRefusal])
      | _ => nofun
  | finalize reply sends h =>
      cases h with
      | noSpeech => exact hone (by simp [FrameBody.isRefusal])
      | answered hfinalize hbody =>
          refine hone ?_
          cases reply <;> cases hbody <;> simp [FrameBody.isRefusal]
      | _ => nofun

/-- What the loop does to the active turn without replacing it: it puts items in its
queue, cancels it or waits for it. -/
structure TurnChange (loop loop' : LoopPhase) (t t' : Turn vad asr) : Prop where
  turnId : t'.turnId = t.turnId
  pump : t'.pump = t.pump
  finalize : t'.finalize = t.finalize
  cancelled : t.cancelled = true → t'.cancelled = true
  receiving : loop' = .receiving → loop = .receiving ∧ t'.cancelled = t.cancelled

namespace StreamSession

/-- The turn id of a start that the step accepts. -/
def acceptedStart (σ : StreamSession vad asr) : StreamLabel → Option Int
  | .client (.start control) _ =>
      match control.sessionId, control.turnId with
      | some sessionId, some turnId =>
          if control.sceneId = none ∧ control.categoryPath = none then none
          else if σ.sessionId ≠ none ∧ σ.sessionId ≠ some sessionId then none
          else if turnId ≤ σ.currentTurnId then none
          else some turnId
      | _, _ => none
  | _ => none

/-- A start that has been accepted and is not yet opened has a new turn id. -/
def Pending (σ : StreamSession vad asr) (next : After) : Prop :=
  ∀ sessionId turnId control, next = .opening sessionId turnId control → σ.currentTurnId < turnId

/-- That holds of the start for which the loop waits. -/
def Waits (σ : StreamSession vad asr) : Prop :=
  ∀ next, σ.loop = .cancelling next ∨ σ.loop = .dropping next → σ.Pending next

end StreamSession

/-- What a step of the session can do. -/
inductive Advance (σ : StreamSession vad asr) (label : StreamLabel) :
    StreamSession vad asr → Prop
  | task {t : Turn vad asr} {r : Turn vad asr × List ServerFrame}
      (hturn : σ.turn = some t) (hstep : t.stepLabel label = some r) :
      Advance σ label { σ with turn := some r.1, sent := σ.sent ++ r.2 }
  | keep {σ' : StreamSession vad asr} {refusals : List ServerFrame}
      (hsent : σ'.sent = σ.sent ++ refusals)
      (hrefusals : ∀ f ∈ refusals, f.body.isRefusal = true)
      (hturn : Option.Rel (TurnChange σ.loop σ'.loop) σ.turn σ'.turn)
      (hcurrent : σ.currentTurnId ≤ σ'.currentTurnId) (hwaits : σ'.Waits) : Advance σ label σ'
  | opened {sessionId : PyStr} {turnId : Int} {control : StartControl} {nBest : Int}
      (hnew : σ.currentTurnId < turnId)
      (hold : ∀ t, σ.turn = some t → t.finalize = .done) :
      Advance σ label
        { σ with
          sessionId := some sessionId
          currentTurnId := turnId
          currentTurnText := control.turnText
          turn := some (StreamSession.newTurn σ.maxAudioBytes sessionId turnId control nBest)
          loop := .receiving }

namespace Turn

variable (t : Turn vad asr)

/-- Cancelling the pump only sets flags. -/
theorem cancelPump_eq : ∃ fanCancel eventsCancel pumpCancel,
    t.cancelPump =
      { t with
        fanCancel := fanCancel
        eventsCancel := eventsCancel
        pumpCancel := pumpCancel } := by
  simp only [cancelPump]
  split
  · exact ⟨_, _, _, rfl⟩
  · split_ifs <;> exact ⟨_, _, _, rfl⟩
  · split_ifs <;> exact ⟨_, _, _, rfl⟩
  · exact ⟨_, _, _, rfl⟩

theorem cancelFinalize_eq : ∃ fanCancel eventsCancel pumpCancel finalizeCancel,
    t.cancelFinalize =
      { t with
        fanCancel := fanCancel
        eventsCancel := eventsCancel
        pumpCancel := pumpCancel
        finalizeCancel := finalizeCancel } := by
  simp only [cancelFinalize]
  split
  · exact ⟨_, _, _, _, rfl⟩
  · split_ifs
    · exact ⟨_, _, _, _, rfl⟩
    · obtain ⟨a, b, c, heq⟩ := t.cancelPump_eq
      exact ⟨a, b, c, t.finalizeCancel, heq⟩
  · exact ⟨_, _, _, _, rfl⟩

end Turn

namespace TurnChange

variable {loop loop' loop'' : LoopPhase} {t t' t'' : Turn vad asr}

theorem same (loop : LoopPhase) (t : Turn vad asr) : TurnChange loop loop t t where
  turnId := rfl
  pump := rfl
  finalize := rfl
  cancelled := id
  receiving := fun hloop => ⟨hloop, rfl⟩

theorem left (hleft : loop' ≠ .receiving) (t : Turn vad asr) : TurnChange loop loop' t t where
  turnId := rfl
  pump := rfl
  finalize := rfl
  cancelled := id
  receiving := fun hloop => absurd hloop hleft

theorem markCancelled (hleft : loop' ≠ .receiving) (t : Turn vad asr) :
    TurnChange loop loop' t t.markCancelled where
  turnId := rfl
  pump := rfl
  finalize := rfl
  cancelled := fun _ => rfl
  receiving := fun hloop => absurd hloop hleft

theorem cancelPump (h : TurnChange loop loop' t t') (hleft : loop' ≠ .receiving) :
    TurnChange loop loop' t t'.cancelPump := by
  obtain ⟨_, _, _, heq⟩ := t'.cancelPump_eq
  rw [heq]
  exact
    { turnId := h.turnId
      pump := h.pump
      finalize := h.finalize
      cancelled := h.cancelled
      receiving := fun hloop => absurd hloop hleft }

theorem cancelFinalize (h : TurnChange loop loop' t t') (hleft : loop' ≠ .receiving) :
    TurnChange loop loop' t t'.cancelFinalize := by
  obtain ⟨_, _, _, _, heq⟩ := t'.cancelFinalize_eq
  rw [heq]
  exact
    { turnId := h.turnId
      pump := h.pump
      finalize := h.finalize
      cancelled := h.cancelled
      receiving := fun hloop => absurd hloop hleft }

end TurnChange

namespace Advance

variable {σ σ' : StreamSession vad asr} {label : StreamLabel} {next : After}
  {refusals : List ServerFrame}

theorem none_refused : ∀ f ∈ ([] : List ServerFrame), f.body.isRefusal = true :=
  nofun

/-- The loop goes on to what it had in mind, the old turn being over.  Before a refusal
it has nothing in mind but to close. -/
theorem conclude {turn : Option (Turn vad asr)}
    (hrefusals : ∀ f ∈ refusals, f.body.isRefusal = true)
    (hturn : Option.Rel (TurnChange σ.loop .closed) σ.turn turn)
    (hold : ∀ t, σ.turn = some t → t.finalize = .done)
    (hnew : σ.Pending next) (hsilent : next = .closing ∨ refusals = []) :
    Advance σ label
      (({ σ with sent := σ.sent ++ refusals, turn := turn } : StreamSession vad asr).conclude
        next) := by
  cases next with
  | closing =>
      exact .keep rfl hrefusals hturn (le_refl _)
        (by simp [StreamSession.Waits, StreamSession.conclude])
  | opening sessionId turnId control =>
      have hlt := hnew sessionId turnId control rfl
      simp only [StreamSession.conclude]
      cases hn : control.nBest with
      | none => exact .keep rfl hrefusals hturn (le_of_lt hlt) (by simp [StreamSession.Waits])
      | some nBest =>
          obtain hclosing | rfl := hsilent
          · cases hclosing
          · have hopened : Advance σ label
                { σ with
                  sessionId := some sessionId
                  currentTurnId := turnId
                  currentTurnText := control.turnText
                  turn := some
                    (StreamSession.newTurn σ.maxAudioBytes sessionId turnId control nBest)
                  loop := .receiving } := .opened hlt hold
            simpa using hopened

theorem dropFinalize {t t' : Turn vad asr} (hturn : σ.turn = some t)
    (hrefusals : ∀ f ∈ refusals, f.body.isRefusal = true)
    (hchange : ∀ loop', loop' ≠ .receiving → TurnChange σ.loop loop' t t')
    (hnew : σ.Pending next) (hsilent : next = .closing ∨ refusals = []) :
    Advance σ label
      (({ σ with sent := σ.sent ++ refusals } : StreamSession vad asr).dropFinalize t' next) := by
  simp only [StreamSession.dropFinalize]
  split
  case h_1 hdone =>
    refine conclude hrefusals ?_ ?_ hnew hsilent
    · rw [hturn]
      exact .some (hchange .closed (by simp))
    · intro t₀ hturn₀
      rw [hturn] at hturn₀
      cases hturn₀
      rw [← (hchange .closed (by simp)).finalize]
      exact hdone
  case h_2 =>
    refine .keep rfl hrefusals ?_ (le_refl _) ?_
    · rw [hturn]
      exact .some ((hchange (.dropping next) (by simp)).cancelFinalize (by simp))
    · rintro next' (hloop | hloop)
      · cases hloop
      · cases hloop
        exact hnew

theorem abandonActive
    (hrefusals : ∀ f ∈ refusals, f.body.isRefusal = true)
    (hnew : σ.Pending next) (hsilent : next = .closing ∨ refusals = []) :
    Advance σ label
      (({ σ with sent := σ.sent ++ refusals } : StreamSession vad asr).abandonActive next) := by
  simp only [StreamSession.abandonActive]
  split
  case h_1 hturn =>
    have hkept : Option.Rel (TurnChange σ.loop .closed) σ.turn σ.turn := by
      rw [hturn]
      exact .none
    refine conclude hrefusals hkept ?_ hnew hsilent
    intro t hturn'
    rw [hturn] at hturn'
    cases hturn'
  case h_2 t hturn =>
    split_ifs
    · exact dropFinalize hturn hrefusals (fun _ hleft => .left hleft t) hnew hsilent
    · exact dropFinalize hturn hrefusals (fun _ hleft => .markCancelled hleft t) hnew hsilent
    · refine .keep rfl hrefusals ?_ (le_refl _) ?_
      · have hleft : LoopPhase.cancelling next ≠ .receiving := by simp
        rw [hturn]
        exact .some ((TurnChange.markCancelled hleft t).cancelPump hleft)
      · rintro next' (hloop | hloop)
        · cases hloop
          exact hnew
        · cases hloop

/-- The same without a refusal. -/
theorem abandon (hnew : σ.Pending next) :
    Advance σ label (σ.abandonActive next) := by
  have h : Advance σ label _ := abandonActive none_refused hnew (Or.inr rfl)
  simpa using h

theorem waits_of_receiving (hloop : σ.loop = .receiving) : σ.Waits := by
  simp [StreamSession.Waits, hloop]

/-- The loop goes on receiving. -/
theorem stay {t t' : Turn vad asr} (hloop : σ.loop = .receiving) (hturn : σ.turn = some t)
    (hchange : TurnChange σ.loop σ.loop t t') : Advance σ label { σ with turn := some t' } := by
  refine .keep (List.append_nil _).symm none_refused ?_ (le_refl _)
    (waits_of_receiving hloop)
  rw [hturn]
  exact .some hchange

theorem refuse (hloop : σ.loop = .receiving)
    (hrefusals : ∀ f ∈ refusals, f.body.isRefusal = true) :
    Advance σ label { σ with sent := σ.sent ++ refusals } := by
  refine .keep rfl hrefusals ?_ (le_refl _) (waits_of_receiving hloop)
  cases hturn : σ.turn with
  | none => exact .none
  | some t => exact .some (.same _ t)

theorem idle (hloop : σ.loop = .receiving) : Advance σ label σ := by
  have h : Advance σ label _ := refuse hloop none_refused
  simpa using h

theorem handlePcm (data : Pcm) (hloop : σ.loop = .receiving) :
    Advance σ label (σ.handlePcm data) := by
  simp only [StreamSession.handlePcm]
  split
  case h_1 => exact idle hloop
  case h_2 t hturn =>
    split
    · exact idle hloop
    · refine stay hloop hturn ?_
      split_ifs <;>
        exact
          { turnId := rfl
            pump := rfl
            finalize := rfl
            cancelled := id
            receiving := fun _ => ⟨hloop, rfl⟩ }

theorem handleStop (hloop : σ.loop = .receiving) : Advance σ label σ.handleStop := by
  simp only [StreamSession.handleStop]
  split
  case h_1 => exact idle hloop
  case h_2 t hturn =>
    split
    · exact idle hloop
    · refine stay hloop hturn ?_
      exact
        { turnId := rfl
          pump := rfl
          finalize := rfl
          cancelled := id
          receiving := fun _ => ⟨hloop, rfl⟩ }

theorem pending_closing : σ.Pending .closing := by
  intro _ _ _ h
  cases h

theorem handleStart (control : StartControl) (sends : Bool) (hloop : σ.loop = .receiving) :
    Advance σ label (σ.handleStart control sends) := by
  have hrefusal (sessionId : Option PyStr) (turnId : Option Int) (code message : String)
      (fatal : Bool) (hcode : code = "BAD_START" ∨ code = "SESSION_MISMATCH" ∨
        code = "STALE_TURN") :
      ∀ f ∈ (if takes sends sessionId then
        [({ sessionId := sessionId, turnId := turnId,
            body := .error code message fatal } : ServerFrame)] else []),
        f.body.isRefusal = true := by
    intro f hf
    split_ifs at hf
    · rw [List.mem_singleton] at hf
      subst hf
      obtain rfl | rfl | rfl := hcode <;> simp [FrameBody.isRefusal]
    · cases hf
  have hfatal (sessionId : Option PyStr) (turnId : Option Int) {code : String} (message : String)
      (hcode : code = "BAD_START" ∨ code = "SESSION_MISMATCH" ∨ code = "STALE_TURN") :
      Advance σ label
        ((σ.sendError sends sessionId turnId code message true).abandonActive .closing) :=
    abandonActive (hrefusal sessionId turnId code message true hcode) pending_closing (Or.inl rfl)
  simp only [StreamSession.handleStart]
  split
  case h_1 sessionId turnId _ _ =>
    split_ifs with hscene hsession hstale
    · exact hfatal _ _ _ (Or.inl rfl)
    · exact hfatal _ _ _ (Or.inr (Or.inl rfl))
    · exact refuse hloop (hrefusal _ _ _ _ false (Or.inr (Or.inr rfl)))
    · exact abandon pending_closing
    · refine abandon ?_
      intro _ _ _ heq
      cases heq
      omega
  case h_2 => exact hfatal _ _ _ (Or.inl rfl)

theorem receive (frame : ClientFrame) (sends : Bool) (hloop : σ.loop = .receiving) :
    Advance σ label (σ.receive sends frame) := by
  cases frame with
  | pcm data => exact handlePcm data hloop
  | stop => exact handleStop hloop
  | start control => exact handleStart control sends hloop
  | other => exact idle hloop
  | malformed => exact abandon pending_closing
  | disconnect => exact abandon pending_closing

theorem stepLoop (hwaits : σ.Waits) (hstep : σ.stepLoop = some σ') : Advance σ label σ' := by
  simp only [StreamSession.stepLoop] at hstep
  split at hstep
  case h_1 next t hloop hturn =>
    split_ifs at hstep
    cases hstep
    have h : Advance σ label _ := dropFinalize hturn none_refused (fun _ hleft => .left hleft t)
      (hwaits next (Or.inl hloop)) (Or.inr rfl)
    simpa using h
  case h_2 next t hloop hturn =>
    split at hstep
    case h_1 hdone =>
      cases hstep
      have hleft : LoopPhase.closed ≠ .receiving := by simp
      have hkept : Option.Rel (TurnChange σ.loop .closed) σ.turn σ.turn := by
        rw [hturn]
        exact .some (.left hleft t)
      have hold : ∀ t', σ.turn = some t' → t'.finalize = .done := by
        intro t' hturn'
        rw [hturn] at hturn'
        cases hturn'
        exact hdone
      have h : Advance σ label _ := conclude none_refused hkept hold (hwaits next (Or.inr hloop))
        (Or.inr rfl)
      simpa using h
    case h_2 => cases hstep
  case h_3 => cases hstep

theorem stepTask (hstep : σ.stepTask (fun t => t.stepLabel label) = some σ') :
    Advance σ label σ' := by
  obtain ⟨t, r, hturn, hr, rfl⟩ := StreamSession.stepTask_cases hstep
  exact .task hturn hr

/-- Every step of a session that waits for a new turn is one of these. -/
theorem of_step (hwaits : σ.Waits) (hstep : σ.step label = some σ') :
    Advance σ label σ' := by
  cases label with
  | client frame sends =>
      simp only [StreamSession.step] at hstep
      split_ifs at hstep with hloop
      cases hstep
      exact receive frame sends hloop
  | loop => exact stepLoop hwaits hstep
  | fan => exact stepTask hstep
  | events sends => exact stepTask hstep
  | pump sends => exact stepTask hstep
  | finalize reply sends => exact stepTask hstep

theorem waits (h : Advance σ label σ') (hwaits : σ.Waits) : σ'.Waits := by
  cases h with
  | task => exact hwaits
  | keep _ _ _ _ hwaits' => exact hwaits'
  | opened => simp [StreamSession.Waits]

end Advance

/-- A session, with the turns it has replaced. -/
structure StreamConnection (vad : Vad) (asr : Asr) where
  session : StreamSession vad asr
  retired : List (Turn vad asr) := []

/-- A step of the session, or of a task of a replaced turn. -/
inductive ConnectionLabel where
  | session (label : StreamLabel)
  | retired (index : Nat) (label : StreamLabel)
deriving DecidableEq, Repr

namespace StreamConnection

/-- A connection that has just been accepted. -/
def accepted (vad : Vad) (asr : Asr) (maxAudioBytes : Nat) : StreamConnection vad asr :=
  { session := Api.accepted vad asr maxAudioBytes }

/-- The context that a step of the session has replaced, as `_abandon_active` leaves it. -/
def replaced (σ σ' : StreamSession vad asr) : List (Turn vad asr) :=
  match σ.turn, σ'.turn with
  | some t, some t' =>
      if t'.turnId = t.turnId then [] else [if t.cancelled then t else t.markCancelled]
  | _, _ => []

def step (c : StreamConnection vad asr) : ConnectionLabel → Option (StreamConnection vad asr)
  | .session label =>
      (c.session.step label).map fun σ' =>
        { session := σ', retired := c.retired ++ replaced c.session σ' }
  | .retired index label =>
      match c.retired[index]? with
      | none => none
      | some t =>
          (t.stepLabel label).map fun r =>
            { session := { c.session with sent := c.session.sent ++ r.2 }
              retired := c.retired.set index r.1 }

/-- Run a list of steps. -/
def run (c : StreamConnection vad asr) (labels : List ConnectionLabel) :
    Option (StreamConnection vad asr) :=
  runSteps step c labels

end StreamConnection

/-- All tasks of the turn are over. -/
structure Turn.Finished (t : Turn vad asr) : Prop where
  fan : t.fan ≠ .running
  events : t.eventsRunning = false
  pump : t.pumpDone = true
  finalize : t.finalize = .done

namespace Turn.Finished

variable {t : Turn vad asr}

/-- The last to end is the finalizer. -/
theorem of_settled {loop : LoopPhase} (h : Settled loop t) (hdone : t.finalize = .done) :
    t.Finished := by
  have hpump : t.pumpDone = true := h.answering (by simp [hdone]) (by simp [hdone])
  obtain ⟨hfan, hevents⟩ := h.quiet (Settled.not_early_of_pumpDone hpump)
  exact ⟨hfan, hevents, hpump, hdone⟩

theorem markCancelled (h : t.Finished) : t.markCancelled.Finished :=
  ⟨h.fan, h.events, h.pump, h.finalize⟩

theorem stepLabel (h : t.Finished) (label : StreamLabel) : t.stepLabel label = none := by
  cases label with
  | client frame sends => rfl
  | loop => rfl
  | fan =>
      cases hfan : t.fan with
      | running => exact absurd hfan h.fan
      | _ => simp [Turn.stepLabel, Turn.stepFan, hfan]
  | events sends =>
      cases hevents : t.events with
      | running state ended => simpa [Turn.eventsRunning, hevents] using h.events
      | _ => simp [Turn.stepLabel, Turn.stepEvents, hevents]
  | pump sends =>
      cases hpump : t.pump with
      | done result => simp [Turn.stepLabel, Turn.stepPump, hpump]
      | _ => simpa [Turn.pumpDone, hpump] using h.pump
  | finalize reply sends => simp [Turn.stepLabel, Turn.stepFinalize, h.finalize]

end Turn.Finished

/-- What holds of the turns of a connection in every run: the tasks of those that were
replaced are over, and no turn has a number of the future. -/
structure ConnectionInv (c : StreamConnection vad asr) : Prop where
  settled : StreamSession.Holds Settled c.session
  waits : c.session.Waits
  retired : ∀ t ∈ c.retired, t.Finished
  active : ∀ t, c.session.turn = some t → t.turnId ≤ c.session.currentTurnId
  unborn : ∀ turnId, c.session.currentTurnId < turnId → turnFrames turnId c.session.sent = []

/-- A property of the active turn and of the frames sent for it. -/
def Recorded (Q : LoopPhase → Turn vad asr → List FrameBody → Prop)
    (σ : StreamSession vad asr) : Prop :=
  ∀ t, σ.turn = some t → Q σ.loop t (turnFrames t.turnId σ.sent)

/-- The turn has been opened, and if it is still the active one its finalizer is over. -/
def Passed (turnId : Int) (σ : StreamSession vad asr) : Prop :=
  turnId ≤ σ.currentTurnId ∧ ∀ t, σ.turn = some t → t.turnId = turnId → t.finalize = .done

namespace ConnectionInv

variable {c c' : StreamConnection vad asr}

theorem accepted (maxAudioBytes : Nat) :
    ConnectionInv (StreamConnection.accepted vad asr maxAudioBytes) where
  settled := by
    intro t hturn
    cases hturn
  waits := Advance.waits_of_receiving rfl
  retired := by
    intro t ht
    cases ht
  active := by
    intro t hturn
    cases hturn
  unborn := fun _ _ => rfl

/-- A replaced turn has run to its end, so what is left are steps of the session. -/
theorem step_session (h : ConnectionInv c) {label : ConnectionLabel}
    (hstep : c.step label = some c') :
    ∃ label', label = .session label' ∧ c.session.step label' = some c'.session ∧
      c'.retired = c.retired ++ StreamConnection.replaced c.session c'.session := by
  cases label with
  | session label =>
      simp only [StreamConnection.step, Option.map_eq_some_iff] at hstep
      obtain ⟨σ', hstep, rfl⟩ := hstep
      exact ⟨label, rfl, hstep, rfl⟩
  | retired index label =>
      simp only [StreamConnection.step] at hstep
      split at hstep
      · cases hstep
      · rename_i t hindex
        simp [(h.retired t (List.mem_of_getElem? hindex)).stepLabel label] at hstep

/-- Only a turn whose finalizer is over is replaced. -/
theorem replaced_finished {σ' : StreamSession vad asr} (h : ConnectionInv c)
    {label : StreamLabel} (hadvance : Advance c.session label σ') :
    ∀ t ∈ StreamConnection.replaced c.session σ', t.Finished := by
  intro t ht
  simp only [StreamConnection.replaced] at ht
  split at ht
  case h_2 => cases ht
  case h_1 t₀ t' hturn hturn' =>
    split at ht
    · cases ht
    · rename_i hnew
      have hdone : t₀.Finished := by
        cases hadvance with
        | task hturn₀ hstep =>
            rw [hturn] at hturn₀
            cases hturn₀
            obtain ⟨bodies, -, hsends⟩ := Turn.sends_of_stepLabel hstep
            cases hturn'
            exact absurd hsends.turnId hnew
        | keep _ _ hkept _ _ =>
            rw [hturn, hturn'] at hkept
            cases hkept with
            | some hchange => exact absurd hchange.turnId hnew
        | opened _ hold => exact .of_settled (h.settled t₀ hturn) (hold t₀ hturn)
      rw [List.mem_singleton] at ht
      subst ht
      split_ifs
      · exact hdone
      · exact hdone.markCancelled

theorem step (h : ConnectionInv c) {label : ConnectionLabel} (hstep : c.step label = some c') :
    ConnectionInv c' := by
  obtain ⟨label', -, hsession, hretired⟩ := h.step_session hstep
  have hadvance := Advance.of_step h.waits hsession
  refine
    { settled := Settled.maintained.step h.settled ?_ hsession
      waits := hadvance.waits h.waits
      retired := ?_
      active := ?_
      unborn := ?_ }
  · cases label' with
    | client frame sends => exact fun _ _ _ _ => trivial
    | _ => trivial
  · intro t ht
    rw [hretired, List.mem_append] at ht
    obtain ht | ht := ht
    · exact h.retired t ht
    · exact h.replaced_finished hadvance t ht
  · intro t' hturn'
    generalize hσ' : c'.session = σ' at hadvance hturn'
    cases hadvance with
    | task hturn hstep =>
        cases hturn'
        obtain ⟨bodies, -, hsends⟩ := Turn.sends_of_stepLabel hstep
        rw [hsends.turnId]
        exact h.active _ hturn
    | keep _ _ hkept hcurrent _ =>
        rw [hturn'] at hkept
        generalize hturn : c.session.turn = turn at hkept
        cases hkept with
        | some hchange =>
            rw [hchange.turnId]
            exact le_trans (h.active _ hturn) hcurrent
    | opened _ _ =>
        cases hturn'
        exact le_refl _
  · intro turnId hlt
    generalize hσ' : c'.session = σ' at hadvance hlt ⊢
    cases hadvance with
    | task hturn hstep =>
        obtain ⟨bodies, hsent, hsends⟩ := Turn.sends_of_stepLabel hstep
        have hle := h.active _ hturn
        have hne := turnFrames_of_ne (ne_of_lt (lt_of_le_of_lt hle hlt)) bodies
        simp only [hsent, turnFrames_append]
        rw [h.unborn turnId hlt, hne]
        rfl
    | keep hsent hrefusals _ hcurrent _ =>
        rw [hsent, turnFrames_append, turnFrames_of_refusals hrefusals,
          h.unborn turnId (lt_of_le_of_lt hcurrent hlt)]
        rfl
    | opened hnew _ => exact h.unborn turnId (lt_trans hnew hlt)

theorem run (maxAudioBytes : Nat) {labels : List ConnectionLabel}
    (hrun : (StreamConnection.accepted vad asr maxAudioBytes).run labels = some c) :
    ConnectionInv c :=
  runSteps_invariant (P := fun _ _ => True) (fun h _ hstep => h.step hstep) (accepted maxAudioBytes)
    (alongRun_of_forall (fun _ _ => trivial) _ _) hrun

/-- The rule for properties of the active turn and of its frames: one condition for a
new turn, one for what the loop does to a turn, one for a step of a task. -/
theorem recorded {Q : LoopPhase → Turn vad asr → List FrameBody → Prop} {label : StreamLabel}
    {σ' : StreamSession vad asr} (h : ConnectionInv c) (hq : Recorded Q c.session)
    (hopened : ∀ maxAudioBytes sessionId turnId control nBest,
      Q .receiving (StreamSession.newTurn maxAudioBytes sessionId turnId control nBest) [])
    (hchange : ∀ {loop' : LoopPhase} {t t' : Turn vad asr} {frames : List FrameBody},
      Q c.session.loop t frames → TurnChange c.session.loop loop' t t' → Q loop' t' frames)
    (htask : ∀ {t t' : Turn vad asr} {frames bodies : List FrameBody},
      c.session.turn = some t → Q c.session.loop t frames → t.Sends label t' bodies →
        Q c.session.loop t' (frames ++ bodies))
    (hadvance : Advance c.session label σ') : Recorded Q σ' := by
  intro t' hturn'
  cases hadvance with
  | @task t r hturn hstep =>
      cases hturn'
      obtain ⟨bodies, hsent, hsends⟩ := Turn.sends_of_stepLabel hstep
      simp only [hsent, turnFrames_append]
      rw [hsends.turnId, turnFrames_of_eq t hsends.not_refusal]
      exact htask hturn (hq t hturn) hsends
  | keep hsent hrefusals hkept _ _ =>
      rw [hturn'] at hkept
      generalize hturn : c.session.turn = turn at hkept
      cases hkept with
      | some hkept =>
          rw [hsent, turnFrames_append, turnFrames_of_refusals hrefusals, List.append_nil,
            hkept.turnId]
          exact hchange (hq _ hturn) hkept
  | opened hnew _ =>
      cases hturn'
      have hframes := h.unborn _ hnew
      simp only [StreamSession.newTurn] at hframes ⊢
      rw [hframes]
      exact hopened _ _ _ _ _

/-- A turn that is through gets no more frames. -/
theorem passed_step (h : ConnectionInv c) {turnId : Int} {label : ConnectionLabel}
    (hpassed : Passed turnId c.session) (hstep : c.step label = some c') :
    Passed turnId c'.session ∧
      turnFrames turnId c'.session.sent = turnFrames turnId c.session.sent := by
  obtain ⟨label', -, hsession, -⟩ := h.step_session hstep
  have hadvance := Advance.of_step h.waits hsession
  generalize c'.session = σ' at hadvance
  obtain ⟨hopened, hdone⟩ := hpassed
  cases hadvance with
  | @task t r hturn hstep =>
      have hne : t.turnId ≠ turnId := by
        intro heq
        have hover : t.Finished := .of_settled (h.settled t hturn) (hdone t hturn heq)
        rw [hover.stepLabel] at hstep
        cases hstep
      obtain ⟨bodies, hsent, hsends⟩ := Turn.sends_of_stepLabel hstep
      refine ⟨⟨hopened, ?_⟩, ?_⟩
      · intro t' hturn' heq
        cases hturn'
        exact absurd (hsends.turnId ▸ heq) hne
      · simp only [hsent, turnFrames_append, turnFrames_of_ne hne, List.append_nil]
  | keep hsent hrefusals hkept hcurrent _ =>
      refine ⟨⟨le_trans hopened hcurrent, ?_⟩, ?_⟩
      · intro t' hturn' heq
        rw [hturn'] at hkept
        generalize hturn : c.session.turn = turn at hkept
        cases hkept with
        | some hkept =>
            rw [hkept.finalize]
            exact hdone _ hturn (hkept.turnId ▸ heq)
      · rw [hsent, turnFrames_append, turnFrames_of_refusals hrefusals, List.append_nil]
  | opened hnew _ =>
      refine ⟨⟨le_of_lt (lt_of_le_of_lt hopened hnew), ?_⟩, rfl⟩
      intro t' hturn' heq
      cases hturn'
      exact absurd heq (ne_of_gt (lt_of_le_of_lt hopened hnew))

/-- The same over a run. -/
theorem passed_run {turnId : Int} {labels : List ConnectionLabel} (h : ConnectionInv c)
    (hpassed : Passed turnId c.session) (hrun : c.run labels = some c') :
    turnFrames turnId c'.session.sent = turnFrames turnId c.session.sent := by
  have hkeeps : ∀ {c₁ c₂ : StreamConnection vad asr} {label : ConnectionLabel},
      (ConnectionInv c₁ ∧ Passed turnId c₁.session ∧
        turnFrames turnId c₁.session.sent = turnFrames turnId c.session.sent) → True →
      c₁.step label = some c₂ →
      (ConnectionInv c₂ ∧ Passed turnId c₂.session ∧
        turnFrames turnId c₂.session.sent = turnFrames turnId c.session.sent) := by
    rintro c₁ c₂ label ⟨h₁, hpassed₁, hsame₁⟩ - hstep
    obtain ⟨hpassed₂, hsame₂⟩ := h₁.passed_step hpassed₁ hstep
    exact ⟨h₁.step hstep, hpassed₂, hsame₂.trans hsame₁⟩
  exact (runSteps_invariant (P := fun _ _ => True) hkeeps ⟨h, hpassed, rfl⟩
    (alongRun_of_forall (fun _ _ => trivial) _ _) hrun).2.2

end ConnectionInv

end Api
end Sandroid
