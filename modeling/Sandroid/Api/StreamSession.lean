import Sandroid.Api.StreamTurn
import Sandroid.Lib.Runs

/-!
# One WebSocket connection

The receive loop of `recognize_stream` with its `_StreamSession`: what each client
frame does, and how `_abandon_active` (on a new start, a refused one or the end of
the connection) cancels the active turn and waits for its pump and its finalizer.
An answer that the socket does not take ends the connection.

While the loop waits it reads no frames.  A run interleaves the loop and the tasks
of the active turn in any order.
-/

namespace Sandroid
namespace Api

open Lib

/-- A `start` frame: ids are `none` when missing or of a wrong type, `nBest` when
`int(...)` raises on it; `turnText` is what `str()` makes of the turn id. -/
structure StartControl where
  sessionId : Option PyStr
  turnId : Option Int
  sceneId : Option FieldValue
  categoryPath : Option FieldValue
  nBest : Option Int := some 5
  turnText : String := (turnId.map toString).getD ""
deriving DecidableEq, Repr

inductive ClientFrame where
  | pcm (data : Pcm)
  | stop
  | start (control : StartControl)
  /-- text that is not JSON, or an object of another type -/
  | other
  /-- JSON on which the loop raises, as on `control.get` of what is not an object -/
  | malformed
  | disconnect
deriving DecidableEq, Repr

/-- What the loop goes on to after the active turn is gone. -/
inductive After where
  | opening (sessionId : PyStr) (turnId : Int) (control : StartControl)
  | closing
deriving DecidableEq, Repr

/-- Where the receive loop stands: at `receive`, in `_cancel_turn` at `await
ctx.task`, in `_abandon_active` at `await self._finalize`, or gone. -/
inductive LoopPhase where
  | receiving
  | cancelling (next : After)
  | dropping (next : After)
  | closed
deriving DecidableEq, Repr

structure StreamSession (vad : Vad) (asr : Asr) where
  maxAudioBytes : Nat
  sessionId : Option PyStr := none
  currentTurnId : Int := -1
  currentTurnText : String := "-1"
  /-- `_ctx` and `_finalize` -/
  turn : Option (Turn vad asr) := none
  loop : LoopPhase := .receiving
  sent : List ServerFrame := []

/-- A connection that has just been accepted. -/
def accepted (vad : Vad) (asr : Asr) (maxAudioBytes : Nat) : StreamSession vad asr :=
  { maxAudioBytes := maxAudioBytes }

/-- One step of the connection; `sends` if the socket takes what is sent in it. -/
inductive StreamLabel where
  | client (frame : ClientFrame) (sends : Bool := true)
  | loop
  | fan
  | events (sends : Bool)
  | pump (sends : Bool)
  | finalize (reply : OrchestratorAnswer) (sends : Bool)
deriving DecidableEq, Repr

namespace StreamSession

variable {vad : Vad} {asr : Asr}

/-- The context of a new turn; its tasks have not run yet. -/
def newTurn (maxAudioBytes : Nat) (sessionId : PyStr) (turnId : Int) (control : StartControl)
    (nBest : Int) : Turn vad asr :=
  { sessionId := sessionId
    turnId := turnId
    sceneId := control.sceneId
    categoryPath := control.categoryPath
    nBest := nBest
    maxAudioBytes := maxAudioBytes }

/-- The rest of `handle_start` after the old turn is gone, or the end of `close`. -/
def conclude (σ : StreamSession vad asr) (next : After) : StreamSession vad asr :=
  match next with
  | .closing => { σ with loop := .closed }
  | .opening sessionId turnId control =>
      let σ := { σ with
        sessionId := some sessionId
        currentTurnId := turnId
        currentTurnText := control.turnText }
      match control.nBest with
      | none => { σ with loop := .closed }
      | some nBest =>
          { σ with
            turn := some (newTurn σ.maxAudioBytes sessionId turnId control nBest)
            loop := .receiving }

/-- The second half of `_abandon_active`. -/
def dropFinalize (σ : StreamSession vad asr) (t : Turn vad asr) (next : After) :
    StreamSession vad asr :=
  match t.finalize with
  | .done => { σ with turn := some t }.conclude next
  | _ => { σ with turn := some t.cancelFinalize, loop := .dropping next }

/-- `_abandon_active`, with `_cancel_turn` up to its wait for the pump. -/
def abandonActive (σ : StreamSession vad asr) (next : After) : StreamSession vad asr :=
  match σ.turn with
  | none => σ.conclude next
  | some t =>
      if t.cancelled then
        σ.dropFinalize t next
      else if t.pumpDone then
        σ.dropFinalize t.markCancelled next
      else
        { σ with turn := some t.markCancelled.cancelPump, loop := .cancelling next }

def handlePcm (σ : StreamSession vad asr) (data : Pcm) : StreamSession vad asr :=
  match σ.turn with
  | none => σ
  | some t =>
      if t.cancelled then
        σ
      else
        let t :=
          if t.audioOverflow then
            t
          else if t.audioAccum.length + data.length > t.maxAudioBytes then
            { t with audioOverflow := true, audioAccum := [] }
          else
            { t with audioAccum := t.audioAccum ++ data }
        { σ with turn := some { t with queue := t.queue ++ [some data] } }

def handleStop (σ : StreamSession vad asr) : StreamSession vad asr :=
  match σ.turn with
  | none => σ
  | some t =>
      if t.cancelled then
        σ
      else
        { σ with turn := some { t with queue := t.queue ++ [none] } }

/-- An error of `handle_start`, if the socket takes it. -/
def sendError (σ : StreamSession vad asr) (sends : Bool) (sessionId : Option PyStr)
    (turnId : Option Int) (code message : String) (fatal : Bool) : StreamSession vad asr :=
  { σ with
    sent := σ.sent ++
      if takes sends sessionId then
        [{ sessionId := sessionId, turnId := turnId, body := .error code message fatal }]
      else
        [] }

/-- `handle_start`, and the end of the connection where it answers `False` or raises. -/
def handleStart (σ : StreamSession vad asr) (control : StartControl) (sends : Bool) :
    StreamSession vad asr :=
  match control.sessionId, control.turnId with
  | some sessionId, some turnId =>
      if control.sceneId = none ∧ control.categoryPath = none then
        (σ.sendError sends (some sessionId) (some turnId) "BAD_START"
          "either scene_id or category_path is required" true).abandonActive .closing
      else if σ.sessionId ≠ none ∧ σ.sessionId ≠ some sessionId then
        (σ.sendError sends (some sessionId) (some turnId) "SESSION_MISMATCH"
          "session_id changed mid-connection" true).abandonActive .closing
      else if turnId ≤ σ.currentTurnId then
        if takes sends (some sessionId) then
          σ.sendError sends (some sessionId) (some turnId) "STALE_TURN"
            ("turn_id " ++ control.turnText ++ " is not greater than current " ++
              σ.currentTurnText) false
        else
          σ.abandonActive .closing
      else
        σ.abandonActive (.opening sessionId turnId control)
  | _, _ =>
      (σ.sendError sends none none "BAD_START"
        "start requires string session_id and int turn_id" true).abandonActive .closing

/-- The loop takes a frame. -/
def receive (σ : StreamSession vad asr) (sends : Bool) : ClientFrame → StreamSession vad asr
  | .pcm data => σ.handlePcm data
  | .stop => σ.handleStop
  | .start control => σ.handleStart control sends
  | .other => σ
  | .malformed => σ.abandonActive .closing
  | .disconnect => σ.abandonActive .closing

/-- The loop goes on once the task it waits for is done. -/
def stepLoop (σ : StreamSession vad asr) : Option (StreamSession vad asr) :=
  match σ.loop, σ.turn with
  | .cancelling next, some t => if t.pumpDone then some (σ.dropFinalize t next) else none
  | .dropping next, some t =>
      match t.finalize with
      | .done => some (σ.conclude next)
      | _ => none
  | _, _ => none

/-- A step of a task of the turn. -/
def stepTask (σ : StreamSession vad asr)
    (f : Turn vad asr → Option (Turn vad asr × List ServerFrame)) :
    Option (StreamSession vad asr) :=
  match σ.turn with
  | none => none
  | some t => (f t).map (fun r => { σ with turn := some r.1, sent := σ.sent ++ r.2 })

def step (σ : StreamSession vad asr) : StreamLabel → Option (StreamSession vad asr)
  | .client frame sends => if σ.loop = .receiving then some (σ.receive sends frame) else none
  | .loop => σ.stepLoop
  | .fan => σ.stepTask (fun t => t.stepFan.map (fun t => (t, [])))
  | .events sends => σ.stepTask (fun t => t.stepEvents (t.takes sends))
  | .pump sends => σ.stepTask (fun t => t.stepPump (t.takes sends))
  | .finalize reply sends => σ.stepTask (fun t => t.stepFinalize reply (t.takes sends))

/-- Run a list of steps. -/
def run (σ : StreamSession vad asr) (labels : List StreamLabel) :
    Option (StreamSession vad asr) :=
  runSteps step σ labels

/-- The frame makes the loop abandon the active turn. -/
def Abandons (σ : StreamSession vad asr) (sends : Bool) : ClientFrame → Prop
  | .start control =>
      ∀ sessionId turnId, control.sessionId = some sessionId → control.turnId = some turnId →
        (control.sceneId = none ∧ control.categoryPath = none) ∨
          (σ.sessionId ≠ none ∧ σ.sessionId ≠ some sessionId) ∨ σ.currentTurnId < turnId ∨
            takes sends (some sessionId) = false
  | .malformed => True
  | .disconnect => True
  | _ => False

/-- A START that names its turn abandons the active one for one of four reasons. -/
theorem abandons_start {σ : StreamSession vad asr} {sends : Bool} {control : StartControl}
    {sessionId : PyStr} {turnId : Int} (hsid : control.sessionId = some sessionId)
    (htid : control.turnId = some turnId)
    (hcase : (control.sceneId = none ∧ control.categoryPath = none) ∨
      (σ.sessionId ≠ none ∧ σ.sessionId ≠ some sessionId) ∨ σ.currentTurnId < turnId ∨
        takes sends (some sessionId) = false) :
    σ.Abandons sends (.start control) := by
  intro sessionId' turnId' hsid' htid'
  rw [hsid] at hsid'
  rw [htid] at htid'
  cases hsid'
  cases htid'
  exact hcase

/-- What a step of a task can do. -/
theorem stepTask_cases {σ σ' : StreamSession vad asr}
    {f : Turn vad asr → Option (Turn vad asr × List ServerFrame)}
    (hstep : σ.stepTask f = some σ') :
    ∃ t r, σ.turn = some t ∧ f t = some r ∧
      σ' = { σ with turn := some r.1, sent := σ.sent ++ r.2 } := by
  simp only [stepTask] at hstep
  split at hstep
  case h_1 => cases hstep
  case h_2 t hturn =>
    simp only [Option.map_eq_some_iff] at hstep
    obtain ⟨r, hr, hσ'⟩ := hstep
    exact ⟨t, r, hturn, hr, hσ'.symm⟩

/-- The step does not abandon a live turn unless `Allowed`. -/
def Guarded (Allowed : Turn vad asr → Prop) (σ : StreamSession vad asr) : StreamLabel → Prop
  | .client frame sends =>
      σ.Abandons sends frame → ∀ t, σ.turn = some t → t.cancelled = false → Allowed t
  | _ => True

/-- A property of the active turn and of where the loop stands that every step keeps
which abandons only `Allowed` turns: one closure condition for each thing that can
happen to a turn. -/
structure Maintained (Q : LoopPhase → Turn vad asr → Prop) (Allowed : Turn vad asr → Prop) :
    Prop where
  opened : ∀ maxAudioBytes sessionId turnId control nBest,
    Q .receiving (newTurn maxAudioBytes sessionId turnId control nBest)
  received : ∀ {t : Turn vad asr} item accum overflow, Q .receiving t → t.cancelled = false →
    Q .receiving
      { t with
        queue := t.queue ++ [item]
        audioAccum := accum
        audioOverflow := overflow }
  cancelled : ∀ {t : Turn vad asr} next, Q .receiving t → t.cancelled = false →
    t.pumpDone = false → Allowed t → Q (.cancelling next) t.markCancelled.cancelPump
  droppedCancelled : ∀ {t : Turn vad asr} next, Q .receiving t → t.cancelled = true →
    Q (.dropping next) t
  droppedDone : ∀ {t : Turn vad asr} next, Q .receiving t → t.cancelled = false →
    t.pumpDone = true → Q (.dropping next) t.markCancelled
  droppedAfter : ∀ {t : Turn vad asr} next next', Q (.cancelling next) t → t.pumpDone = true →
    Q (.dropping next') t
  finalizeCancelled : ∀ {t : Turn vad asr} next, Q (.dropping next) t →
    Q (.dropping next) t.cancelFinalize
  closed : ∀ {t : Turn vad asr} next, Q (.dropping next) t → Q .closed t
  task : ∀ {loop : LoopPhase} {t t' : Turn vad asr}, Q loop t → t.TaskStep t' → Q loop t'

/-- The property holds of the active turn, if there is one. -/
def Holds (Q : LoopPhase → Turn vad asr → Prop) (σ : StreamSession vad asr) : Prop :=
  ∀ t, σ.turn = some t → Q σ.loop t

namespace Maintained

variable {Q : LoopPhase → Turn vad asr → Prop} {Allowed : Turn vad asr → Prop}
  {σ σ' : StreamSession vad asr}

theorem conclude (h : Maintained Q Allowed) (next : After)
    (hdropped : ∀ t, σ.turn = some t → ∃ next', Q (.dropping next') t) :
    Holds Q (σ.conclude next) := by
  have hclosed : ∀ t, σ.turn = some t → Q .closed t := by
    intro t hturn
    obtain ⟨next', hq⟩ := hdropped t hturn
    exact h.closed next' hq
  cases next with
  | closing => exact hclosed
  | opening sessionId turnId control =>
      cases hn : control.nBest with
      | none =>
          simp only [StreamSession.conclude, hn]
          exact hclosed
      | some nBest =>
          intro t hturn
          simp only [StreamSession.conclude, hn, Option.some.injEq] at hturn ⊢
          subst hturn
          exact h.opened _ _ _ _ _

theorem dropFinalize (h : Maintained Q Allowed) {t : Turn vad asr} (next : After)
    (hdropped : Q (.dropping next) t) : Holds Q (σ.dropFinalize t next) := by
  simp only [StreamSession.dropFinalize]
  split
  · refine h.conclude next ?_
    intro t' hturn
    cases hturn
    exact ⟨next, hdropped⟩
  · intro t' hturn
    cases hturn
    exact h.finalizeCancelled next hdropped

theorem abandonActive (h : Maintained Q Allowed) (next : After) (hq : Holds Q σ)
    (hloop : σ.loop = .receiving)
    (hallowed : ∀ t, σ.turn = some t → t.cancelled = false → Allowed t) :
    Holds Q (σ.abandonActive next) := by
  simp only [StreamSession.abandonActive]
  split
  case h_1 hturn => exact h.conclude next (by simp [hturn])
  case h_2 t hturn =>
    have ht : Q .receiving t := hloop ▸ hq t hturn
    split_ifs with hcancelled hdone
    · exact h.dropFinalize next (h.droppedCancelled next ht hcancelled)
    · exact h.dropFinalize next (h.droppedDone next ht (by simpa using hcancelled) hdone)
    · intro t' hturn'
      cases hturn'
      have hlive : t.cancelled = false := by simpa using hcancelled
      exact h.cancelled next ht hlive (by simpa using hdone) (hallowed t hturn hlive)

theorem handlePcm (h : Maintained Q Allowed) (data : Pcm) (hq : Holds Q σ)
    (hloop : σ.loop = .receiving) : Holds Q (σ.handlePcm data) := by
  simp only [StreamSession.handlePcm]
  split
  case h_1 => exact hq
  case h_2 t hturn =>
    have ht : Q .receiving t := hloop ▸ hq t hturn
    split
    · exact hq
    · rename_i hcancelled
      intro t' hturn'
      cases hturn'
      have hlive : t.cancelled = false := by simpa using hcancelled
      simp only [hloop]
      split_ifs
      · exact h.received (t := t) (some data) t.audioAccum t.audioOverflow ht hlive
      · exact h.received (t := t) (some data) [] true ht hlive
      · exact h.received (t := t) (some data) (t.audioAccum ++ data) t.audioOverflow ht hlive

theorem handleStop (h : Maintained Q Allowed) (hq : Holds Q σ) (hloop : σ.loop = .receiving) :
    Holds Q σ.handleStop := by
  simp only [StreamSession.handleStop]
  split
  case h_1 => exact hq
  case h_2 t hturn =>
    have ht : Q .receiving t := hloop ▸ hq t hturn
    split_ifs with hcancelled
    · exact hq
    · intro t' hturn'
      cases hturn'
      simp only [hloop]
      exact h.received none t.audioAccum t.audioOverflow ht (by simpa using hcancelled)

theorem handleStart (h : Maintained Q Allowed) {control : StartControl} {sends : Bool}
    (hq : Holds Q σ) (hloop : σ.loop = .receiving)
    (hguard : σ.Guarded Allowed (.client (.start control) sends)) :
    Holds Q (σ.handleStart control sends) := by
  have habandon (next : After) (code message : String) (sid : Option PyStr) (tid : Option Int)
      (hframe : σ.Abandons sends (.start control)) :
      Holds Q ((σ.sendError sends sid tid code message true).abandonActive next) :=
    h.abandonActive (σ := σ.sendError sends sid tid code message true) next hq hloop
      (hguard hframe)
  simp only [StreamSession.handleStart]
  split
  case h_1 sessionId turnId hsid htid =>
    split_ifs with hscene hsession hstale htaken
    · exact habandon _ _ _ _ _ (abandons_start hsid htid (Or.inl hscene))
    · exact habandon _ _ _ _ _ (abandons_start hsid htid (Or.inr (Or.inl hsession)))
    · exact hq
    · have hframe : σ.Abandons sends (.start control) :=
        abandons_start hsid htid (Or.inr (Or.inr (Or.inr (by simpa using htaken))))
      exact h.abandonActive _ hq hloop (hguard hframe)
    · have hnewer : σ.currentTurnId < turnId := by omega
      have hframe : σ.Abandons sends (.start control) :=
        abandons_start hsid htid (Or.inr (Or.inr (Or.inl hnewer)))
      exact h.abandonActive _ hq hloop (hguard hframe)
  case h_2 hids =>
    refine habandon _ _ _ _ _ ?_
    intro sessionId turnId hsid htid
    exact absurd htid (hids sessionId turnId hsid)

theorem receive (h : Maintained Q Allowed) {frame : ClientFrame} {sends : Bool} (hq : Holds Q σ)
    (hloop : σ.loop = .receiving) (hguard : σ.Guarded Allowed (.client frame sends)) :
    Holds Q (σ.receive sends frame) := by
  cases frame with
  | pcm data => exact h.handlePcm data hq hloop
  | stop => exact h.handleStop hq hloop
  | start control => exact h.handleStart hq hloop hguard
  | other => exact hq
  | malformed => exact h.abandonActive .closing hq hloop (hguard trivial)
  | disconnect => exact h.abandonActive .closing hq hloop (hguard trivial)

theorem stepLoop (h : Maintained Q Allowed) (hq : Holds Q σ) (hstep : σ.stepLoop = some σ') :
    Holds Q σ' := by
  simp only [StreamSession.stepLoop] at hstep
  split at hstep
  case h_1 next t hloop hturn =>
    split_ifs at hstep with hdone
    cases hstep
    have ht := hq t hturn
    rw [hloop] at ht
    exact h.dropFinalize next (h.droppedAfter next next ht hdone)
  case h_2 next t hloop hturn =>
    split at hstep
    · cases hstep
      refine h.conclude next ?_
      intro t' hturn'
      exact ⟨next, hloop ▸ hq t' hturn'⟩
    · cases hstep
  case h_3 => cases hstep

theorem stepTask (h : Maintained Q Allowed)
    {f : Turn vad asr → Option (Turn vad asr × List ServerFrame)} (hq : Holds Q σ)
    (hf : ∀ t r, f t = some r → t.TaskStep r.1) (hstep : σ.stepTask f = some σ') :
    Holds Q σ' := by
  obtain ⟨t, r, hturn, hr, rfl⟩ := stepTask_cases hstep
  intro t' hturn'
  cases hturn'
  exact h.task (hq t hturn) (hf t r hr)

/-- One step of the connection. -/
theorem step (h : Maintained Q Allowed) {label : StreamLabel} (hq : Holds Q σ)
    (hguard : σ.Guarded Allowed label) (hstep : σ.step label = some σ') : Holds Q σ' := by
  cases label with
  | client frame sends =>
      simp only [StreamSession.step] at hstep
      split_ifs at hstep with hloop
      cases hstep
      exact h.receive hq hloop hguard
  | loop => exact h.stepLoop hq hstep
  | fan =>
      refine h.stepTask hq ?_ hstep
      intro t r hr
      simp only [Option.map_eq_some_iff] at hr
      obtain ⟨t', ht', rfl⟩ := hr
      exact .fan ht'
  | events sends => exact h.stepTask hq (fun _ _ hr => .events _ hr) hstep
  | pump sends => exact h.stepTask hq (fun _ _ hr => .pump _ hr) hstep
  | finalize reply sends => exact h.stepTask hq (fun _ _ hr => .finalize reply _ hr) hstep

/-- A run of a new connection whose steps are all guarded. -/
theorem run (h : Maintained Q Allowed) {maxAudioBytes : Nat} {labels : List StreamLabel}
    (hguarded : AlongRun StreamSession.step (Guarded Allowed) (accepted vad asr maxAudioBytes)
      labels)
    (hrun : (accepted vad asr maxAudioBytes).run labels = some σ) : Holds Q σ := by
  have hinit : Holds Q (accepted vad asr maxAudioBytes) := by
    intro t hturn
    cases hturn
  exact runSteps_invariant h.step hinit hguarded hrun

end Maintained

end StreamSession

section Examples

/-- A VAD that closes a segment with every chunk and reports no events. -/
def eagerVad : Vad where
  events :=
    { State := Bool
      start := true
      next := fun open_ => if open_ then .pull Option.isSome else .stop }
  segments :=
    { State := Option (Option Pcm)
      start := none
      next := fun
        | none => .pull some
        | some (some pcm) => .emit ⟨pcm, 16000, 0, 100⟩ none
        | some none => .stop }

/-- An ASR that hears "ok". -/
def okAsr : Asr where
  State := Bool
  start := true
  next := fun open_ => if open_ then .emit ⟨"ok", true, 0, 100⟩ false else .stop

def startFrame (turnId : Int) : StreamLabel :=
  .client (.start
    { sessionId := some "s"
      turnId := some turnId
      sceneId := some (.str "main")
      categoryPath := none })

/-- A turn whose first chunk has been passed on and is in the pump's hand. -/
def spoken : List StreamLabel :=
  [startFrame 1, .pump true, .finalize .ok true, .client (.pcm [1]), .fan, .events true, .pump true]

end Examples

end Api
end Sandroid
