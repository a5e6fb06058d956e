import Sandroid.Api.StreamSession

/-!
# Barge-in and disconnect

`_abandon_active` queues the sentinel, cancels the pump and waits for it.  Where
the pump stands decides what is cancelled: at `await fan_task` in its `finally` it
is `fan_out`, which then dies before it has passed the sentinel on, and
`forward_events`, for which the pump waits next, never gets one.

`not_deadlocked_of_orderly`: in a run in which no turn is abandoned while its pump
is at `await fan_task` with both tasks alive, the connection never gets there.
-/

namespace Sandroid
namespace Api

open Lib

variable {vad : Vad} {asr : Asr}

/-- The tasks the pump waits for. -/
inductive ChildTask where
  | fanOut
  | forwardEvents
deriving DecidableEq, Repr

/-- The queues these tasks read. -/
inductive QueueName where
  | client
  | events
deriving DecidableEq, Repr

namespace Turn

/-- The pump is at its `await` of the unfinished task. -/
def PumpAwaits (t : Turn vad asr) : ChildTask → Prop
  | .fanOut => (∃ outcome, t.pump = .joiningFan outcome) ∧ t.fan = .running
  | .forwardEvents => (∃ outcome, t.pump = .joiningEvents outcome) ∧ t.eventsRunning = true

/-- The task is at `get` on the empty queue. -/
def WaitsOn (t : Turn vad asr) : ChildTask → QueueName → Prop
  | .fanOut, .client => t.fan = .running ∧ t.fanCancel = false ∧ t.queue = []
  | .forwardEvents, .events =>
      t.eventsCancel = false ∧ t.eventsQ = [] ∧
        ∃ state resume, t.events = .running state false ∧ vad.events.next state = .pull resume
  | _, _ => False

end Turn

namespace StreamSession

/-- Some live task will still write to the queue: the loop to the client's queue
while it receives, `fan_out` to the other as long as there is something to pass on. -/
def WillWrite (σ : StreamSession vad asr) (t : Turn vad asr) : QueueName → Prop
  | .client => σ.loop = .receiving
  | .events => t.fan = .running ∧ t.fanCancel = false ∧ (t.queue ≠ [] ∨ σ.loop = .receiving)

/-- `_cancel_turn` waits for the pump, the pump for a task, and the task on a queue
to which nobody will write. -/
def Deadlocked (σ : StreamSession vad asr) : Prop :=
  ∃ next t task q, σ.loop = .cancelling next ∧ σ.turn = some t ∧
    t.PumpAwaits task ∧ t.WaitsOn task q ∧ ¬ σ.WillWrite t q

/-- The condition on a step: a turn is not abandoned while its pump waits for
`fan_out` with `forward_events` still alive. -/
def Orderly (σ : StreamSession vad asr) (label : StreamLabel) : Prop :=
  σ.Guarded (fun t => t.PumpAwaits .fanOut → t.eventsRunning = false) label

/-- Every step of the run is orderly. -/
def OrderlyRun (σ : StreamSession vad asr) (labels : List StreamLabel) : Prop :=
  AlongRun step Orderly σ labels

end StreamSession

/-- What holds of the active turn throughout an orderly run. -/
structure TurnInv (loop : LoopPhase) (t : Turn vad asr) : Prop where
  /-- `fan_out` has passed the sentinel on before it ended -/
  sentinel : t.fan = .done → t.eventsRunning = true →
    none ∈ t.eventsQ ∨ ∃ state, t.events = .running state true
  fanCancel : t.fanCancel = true → t.eventsRunning = false
  /-- the sentinel of `_cancel_turn` is on its way -/
  queued : (∃ next, loop = .cancelling next) → t.fan ≠ .done → t.fanCancel = false →
    none ∈ t.queue
  joined : (∃ outcome, t.pump = .joiningEvents outcome) → t.fan = .done
  pumpCancel : (∃ outcome, t.pump = .joiningFan outcome) → t.pumpCancel = true → t.fan = .done
  settled : loop = .receiving → t.cancelled = true → t.pumpDone = true
  dropped : (∃ next, loop = .dropping next) → t.pumpDone = true
  forked : t.fan = .absent → t.pump = .created ∨ t.pumpDone = true
  fresh : t.pump = .created → t.fan = .absent ∧ t.fanCancel = false

namespace TurnInv

variable {loop : LoopPhase} {t t' : Turn vad asr} {sends : Bool}
  {r : Turn vad asr × List ServerFrame}

theorem stepFan (h : TurnInv loop t) (hstep : t.stepFan = some t') : TurnInv loop t' := by
  obtain ⟨hfan, hcases⟩ := Turn.stepFan_cases hstep
  have hfresh : t.pump ≠ .created := by
    intro hpump
    rw [(h.fresh hpump).1] at hfan
    cases hfan
  obtain ⟨hcancel, rfl⟩ | ⟨item, queue, hcancel, hqueue, rfl⟩ := hcases
  · have hevents := h.fanCancel hcancel
    exact
      { sentinel := fun _ hrunning => absurd (hrunning.symm.trans hevents) (by simp)
        fanCancel := h.fanCancel
        queued := fun _ hfan _ => absurd rfl hfan
        joined := fun _ => rfl
        pumpCancel := fun _ _ => rfl
        settled := h.settled
        dropped := h.dropped
        forked := nofun
        fresh := fun hpump => absurd hpump hfresh }
  · cases item with
    | none =>
        exact
          { sentinel := fun _ _ => Or.inl (by simp)
            fanCancel := h.fanCancel
            queued := fun _ hfan _ => absurd rfl hfan
            joined := fun _ => rfl
            pumpCancel := fun _ _ => rfl
            settled := h.settled
            dropped := h.dropped
            forked := nofun
            fresh := fun hpump => absurd hpump hfresh }
    | some data =>
        have hjoined := h.joined
        have hpumpCancel := h.pumpCancel
        simp only [hfan, reduceCtorEq, imp_false] at hjoined hpumpCancel
        exact
          { sentinel := nofun
            fanCancel := h.fanCancel
            queued := by
              intro hloop _ hflag
              have hmem := h.queued hloop (by simp [hfan]) hflag
              simpa [hqueue] using hmem
            joined := fun hpump => absurd hpump hjoined
            pumpCancel := fun hpump hflag => absurd hflag (hpumpCancel hpump)
            settled := h.settled
            dropped := h.dropped
            forked := nofun
            fresh := fun hpump => absurd hpump hfresh }

theorem stepEvents (h : TurnInv loop t) (hstep : t.stepEvents sends = some r) :
    TurnInv loop r.1 := by
  have hmove := Turn.eventsMove_of_stepEvents hstep
  generalize r.1 = t' at hmove ⊢
  have hflag {state : vad.events.State} {ended : Bool} (hevents : t.events = .running state ended) :
      t.fanCancel = true → False := by
    intro hflag
    have hdone := h.fanCancel hflag
    simp [Turn.eventsRunning, hevents] at hdone
  cases hmove with
  | finish hevents =>
      exact
        { h with
          sentinel := fun _ hrunning => by simp [Turn.eventsRunning] at hrunning
          fanCancel := fun _ => rfl }
  | @emit state state' ended ev hevents hnext =>
      exact
        { h with
          sentinel := by
            intro hfan _
            cases h.sentinel hfan (by simp [Turn.eventsRunning, hevents]) with
            | inl hmem => exact Or.inl hmem
            | inr hended =>
                obtain ⟨state₀, hended⟩ := hended
                rw [hevents] at hended
                cases hended
                exact Or.inr ⟨state', rfl⟩
          fanCancel := fun hcancel => (hflag hevents hcancel).elim }
  | past hevents hnext =>
      exact
        { h with
          sentinel := fun _ _ => Or.inr ⟨_, rfl⟩
          fanCancel := fun hcancel => (hflag hevents hcancel).elim }
  | @take state resume item queue hevents hnext hqueue =>
      exact
        { h with
          sentinel := by
            intro hfan _
            cases item with
            | none => exact Or.inr ⟨_, rfl⟩
            | some data =>
                cases h.sentinel hfan (by simp [Turn.eventsRunning, hevents]) with
                | inl hmem => exact Or.inl (by simpa [hqueue] using hmem)
                | inr hended =>
                    obtain ⟨state₀, hended⟩ := hended
                    rw [hevents] at hended
                    cases hended
          fanCancel := fun hcancel => (hflag hevents hcancel).elim }

/-- The loop receives on a cancelled turn only after its pump is done. -/
theorem not_settled (h : TurnInv loop t) (hdone : t.pumpDone = false) :
    ¬ (loop = .receiving ∧ t.cancelled = true) := by
  intro hboth
  rw [h.settled hboth.1 hboth.2] at hdone
  cases hdone

theorem not_dropped (h : TurnInv loop t) (hdone : t.pumpDone = false) :
    ¬ ∃ next, loop = .dropping next := by
  intro hloop
  rw [h.dropped hloop] at hdone
  cases hdone

theorem fan_ne_absent (h : TurnInv loop t) (hpump : t.pump ≠ .created)
    (hdone : t.pumpDone = false) : t.fan ≠ .absent := by
  intro hfan
  cases h.forked hfan with
  | inl hcreated => exact hpump hcreated
  | inr hdone' => simp [hdone] at hdone'

/-- The pump goes on with a segment, or waits for `fan_out` without being cancelled. -/
theorem pumpOn (h : TurnInv loop t) (hpump : t.pump ≠ .created) (hdone : t.pumpDone = false)
    {pump : Pump vad asr} {queue : List (Option Pcm)} {pumpCancel : Bool}
    (hcreated : pump ≠ .created) (hevents : ∀ outcome, pump ≠ .joiningEvents outcome)
    (hfan : ∀ outcome, pump = .joiningFan outcome → pumpCancel = false) :
    TurnInv loop { t with segmentsQ := queue, pump := pump, pumpCancel := pumpCancel } :=
  { h with
    joined := by
      rintro ⟨outcome, hjoining⟩
      exact absurd hjoining (hevents outcome)
    pumpCancel := by
      rintro ⟨outcome, hjoining⟩ hcancel
      rw [hfan outcome hjoining] at hcancel
      cases hcancel
    settled := fun hloop hcancelled => absurd ⟨hloop, hcancelled⟩ (h.not_settled hdone)
    dropped := fun hloop => absurd hloop (h.not_dropped hdone)
    forked := fun habsent => absurd habsent (h.fan_ne_absent hpump hdone)
    fresh := fun hcreated' => absurd hcreated' hcreated }

theorem stepPump (h : TurnInv loop t) (hstep : t.stepPump sends = some r) :
    TurnInv loop r.1 := by
  have hmove := Turn.pumpMove_of_stepPump hstep
  generalize r.1 = t' at hmove ⊢
  cases hmove with
  | abort hpump hcancel =>
      exact
        { h with
          joined := nofun
          pumpCancel := nofun
          settled := fun _ _ => rfl
          dropped := fun _ => rfl
          forked := fun _ => Or.inr rfl
          fresh := nofun }
  | fork hpump =>
      have hdone : t.pumpDone = false := by simp [Turn.pumpDone, hpump]
      exact
        { sentinel := nofun
          fanCancel := fun hflag => by simp [h.fresh hpump] at hflag
          queued := fun hloop _ hflag => h.queued hloop (by simp [h.fresh hpump]) hflag
          joined := nofun
          pumpCancel := nofun
          settled := fun hloop hcancelled => absurd ⟨hloop, hcancelled⟩ (h.not_settled hdone)
          dropped := fun hloop => absurd hloop (h.not_dropped hdone)
          forked := nofun
          fresh := nofun }
  | read hpump =>
      have hdone : t.pumpDone = false := by simp [Turn.pumpDone, hpump]
      exact h.pumpOn (by simp [hpump]) hdone nofun nofun nofun
  | leave hpump =>
      have hdone : t.pumpDone = false := by simp [Turn.pumpDone, hpump]
      exact h.pumpOn (by simp [hpump]) hdone nofun nofun (fun _ _ => rfl)
  | joinFan hpump hfan =>
      have hdone : t.pumpDone = false := by simp [Turn.pumpDone, hpump]
      have hfan : t.fan = .done := hfan.elim id (h.pumpCancel ⟨_, hpump⟩)
      exact
        { h with
          joined := fun _ => hfan
          pumpCancel := nofun
          settled := fun hloop hcancelled => absurd ⟨hloop, hcancelled⟩ (h.not_settled hdone)
          dropped := fun hloop => absurd hloop (h.not_dropped hdone)
          forked := fun habsent => by simp [hfan] at habsent
          fresh := nofun }
  | joinEvents hpump hevents =>
      have hdone : t.pumpDone = false := by simp [Turn.pumpDone, hpump]
      have hfan : t.fan = .done := h.joined ⟨_, hpump⟩
      exact
        { h with
          joined := fun _ => hfan
          pumpCancel := fun _ _ => hfan
          settled := fun hloop hcancelled => absurd ⟨hloop, hcancelled⟩ (h.not_settled hdone)
          dropped := fun hloop => absurd hloop (h.not_dropped hdone)
          forked := fun habsent => by simp [hfan] at habsent
          fresh := fun hcreated => absurd hcreated (Turn.afterJoin_ne_created _) }
  | transcribe hpump =>
      have hdone : t.pumpDone = false := by simp [Turn.pumpDone, hpump]
      exact h.pumpOn (by simp [hpump]) hdone nofun nofun nofun
  | finish hpump hcancelled hcancel =>
      exact
        { h with
          joined := nofun
          pumpCancel := nofun
          settled := fun _ _ => rfl
          dropped := fun _ => rfl
          forked := fun _ => Or.inr rfl
          fresh := nofun }

theorem stepFinalize {reply : OrchestratorAnswer} (h : TurnInv loop t)
    (hstep : t.stepFinalize reply sends = some r) : TurnInv loop r.1 := by
  obtain ⟨finalize, finalizeCancel, hr⟩ := Turn.stepFinalize_cases hstep
  rw [hr]
  exact { h with }

/-- The sentinel that `_cancel_turn` puts before it cancels the pump. -/
theorem markCancelled (next : After) (h : TurnInv .receiving t) :
    TurnInv (.cancelling next) t.markCancelled :=
  { h with
    queued := fun _ _ _ => by simp [Turn.markCancelled]
    settled := nofun
    dropped := by
      rintro ⟨next', hnext⟩
      cases hnext }

/-- Cancelling the pump of an orderly turn. -/
theorem cancelPump {next : After} (h : TurnInv (.cancelling next) t)
    (horderly : t.PumpAwaits .fanOut → t.eventsRunning = false) :
    TurnInv (.cancelling next) t.cancelPump := by
  simp only [Turn.cancelPump]
  split
  case h_1 => exact h
  case h_2 outcome hpump =>
    split_ifs with hfan
    · exact
        { h with
          fanCancel := fun _ => horderly ⟨⟨outcome, hpump⟩, hfan⟩
          queued := fun _ _ hflag => by cases hflag
          fresh := fun hcreated => by simp [hpump] at hcreated }
    · have hfan' : t.fan = .done := by
        cases hcase : t.fan with
        | absent =>
            have hforked := h.forked hcase
            simp [hpump, Turn.pumpDone] at hforked
        | running => exact absurd hcase hfan
        | done => rfl
      exact { h with pumpCancel := fun _ _ => hfan' }
  case h_3 outcome hpump =>
    split_ifs
    · exact { h with }
    · exact { h with pumpCancel := fun _ _ => h.joined ⟨outcome, hpump⟩ }
  case h_4 hdone hfan hevents =>
    exact { h with pumpCancel := fun hpump => absurd hpump.choose_spec (hfan _) }

/-- Cancelling the finalizer of a turn whose pump is done. -/
theorem cancelFinalize (h : TurnInv loop t) (hdone : t.pumpDone = true) :
    TurnInv loop t.cancelFinalize := by
  simp only [Turn.cancelFinalize, hdone, if_true]
  split
  · exact h
  · exact { h with }
  · exact { h with }

theorem dropping {t : Turn vad asr} (next : After) (h : TurnInv loop t)
    (hdone : t.pumpDone = true) : TurnInv (.dropping next) t :=
  { h with
    queued := by
      rintro ⟨next', hnext⟩
      cases hnext
    settled := nofun
    dropped := fun _ => hdone }

theorem newTurn {maxAudioBytes : Nat} {sessionId : PyStr} {turnId nBest : Int}
    {control : StartControl} :
    TurnInv .receiving
      (StreamSession.newTurn maxAudioBytes sessionId turnId control nBest : Turn vad asr) :=
  { sentinel := nofun
    fanCancel := nofun
    queued := by
      rintro ⟨next, hnext⟩
      cases hnext
    joined := nofun
    pumpCancel := nofun
    settled := nofun
    dropped := by
      rintro ⟨next, hnext⟩
      cases hnext
    forked := fun _ => Or.inl rfl
    fresh := fun _ => ⟨rfl, rfl⟩ }

theorem received {item : Option Pcm} {accum : Pcm} {overflow : Bool} (h : TurnInv .receiving t) :
    TurnInv .receiving
      { t with
        queue := t.queue ++ [item]
        audioAccum := accum
        audioOverflow := overflow } :=
  { h with
    queued := by
      rintro ⟨next, hnext⟩
      cases hnext }

theorem gone {next : After} (h : TurnInv (.dropping next) t) : TurnInv .closed t :=
  { h with
    queued := by
      rintro ⟨next', hnext⟩
      cases hnext
    settled := nofun
    dropped := by
      rintro ⟨next', hnext⟩
      cases hnext }

theorem maintained : StreamSession.Maintained (@TurnInv vad asr)
    (fun t => t.PumpAwaits .fanOut → t.eventsRunning = false) where
  opened _ _ _ _ _ := newTurn
  received _ _ _ h _ := h.received
  cancelled next h _ _ hallowed := (h.markCancelled next).cancelPump hallowed
  droppedCancelled next h hcancelled := h.dropping next (h.settled rfl hcancelled)
  droppedDone next h _ hdone := (h.markCancelled next).dropping next hdone
  droppedAfter _ next' h hdone := h.dropping next' hdone
  finalizeCancelled next h := h.cancelFinalize (h.dropped ⟨next, rfl⟩)
  closed _ h := h.gone
  task h hstep := by
    cases hstep with
    | fan hfan => exact h.stepFan hfan
    | events sends hevents => exact h.stepEvents hevents
    | pump sends hpump => exact h.stepPump hpump
    | finalize reply sends hfinalize => exact h.stepFinalize hfinalize

end TurnInv

namespace StreamSession

/-- The invariant rules the deadlock out. -/
theorem not_deadlocked_of_inv {σ : StreamSession vad asr}
    (h : Holds TurnInv σ) : ¬ σ.Deadlocked := by
  intro hdead
  obtain ⟨next, t, task, q, hloop, hturn, hawaits, hwaits, -⟩ := hdead
  have ht := h t hturn
  cases task with
  | fanOut =>
      cases q with
      | events => exact hwaits
      | client =>
          obtain ⟨hfan, hcancel, hqueue⟩ := hwaits
          have hmem := ht.queued ⟨next, hloop⟩ (by simp [hfan]) hcancel
          simp [hqueue] at hmem
  | forwardEvents =>
      cases q with
      | client => exact hwaits
      | events =>
          obtain ⟨-, hqueue, state, resume, hevents, -⟩ := hwaits
          cases ht.sentinel (ht.joined hawaits.1) hawaits.2 with
          | inl hmem => simp [hqueue] at hmem
          | inr hended =>
              obtain ⟨state', hended⟩ := hended
              rw [hevents] at hended
              cases hended

/-- In an orderly run barge-in and disconnect never deadlock the connection. -/
theorem not_deadlocked_of_orderly (vad : Vad) (asr : Asr) (maxAudioBytes : Nat)
    (labels : List StreamLabel) (σ : StreamSession vad asr)
    (horderly : (accepted vad asr maxAudioBytes).OrderlyRun labels)
    (hrun : (accepted vad asr maxAudioBytes).run labels = some σ) : ¬ σ.Deadlocked := by
  exact not_deadlocked_of_inv (TurnInv.maintained.run horderly hrun)

section Examples

/-- Barge-in while the pump is still reading segments. -/
theorem not_deadlocked_early :
    ((accepted eagerVad okAsr 8).OrderlyRun (spoken ++ [startFrame 2, .pump true])) ∧
      ∃ σ, (accepted eagerVad okAsr 8).run (spoken ++ [startFrame 2, .pump true]) = some σ ∧
        (∃ next, σ.loop = .cancelling next) ∧ ¬ σ.Deadlocked := by
  have horderly : (accepted eagerVad okAsr 8).OrderlyRun
      (spoken ++ [startFrame 2, .pump true]) := by
    refine .cons ?_ rfl ?_
    · intro _ t hturn
      cases hturn
    refine .cons trivial rfl ?_
    refine .cons trivial rfl ?_
    refine .cons (fun habandons => habandons.elim) rfl ?_
    iterate 3 refine .cons trivial rfl ?_
    refine .cons ?_ rfl (.cons trivial rfl trivial)
    intro _ t hturn _ hawaits
    cases hturn
    obtain ⟨⟨outcome, hpump⟩, -⟩ := hawaits
    cases hpump
  exact ⟨horderly, _, rfl, ⟨_, rfl⟩, not_deadlocked_of_orderly _ _ _ _ _ horderly rfl⟩

/-- Barge-in after the VAD has closed its segment and before the client's stop. -/
theorem deadlocked_after_segment :
    ∃ σ, (accepted eagerVad okAsr 8).run
        (spoken ++ [.pump true, startFrame 2, .fan, .pump true]) = some σ ∧
      σ.Deadlocked ∧ ∀ label, σ.step label = none := by
  refine ⟨_, rfl, ?_, ?_⟩
  · refine ⟨_, _, .forwardEvents, .events, rfl, rfl, ⟨⟨_, rfl⟩, rfl⟩,
      ⟨rfl, rfl, true, Option.isSome, rfl, rfl⟩, ?_⟩
    intro hwrites
    cases hwrites.1
  · intro label
    cases label <;> rfl

end Examples

end StreamSession

end Api
end Sandroid
