import Mathlib.Logic.Relation
import Sandroid.Api.StreamSession

/-!
# Endpointing by the VAD

After the VAD has closed a segment the pump waits in its `finally` for `fan_out`,
which ends only on the sentinel.  `reachesAsr_iff`: from a state with a segment in
hand the tasks of the turn get to the ASR by themselves if and only if the client
has ended the stream, by a stop that is queued or has been taken by `fan_out`.
-/

namespace Sandroid
namespace Api

open Lib Relation

variable {vad : Vad} {asr : Asr}

/-- The pump has the VAD's first segment and has not come to the ASR yet. -/
def Turn.InHand (t : Turn vad asr) (seg : SegmentResult) : Prop :=
  t.pump = .joiningFan (.segment (some seg)) ∨ t.pump = .joiningEvents (.segment (some seg))

/-- The pump starts the ASR on the segment. -/
def Turn.StartsAsr (t : Turn vad asr) (seg : SegmentResult) : Prop :=
  t.pump = .recognizing seg asr.start (segmentChunks seg) ""

/-- Steps that need no frame of the client. -/
def StreamLabel.Internal : StreamLabel → Prop
  | .client _ _ => False
  | .loop => False
  | _ => True

/-- A segment is in hand and `fan_out` has no sentinel to end on. -/
structure Starved (t : Turn vad asr) (seg : SegmentResult) : Prop where
  pump : t.pump = .joiningFan (.segment (some seg))
  pumpCancel : t.pumpCancel = false
  fan : t.fan = .running
  fanCancel : t.fanCancel = false
  queue : none ∉ t.queue

namespace Starved

variable {t t' : Turn vad asr} {seg : SegmentResult}

/-- The tasks alone never end the wait. -/
theorem step (h : Starved t seg) (hstep : t.TaskStep t') : Starved t' seg := by
  cases hstep with
  | fan hfan =>
      obtain ⟨-, ⟨hcancel, -⟩ | ⟨item, queue, -, hqueue, rfl⟩⟩ := Turn.stepFan_cases hfan
      · simp [h.fanCancel] at hcancel
      · have hnot := h.queue
        rw [hqueue] at hnot
        cases item with
        | none => simp at hnot
        | some data => exact { h with fan := rfl, queue := by simpa using hnot }
  | @events r sends hevents =>
      have hmove := Turn.eventsMove_of_stepEvents hevents
      generalize r.1 = t' at hmove ⊢
      cases hmove with
      | finish _ => exact { h with }
      | emit _ _ => exact { h with }
      | past _ _ => exact { h with }
      | take _ _ _ => exact { h with }
  | pump sends hpump =>
      have hmove := (Turn.pumpMove_of_stepPump hpump).of_joiningFan h.pump
      simp [h.fan, h.pumpCancel] at hmove
  | finalize reply sends hfinalize =>
      obtain ⟨_, _, hr⟩ := Turn.stepFinalize_cases hfinalize
      exact hr ▸ { h with }

theorem not_startsAsr (h : Starved t seg) (hsteps : ReflTransGen Turn.TaskStep t t')
    (seg' : SegmentResult) : ¬ t'.StartsAsr seg' := by
  have hstarved : Starved t' seg := by
    induction hsteps with
    | refl => exact h
    | tail _ hstep ih => exact ih.step hstep
  simp [Turn.StartsAsr, hstarved.pump]

end Starved

/-- What holds of a turn that has not been cancelled. -/
structure LiveInv (t : Turn vad asr) : Prop where
  fanCancel : t.fanCancel = false
  eventsCancel : t.eventsCancel = false
  pumpCancel : t.pumpCancel = false
  forked : t.fan = .absent → t.pump = .created
  fresh : t.pump = .created → t.fan = .absent
  joined : (∃ outcome, t.pump = .joiningEvents outcome) → t.fan = .done
  /-- `fan_out` ends by passing the sentinel on -/
  sentinel : ∀ state, t.fan = .done → t.events = .running state false → none ∈ t.eventsQ
  /-- the events stream ends with its source -/
  finishes : ∀ state, t.events = .running state false → ∀ xs, vad.events.Finishes state xs
  finishing : ∀ state, t.events = .running state true → vad.events.Finishes state []

namespace LiveInv

variable {t t' : Turn vad asr}

theorem stepFan (h : LiveInv t) (hstep : t.stepFan = some t') : LiveInv t' := by
  obtain ⟨hfan, ⟨hcancel, -⟩ | ⟨item, queue, -, hqueue, rfl⟩⟩ := Turn.stepFan_cases hstep
  · simp [h.fanCancel] at hcancel
  · have hfresh : t.pump ≠ .created := by
      intro hpump
      rw [h.fresh hpump] at hfan
      cases hfan
    have hjoined : ¬ ∃ outcome, t.pump = .joiningEvents outcome := by
      intro hpump
      rw [h.joined hpump] at hfan
      cases hfan
    cases item with
    | none =>
        exact
          { h with
            forked := nofun
            fresh := fun hpump => absurd hpump hfresh
            joined := fun _ => rfl
            sentinel := fun _ _ _ => by simp }
    | some data =>
        exact
          { h with
            forked := nofun
            fresh := fun hpump => absurd hpump hfresh
            joined := fun hpump => absurd hpump hjoined
            sentinel := nofun }

/-- The events stream goes on behind the end of its source. -/
theorem behindEnd (h : LiveInv t) {state : vad.events.State} {queue : List (Option Pcm)}
    (hrest : vad.events.Finishes state []) :
    LiveInv { t with events := .running state true, eventsQ := queue } :=
  { h with
    sentinel := nofun
    finishes := nofun
    finishing := by
      intro state₁ hevents₁
      cases hevents₁
      exact hrest }

theorem stepEvents {sends : Bool} {r : Turn vad asr × List ServerFrame} (h : LiveInv t)
    (hstep : t.stepEvents sends = some r) : LiveInv r.1 := by
  have hmove := Turn.eventsMove_of_stepEvents hstep
  generalize r.1 = t' at hmove ⊢
  cases hmove with
  | finish hevents =>
      exact { h with sentinel := nofun, finishes := nofun, finishing := nofun }
  | @emit state state' ended ev hevents hnext =>
      cases ended with
      | false =>
          have hrest : ∀ xs, vad.events.Finishes state' xs :=
            fun xs => (h.finishes state hevents xs).of_emit hnext
          exact
            { h with
              sentinel := fun _ hfan _ => h.sentinel state hfan hevents
              finishes := by
                intro state₁ hevents₁
                cases hevents₁
                exact hrest
              finishing := nofun }
      | true => exact h.behindEnd ((h.finishing state hevents).of_emit hnext)
  | @past state resume hevents hnext =>
      exact h.behindEnd ((h.finishing state hevents).of_finish hnext)
  | @take state resume item queue hevents hnext hqueue =>
      cases item with
      | none => exact h.behindEnd ((h.finishes state hevents []).of_finish hnext)
      | some data =>
          have hrest : ∀ xs, vad.events.Finishes (resume (some data)) xs :=
            fun xs => (h.finishes state hevents (data :: xs)).of_pull hnext
          exact
            { h with
              sentinel := by
                intro state₁ hfan _
                have hmem := h.sentinel state hfan hevents
                simpa [hqueue] using hmem
              finishes := by
                intro state₁ hevents₁
                cases hevents₁
                exact hrest
              finishing := nofun }

theorem stepPump {sends : Bool} {r : Turn vad asr × List ServerFrame}
    (hvad : ∀ xs, vad.events.Finishes vad.events.start xs) (h : LiveInv t)
    (hstep : t.stepPump sends = some r) : LiveInv r.1 := by
  have hmove := Turn.pumpMove_of_stepPump hstep
  generalize r.1 = t' at hmove ⊢
  have hforked (hpump : t.pump ≠ .created) : t.fan ≠ .absent := fun hfan => hpump (h.forked hfan)
  cases hmove with
  | abort hpump hcancel => simp [h.pumpCancel] at hcancel
  | fork hpump =>
      exact
        { h with
          forked := nofun
          fresh := nofun
          joined := nofun
          sentinel := nofun
          finishes := by
            intro state hevents
            cases hevents
            exact hvad
          finishing := nofun }
  | read hpump =>
      exact
        { h with
          forked := fun hfan => absurd hfan (hforked (by simp [hpump]))
          fresh := nofun
          joined := nofun }
  | leave hpump =>
      exact
        { h with
          pumpCancel := rfl
          forked := fun hfan => absurd hfan (hforked (by simp [hpump]))
          fresh := nofun
          joined := nofun }
  | joinFan hpump hfan =>
      have hdone : t.fan = .done := hfan.resolve_right (by simp [h.pumpCancel])
      exact
        { h with
          pumpCancel := rfl
          forked := fun hfan => absurd hfan (hforked (by simp [hpump]))
          fresh := nofun
          joined := fun _ => hdone }
  | joinEvents hpump hevents =>
      have hdone : t.fan = .done := h.joined ⟨_, hpump⟩
      exact
        { h with
          pumpCancel := rfl
          forked := fun hfan => absurd hfan (hforked (by simp [hpump]))
          fresh := fun hcreated => absurd hcreated (Turn.afterJoin_ne_created _)
          joined := fun _ => hdone }
  | transcribe hpump =>
      exact
        { h with
          forked := fun hfan => absurd hfan (hforked (by simp [hpump]))
          fresh := nofun
          joined := nofun }
  | finish hpump hcancelled hcancel =>
      exact
        { h with
          pumpCancel := hcancel h.pumpCancel
          forked := fun hfan => absurd hfan (hforked (by simp [hpump]))
          fresh := nofun
          joined := nofun }

theorem stepFinalize {reply : OrchestratorAnswer} {sends : Bool}
    {r : Turn vad asr × List ServerFrame} (h : LiveInv t)
    (hstep : t.stepFinalize reply sends = some r) : LiveInv r.1 := by
  obtain ⟨_, _, hr⟩ := Turn.stepFinalize_cases hstep
  rw [hr]
  exact { h with }

theorem taskStep (hvad : ∀ xs, vad.events.Finishes vad.events.start xs) (h : LiveInv t)
    (hstep : t.TaskStep t') : LiveInv t' := by
  cases hstep with
  | fan hfan => exact h.stepFan hfan
  | events sends hevents => exact h.stepEvents hevents
  | pump sends hpump => exact h.stepPump hvad hpump
  | finalize reply sends hfinalize => exact h.stepFinalize hfinalize

theorem taskSteps (hvad : ∀ xs, vad.events.Finishes vad.events.start xs) (h : LiveInv t)
    (hsteps : ReflTransGen Turn.TaskStep t t') : LiveInv t' := by
  induction hsteps with
  | refl => exact h
  | tail _ hstep ih => exact ih.taskStep hvad hstep

/-- The loop receives as long as the turn is live. -/
theorem maintained (hvad : ∀ xs, vad.events.Finishes vad.events.start xs) :
    StreamSession.Maintained
      (fun loop (t : Turn vad asr) => t.cancelled = false → loop = .receiving ∧ LiveInv t)
      (fun _ => True) where
  opened maxAudioBytes sessionId turnId control nBest := fun _ =>
    ⟨rfl,
      { fanCancel := rfl
        eventsCancel := rfl
        pumpCancel := rfl
        forked := fun _ => rfl
        fresh := fun _ => rfl
        joined := nofun
        sentinel := nofun
        finishes := nofun
        finishing := nofun }⟩
  received _ _ _ h hlive := fun _ => ⟨rfl, { (h hlive).2 with }⟩
  cancelled _ _ _ _ _ := by simp [Turn.markCancelled]
  droppedCancelled _ _ hcancelled := by simp [hcancelled]
  droppedDone _ _ _ _ := by simp [Turn.markCancelled]
  droppedAfter _ _ h _ := fun hlive => nomatch (h hlive).1
  finalizeCancelled _ h := by
    intro hlive
    rw [Turn.cancelled_cancelFinalize] at hlive
    exact nomatch (h hlive).1
  closed _ h := fun hlive => nomatch (h hlive).1
  task {loop t t'} h hstep := by
    intro hlive
    have hlive' : t.cancelled = false := by
      by_contra hcancelled
      rw [hstep.cancelled (by simpa using hcancelled)] at hlive
      cases hlive
    exact ⟨(h hlive').1, (h hlive').2.taskStep hvad hstep⟩

end LiveInv

section Progress

variable {t : Turn vad asr}

/-- Up to its first sentinel a queue holds chunks. -/
theorem exists_chunks_of_mem : ∀ {queue : List (Option Pcm)}, none ∈ queue →
    ∃ (chunks : List Pcm) (rest : List (Option Pcm)), queue = chunks.map some ++ none :: rest
  | [], h => by simp at h
  | none :: queue, _ => ⟨[], queue, rfl⟩
  | some data :: queue, h => by
      obtain ⟨chunks, rest, hqueue⟩ := exists_chunks_of_mem (by simpa using h)
      exact ⟨data :: chunks, rest, by simp [hqueue]⟩

/-- With a sentinel in its queue `fan_out` passes everything up to it on and ends. -/
theorem fan_ends (chunks : List Pcm) : ∀ {t : Turn vad asr} {rest : List (Option Pcm)},
    t.fan = .running → t.fanCancel = false → t.queue = chunks.map some ++ none :: rest →
      ∃ segmentsQ, ReflTransGen Turn.TaskStep t
        { t with
          queue := rest
          eventsQ := t.eventsQ ++ (chunks.map some ++ [none])
          segmentsQ := segmentsQ
          fan := .done } := by
  induction chunks with
  | nil =>
      intro t rest hfan hflag hqueue
      refine ⟨t.segmentsQ ++ [none], .single (.fan ?_)⟩
      simp [Turn.stepFan, hfan, hflag, hqueue]
  | cons data chunks ih =>
      intro t rest hfan hflag hqueue
      have hstep : t.stepFan = some
          { t with
            queue := chunks.map some ++ none :: rest
            eventsQ := t.eventsQ ++ [some data]
            segmentsQ := t.segmentsQ ++ [some data]
            fan := .running } := by
        simp [Turn.stepFan, hfan, hflag, hqueue]
      obtain ⟨segmentsQ, hsteps⟩ := ih (t :=
          { t with
            queue := chunks.map some ++ none :: rest
            eventsQ := t.eventsQ ++ [some data]
            segmentsQ := t.segmentsQ ++ [some data]
            fan := .running }) rfl hflag rfl
      refine ⟨segmentsQ, .head (.fan hstep) ?_⟩
      simpa using hsteps

/-- With a sentinel in its queue, or past it, `forward_events` ends with its
generator. -/
theorem events_end {state : vad.events.State} {chunks : List Pcm}
    (h : vad.events.Finishes state chunks) : ∀ {t : Turn vad asr} {ended : Bool},
      t.events = .running state ended → t.eventsCancel = false →
      (ended = true ∧ chunks = []) ∨
        (ended = false ∧ ∃ rest, t.eventsQ = chunks.map some ++ none :: rest) →
      ∃ eventsQ, ReflTransGen Turn.TaskStep t { t with eventsQ := eventsQ, events := .done } := by
  induction h with
  | stop hnext =>
      intro t ended hevents hflag _
      refine ⟨t.eventsQ, .single (.events (r := (_, [])) true ?_)⟩
      simp [Turn.stepEvents, hevents, hflag, hnext]
  | fail hnext =>
      intro t ended hevents hflag _
      refine ⟨t.eventsQ, .single (.events (r := (_, [])) true ?_)⟩
      simp [Turn.stepEvents, hevents, hflag, hnext]
  | @emit state state' chunks ev hnext hrest ih =>
      intro t ended hevents hflag hsource
      by_cases hcancelled : t.cancelled = true
      · refine ⟨t.eventsQ, .single (.events (r := (_, [])) true ?_)⟩
        simp [Turn.stepEvents, hevents, hflag, hnext, hcancelled]
      · cases htaken : t.takes true with
        | false =>
            refine ⟨t.eventsQ, .single (.events (r := (_, [])) true ?_)⟩
            simp [Turn.stepEvents, hevents, hflag, hnext, hcancelled, htaken]
        | true =>
            obtain ⟨eventsQ, hsteps⟩ := ih (t := { t with events := .running state' ended }) rfl
              hflag hsource
            refine ⟨eventsQ,
              .head (.events (r := (_, [t.frame (.event ev.kind ev.atMs)])) true ?_) hsteps⟩
            simp [Turn.stepEvents, hevents, hflag, hnext, hcancelled, htaken]
  | @pull state data chunks resume hnext hrest ih =>
      intro t ended hevents hflag hsource
      obtain ⟨-, hnil⟩ | ⟨hopen, rest, hqueue⟩ := hsource
      · cases hnil
      · obtain ⟨eventsQ, hsteps⟩ := ih (t :=
            { t with
              eventsQ := chunks.map some ++ none :: rest
              events := .running (resume (some data)) false }) rfl hflag
          (Or.inr ⟨rfl, rest, rfl⟩)
        refine ⟨eventsQ, .head (.events (r := (_, [])) true ?_) hsteps⟩
        simp [Turn.stepEvents, hevents, hflag, hnext, hopen, hqueue]
  | @finish state resume hnext hrest ih =>
      intro t ended hevents hflag hsource
      obtain ⟨hended, -⟩ | ⟨hopen, rest, hqueue⟩ := hsource
      · obtain ⟨eventsQ, hsteps⟩ := ih (t := { t with events := .running (resume none) true }) rfl
          hflag (Or.inl ⟨rfl, rfl⟩)
        refine ⟨eventsQ, .head (.events (r := (_, [])) true ?_) hsteps⟩
        simp [Turn.stepEvents, hevents, hflag, hnext, hended]
      · obtain ⟨eventsQ, hsteps⟩ := ih (t :=
            { t with eventsQ := rest, events := .running (resume none) true }) rfl hflag
          (Or.inl ⟨rfl, rfl⟩)
        refine ⟨eventsQ, .head (.events (r := (_, [])) true ?_) hsteps⟩
        simp [Turn.stepEvents, hevents, hflag, hnext, hopen, hqueue]

/-- Once `fan_out` is done, the pump gets from `await events_task` to the ASR. -/
theorem startsAsr_of_joiningEvents {seg : SegmentResult} (h : LiveInv t)
    (hlive : t.cancelled = false) (hpcm : seg.pcm16 ≠ [])
    (hpump : t.pump = .joiningEvents (.segment (some seg))) :
    ∃ t', ReflTransGen Turn.TaskStep t t' ∧ t'.StartsAsr seg := by
  have hfan := h.joined ⟨_, hpump⟩
  have hjoin {t₁ : Turn vad asr} (hpump₁ : t₁.pump = .joiningEvents (.segment (some seg)))
      (hevents₁ : t₁.eventsRunning = false) (hlive₁ : t₁.cancelled = false) :
      ∃ t', t₁.TaskStep t' ∧ t'.StartsAsr seg := by
    refine ⟨_, .pump (r := ({ t₁ with
        pump := t₁.afterJoin (.segment (some seg))
        pumpCancel := false }, [])) true ?_, ?_⟩
    · simp [Turn.stepPump, hpump₁, hevents₁]
    · simp [Turn.StartsAsr, Turn.afterJoin, hlive₁, hpcm]
  have hends : ∃ t₁, ReflTransGen Turn.TaskStep t t₁ ∧ t₁.pump = t.pump ∧
      t₁.eventsRunning = false ∧ t₁.cancelled = false := by
    cases hevents : t.events with
    | absent => exact ⟨t, .refl, rfl, by simp [Turn.eventsRunning, hevents], hlive⟩
    | done => exact ⟨t, .refl, rfl, by simp [Turn.eventsRunning, hevents], hlive⟩
    | running state ended =>
        cases ended with
        | true =>
            obtain ⟨eventsQ, hsteps⟩ := events_end (h.finishing state hevents) hevents
              h.eventsCancel (Or.inl ⟨rfl, rfl⟩)
            exact ⟨_, hsteps, rfl, rfl, hlive⟩
        | false =>
            obtain ⟨chunks, rest, hqueue⟩ := exists_chunks_of_mem (h.sentinel state hfan hevents)
            obtain ⟨eventsQ, hsteps⟩ := events_end (h.finishes state hevents chunks) hevents
              h.eventsCancel (Or.inr ⟨rfl, rest, hqueue⟩)
            exact ⟨_, hsteps, rfl, rfl, hlive⟩
  obtain ⟨t₁, hsteps, hpump₁, hevents₁, hlive₁⟩ := hends
  obtain ⟨t', hstep, hasr⟩ := hjoin (hpump₁.trans hpump) hevents₁ hlive₁
  exact ⟨t', hsteps.tail hstep, hasr⟩

/-- With the end of the stream queued or taken, a segment in hand gets to the ASR. -/
theorem startsAsr_of_ended {seg : SegmentResult}
    (hvad : ∀ xs, vad.events.Finishes vad.events.start xs) (h : LiveInv t)
    (hlive : t.cancelled = false) (hpcm : seg.pcm16 ≠ []) (hhand : t.InHand seg)
    (hended : t.fan = .done ∨ none ∈ t.queue) :
    ∃ t', ReflTransGen Turn.TaskStep t t' ∧ t'.StartsAsr seg := by
  cases hhand with
  | inr hpump => exact startsAsr_of_joiningEvents h hlive hpcm hpump
  | inl hpump =>
      have hfanEnds : ∃ t₁, ReflTransGen Turn.TaskStep t t₁ ∧ t₁.pump = t.pump ∧
          t₁.fan = .done ∧ t₁.cancelled = false := by
        cases hfan : t.fan with
        | absent =>
            have hcreated := h.forked hfan
            rw [hpump] at hcreated
            cases hcreated
        | done => exact ⟨t, .refl, rfl, hfan, hlive⟩
        | running =>
            obtain ⟨chunks, rest, hqueue⟩ := exists_chunks_of_mem
              (hended.resolve_left (by simp [hfan]))
            obtain ⟨segmentsQ, hsteps⟩ := fan_ends chunks hfan h.fanCancel hqueue
            exact ⟨_, hsteps, rfl, rfl, hlive⟩
      obtain ⟨t₁, hsteps, hpump₁, hfan₁, hlive₁⟩ := hfanEnds
      have hjoin : t₁.TaskStep
          { t₁ with pump := .joiningEvents (.segment (some seg)), pumpCancel := false } := by
        refine .pump (r := (_, [])) true ?_
        simp [Turn.stepPump, hpump₁, hpump, hfan₁]
      obtain ⟨t', hsteps', hasr⟩ := startsAsr_of_joiningEvents
        ((h.taskSteps hvad hsteps).taskStep hvad hjoin) hlive₁ hpcm rfl
      exact ⟨t', (hsteps.tail hjoin).trans hsteps', hasr⟩

end Progress

namespace StreamSession

def InternalStep (σ σ' : StreamSession vad asr) : Prop :=
  ∃ label, label.Internal ∧ σ.step label = some σ'

/-- The tasks of the turn can get to the ASR run on the segment by themselves. -/
def ReachesAsr (σ : StreamSession vad asr) (seg : SegmentResult) : Prop :=
  ∃ σ' t, ReflTransGen InternalStep σ σ' ∧ σ'.turn = some t ∧ t.StartsAsr seg

variable {σ σ' : StreamSession vad asr} {t t' : Turn vad asr}

theorem taskStep_of_internalStep (hturn : σ.turn = some t) (h : InternalStep σ σ') :
    ∃ t', σ'.turn = some t' ∧ t.TaskStep t' := by
  obtain ⟨label, hinternal, hstep⟩ := h
  cases label with
  | client frame sends => exact hinternal.elim
  | loop => exact hinternal.elim
  | fan =>
      simp only [step, stepTask, hturn, Option.map_map, Option.map_eq_some_iff] at hstep
      obtain ⟨t', ht', rfl⟩ := hstep
      exact ⟨t', rfl, .fan ht'⟩
  | events sends =>
      simp only [step, stepTask, hturn, Option.map_eq_some_iff] at hstep
      obtain ⟨r, hr, rfl⟩ := hstep
      exact ⟨r.1, rfl, .events sends hr⟩
  | pump sends =>
      simp only [step, stepTask, hturn, Option.map_eq_some_iff] at hstep
      obtain ⟨r, hr, rfl⟩ := hstep
      exact ⟨r.1, rfl, .pump sends hr⟩
  | finalize reply sends =>
      simp only [step, stepTask, hturn, Option.map_eq_some_iff] at hstep
      obtain ⟨r, hr, rfl⟩ := hstep
      exact ⟨r.1, rfl, .finalize reply sends hr⟩

theorem internalStep_of_taskStep (hturn : σ.turn = some t) (h : t.TaskStep t') :
    ∃ σ', InternalStep σ σ' ∧ σ'.turn = some t' := by
  cases h with
  | fan h => exact ⟨_, ⟨.fan, trivial, by simp only [step, stepTask, hturn, h]; rfl⟩, rfl⟩
  | events sends h =>
      exact ⟨_, ⟨.events sends, trivial, by simp only [step, stepTask, hturn, h]; rfl⟩, rfl⟩
  | pump sends h =>
      exact ⟨_, ⟨.pump sends, trivial, by simp only [step, stepTask, hturn, h]; rfl⟩, rfl⟩
  | finalize reply sends h =>
      exact ⟨_, ⟨.finalize reply sends, trivial, by simp only [step, stepTask, hturn, h]; rfl⟩,
        rfl⟩

/-- The ASR is reached by the connection's internal steps just when it is reached by
the turn's tasks. -/
theorem reachesAsr_iff_taskSteps {seg : SegmentResult} (hturn : σ.turn = some t) :
    σ.ReachesAsr seg ↔ ∃ t', ReflTransGen Turn.TaskStep t t' ∧ t'.StartsAsr seg := by
  constructor
  · intro h
    obtain ⟨σ', t', hsteps, hturn', hasr⟩ := h
    suffices hsuff : ∃ t₁, σ'.turn = some t₁ ∧ ReflTransGen Turn.TaskStep t t₁ by
      obtain ⟨t₁, hturn₁, hsteps₁⟩ := hsuff
      rw [hturn'] at hturn₁
      cases hturn₁
      exact ⟨t', hsteps₁, hasr⟩
    clear hturn' hasr
    induction hsteps with
    | refl => exact ⟨t, hturn, .refl⟩
    | tail _ hstep ih =>
        obtain ⟨t₁, hturn₁, hsteps₁⟩ := ih
        obtain ⟨t₂, hturn₂, hstep₂⟩ := taskStep_of_internalStep hturn₁ hstep
        exact ⟨t₂, hturn₂, hsteps₁.tail hstep₂⟩
  · intro h
    obtain ⟨t', hsteps, hasr⟩ := h
    suffices hsuff : ∃ σ', ReflTransGen InternalStep σ σ' ∧ σ'.turn = some t' by
      obtain ⟨σ', hsteps', hturn'⟩ := hsuff
      exact ⟨σ', t', hsteps', hturn', hasr⟩
    clear hasr
    induction hsteps with
    | refl => exact ⟨σ, .refl, hturn⟩
    | tail _ hstep ih =>
        obtain ⟨σ₁, hsteps₁, hturn₁⟩ := ih
        obtain ⟨σ₂, hstep₂, hturn₂⟩ := internalStep_of_taskStep hturn₁ hstep
        exact ⟨σ₂, hsteps₁.tail hstep₂, hturn₂⟩

/-- With a segment in hand, a live turn gets to the ASR without the client just when
the end of the stream has been queued or taken. -/
theorem reachesAsr_iff (vad : Vad) (asr : Asr) (maxAudioBytes : Nat) (labels : List StreamLabel)
    (σ : StreamSession vad asr) (t : Turn vad asr) (seg : SegmentResult)
    (hvad : ∀ xs, vad.events.Finishes vad.events.start xs)
    (hrun : (accepted vad asr maxAudioBytes).run labels = some σ) (hturn : σ.turn = some t)
    (hlive : t.cancelled = false) (hhand : t.InHand seg) (hpcm : seg.pcm16 ≠ []) :
    σ.ReachesAsr seg ↔ t.fan = .done ∨ none ∈ t.queue := by
  have hguarded :
      AlongRun step (Guarded (fun _ => True)) (accepted vad asr maxAudioBytes) labels := by
    refine alongRun_of_forall ?_ _ _
    intro σ label
    cases label <;> simp [Guarded]
  have hinv : LiveInv t := ((LiveInv.maintained hvad).run hguarded hrun t hturn hlive).2
  rw [reachesAsr_iff_taskSteps hturn]
  constructor
  · intro h
    obtain ⟨t', hsteps, hasr⟩ := h
    by_contra hnot
    obtain ⟨hfan, hqueue⟩ := not_or.mp hnot
    have hpump : t.pump = .joiningFan (.segment (some seg)) :=
      hhand.resolve_right (fun hpump => hfan (hinv.joined ⟨_, hpump⟩))
    have hrunning : t.fan = .running := by
      cases hcase : t.fan with
      | absent =>
          have hcreated := hinv.forked hcase
          rw [hpump] at hcreated
          cases hcreated
      | running => rfl
      | done => exact absurd hcase hfan
    have hstarved : Starved t seg :=
      { pump := hpump
        pumpCancel := hinv.pumpCancel
        fan := hrunning
        fanCancel := hinv.fanCancel
        queue := hqueue }
    exact hstarved.not_startsAsr hsteps seg hasr
  · exact startsAsr_of_ended hvad hinv hlive hpcm hhand

section Examples

theorem eagerVad_finishes (chunks : List Pcm) :
    eagerVad.events.Finishes eagerVad.events.start chunks := by
  induction chunks with
  | nil => exact .finish rfl (.stop rfl)
  | cons data chunks ih => exact .pull rfl ih

theorem stopped_inHand :
    ∃ σ t, (accepted eagerVad okAsr 8).run (spoken ++ [.pump true, .client .stop]) = some σ ∧
      σ.turn = some t ∧ t.cancelled = false ∧ t.InHand ⟨[1], 16000, 0, 100⟩ ∧
      t.queue = [none] :=
  ⟨_, _, rfl, rfl, rfl, Or.inl rfl, rfl⟩

/-- After the client's stop the closed segment gets to the ASR. -/
theorem reachesAsr_stopped :
    ∃ σ, (accepted eagerVad okAsr 8).run (spoken ++ [.pump true, .client .stop]) = some σ ∧
      σ.ReachesAsr ⟨[1], 16000, 0, 100⟩ := by
  obtain ⟨σ, t, hrun, hturn, hlive, hhand, hqueue⟩ := stopped_inHand
  have hiff := reachesAsr_iff eagerVad okAsr 8 _ σ t _ eagerVad_finishes hrun hturn hlive hhand
    (by simp)
  exact ⟨σ, hrun, hiff.mpr (Or.inr (by simp [hqueue]))⟩

theorem spoken_blocked :
    ∃ σ t, (accepted eagerVad okAsr 8).run (spoken ++ [.pump true]) = some σ ∧
      σ.turn = some t ∧ t.cancelled = false ∧
      t.pump = .joiningFan (.segment (some ⟨[1], 16000, 0, 100⟩)) ∧
      ∀ label, label.Internal → σ.step label = none := by
  refine ⟨_, _, rfl, rfl, rfl, rfl, ?_⟩
  intro label hinternal
  cases label with
  | client frame sends => exact hinternal.elim
  | loop => exact hinternal.elim
  | fan => rfl
  | events sends => rfl
  | pump sends => rfl
  | finalize reply sends => rfl

/-- Without it every task is blocked with the segment in hand. -/
theorem not_reachesAsr_spoken :
    ∃ σ t, (accepted eagerVad okAsr 8).run (spoken ++ [.pump true]) = some σ ∧
      σ.turn = some t ∧ t.cancelled = false ∧ t.InHand ⟨[1], 16000, 0, 100⟩ ∧
      (∀ label, label.Internal → σ.step label = none) ∧ ¬ σ.ReachesAsr ⟨[1], 16000, 0, 100⟩ := by
  obtain ⟨σ, t, hrun, hturn, hlive, hpump, hblocked⟩ := spoken_blocked
  refine ⟨σ, t, hrun, hturn, hlive, Or.inl hpump, hblocked, ?_⟩
  intro h
  obtain ⟨σ', t', hsteps, hturn', hasr⟩ := h
  obtain heq | ⟨σ₁, ⟨label, hinternal, hstep⟩, -⟩ := hsteps.cases_head
  · rw [← heq, hturn] at hturn'
    cases hturn'
    simp [Turn.StartsAsr, hpump] at hasr
  · rw [hblocked label hinternal] at hstep
    cases hstep

end Examples

end StreamSession

end Api
end Sandroid
