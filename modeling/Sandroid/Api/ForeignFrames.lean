import Sandroid.Api.TurnAudio

/-!
# Frames for another turn

Every frame bears the ids of its session and turn, but the loop looks at those of a
`start` only: a late `stop` for an old turn ends the audio of the new one.

`foreign_spared_iff` says when a stop with other ids, or a start with an old id, leaves the
active turn alone, and that a turn which has heard no stop but its own still gets all of
its audio.
-/

namespace Sandroid
namespace Api

open Lib

variable {vad : Vad} {asr : Asr}

namespace StreamSession

variable {σ : StreamSession vad asr}

/-- A `stop` or `end` with ids that are not the connection's current ones, or a `start` whose
turn id is not new. -/
inductive Foreign (σ : StreamSession vad asr) (text : TextFrame) : Prop
  | stop (hframe : text.frame = .stop) (hids : text.matches σ = false)
  | start {control : StartControl} {turnId : Int} (hframe : text.frame = .start control)
      (hturnId : control.turnId = some turnId) (hold : turnId ≤ σ.currentTurnId)

/-- The start passes all checks of `handle_start` but that of its turn id, and the socket
takes the refusal. -/
def OnlyStale (σ : StreamSession vad asr) (control : StartControl) (sends : Bool) : Prop :=
  ¬ (control.sceneId = none ∧ control.categoryPath = none) ∧
    ∃ sessionId, control.sessionId = some sessionId ∧
      (σ.sessionId = none ∨ σ.sessionId = some sessionId) ∧
      takes sends (some sessionId) = true

/-- The frame does no harm: a stop finds no live turn, a start is refused as stale or finds
no turn that is not over. -/
def Spared (σ : StreamSession vad asr) (text : TextFrame) (sends : Bool) : Prop :=
  match text.frame with
  | .stop => ∀ t, σ.turn = some t → t.cancelled = true
  | .start control =>
      σ.OnlyStale control sends ∨
        ∀ t, σ.turn = some t → t.cancelled = true ∧ t.finalize = .done
  | _ => True

/-- A stop queues its sentinel unless the turn is cancelled. -/
theorem turn_handleStop_iff :
    σ.handleStop.turn = σ.turn ↔ ∀ t, σ.turn = some t → t.cancelled = true := by
  cases hturn : σ.turn with
  | none => simp [handleStop, hturn]
  | some t =>
      by_cases hcancelled : t.cancelled = true
      · simp [handleStop, hturn, hcancelled]
      · have hqueued : σ.handleStop.turn = some { t with queue := t.queue ++ [none] } := by
          simp only [handleStop, hturn]
          rw [if_neg hcancelled]
        rw [hqueued]
        refine iff_of_false ?_ (by simp [hcancelled])
        intro hsame
        have hlength := congrArg (fun t : Turn vad asr => t.queue.length) (Option.some.inj hsame)
        simp at hlength

theorem turn_dropFinalize_closing {t : Turn vad asr} :
    (t.finalize = .done ∧ (σ.dropFinalize t .closing).turn = some t) ∨
      (t.finalize ≠ .done ∧ (σ.dropFinalize t .closing).turn = some t.cancelFinalize) := by
  simp only [dropFinalize]
  split
  · exact Or.inl ⟨‹_›, rfl⟩
  · exact Or.inr ⟨‹_›, rfl⟩

/-- To close the connection the loop abandons the turn, unless it is over. -/
theorem turn_abandonActive_iff (hsettled : Holds Settled σ) (hloop : σ.loop = .receiving) :
    (σ.abandonActive .closing).turn = σ.turn ↔
      ∀ t, σ.turn = some t → t.cancelled = true ∧ t.finalize = .done := by
  cases hturn : σ.turn with
  | none => simp [abandonActive, hturn, conclude]
  | some t =>
      obtain ⟨hpumpDone, -, hflag⟩ := (hsettled t hturn).receiving hloop
      by_cases hcancelled : t.cancelled = true
      · simp only [abandonActive, hturn, hcancelled, if_true]
        rcases turn_dropFinalize_closing (σ := σ) (t := t) with ⟨hover, hdrop⟩ | ⟨hover, hdrop⟩
        · simp [hdrop, hover, hcancelled]
        · rw [hdrop]
          refine iff_of_false ?_ (by simp [hover])
          intro hsame
          have hset : t.cancelFinalize.finalizeCancel = true := by
            simp only [Turn.cancelFinalize]
            split
            · exact absurd ‹_› hover
            · rw [if_pos (hpumpDone hcancelled)]
            · rfl
          rw [Option.some.inj hsame, hflag] at hset
          cases hset
      · have hafter : ∃ t', (σ.abandonActive .closing).turn = some t' ∧ t'.cancelled = true := by
          simp only [abandonActive, hturn]
          rw [if_neg hcancelled]
          split_ifs
          · rcases turn_dropFinalize_closing (σ := σ) (t := t.markCancelled) with
              ⟨-, hdrop⟩ | ⟨-, hdrop⟩
            · exact ⟨_, hdrop, rfl⟩
            · refine ⟨_, hdrop, ?_⟩
              rw [Turn.cancelled_cancelFinalize]
              rfl
          · refine ⟨_, rfl, ?_⟩
            rw [Turn.cancelled_cancelPump]
            rfl
        refine iff_of_false ?_ (by simp [hcancelled])
        intro hsame
        obtain ⟨t', hturn', hcancelled'⟩ := hafter
        rw [hsame] at hturn'
        cases hturn'
        exact hcancelled hcancelled'

/-- A start with an old turn id. -/
theorem turn_handleStart_iff (hsettled : Holds Settled σ) (hloop : σ.loop = .receiving)
    {control : StartControl} {sends : Bool} {turnId : Int}
    (hturnId : control.turnId = some turnId) (hold : turnId ≤ σ.currentTurnId) :
    (σ.handleStart control sends).turn = σ.turn ↔
      σ.OnlyStale control sends ∨
        ∀ t, σ.turn = some t → t.cancelled = true ∧ t.finalize = .done := by
  have hclosing (σ₁ : StreamSession vad asr) (hsame : σ₁.turn = σ.turn)
      (hloop₁ : σ₁.loop = σ.loop) (hnot : ¬ σ.OnlyStale control sends) :
      (σ₁.abandonActive .closing).turn = σ.turn ↔
        σ.OnlyStale control sends ∨
          ∀ t, σ.turn = some t → t.cancelled = true ∧ t.finalize = .done := by
    have hsettled₁ : Holds Settled σ₁ := by
      intro t hturn
      rw [hloop₁]
      exact hsettled t (hsame ▸ hturn)
    have hiff := turn_abandonActive_iff hsettled₁ (hloop₁.trans hloop)
    rw [hsame] at hiff
    rw [hiff]
    exact ⟨Or.inr, fun h => h.resolve_left hnot⟩
  cases hsid : control.sessionId with
  | none =>
      simp only [handleStart, hsid]
      exact hclosing (σ.sendError _ _ _ _ _ _) rfl rfl (by simp [OnlyStale, hsid])
  | some sessionId =>
      simp only [handleStart, hsid, hturnId]
      by_cases hscene : control.sceneId = none ∧ control.categoryPath = none
      · rw [if_pos hscene]
        exact hclosing (σ.sendError _ _ _ _ _ _) rfl rfl (fun h => h.1 hscene)
      · rw [if_neg hscene]
        by_cases hsession : σ.sessionId ≠ none ∧ σ.sessionId ≠ some sessionId
        · rw [if_pos hsession]
          refine hclosing (σ.sendError _ _ _ _ _ _) rfl rfl ?_
          rintro ⟨-, sessionId', hsid', hsame, -⟩
          rw [hsid] at hsid'
          cases hsid'
          exact hsame.elim hsession.1 hsession.2
        · rw [if_neg hsession, if_pos hold]
          by_cases htaken : takes sends (some sessionId) = true
          · rw [if_pos htaken]
            refine iff_of_true rfl (Or.inl ⟨hscene, sessionId, hsid, ?_, htaken⟩)
            by_contra hother
            exact hsession (not_or.mp hother)
          · rw [if_neg htaken]
            refine hclosing σ rfl rfl ?_
            rintro ⟨-, sessionId', hsid', -, htaken'⟩
            rw [hsid] at hsid'
            cases hsid'
            exact htaken htaken'

/-- Exactly then a foreign frame leaves the active turn as it is. -/
theorem turn_receive_iff (hsettled : Holds Settled σ) (hloop : σ.loop = .receiving)
    {text : TextFrame} {sends : Bool} (h : Foreign σ text) :
    (σ.receive sends text.frame).turn = σ.turn ↔ Spared σ text sends := by
  cases h with
  | stop hframe hids =>
      simp only [Spared, hframe]
      exact turn_handleStop_iff
  | start hframe hturnId hold =>
      simp only [Spared, hframe]
      exact turn_handleStart_iff hsettled hloop hturnId hold

end StreamSession

namespace Listening

/-- A stop that reaches a live turn bears its ids. -/
def Correlated (l : Listening vad asr) (label : ListenLabel) : Prop :=
  l.Guarded (fun _ item => ∀ ours, item = .stop ours → ours = true) label

end Listening

/-- A live turn that has heard no stop has all of its audio: it is kept for Path B, and what
`fan_out` has not passed on is still in the queue. -/
structure WholeAudio (t : Turn vad asr) (heard : List Heard) : Prop where
  ours : t.cancelled = false → Heard.stop false ∉ heard
  kept : t.cancelled = false → Heard.stop true ∉ heard →
    t.requestAudio = pathB t.maxAudioBytes (pcmBeforeStop heard).flatten
  queued : t.cancelled = false → Heard.stop true ∉ heard →
    t.queue <:+ (pcmBeforeStop heard).map some

namespace WholeAudio

variable {t t' : Turn vad asr} {heard : List Heard} {label : StreamLabel}
  {bodies : List FrameBody}

/-- A step that leaves the audio alone. -/
theorem aside (h : WholeAudio t heard) (hcap : t'.maxAudioBytes = t.maxAudioBytes)
    (haudio : t'.requestAudio = t.requestAudio)
    (hcancelled : t'.cancelled = false → t.cancelled = false)
    (hqueue : t'.queue <:+ t.queue) : WholeAudio t' heard where
  ours hlive := h.ours (hcancelled hlive)
  kept hlive hnone := by
    rw [haudio, hcap]
    exact h.kept (hcancelled hlive) hnone
  queued hlive hnone := hqueue.trans (h.queued (hcancelled hlive) hnone)

theorem task (h : WholeAudio t heard) (hsends : t.Sends label t' bodies) :
    WholeAudio t' heard := by
  cases hsends with
  | fan hstep =>
      obtain ⟨-, ⟨-, rfl⟩ | ⟨item, queue, -, hqueue, rfl⟩⟩ := Turn.stepFan_cases hstep
      · exact h.aside rfl rfl id (List.suffix_refl _)
      · refine h.aside rfl rfl id ?_
        rw [hqueue]
        exact List.suffix_cons item queue
  | events sends hsends =>
      cases hsends with
      | silent hmove => cases hmove <;> exact h.aside rfl rfl id (List.suffix_refl _)
      | event => exact h.aside rfl rfl id (List.suffix_refl _)
  | pump sends hsends =>
      cases hsends with
      | early hearly hmove _ =>
          cases hmove with
          | finish hpump _ _ => simp [Turn.Early, hpump] at hearly
          | _ => exact h.aside rfl rfl id (List.suffix_refl _)
      | failed _ _ _ => exact h.aside rfl rfl (by simp) (List.suffix_refl _)
      | _ => exact h.aside rfl rfl id (List.suffix_refl _)
  | finalize reply sends hsends =>
      cases hsends <;> exact h.aside rfl rfl id (List.suffix_refl _)

/-- A live turn hears only stops of its own. -/
theorem listens : Listens (@WholeAudio vad asr)
    (fun _ item => ∀ ours, item = .stop ours → ours = true) where
  opened _ _ _ _ _ :=
    { ours := fun _ => by simp
      kept := fun _ _ => rfl
      queued := fun _ _ => List.nil_suffix }
  pcm {t heard} data h hlive _ := by
    have hsame : (t.hear data).maxAudioBytes = t.maxAudioBytes ∧
        (t.hear data).queue = t.queue ++ [some data] := by
      simp only [Turn.hear]
      split_ifs <;> exact ⟨rfl, rfl⟩
    have hmore (hnone : Heard.stop true ∉ heard ++ [.pcm data]) :
        Heard.stop true ∉ heard ∧
          pcmBeforeStop (heard ++ [.pcm data]) = pcmBeforeStop heard ++ [data] := by
      have hnone' : Heard.stop true ∉ heard := fun hmem => hnone (List.mem_append_left _ hmem)
      refine ⟨hnone', pcmBeforeStop_append ?_ data⟩
      intro ours
      cases ours
      · exact h.ours hlive
      · exact hnone'
    refine ⟨fun _ => by simpa using h.ours hlive, ?_, ?_⟩
    · intro _ hnone
      obtain ⟨hnone', hheard⟩ := hmore hnone
      rw [hsame.1, hheard, List.flatten_append, List.flatten_singleton]
      exact Turn.requestAudio_hear data (h.kept hlive hnone')
    · intro _ hnone
      obtain ⟨hnone', hheard⟩ := hmore hnone
      obtain ⟨passed, hpassed⟩ := h.queued hlive hnone'
      rw [hsame.2, hheard, List.map_append, ← hpassed]
      exact ⟨passed, by simp⟩
  stop {t heard} ours h hlive hallowed := by
    obtain rfl := hallowed ours rfl
    refine ⟨fun _ => by simpa using h.ours hlive, ?_, ?_⟩
    · intro _ hnone
      exact absurd (by simp) hnone
    · intro _ hnone
      exact absurd (by simp) hnone
  dropped _ _ hcancelled := by
    refine ⟨?_, ?_, ?_⟩ <;>
      · intro hlive
        simp [hcancelled] at hlive
  task _ h hsends := h.task hsends

end WholeAudio

/-- While the loop receives: a foreign frame leaves the queue, the audio and the tasks of the
active turn unchanged if and only if it is spared.  In a run in which only its own stops
reach a live turn, one that has heard none is not cut short: `fan_out` has not ended, there
is no sentinel for it, and a live turn has all the audio. -/
theorem foreign_spared_iff (vad : Vad) (asr : Asr) (maxAudioBytes : Nat)
    (labels : List ListenLabel) (l : Listening vad asr)
    (hrun : (Listening.accepted vad asr maxAudioBytes).run labels = some l)
    (hloop : l.session.loop = .receiving) :
    (∀ text sends, l.session.Foreign text →
      ((l.session.receive sends text.frame).turn = l.session.turn ↔
        l.session.Spared text sends)) ∧
      (AlongRun Listening.step Listening.Correlated (Listening.accepted vad asr maxAudioBytes)
          labels →
        ∀ t, l.session.turn = some t → Heard.stop true ∉ l.heard →
          t.fan ≠ .done ∧ none ∉ t.queue ∧
            (t.cancelled = false →
              t.requestAudio = pathB t.maxAudioBytes (pcmBeforeStop l.heard).flatten ∧
                t.queue <:+ (pcmBeforeStop l.heard).map some)) := by
  have hany : ∀ (l : Listening vad asr) (label : ListenLabel),
      l.Guarded (fun _ item => ∀ ours, item = .stop ours → True) label := by
    intro l label
    cases label with
    | message m sends => exact fun _ _ _ _ _ _ _ => trivial
    | other label => trivial
  have hinv := StopInv.listens.run (alongRun_of_forall hany _ _) hrun
  refine ⟨fun text sends h => StreamSession.turn_receive_iff hinv.settled hloop h, ?_⟩
  intro hcorrelated t hturn hnone
  have hstop := (StopInv.listens (P := fun ours => ours = true)).run hcorrelated hrun
  have hwhole := (WholeAudio.listens.run hcorrelated hrun).turn hloop t hturn
  have hnot : ¬ (t.fan = .done ∨ none ∈ t.queue) := by
    intro hended
    obtain ⟨ours, rfl, hmem⟩ := (hstop.turn hloop t hturn).stopped hended
    exact hnone hmem
  obtain ⟨hfan, hqueue⟩ := not_or.mp hnot
  exact ⟨hfan, hqueue, fun hlive => ⟨hwhole.kept hlive hnone, hwhole.queued hlive hnone⟩⟩

section Examples

/-- Every stop that is heard is the turn's own. -/
def correlatedBy (l : Listening eagerVad okAsr) : ListenLabel → Bool
  | .message m _ => Heard.stop false ∉ m.heard l.session
  | .other _ => true

theorem correlated_of_correlatedBy (l : Listening eagerVad okAsr) (label : ListenLabel)
    (h : correlatedBy l label = true) : l.Correlated label := by
  cases label with
  | other label => trivial
  | message m sends =>
      rintro t - - item hitem ours rfl
      cases ours with
      | true => rfl
      | false => exact absurd hitem (by simpa [correlatedBy] using h)

/-- A late start for the turn itself is refused, and the turn has all of its audio. -/
theorem foreign_start_spared :
    ∃ l t, (Listening.accepted eagerVad okAsr 8).run
        [.message (.text (controlJson "start" 1)), .message (.bytes [1])] = some l ∧
      l.session.turn = some t ∧
      (l.session.receive true (controlJson "start" 1).frame).turn = some t ∧
      t.requestAudio = some [1] ∧ t.queue <:+ [some [1]] := by
  refine ⟨_, _, rfl, rfl, ?_⟩
  have hrule := foreign_spared_iff eagerVad okAsr 8
    [.message (.text (controlJson "start" 1)), .message (.bytes [1])] _ rfl rfl
  have hcorrelated : AlongRun Listening.step Listening.Correlated
      (Listening.accepted eagerVad okAsr 8)
      [.message (.text (controlJson "start" 1)), .message (.bytes [1])] :=
    alongRun_of_checkRun correlated_of_correlatedBy (by decide)
  have hwhole := (hrule.2 hcorrelated _ rfl (by decide)).2.2 rfl
  refine ⟨(hrule.1 (controlJson "start" 1) true (.start rfl rfl (by decide))).mpr ?_, hwhole⟩
  exact Or.inl ⟨by decide, "s", rfl, Or.inr rfl, rfl⟩

/-- Turn 2 in the place of turn 1, and then a stop for turn 1. -/
def lateStop : List ListenLabel :=
  [.message (.text (controlJson "start" 1)), .message (.text (controlJson "start" 2)),
    .other (.pump true), .other .loop, .other (.finalize .ok true), .other .loop]

/-- The stop for turn 1 ends the audio of turn 2. -/
theorem foreign_stop_heard :
    ∃ l t, (Listening.accepted eagerVad okAsr 8).run lateStop = some l ∧
      l.session.loop = .receiving ∧ l.session.turn = some t ∧ t.turnId = 2 ∧ t.queue = [] ∧
      l.session.Foreign (controlJson "stop" 1) ∧
      (l.session.receive true (controlJson "stop" 1).frame).turn =
        some { t with queue := [none] } ∧
      (l.session.receive true (controlJson "stop" 1).frame).turn ≠ l.session.turn := by
  refine ⟨_, _, rfl, rfl, rfl, rfl, rfl, .stop rfl (by decide), rfl, ?_⟩
  intro hsame
  have hqueue := congrArg (fun t => t.map fun t : Turn eagerVad okAsr => t.queue) hsame
  cases hqueue

end Examples

end Api
end Sandroid
