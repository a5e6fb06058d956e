import Sandroid.Api.StreamConnection

/-!
# The order of a turn's frames

For a turn the server sends first what the VAD reports, then partial transcripts, then
at most one final and at most one result or error.  The frames come from three tasks; that
they do not mix rests on who awaits whom (`Settled`).

`frames_inOrder` states it for every turn of every run, along with two facts on the
turns of a connection: nothing is sent for a turn once a later one has been installed, and
the ids of accepted starts increase.
-/

namespace Sandroid
namespace Api

open Lib

variable {vad : Vad} {asr : Asr}

namespace FrameBody

/-- An event of one of the kinds. -/
def IsEvent (kinds : EventKind → Prop) : FrameBody → Prop
  | .event kind _ => kinds kind
  | _ => False

def IsPartial : FrameBody → Prop
  | .transcript false _ _ _ => True
  | _ => False

def IsFinal : FrameBody → Prop
  | .transcript true _ _ _ => True
  | _ => False

/-- A result or an error. -/
def IsTerminal : FrameBody → Prop
  | .result => True
  | .error _ _ _ => True
  | _ => False

end FrameBody

variable (kinds : EventKind → Prop)

/-- `event* partial* final?` -/
def Unanswered (frames : List FrameBody) : Prop :=
  ∃ events partials finals, frames = events ++ partials ++ finals ∧
    (∀ f ∈ events, f.IsEvent kinds) ∧ (∀ f ∈ partials, f.IsPartial) ∧
      (∀ f ∈ finals, f.IsFinal) ∧ finals.length ≤ 1

/-- `event* partial* final? (result | error)` -/
def TurnPattern (word : List FrameBody) : Prop :=
  ∃ frames last, word = frames ++ [last] ∧ Unanswered kinds frames ∧ last.IsTerminal

/-- A prefix of the pattern. -/
def InOrder (frames : List FrameBody) : Prop :=
  ∃ word, TurnPattern kinds word ∧ frames <+: word

/-- The VAD reports only events of these kinds. -/
def Vad.Reports (vad : Vad) : Prop :=
  ∀ {state state' : vad.events.State} {ev : SegmentEvent},
    vad.events.next state = .emit ev state' → kinds ev.kind

/-- The ASR stream yields partials, and a final only as its last item. -/
def Asr.FinalLast (asr : Asr) : Prop :=
  ∀ {state : asr.State} {chunks : List AudioChunk} {ended : Bool} {ps : List PartialTranscript},
    asr.Reaches state chunks ended ps → ∀ p ∈ ps.dropLast, p.isFinal = false

section Patterns

variable {kinds} {frames : List FrameBody}

theorem Unanswered.inOrder (h : Unanswered kinds frames) : InOrder kinds frames :=
  ⟨frames ++ [.result], ⟨frames, .result, rfl, h, trivial⟩, List.prefix_append _ _⟩

theorem Unanswered.answered (h : Unanswered kinds frames) {last : FrameBody}
    (hlast : last.IsTerminal) : InOrder kinds (frames ++ [last]) :=
  ⟨frames ++ [last], ⟨frames, last, rfl, h, hlast⟩, List.prefix_rfl⟩

/-- Every frame of the pattern is of one of its four sorts. -/
theorem InOrder.mem (h : InOrder kinds frames) (f : FrameBody) (hf : f ∈ frames) :
    f.IsEvent kinds ∨ f.IsPartial ∨ f.IsFinal ∨ f.IsTerminal := by
  obtain ⟨word, ⟨front, last, rfl, ⟨events, partials, finals, rfl, hevents, hpartials, hfinals, -⟩,
    hlast⟩, hsub⟩ := h
  have hmem := hsub.subset hf
  simp only [List.mem_append, List.mem_singleton] at hmem
  obtain ((hmem | hmem) | hmem) | rfl := hmem
  · exact Or.inl (hevents f hmem)
  · exact Or.inr (Or.inl (hpartials f hmem))
  · exact Or.inr (Or.inr (Or.inl (hfinals f hmem)))
  · exact Or.inr (Or.inr (Or.inr hlast))

theorem unanswered_of_events (h : ∀ f ∈ frames, f.IsEvent kinds) : Unanswered kinds frames :=
  ⟨frames, [], [], by simp, h, nofun, nofun, by simp⟩

theorem isPartial_transcriptBody {seg : SegmentResult} {p : PartialTranscript}
    (h : p.isFinal = false) : (transcriptBody seg p).IsPartial := by
  simp [transcriptBody, h, FrameBody.IsPartial]

/-- The transcripts of an ASR stream after the events. -/
theorem unanswered_of_transcripts {events : List FrameBody} {seg : SegmentResult}
    {ps : List PartialTranscript} (hevents : ∀ f ∈ events, f.IsEvent kinds)
    (hps : ∀ p ∈ ps.dropLast, p.isFinal = false) :
    Unanswered kinds (events ++ ps.map (transcriptBody seg)) := by
  have hpartials {qs : List PartialTranscript} (h : ∀ p ∈ qs, p.isFinal = false) :
      ∀ f ∈ qs.map (transcriptBody seg), f.IsPartial := by
    intro f hf
    obtain ⟨p, hp, rfl⟩ := List.mem_map.mp hf
    exact isPartial_transcriptBody (h p hp)
  obtain rfl | ⟨qs, p, rfl⟩ := List.eq_nil_or_concat ps
  · simpa using unanswered_of_events hevents
  · rw [List.concat_eq_append] at hps ⊢
    rw [List.dropLast_concat] at hps
    cases hfinal : p.isFinal with
    | false =>
        refine ⟨events, (qs ++ [p]).map (transcriptBody seg), [], by simp, hevents, ?_, nofun,
          by simp⟩
        refine hpartials ?_
        intro q hq
        rw [List.mem_append, List.mem_singleton] at hq
        obtain hq | rfl := hq
        · exact hps q hq
        · exact hfinal
    | true =>
        refine ⟨events, qs.map (transcriptBody seg), [transcriptBody seg p], by simp, hevents,
          hpartials hps, ?_, by simp⟩
        intro f hf
        rw [List.mem_singleton] at hf
        subst hf
        simp [transcriptBody, hfinal, FrameBody.IsFinal]

end Patterns

/-- The finalizer may still answer: it has its request, or the turn is live. -/
def Turn.Answering (t : Turn vad asr) : Prop :=
  match t.finalize with
  | .done => False
  | .recognizing _ => True
  | _ => t.cancelled = false

/-- What has been sent for a turn, by where its pump stands. -/
def FrameInv (t : Turn vad asr) (frames : List FrameBody) : Prop :=
  match t.pump with
  | .recognizing seg state chunks _ =>
      ∃ events ps given ended, (∀ f ∈ events, f.IsEvent kinds) ∧
        frames = events ++ ps.map (transcriptBody seg) ∧
          asr.Reaches state given ended ps ∧ (ended = true → chunks = [])
  | .done _ => InOrder kinds frames ∧ (t.Answering → Unanswered kinds frames)
  | _ => ∀ f ∈ frames, f.IsEvent kinds

namespace FrameInv

variable {kinds} {t t' : Turn vad asr} {frames : List FrameBody}

/-- Only the place of the pump, the finalizer and `cancelled` count. -/
theorem of_eq (h : FrameInv kinds t frames) (hpump : t'.pump = t.pump)
    (hfinalize : t'.finalize = t.finalize) (hcancelled : t.cancelled = true → t'.cancelled = true) :
    FrameInv kinds t' frames := by
  have hanswering : t'.Answering → t.Answering := by
    simp only [Turn.Answering, hfinalize]
    intro hanswering
    split at hanswering
    · exact hanswering
    · trivial
    · by_contra hnot
      simp [hcancelled (by simpa using hnot)] at hanswering
  cases hp : t.pump with
  | done result =>
      simp only [FrameInv, hpump, hp] at h ⊢
      exact ⟨h.1, fun ha => h.2 (hanswering ha)⟩
  | _ =>
      simp only [FrameInv, hpump, hp] at h ⊢
      exact h

theorem of_early (h : FrameInv kinds t frames) (hearly : t.Early) :
    ∀ f ∈ frames, f.IsEvent kinds := by
  cases hpump : t.pump with
  | recognizing seg state chunks text => simp [Turn.Early, hpump] at hearly
  | done result => simp [Turn.Early, hpump] at hearly
  | _ => simpa [FrameInv, hpump] using h

theorem of_events (h : ∀ f ∈ frames, f.IsEvent kinds) (hearly : t.Early) :
    FrameInv kinds t frames := by
  cases hpump : t.pump with
  | recognizing seg state chunks text => simp [Turn.Early, hpump] at hearly
  | done result => simp [Turn.Early, hpump] at hearly
  | _ => simpa [FrameInv, hpump] using h

/-- The pump has just come to its end. -/
theorem of_done {result : PumpResult} (hpump : t.pump = .done result)
    (h : Unanswered kinds frames) : FrameInv kinds t frames := by
  simp only [FrameInv, hpump]
  exact ⟨h.inOrder, fun _ => h⟩

theorem eventsSends {loop : LoopPhase} {bodies : List FrameBody} (hvad : vad.Reports kinds)
    (h : FrameInv kinds t frames) (hsettled : Settled loop t)
    (hsends : t.EventsSends t' bodies) : FrameInv kinds t' (frames ++ bodies) := by
  cases hsends with
  | silent hmove =>
      rw [List.append_nil]
      cases hmove <;> exact h.of_eq rfl rfl id
  | event hevents hnext =>
      have hearly : t.Early := by
        by_contra hlate
        have := (hsettled.quiet hlate).2
        simp [Turn.eventsRunning, hevents] at this
      refine of_events ?_ hearly
      intro f hf
      rw [List.mem_append, List.mem_singleton] at hf
      obtain hf | rfl := hf
      · exact h.of_early hearly f hf
      · exact hvad hnext

theorem early_pumpMove (h : FrameInv kinds t frames) (hearly : t.Early) (hmove : t.PumpMove t') :
    FrameInv kinds t' frames := by
  have hevents := h.of_early hearly
  cases hmove with
  | abort hpump _ => exact of_done rfl (unanswered_of_events hevents)
  | fork hpump => exact of_events hevents trivial
  | read hpump => exact of_events hevents trivial
  | leave hpump => exact of_events hevents trivial
  | joinFan hpump _ => exact of_events hevents trivial
  | @joinEvents outcome hpump _ =>
      have hdone (result : PumpResult) :
          FrameInv kinds ({ t with pump := .done result, pumpCancel := false } : Turn vad asr)
            frames :=
        of_done rfl (unanswered_of_events hevents)
      cases outcome with
      | raised f => exact hdone _
      | segment seg =>
          cases seg with
          | none => exact hdone _
          | some seg =>
              simp only [Turn.afterJoin]
              split
              · exact hdone _
              · exact ⟨frames, [], [], false, hevents, by simp, .start, (by simp)⟩
  | transcribe hpump => simp [Turn.Early, hpump] at hearly
  | finish hpump _ _ => simp [Turn.Early, hpump] at hearly

theorem pumpSends {loop : LoopPhase} {sends : Bool} {bodies : List FrameBody}
    (hasr : asr.FinalLast) (h : FrameInv kinds t frames) (hsettled : Settled loop t)
    (hsends : t.PumpSends sends t' bodies) : FrameInv kinds t' (frames ++ bodies) := by
  have hheard {seg : SegmentResult} {state : asr.State} {chunks : List AudioChunk} {text : String}
      (hpump : t.pump = .recognizing seg state chunks text) :
      ∃ events ps given ended, (∀ f ∈ events, f.IsEvent kinds) ∧
        frames = events ++ ps.map (transcriptBody seg) ∧
          asr.Reaches state given ended ps ∧ (ended = true → chunks = []) := by
    simpa only [FrameInv, hpump] using h
  have hopen {seg : SegmentResult} {state : asr.State} {chunks : List AudioChunk} {text : String}
      (hpump : t.pump = .recognizing seg state chunks text) : Unanswered kinds frames := by
    obtain ⟨events, ps, given, ended, hevents, rfl, hreaches, -⟩ := hheard hpump
    exact unanswered_of_transcripts hevents (hasr hreaches)
  cases hsends with
  | early hearly hmove _ =>
      rw [List.append_nil]
      exact h.early_pumpMove hearly hmove
  | interrupted hpump _ =>
      rw [List.append_nil]
      exact of_done rfl (hopen hpump)
  | skipped hpump _ =>
      rw [List.append_nil]
      exact of_done rfl (hopen hpump)
  | @transcript seg state state' chunks text text' p hpump hnext =>
      obtain ⟨events, ps, given, ended, hevents, rfl, hreaches, hended⟩ := hheard hpump
      exact ⟨events, ps ++ [p], given, ended, hevents, by simp, hreaches.emit hnext, hended⟩
  | @fed seg state chunk chunks text resume hpump hnext =>
      obtain ⟨events, ps, given, ended, hevents, rfl, hreaches, hended⟩ := hheard hpump
      have hrest : ended = false := by
        by_contra hnot
        simpa using hended (by simpa using hnot)
      subst hrest
      exact ⟨events, ps, given ++ [chunk], false, hevents, by simp, hreaches.pull hnext chunk,
        nofun⟩
  | ended hpump hnext =>
      obtain ⟨events, ps, given, ended, hevents, rfl, hreaches, -⟩ := hheard hpump
      exact ⟨events, ps, given, true, hevents, by simp, hreaches.finish hnext, fun _ => rfl⟩
  | stopped hpump =>
      rw [List.append_nil]
      exact of_done rfl (hopen hpump)
  | failed message hpump _ =>
      refine ⟨(hopen hpump).answered trivial, ?_⟩
      obtain hfinalize | hfinalize :=
        (hsettled.waiting (by simp [Turn.pumpDone, hpump])).2.2.1
      · simp [Turn.Answering, hfinalize]
      · simp [Turn.Answering, hfinalize]
  | unsent hpump _ =>
      rw [List.append_nil]
      exact of_done rfl (hopen hpump)

theorem finalizeSends {loop : LoopPhase} {reply : OrchestratorAnswer} {sends : Bool}
    {bodies : List FrameBody} (h : FrameInv kinds t frames) (hsettled : Settled loop t)
    (hsends : t.FinalizeSends reply sends t' bodies) : FrameInv kinds t' (frames ++ bodies) := by
  -- past its wait the finalizer finds the pump done, and what it sends is the last frame
  have hover (hdone : t.pumpDone = true) :
      ∃ result, t.pump = .done result ∧ InOrder kinds frames ∧
        (t.Answering → Unanswered kinds frames) := by
    cases hpump : t.pump with
    | done result => exact ⟨result, rfl, by simpa only [FrameInv, hpump] using h⟩
    | _ => simp [Turn.pumpDone, hpump] at hdone
  have hsilent (hdone : t.pumpDone = true) {finalizeCancel : Bool} :
      FrameInv kinds
        ({ t with finalize := .done, finalizeCancel := finalizeCancel } : Turn vad asr)
        (frames ++ []) := by
    obtain ⟨result, hpump, horder, -⟩ := hover hdone
    simp only [FrameInv, hpump, List.append_nil]
    exact ⟨horder, fun hanswering => False.elim hanswering⟩
  have hanswer (hdone : t.pumpDone = true) (hanswering : t.Answering) {body : FrameBody}
      (hbody : body.IsTerminal) :
      FrameInv kinds ({ t with finalize := .done } : Turn vad asr) (frames ++ [body]) := by
    obtain ⟨result, hpump, -, hopen⟩ := hover hdone
    simp only [FrameInv, hpump]
    exact ⟨(hopen hanswering).answered hbody, fun hdone => False.elim hdone⟩
  have hpumpDone {result : PumpResult} (hpump : t.pump = .done result) : t.pumpDone = true := by
    simp [Turn.pumpDone, hpump]
  have hrequested {request : TurnRequest}
      (hfinalize : t.finalize = .recognizing request) : t.pumpDone = true ∧ t.Answering :=
    ⟨hsettled.answering (by simp [hfinalize]) (by simp [hfinalize]),
      by simp [Turn.Answering, hfinalize]⟩
  cases hsends with
  | interrupted hcancel => exact hsilent (hsettled.finalizeCancel hcancel)
  | begun hfinalize =>
      have hsame :
          ({ t with finalize := .awaitingPump } : Turn vad asr).Answering → t.Answering := by
        simp [Turn.Answering, hfinalize]
      rw [List.append_nil]
      cases hpump : t.pump with
      | done result =>
          simp only [FrameInv, hpump] at h ⊢
          exact ⟨h.1, fun ha => h.2 (hsame ha)⟩
      | _ =>
          simp only [FrameInv, hpump] at h ⊢
          exact h
  | raised hfinalize hpump => exact hsilent (hpumpDone hpump)
  | abandoned hfinalize hpump hcancelled => exact hsilent (hpumpDone hpump)
  | noSpeech hfinalize hpump hlive =>
      exact hanswer (hpumpDone hpump) (by simp [Turn.Answering, hfinalize, hlive]) trivial
  | requested hfinalize hpump hlive hrequest =>
      obtain ⟨result, hpump, horder, hopen⟩ := hover (hpumpDone hpump)
      simp only [FrameInv, hpump, List.append_nil]
      exact ⟨horder, fun _ => hopen (by simp [Turn.Answering, hfinalize, hlive])⟩
  | refused hfinalize hpump hlive hblank hrequest => exact hsilent (hpumpDone hpump)
  | answered hfinalize hbody =>
      obtain ⟨hdone, hanswering⟩ := hrequested hfinalize
      refine hanswer hdone hanswering ?_
      cases reply <;> cases hbody <;> trivial
  | failed hfinalize hbody => exact hsilent (hrequested hfinalize).1
  | unsent hfinalize hfails =>
      obtain ⟨-, hdone⟩ | ⟨request, hfinalize⟩ := hfinalize
      · exact hsilent hdone
      · exact hsilent (hrequested hfinalize).1

/-- One step of a task. -/
theorem sends {loop : LoopPhase} {label : StreamLabel} {bodies : List FrameBody}
    (hvad : vad.Reports kinds) (hasr : asr.FinalLast) (h : FrameInv kinds t frames)
    (hsettled : Settled loop t) (hsends : t.Sends label t' bodies) :
    FrameInv kinds t' (frames ++ bodies) := by
  cases hsends with
  | fan hstep =>
      rw [List.append_nil]
      obtain ⟨-, ⟨-, rfl⟩ | ⟨_, _, -, -, rfl⟩⟩ := Turn.stepFan_cases hstep
      · exact h.of_eq rfl rfl id
      · exact h.of_eq rfl rfl id
  | events sends hsends => exact h.eventsSends hvad hsettled hsends
  | pump sends hsends => exact h.pumpSends hasr hsettled hsends
  | finalize reply sends hsends => exact h.finalizeSends hsettled hsends

/-- Whatever has been sent is in order. -/
theorem inOrder (hasr : asr.FinalLast) (h : FrameInv kinds t frames) : InOrder kinds frames := by
  by_cases hearly : t.Early
  · exact (unanswered_of_events (h.of_early hearly)).inOrder
  · cases hpump : t.pump with
    | recognizing seg state chunks text =>
        simp only [FrameInv, hpump] at h
        obtain ⟨events, ps, given, ended, hevents, rfl, hreaches, -⟩ := h
        exact (unanswered_of_transcripts hevents (hasr hreaches)).inOrder
    | done result =>
        simp only [FrameInv, hpump] at h
        exact h.1
    | _ => exact absurd (by simp [Turn.Early, hpump]) hearly

end FrameInv

/-- What holds of the frames of a connection in every run. -/
structure FramesInv (c : StreamConnection vad asr) : Prop where
  connection : ConnectionInv c
  active : Recorded (fun _ t frames => FrameInv kinds t frames) c.session
  inOrder : ∀ turnId, InOrder kinds (turnFrames turnId c.session.sent)

namespace FramesInv

variable {kinds} {c c' : StreamConnection vad asr}

theorem accepted (maxAudioBytes : Nat) :
    FramesInv kinds (StreamConnection.accepted vad asr maxAudioBytes) where
  connection := .accepted maxAudioBytes
  active := by
    intro t hturn
    cases hturn
  inOrder := by
    intro turnId
    have hnone : ∀ f ∈ ([] : List FrameBody), f.IsEvent kinds := nofun
    exact (unanswered_of_events hnone).inOrder

theorem step {label : ConnectionLabel} (hvad : vad.Reports kinds) (hasr : asr.FinalLast)
    (h : FramesInv kinds c) (hstep : c.step label = some c') : FramesInv kinds c' := by
  obtain ⟨label', -, hsession, -⟩ := h.connection.step_session hstep
  have hadvance := Advance.of_step h.connection.waits hsession
  have hactive : Recorded (fun _ t frames => FrameInv kinds t frames) c'.session := by
    refine h.connection.recorded h.active ?_ ?_ ?_ hadvance
    · intro _ _ _ _ _
      exact nofun
    · intro loop' t t' frames ht hchange
      exact ht.of_eq hchange.pump hchange.finalize hchange.cancelled
    · intro t t' frames bodies hturn ht hsends
      exact ht.sends hvad hasr (h.connection.settled t hturn) hsends
  refine ⟨h.connection.step hstep, hactive, ?_⟩
  intro turnId
  generalize c'.session = σ' at hadvance hactive
  cases hadvance with
  | @task t r hturn hstep =>
      obtain ⟨bodies, hsent, hsends⟩ := Turn.sends_of_stepLabel hstep
      by_cases heq : t.turnId = turnId
      · have hframes := (hactive r.1 rfl).inOrder hasr
        rw [hsends.turnId, heq] at hframes
        exact hframes
      · simp only [hsent, turnFrames_append, turnFrames_of_ne heq, List.append_nil]
        exact h.inOrder turnId
  | keep hsent hrefusals _ _ _ =>
      rw [hsent, turnFrames_append, turnFrames_of_refusals hrefusals, List.append_nil]
      exact h.inOrder turnId
  | opened _ _ => exact h.inOrder turnId

theorem run (hvad : vad.Reports kinds) (hasr : asr.FinalLast) {maxAudioBytes : Nat}
    {labels : List ConnectionLabel}
    (hrun : (StreamConnection.accepted vad asr maxAudioBytes).run labels = some c) :
    FramesInv kinds c :=
  runSteps_invariant (P := fun _ _ => True) (fun h _ hstep => h.step hvad hasr hstep)
    (accepted maxAudioBytes) (alongRun_of_forall (fun _ _ => trivial) _ _) hrun

end FramesInv

section AcceptedStarts

variable {σ σ' : StreamSession vad asr}

namespace StreamConnection

def acceptedStart (c : StreamConnection vad asr) : ConnectionLabel → Option Int
  | .session label => c.session.acceptedStart label
  | .retired _ _ => none

/-- The turn ids of the starts that a run accepts. -/
def acceptedStarts (c : StreamConnection vad asr) : List ConnectionLabel → List Int
  | [] => []
  | label :: labels =>
      (c.acceptedStart label).toList ++
        match c.step label with
        | none => []
        | some c' => c'.acceptedStarts labels

end StreamConnection

/-- The turn that `next` opens, if any. -/
def After.latest (current : Int) : After → Int
  | .opening _ turnId _ => turnId
  | .closing => current

/-- The turn id of the last accepted start: while the loop waits it is not yet the
current one. -/
def StreamSession.latest (σ : StreamSession vad asr) : Int :=
  match σ.loop with
  | .cancelling next => next.latest σ.currentTurnId
  | .dropping next => next.latest σ.currentTurnId
  | _ => σ.currentTurnId

namespace StreamSession

theorem latest_conclude (next : After) :
    (σ.conclude next).latest = next.latest σ.currentTurnId := by
  cases next with
  | closing => rfl
  | opening sessionId turnId control =>
      simp only [conclude]
      cases control.nBest with
      | none => rfl
      | some nBest => rfl

theorem latest_dropFinalize (t : Turn vad asr) (next : After) :
    (σ.dropFinalize t next).latest = next.latest σ.currentTurnId := by
  simp only [dropFinalize]
  split
  · exact latest_conclude next
  · rfl

theorem latest_abandonActive (next : After) :
    (σ.abandonActive next).latest = next.latest σ.currentTurnId := by
  simp only [abandonActive]
  split
  · exact latest_conclude next
  · split_ifs
    · exact latest_dropFinalize _ next
    · exact latest_dropFinalize _ next
    · rfl

theorem latest_of_receiving (hloop : σ.loop = .receiving) : σ.latest = σ.currentTurnId := by
  simp [latest, hloop]

theorem latest_handlePcm (data : Pcm) (hloop : σ.loop = .receiving) :
    (σ.handlePcm data).latest = σ.currentTurnId := by
  simp only [handlePcm]
  split
  · exact latest_of_receiving hloop
  · split
    · exact latest_of_receiving hloop
    · exact latest_of_receiving hloop

theorem latest_handleStop (hloop : σ.loop = .receiving) :
    σ.handleStop.latest = σ.currentTurnId := by
  simp only [handleStop]
  split
  · exact latest_of_receiving hloop
  · split
    · exact latest_of_receiving hloop
    · exact latest_of_receiving hloop

theorem latest_handleStart (control : StartControl) (sends : Bool) (hloop : σ.loop = .receiving) :
    (σ.handleStart control sends).latest =
      (σ.acceptedStart (.client (.start control) sends)).getD σ.currentTurnId := by
  cases hsid : control.sessionId with
  | none =>
      simp only [handleStart, acceptedStart, hsid]
      exact latest_abandonActive _
  | some sessionId =>
      cases htid : control.turnId with
      | none =>
          simp only [handleStart, acceptedStart, hsid, htid]
          exact latest_abandonActive _
      | some turnId =>
          simp only [handleStart, acceptedStart, hsid, htid]
          split_ifs
          · exact latest_abandonActive _
          · exact latest_abandonActive _
          · exact latest_of_receiving hloop
          · exact latest_abandonActive _
          · exact latest_abandonActive _

theorem latest_receive (frame : ClientFrame) (sends : Bool) (hloop : σ.loop = .receiving) :
    (σ.receive sends frame).latest =
      (σ.acceptedStart (.client frame sends)).getD σ.currentTurnId := by
  cases frame with
  | pcm data => exact latest_handlePcm data hloop
  | stop => exact latest_handleStop hloop
  | start control => exact latest_handleStart control sends hloop
  | other => exact latest_of_receiving hloop
  | malformed => exact latest_abandonActive _
  | disconnect => exact latest_abandonActive _

theorem latest_stepLoop (hstep : σ.stepLoop = some σ') : σ'.latest = σ.latest := by
  simp only [stepLoop] at hstep
  split at hstep
  case h_1 next t hloop hturn =>
    split_ifs at hstep
    cases hstep
    rw [latest_dropFinalize]
    simp [latest, hloop]
  case h_2 next t hloop hturn =>
    split at hstep
    · cases hstep
      rw [latest_conclude]
      simp [latest, hloop]
    · cases hstep
  case h_3 => cases hstep

theorem latest_stepTask {f : Turn vad asr → Option (Turn vad asr × List ServerFrame)}
    (hstep : σ.stepTask f = some σ') : σ'.latest = σ.latest := by
  obtain ⟨t, r, -, -, rfl⟩ := stepTask_cases hstep
  rfl

theorem latest_step {label : StreamLabel} (hstep : σ.step label = some σ') :
    σ'.latest = (σ.acceptedStart label).getD σ.latest := by
  cases label with
  | client frame sends =>
      simp only [step] at hstep
      split_ifs at hstep with hloop
      cases hstep
      rw [latest_receive frame sends hloop, latest_of_receiving hloop]
  | loop => exact latest_stepLoop hstep
  | fan => exact latest_stepTask hstep
  | events sends => exact latest_stepTask hstep
  | pump sends => exact latest_stepTask hstep
  | finalize reply sends => exact latest_stepTask hstep

/-- A start is accepted with a number above all before. -/
theorem latest_lt_of_acceptedStart {label : StreamLabel} {turnId : Int}
    (hstep : σ.step label = some σ') (haccepted : σ.acceptedStart label = some turnId) :
    σ.latest < turnId := by
  unfold acceptedStart at haccepted
  split at haccepted
  case h_2 => cases haccepted
  case h_1 control =>
    simp only [step] at hstep
    split_ifs at hstep with hloop
    rw [latest_of_receiving hloop]
    split at haccepted
    · split_ifs at haccepted with hscene hsession hstale
      cases haccepted
      omega
    · cases haccepted

end StreamSession

/-- The accepted starts of a run are numbered upwards from where it begins. -/
theorem acceptedStarts_increasing (c : StreamConnection vad asr) (labels : List ConnectionLabel)
    {c' : StreamConnection vad asr} (hrun : c.run labels = some c') :
    (∀ turnId ∈ c.acceptedStarts labels, c.session.latest < turnId) ∧
      (c.acceptedStarts labels).Pairwise (· < ·) := by
  induction labels generalizing c with
  | nil => simp [StreamConnection.acceptedStarts]
  | cons label labels ih =>
      simp only [StreamConnection.run, runSteps] at hrun
      split at hrun
      · cases hrun
      rename_i c₁ hstep
      obtain ⟨hbound, hsorted⟩ := ih c₁ hrun
      simp only [StreamConnection.acceptedStarts, hstep]
      have hlatest : c₁.session.latest = (c.acceptedStart label).getD c.session.latest ∧
          ∀ turnId, c.acceptedStart label = some turnId → c.session.latest < turnId := by
        cases label with
        | session label =>
            simp only [StreamConnection.step, Option.map_eq_some_iff] at hstep
            obtain ⟨σ', hstep, rfl⟩ := hstep
            exact ⟨StreamSession.latest_step hstep,
              fun _ haccepted => StreamSession.latest_lt_of_acceptedStart hstep haccepted⟩
        | retired index label =>
            simp only [StreamConnection.step] at hstep
            split at hstep
            · cases hstep
            · simp only [Option.map_eq_some_iff] at hstep
              obtain ⟨r, -, rfl⟩ := hstep
              simp [StreamConnection.acceptedStart, StreamSession.latest]
      obtain ⟨hlatest, habove⟩ := hlatest
      cases haccepted : c.acceptedStart label with
      | none =>
          rw [haccepted] at hlatest
          simp only [Option.getD_none] at hlatest
          rw [hlatest] at hbound
          exact ⟨hbound, hsorted⟩
      | some turnId =>
          have hlt := habove turnId haccepted
          rw [haccepted] at hlatest
          simp only [Option.getD_some] at hlatest
          rw [hlatest] at hbound
          refine ⟨?_, ?_⟩
          · intro turnId' hmem
            simp only [Option.toList_some, List.singleton_append, List.mem_cons] at hmem
            obtain rfl | hmem := hmem
            · exact hlt
            · exact lt_trans hlt (hbound turnId' hmem)
          · exact List.pairwise_cons.mpr ⟨hbound, hsorted⟩

end AcceptedStarts

/-- In every run of a connection, whatever its VAD reports and whenever its ASR yields a
final only as its last item: the frames of each turn are in order, once a later turn is
installed there are no more of them, and accepted starts have increasing ids. -/
theorem frames_inOrder (vad : Vad) (asr : Asr) (maxAudioBytes : Nat) (kinds : EventKind → Prop)
    (hvad : vad.Reports kinds) (hasr : asr.FinalLast) (labels : List ConnectionLabel)
    (c : StreamConnection vad asr)
    (hrun : (StreamConnection.accepted vad asr maxAudioBytes).run labels = some c) :
    (∀ turnId, InOrder kinds (turnFrames turnId c.session.sent)) ∧
      (∀ turnId t more c', c.session.turn = some t → turnId < t.turnId →
        c.run more = some c' →
          turnFrames turnId c'.session.sent = turnFrames turnId c.session.sent) ∧
      ((StreamConnection.accepted vad asr maxAudioBytes).acceptedStarts labels).Pairwise
        (· < ·) := by
  have hinv : FramesInv kinds c := .run hvad hasr hrun
  refine ⟨hinv.inOrder, ?_, (acceptedStarts_increasing _ labels hrun).2⟩
  intro turnId t more c' hturn hlt hmore
  have hle := hinv.connection.active t hturn
  refine hinv.connection.passed_run ⟨le_trans (le_of_lt hlt) hle, ?_⟩ hmore
  intro t' hturn' heq
  rw [hturn] at hturn'
  cases hturn'
  exact absurd heq (ne_of_gt hlt)

section Examples

theorem eagerVad_reports : eagerVad.Reports (fun _ => False) := by
  intro state state' ev hnext
  cases state <;> cases hnext

theorem okAsr_finalLast : okAsr.FinalLast := by
  intro state chunks ended ps hreaches
  have hshape : (state = true ∧ ps = []) ∨ (state = false ∧ ps.length = 1) := by
    induction hreaches with
    | start => exact Or.inl ⟨rfl, rfl⟩
    | @emit s s' xs ended ys y h hnext ih =>
        obtain ⟨rfl, rfl⟩ | ⟨rfl, -⟩ := ih
        · cases hnext
          exact Or.inr ⟨rfl, rfl⟩
        · cases hnext
    | @pull s xs ys resume h hnext x ih => cases s <;> cases hnext
    | @finish s xs ended ys resume h hnext ih => cases s <;> cases hnext
  obtain ⟨-, rfl⟩ | ⟨-, hlength⟩ := hshape
  · nofun
  · have hnil : ps.dropLast = [] := by
      rw [← List.length_eq_zero_iff, List.length_dropLast, hlength]
    rw [hnil]
    nofun

/-- A turn that is answered, and a second one started. -/
def answeredRun : List ConnectionLabel :=
  (spoken ++
    [.pump true, .client .stop, .fan, .events true, .events true, .pump true, .pump true,
      .pump true, .pump true, .finalize .ok true, .finalize .ok true, startFrame 2]).map .session

theorem frames_inOrder_answered :
    ∃ c, (StreamConnection.accepted eagerVad okAsr 8).run answeredRun = some c ∧
      turnFrames 1 c.session.sent = [.transcript true "ok" 0 100, .result] ∧
      (∀ turnId, InOrder (fun _ => False) (turnFrames turnId c.session.sent)) ∧
      ((StreamConnection.accepted eagerVad okAsr 8).acceptedStarts answeredRun).Pairwise
        (· < ·) := by
  refine ⟨_, rfl, by decide, ?_⟩
  have h := frames_inOrder eagerVad okAsr 8 (fun _ => False) eagerVad_reports okAsr_finalLast
    answeredRun _ rfl
  exact ⟨h.1, h.2.2⟩

/-- A VAD that reports silence with every chunk. -/
def hushedVad : Vad where
  events :=
    { State := Option (Option Pcm)
      start := none
      next := fun
        | none => .pull some
        | some (some _) => .emit ⟨.silence, 0⟩ none
        | some none => .stop }
  segments := eagerVad.segments

/-- What it reports is passed on. -/
theorem silence_forwarded :
    okAsr.FinalLast ∧ ∃ c, (StreamConnection.accepted hushedVad okAsr 8).run
        ([startFrame 1, .pump true, .client (.pcm [1]), .fan, .events true,
          .events true].map .session) = some c ∧
      turnFrames 1 c.session.sent = [.event .silence 0] ∧
      ¬ InOrder (fun kind => kind = .speechStart ∨ kind = .speechEnd)
        (turnFrames 1 c.session.sent) := by
  refine ⟨okAsr_finalLast, _, rfl, by decide, ?_⟩
  intro horder
  have hframe := horder.mem (.event .silence 0) (by decide)
  simp [FrameBody.IsEvent, FrameBody.IsPartial, FrameBody.IsFinal, FrameBody.IsTerminal] at hframe

end Examples

end Api
end Sandroid
