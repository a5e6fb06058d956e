import Sandroid.Api.ControlFrames

/-!
# The audio of a turn

A connection with a record of what its client has sent for the active turn since its
start: audio, and stops with the ids of the turn or with others.

`Attends` and `Listens` are the rules for properties of the active turn and of that record
while the loop receives.  `StopInv` relates the record to the sentinel in the turn's queue,
`AudioInv` to the audio that Path B gets.
-/

namespace Sandroid
namespace Api

open Lib

variable {vad : Vad} {asr : Asr}

/-- A frame of the client for a turn; `ours` if a stop bears the turn's ids. -/
inductive Heard where
  | pcm (data : Pcm)
  | stop (ours : Bool)
deriving DecidableEq, Repr

/-- The text has the ids of the connection and of its current turn. -/
def TextFrame.matches (text : TextFrame) (σ : StreamSession vad asr) : Bool :=
  match text with
  | .value (.obj fields) =>
      ((Json.get fields "turn_id").bind Json.asInt = some σ.currentTurnId) &&
        ((Json.get fields "session_id").bind Json.asStr = σ.sessionId)
  | _ => false

/-- What a message adds to the record. -/
def Message.heard (m : Message) (σ : StreamSession vad asr) : List Heard :=
  match m with
  | .bytes data => [.pcm data]
  | .text frame =>
      match frame.frame with
      | .stop => [.stop (frame.matches σ)]
      | _ => []
  | .disconnect => []

/-- A session and the record. -/
structure Listening (vad : Vad) (asr : Asr) where
  session : StreamSession vad asr
  heard : List Heard := []

/-- A message of the client, or a step of the loop or of a task. -/
inductive ListenLabel where
  | message (m : Message) (sends : Bool := true)
  | other (label : StreamLabel)

namespace Listening

def accepted (vad : Vad) (asr : Asr) (maxAudioBytes : Nat) : Listening vad asr :=
  { session := Api.accepted vad asr maxAudioBytes }

/-- An accepted start begins a new record. -/
def step (l : Listening vad asr) : ListenLabel → Option (Listening vad asr)
  | .message m sends =>
      (l.session.step (.client m.frame sends)).map fun σ' =>
        { session := σ'
          heard :=
            if (l.session.acceptedStart (.client m.frame sends)).isSome then []
            else l.heard ++ m.heard l.session }
  | .other label =>
      if label.isClient then
        none
      else
        (l.session.step label).map fun σ' => { l with session := σ' }

/-- Run a list of steps. -/
def run (l : Listening vad asr) (labels : List ListenLabel) : Option (Listening vad asr) :=
  runSteps step l labels

end Listening

/-- What `handle_pcm` does to a live turn. -/
def Turn.hear (t : Turn vad asr) (data : Pcm) : Turn vad asr :=
  let t :=
    if t.audioOverflow then
      t
    else if t.audioAccum.length + data.length > t.maxAudioBytes then
      { t with audioOverflow := true, audioAccum := [] }
    else
      { t with audioAccum := t.audioAccum ++ data }
  { t with queue := t.queue ++ [some data] }

theorem StreamSession.handlePcm_of_live {σ : StreamSession vad asr} {t : Turn vad asr}
    (hturn : σ.turn = some t) (hlive : t.cancelled = false) (data : Pcm) :
    σ.handlePcm data = { σ with turn := some (t.hear data) } := by
  simp only [StreamSession.handlePcm, hturn]
  rw [if_neg (by simp [hlive])]
  rfl

theorem StreamSession.handlePcm_of_cancelled {σ : StreamSession vad asr} {t : Turn vad asr}
    (hturn : σ.turn = some t) (hcancelled : t.cancelled = true) (data : Pcm) :
    σ.handlePcm data = σ := by
  simp only [StreamSession.handlePcm, hturn]
  rw [if_pos hcancelled]

/-- A property of the active turn and of the record, for a connection that receives: one
closure condition for each thing that can happen to the turn.  `Allowed` restricts what
is heard by a live turn. -/
structure Listens (Q : Turn vad asr → List Heard → Prop) (Allowed : List Heard → Heard → Prop) :
    Prop where
  opened : ∀ maxAudioBytes sessionId turnId control nBest,
    Q (StreamSession.newTurn maxAudioBytes sessionId turnId control nBest) []
  pcm : ∀ {t : Turn vad asr} {heard : List Heard} (data : Pcm), Q t heard →
    t.cancelled = false → Allowed heard (.pcm data) → Q (t.hear data) (heard ++ [.pcm data])
  stop : ∀ {t : Turn vad asr} {heard : List Heard} (ours : Bool), Q t heard →
    t.cancelled = false → Allowed heard (.stop ours) →
      Q { t with queue := t.queue ++ [none] } (heard ++ [.stop ours])
  dropped : ∀ {t : Turn vad asr} {heard : List Heard} (item : Heard), Q t heard →
    t.cancelled = true → Q t (heard ++ [item])
  task : ∀ {t t' : Turn vad asr} {heard : List Heard} {label : StreamLabel}
    {bodies : List FrameBody}, Settled .receiving t → Q t heard → t.Sends label t' bodies →
      Q t' heard

/-- The same with a condition on the steps of the tasks themselves. -/
structure Attends (Q : Turn vad asr → List Heard → Prop) (Allowed : List Heard → Heard → Prop) :
    Prop where
  opened : ∀ maxAudioBytes sessionId turnId control nBest,
    Q (StreamSession.newTurn maxAudioBytes sessionId turnId control nBest) []
  pcm : ∀ {t : Turn vad asr} {heard : List Heard} (data : Pcm), Q t heard →
    t.cancelled = false → Allowed heard (.pcm data) → Q (t.hear data) (heard ++ [.pcm data])
  stop : ∀ {t : Turn vad asr} {heard : List Heard} (ours : Bool), Q t heard →
    t.cancelled = false → Allowed heard (.stop ours) →
      Q { t with queue := t.queue ++ [none] } (heard ++ [.stop ours])
  dropped : ∀ {t : Turn vad asr} {heard : List Heard} (item : Heard), Q t heard →
    t.cancelled = true → Q t (heard ++ [item])
  task : ∀ {t : Turn vad asr} {r : Turn vad asr × List ServerFrame} {heard : List Heard}
    {label : StreamLabel}, Settled .receiving t → Q t heard → t.stepLabel label = some r →
      Q r.1 heard

namespace Listening

/-- Whatever a live turn hears in the step is allowed. -/
def Guarded (Allowed : List Heard → Heard → Prop) (l : Listening vad asr) : ListenLabel → Prop
  | .message m _ => ∀ t, l.session.turn = some t → t.cancelled = false →
      ∀ item ∈ m.heard l.session, Allowed l.heard item
  | .other _ => True

/-- The invariant of the rule: the property holds while the loop receives, and a new
turn finds an empty record. -/
structure Inv (Q : Turn vad asr → List Heard → Prop) (l : Listening vad asr) : Prop where
  settled : StreamSession.Holds Settled l.session
  turn : l.session.loop = .receiving → ∀ t, l.session.turn = some t → Q t l.heard
  pending : ∀ next, l.session.Waiting next → next = .closing ∨ l.heard = []

end Listening

namespace Attends

variable {Q : Turn vad asr → List Heard → Prop} {Allowed : List Heard → Heard → Prop}
  {l l' : Listening vad asr}

/-- Where the loop goes on to `next`, it waits or has got there. -/
theorem of_underway (h : Attends Q Allowed) {σ σ' : StreamSession vad asr} {next : After}
    {heard : List Heard} (hunder : StreamSession.Underway next σ σ')
    (hnext : next = .closing ∨ heard = []) :
    (σ'.loop = .receiving → ∀ t, σ'.turn = some t → Q t heard) ∧
      ∀ next', σ'.Waiting next' → next' = .closing ∨ heard = [] := by
  cases hunder with
  | waiting hwaiting _ =>
      refine ⟨fun hloop => (hwaiting.not_settled (Or.inl hloop)).elim, ?_⟩
      intro next' hwaiting'
      have hsame : next' = next := by
        obtain hw | hw := hwaiting
        · simpa [StreamSession.Waiting, hw, eq_comm] using hwaiting'
        · simpa [StreamSession.Waiting, hw, eq_comm] using hwaiting'
      rw [hsame]
      exact hnext
  | @concluded y _ heq =>
      subst heq
      refine ⟨?_, fun next' hwaiting =>
        (hwaiting.not_settled (StreamSession.loop_conclude y next)).elim⟩
      cases next with
      | closing => simp [StreamSession.conclude]
      | opening sessionId turnId control =>
          obtain hclosing | rfl := hnext
          · cases hclosing
          intro hloop t hturn
          cases hn : control.nBest with
          | none => simp [StreamSession.conclude, hn] at hloop
          | some nBest =>
              simp only [StreamSession.conclude, hn, Option.some.injEq] at hturn
              subst hturn
              exact h.opened _ _ _ _ _

/-- What the rule says of a state: of the turn if the loop receives, of the record if it
waits. -/
def Good (Q : Turn vad asr → List Heard → Prop) (σ : StreamSession vad asr)
    (heard : List Heard) : Prop :=
  (σ.loop = .receiving → ∀ t, σ.turn = some t → Q t heard) ∧
    ∀ next, σ.Waiting next → next = .closing ∨ heard = []

theorem good_of_receiving {σ : StreamSession vad asr} {heard : List Heard}
    (hloop : σ.loop = .receiving) (hq : ∀ t, σ.turn = some t → Q t heard) : Good Q σ heard :=
  ⟨fun _ => hq, fun _ hwaiting => (hwaiting.not_settled (Or.inl hloop)).elim⟩

theorem good_handlePcm (h : Attends Q Allowed) {σ : StreamSession vad asr} {heard : List Heard}
    (hloop : σ.loop = .receiving) (hq : ∀ t, σ.turn = some t → Q t heard) (data : Pcm)
    (hallowed : ∀ t, σ.turn = some t → t.cancelled = false → Allowed heard (.pcm data)) :
    Good Q (σ.handlePcm data) (heard ++ [.pcm data]) := by
  cases hturn : σ.turn with
  | none =>
      have hsame : σ.handlePcm data = σ := by simp [StreamSession.handlePcm, hturn]
      rw [hsame]
      exact good_of_receiving hloop (by simp [hturn])
  | some t =>
      cases hcancelled : t.cancelled with
      | true =>
          rw [StreamSession.handlePcm_of_cancelled hturn hcancelled]
          refine good_of_receiving hloop ?_
          intro t' hturn'
          rw [hturn] at hturn'
          cases hturn'
          exact h.dropped _ (hq t hturn) hcancelled
      | false =>
          rw [StreamSession.handlePcm_of_live hturn hcancelled]
          refine good_of_receiving hloop ?_
          intro t' hturn'
          cases hturn'
          exact h.pcm data (hq t hturn) hcancelled (hallowed t hturn hcancelled)

theorem good_handleStop (h : Attends Q Allowed) {σ : StreamSession vad asr} {heard : List Heard}
    (hloop : σ.loop = .receiving) (hq : ∀ t, σ.turn = some t → Q t heard) (ours : Bool)
    (hallowed : ∀ t, σ.turn = some t → t.cancelled = false → Allowed heard (.stop ours)) :
    Good Q σ.handleStop (heard ++ [.stop ours]) := by
  cases hturn : σ.turn with
  | none =>
      have hsame : σ.handleStop = σ := by simp [StreamSession.handleStop, hturn]
      rw [hsame]
      exact good_of_receiving hloop (by simp [hturn])
  | some t =>
      by_cases hcancelled : t.cancelled = true
      · have hsame : σ.handleStop = σ := by simp [StreamSession.handleStop, hturn, hcancelled]
        rw [hsame]
        refine good_of_receiving hloop ?_
        intro t' hturn'
        rw [hturn] at hturn'
        cases hturn'
        exact h.dropped _ (hq t hturn) hcancelled
      · have hlive : t.cancelled = false := by simpa using hcancelled
        have hqueued : σ.handleStop =
            { σ with turn := some { t with queue := t.queue ++ [none] } } := by
          simp only [StreamSession.handleStop, hturn]
          rw [if_neg hcancelled]
        rw [hqueued]
        refine good_of_receiving hloop ?_
        intro t' hturn'
        cases hturn'
        exact h.stop ours (hq t hturn) hlive (hallowed t hturn hlive)

/-- A start is refused, ignored or accepted. -/
theorem good_handleStart (h : Attends Q Allowed) {σ : StreamSession vad asr} {heard : List Heard}
    (hloop : σ.loop = .receiving) (hq : ∀ t, σ.turn = some t → Q t heard)
    (control : StartControl) (sends : Bool) :
    Good Q (σ.handleStart control sends)
      (if (σ.acceptedStart (.client (.start control) sends)).isSome then [] else heard) := by
  have hclose (σ₁ : StreamSession vad asr) (heard' : List Heard) :
      Good Q (σ₁.abandonActive .closing) heard' :=
    h.of_underway (.abandonActive .rfl) (Or.inl rfl)
  cases hsid : control.sessionId with
  | none =>
      simp only [StreamSession.handleStart, hsid]
      exact hclose _ _
  | some sessionId =>
      cases htid : control.turnId with
      | none =>
          simp only [StreamSession.handleStart, hsid, htid]
          exact hclose _ _
      | some turnId =>
          simp only [StreamSession.handleStart, StreamSession.acceptedStart, hsid, htid]
          by_cases hscene : control.sceneId = none ∧ control.categoryPath = none
          · rw [if_pos hscene]
            exact hclose _ _
          · rw [if_neg hscene, if_neg hscene]
            by_cases hsession : σ.sessionId ≠ none ∧ σ.sessionId ≠ some sessionId
            · rw [if_pos hsession]
              exact hclose _ _
            · rw [if_neg hsession, if_neg hsession]
              by_cases hstale : turnId ≤ σ.currentTurnId
              · rw [if_pos hstale, if_pos hstale]
                by_cases htaken : takes sends (some sessionId) = true
                · rw [if_pos htaken]
                  exact good_of_receiving hloop hq
                · rw [if_neg htaken]
                  exact hclose _ _
              · rw [if_neg hstale, if_neg hstale]
                exact h.of_underway (.abandonActive .rfl) (Or.inr rfl)

/-- The loop receives a message. -/
theorem message (h : Attends Q Allowed) (hinv : l.Inv Q) {m : Message} {sends : Bool}
    (hloop : l.session.loop = .receiving) (hguard : l.Guarded Allowed (.message m sends)) :
    Good Q (l.session.receive sends m.frame)
      (if (l.session.acceptedStart (.client m.frame sends)).isSome then []
        else l.heard ++ m.heard l.session) := by
  have hq := hinv.turn hloop
  have hclose (heard : List Heard) : Good Q (l.session.abandonActive .closing) heard :=
    h.of_underway (.abandonActive .rfl) (Or.inl rfl)
  cases m with
  | bytes data =>
      exact h.good_handlePcm hloop hq data
        (fun t hturn hlive => hguard t hturn hlive _ (by simp [Message.heard]))
  | disconnect => exact hclose _
  | text frame =>
      obtain hframe | hframe | hframe | ⟨control, hframe⟩ := StreamSession.frame_cases frame
      · simp only [Message.frame, Message.heard, hframe, List.append_nil]
        exact good_of_receiving hloop hq
      · simp only [Message.frame, Message.heard, hframe]
        exact hclose _
      · simp only [Message.frame, Message.heard, hframe]
        refine h.good_handleStop hloop hq _ ?_
        intro t hturn hlive
        exact hguard t hturn hlive _ (by simp [Message.heard, hframe])
      · simp only [Message.frame, Message.heard, hframe, List.append_nil]
        exact h.good_handleStart hloop hq control sends

/-- A task of the turn makes a step while the loop does not wait. -/
theorem good_stepTask (h : Attends Q Allowed) (hinv : l.Inv Q)
    (hidle : ¬ ∃ next, l.session.Waiting next) (label : StreamLabel) {σ' : StreamSession vad asr}
    (hstep : l.session.stepTask (fun t => t.stepLabel label) = some σ') :
    Good Q σ' l.heard := by
  obtain ⟨t, r, hturn, hr, rfl⟩ := StreamSession.stepTask_cases hstep
  refine ⟨?_, fun next hwaiting => (hidle ⟨next, hwaiting⟩).elim⟩
  intro hloop t' hturn'
  cases hturn'
  have hsettled := hinv.settled t hturn
  rw [show l.session.loop = .receiving from hloop] at hsettled
  exact h.task hsettled (hinv.turn hloop t hturn) hr

/-- The rule. -/
theorem step (h : Attends Q Allowed) (hinv : l.Inv Q) {label : ListenLabel}
    (hguard : l.Guarded Allowed label) (hstep : l.step label = some l') : l'.Inv Q := by
  have hany (frame : StreamLabel) :
      l.session.Guarded (fun _ : Turn vad asr => True) frame := by
    cases frame with
    | client frame sends => exact fun _ _ _ _ => trivial
    | _ => trivial
  cases label with
  | message m sends =>
      simp only [Listening.step, Option.map_eq_some_iff] at hstep
      obtain ⟨σ', hstep, rfl⟩ := hstep
      have hsettled := Settled.maintained.step hinv.settled (hany _) hstep
      simp only [StreamSession.step] at hstep
      split_ifs at hstep with hloop
      cases hstep
      obtain ⟨hturn, hpending⟩ := h.message hinv hloop hguard
      exact ⟨hsettled, hturn, hpending⟩
  | other label =>
      simp only [Listening.step] at hstep
      split_ifs at hstep with hclient
      simp only [Option.map_eq_some_iff] at hstep
      obtain ⟨σ', hstep, rfl⟩ := hstep
      have hsettled := Settled.maintained.step hinv.settled (hany label) hstep
      have hgood : Good Q σ' l.heard := by
        by_cases hwaiting : ∃ next, l.session.Waiting next
        · obtain ⟨next, hwaiting⟩ := hwaiting
          exact h.of_underway (.step hwaiting .rfl (by simpa using hclient) hstep)
            (hinv.pending next hwaiting)
        · cases label with
          | client frame sends => simp [StreamLabel.isClient] at hclient
          | loop =>
              simp only [StreamSession.step, StreamSession.stepLoop] at hstep
              split at hstep
              · exact (hwaiting ⟨_, Or.inl ‹_›⟩).elim
              · exact (hwaiting ⟨_, Or.inr ‹_›⟩).elim
              · cases hstep
          | fan => exact h.good_stepTask hinv hwaiting .fan hstep
          | events sends => exact h.good_stepTask hinv hwaiting (.events sends) hstep
          | pump sends => exact h.good_stepTask hinv hwaiting (.pump sends) hstep
          | finalize reply sends =>
              exact h.good_stepTask hinv hwaiting (.finalize reply sends) hstep
      exact ⟨hsettled, hgood.1, hgood.2⟩

theorem run (h : Attends Q Allowed) {maxAudioBytes : Nat} {labels : List ListenLabel}
    (hguarded : AlongRun Listening.step (Listening.Guarded Allowed)
      (Listening.accepted vad asr maxAudioBytes) labels)
    (hrun : (Listening.accepted vad asr maxAudioBytes).run labels = some l) : l.Inv Q := by
  refine runSteps_invariant (fun hinv hguard hstep => h.step hinv hguard hstep) ?_ hguarded hrun
  refine ⟨?_, ?_, ?_⟩
  · intro t hturn
    cases hturn
  · intro _ t hturn
    cases hturn
  · intro next hwaiting
    exact (hwaiting.not_settled (Or.inl rfl)).elim

end Attends

namespace Listens

variable {Q : Turn vad asr → List Heard → Prop} {Allowed : List Heard → Heard → Prop}
  {l : Listening vad asr}

theorem attends (h : Listens Q Allowed) : Attends Q Allowed where
  opened := h.opened
  pcm := h.pcm
  stop := h.stop
  dropped := h.dropped
  task hsettled hq hstep := by
    obtain ⟨bodies, -, hsends⟩ := Turn.sends_of_stepLabel hstep
    exact h.task hsettled hq hsends

theorem run (h : Listens Q Allowed) {maxAudioBytes : Nat} {labels : List ListenLabel}
    (hguarded : AlongRun Listening.step (Listening.Guarded Allowed)
      (Listening.accepted vad asr maxAudioBytes) labels)
    (hrun : (Listening.accepted vad asr maxAudioBytes).run labels = some l) : l.Inv Q :=
  h.attends.run hguarded hrun

end Listens

/-- A sentinel gets into the queue of a turn only with a stop of the kind `P`. -/
structure StopInv (P : Bool → Prop) (t : Turn vad asr) (heard : List Heard) : Prop where
  fanCancel : t.fanCancel = false
  forked : t.fan = .absent → t.pump = .created
  stopped : t.fan = .done ∨ none ∈ t.queue → ∃ ours, P ours ∧ .stop ours ∈ heard

namespace StopInv

variable {P : Bool → Prop} {t t' : Turn vad asr} {heard : List Heard}

/-- A step of the pump leaves `fan_out` alone, or starts it. -/
theorem pumpMove (h : StopInv P t heard) (hsettled : Settled .receiving t)
    (hmove : t.PumpMove t') : StopInv P t' heard := by
  have hlater {pump : Pump vad asr} (hpump : t.pump = pump) (hnot : pump ≠ .created)
      (hfan : t.fan = .absent) : False := by
    exact hnot (hpump ▸ h.forked hfan)
  cases hmove with
  | abort hpump hcancel => simp [(hsettled.receiving rfl).2.1] at hcancel
  | fork hpump =>
      refine ⟨h.fanCancel, by simp, ?_⟩
      rintro (hfan | hqueue)
      · cases hfan
      · exact h.stopped (Or.inr hqueue)
  | read hpump =>
      exact ⟨h.fanCancel, fun hfan => (hlater hpump (by simp) hfan).elim, h.stopped⟩
  | leave hpump =>
      exact ⟨h.fanCancel, fun hfan => (hlater hpump (by simp) hfan).elim, h.stopped⟩
  | joinFan hpump _ =>
      exact ⟨h.fanCancel, fun hfan => (hlater hpump (by simp) hfan).elim, h.stopped⟩
  | joinEvents hpump _ =>
      exact ⟨h.fanCancel, fun hfan => (hlater hpump (by simp) hfan).elim, h.stopped⟩
  | transcribe hpump =>
      exact ⟨h.fanCancel, fun hfan => (hlater hpump (by simp) hfan).elim, h.stopped⟩
  | finish hpump _ _ =>
      exact ⟨h.fanCancel, fun hfan => (hlater hpump (by simp) hfan).elim, h.stopped⟩

/-- `fan_out` ends on the sentinel. -/
theorem stepFan (h : StopInv P t heard) (hstep : t.stepFan = some t') : StopInv P t' heard := by
  obtain ⟨hfan, ⟨hcancel, -⟩ | ⟨item, queue, -, hqueue, rfl⟩⟩ := Turn.stepFan_cases hstep
  · simp [h.fanCancel] at hcancel
  · refine ⟨h.fanCancel, ?_, ?_⟩
    · intro hnot
      dsimp only at hnot
      split_ifs at hnot
    · intro hended
      refine h.stopped (Or.inr ?_)
      rw [hqueue]
      obtain hdone | hqueued := hended
      · dsimp only at hdone
        split_ifs at hdone with hitem
        simp [hitem]
      · exact List.mem_cons_of_mem _ hqueued

/-- A live turn hears only stops of the kind. -/
theorem listens : Listens (@StopInv vad asr P)
    (fun _ item => ∀ ours, item = .stop ours → P ours) where
  opened _ _ _ _ _ :=
    { fanCancel := rfl
      forked := fun _ => rfl
      stopped := by
        rintro (h | h) <;> cases h }
  pcm {t heard} data h _ _ := by
    have hsame : (t.hear data).fan = t.fan ∧ (t.hear data).fanCancel = t.fanCancel ∧
        (t.hear data).pump = t.pump ∧ (t.hear data).queue = t.queue ++ [some data] := by
      simp only [Turn.hear]
      split_ifs <;> exact ⟨rfl, rfl, rfl, rfl⟩
    obtain ⟨hfan, hflag, hpump, hqueue⟩ := hsame
    refine ⟨by rw [hflag, h.fanCancel], by rw [hfan, hpump]; exact h.forked, ?_⟩
    intro hended
    rw [hfan, hqueue] at hended
    obtain ⟨ours, hours, hmem⟩ := h.stopped (by simpa using hended)
    exact ⟨ours, hours, List.mem_append_left _ hmem⟩
  stop ours h _ hallowed :=
    ⟨h.fanCancel, h.forked, fun _ => ⟨ours, hallowed ours rfl, by simp⟩⟩
  dropped item h _ := by
    refine ⟨h.fanCancel, h.forked, ?_⟩
    intro hended
    obtain ⟨ours, hours, hmem⟩ := h.stopped hended
    exact ⟨ours, hours, List.mem_append_left _ hmem⟩
  task {t _ heard _ _} hsettled h hsends := by
    cases hsends with
    | fan hstep => exact h.stepFan hstep
    | events sends hsends =>
        cases hsends with
        | silent hmove => cases hmove <;> exact ⟨h.fanCancel, h.forked, h.stopped⟩
        | event => exact ⟨h.fanCancel, h.forked, h.stopped⟩
    | pump sends hsends =>
        have hrecognizing {seg : SegmentResult} {state : asr.State} {chunks : List AudioChunk}
            {text : String} {t' : Turn vad asr}
            (hpump : t.pump = .recognizing seg state chunks text) (hfan : t'.fan = t.fan)
            (hflag : t'.fanCancel = t.fanCancel) (hqueue : t'.queue = t.queue) :
            StopInv P t' heard := by
          refine ⟨by rw [hflag, h.fanCancel], ?_, by rw [hfan, hqueue]; exact h.stopped⟩
          intro habsent
          have hcreated := h.forked (hfan ▸ habsent)
          simp [hpump] at hcreated
        cases hsends with
        | early _ hmove _ => exact h.pumpMove hsettled hmove
        | interrupted hpump _ => exact hrecognizing hpump rfl rfl rfl
        | skipped hpump _ => exact hrecognizing hpump rfl rfl rfl
        | transcript hpump _ => exact hrecognizing hpump rfl rfl rfl
        | fed hpump _ => exact hrecognizing hpump rfl rfl rfl
        | ended hpump _ => exact hrecognizing hpump rfl rfl rfl
        | stopped hpump => exact hrecognizing hpump rfl rfl rfl
        | failed _ hpump _ => exact hrecognizing hpump rfl rfl rfl
        | unsent hpump _ => exact hrecognizing hpump rfl rfl rfl
    | finalize reply sends hsends =>
        cases hsends <;> exact ⟨h.fanCancel, h.forked, h.stopped⟩

end StopInv

/-- The audio that is heard before the first stop. -/
def pcmBeforeStop : List Heard → List Pcm
  | [] => []
  | .pcm data :: rest => data :: pcmBeforeStop rest
  | .stop _ :: _ => []

/-- The audio for Path B: all of it, or none of it beyond the cap. -/
def pathB (cap : Nat) (audio : Pcm) : Option Pcm :=
  if cap < audio.length then none else some audio

theorem pcmBeforeStop_append {heard : List Heard} (h : ∀ ours, Heard.stop ours ∉ heard)
    (data : Pcm) : pcmBeforeStop (heard ++ [.pcm data]) = pcmBeforeStop heard ++ [data] := by
  induction heard with
  | nil => rfl
  | cons item heard ih =>
      cases item with
      | pcm d => simp [pcmBeforeStop, ih (fun ours hmem => h ours (by simp [hmem]))]
      | stop ours => exact absurd (by simp) (h ours)

/-- What comes after a stop, and the stop itself, do not count. -/
theorem pcmBeforeStop_stopped {heard : List Heard} (item : Heard)
    (h : (∃ ours, Heard.stop ours ∈ heard) ∨ ∃ ours, item = .stop ours) :
    pcmBeforeStop (heard ++ [item]) = pcmBeforeStop heard := by
  induction heard with
  | nil =>
      obtain ⟨ours, hmem⟩ | ⟨ours, rfl⟩ := h
      · simp at hmem
      · rfl
  | cons first heard ih =>
      cases first with
      | stop ours => rfl
      | pcm d =>
          simp only [List.cons_append, pcmBeforeStop]
          rw [ih]
          obtain ⟨ours, hmem⟩ | hitem := h
          · exact Or.inl ⟨ours, by simpa using hmem⟩
          · exact Or.inr hitem

/-- What `_finalize_turn` puts in the request. -/
def Turn.requestAudio (t : Turn vad asr) : Option Pcm :=
  if t.audioOverflow then none else some t.audioAccum

theorem Turn.audio_of_recognitionRequest {t : Turn vad asr} {text : String}
    {request : TurnRequest} (h : t.recognitionRequest text = some request) :
    request.audio = t.requestAudio := by
  simp only [recognitionRequest] at h
  split at h
  · split at h
    · cases h
      rfl
    · cases h
  · cases h

/-- Past the cap nothing more is kept; below it, everything. -/
theorem Turn.requestAudio_hear {t : Turn vad asr} {audio : Pcm} (data : Pcm)
    (h : t.requestAudio = pathB t.maxAudioBytes audio) :
    (t.hear data).requestAudio = pathB t.maxAudioBytes (audio ++ data) := by
  by_cases hover : t.audioOverflow = true
  · have hpast : t.maxAudioBytes < audio.length := by
      by_contra hle
      simp [requestAudio, hover, pathB, hle] at h
    have hpast' : t.maxAudioBytes < audio.length + data.length := by omega
    simp [hear, requestAudio, hover, pathB, hpast']
  · have hbelow : ¬ t.maxAudioBytes < audio.length := by
      intro hlt
      simp [requestAudio, hover, pathB, hlt] at h
    have haccum : t.audioAccum = audio := by
      simpa [requestAudio, hover, pathB, hbelow] using h
    by_cases hcap : t.maxAudioBytes < audio.length + data.length
    · simp [hear, requestAudio, hover, pathB, haccum, hcap]
    · simp [hear, requestAudio, hover, pathB, haccum, hcap]

/-- The audio kept for Path B is what was heard before the stop, and so is that of the
request. -/
structure AudioInv (t : Turn vad asr) (heard : List Heard) : Prop where
  stop : StopInv (fun _ => True) t heard
  kept : t.cancelled = false → t.requestAudio = pathB t.maxAudioBytes (pcmBeforeStop heard).flatten
  requested : ∀ request, t.finalize = .recognizing request →
    (∃ ours, Heard.stop ours ∈ heard) ∧
      request.audio = pathB t.maxAudioBytes (pcmBeforeStop heard).flatten

namespace AudioInv

variable {t t' : Turn vad asr} {heard : List Heard} {label : StreamLabel}
  {bodies : List FrameBody}

/-- A turn whose pump is done has been stopped. -/
theorem stopped (h : AudioInv t heard) (hsettled : Settled .receiving t)
    (hdone : t.pumpDone = true) : ∃ ours, Heard.stop ours ∈ heard := by
  have hfan : t.fan = .done := by
    cases hf : t.fan with
    | absent =>
        have hcreated := h.stop.forked hf
        simp [Turn.pumpDone, hcreated] at hdone
    | running => exact absurd hf (hsettled.quiet (Settled.not_early_of_pumpDone hdone)).1
    | done => rfl
  obtain ⟨ours, -, hmem⟩ := h.stop.stopped (Or.inl hfan)
  exact ⟨ours, hmem⟩

/-- A step that leaves the audio and the finalizer alone. -/
theorem aside (h : AudioInv t heard) (hstop : StopInv (fun _ => True) t' heard)
    (hcap : t'.maxAudioBytes = t.maxAudioBytes) (haudio : t'.requestAudio = t.requestAudio)
    (hcancelled : t'.cancelled = false → t.cancelled = false)
    (hfinalize : t'.finalize = t.finalize) : AudioInv t' heard where
  stop := hstop
  kept hlive := by
    rw [haudio, hcap]
    exact h.kept (hcancelled hlive)
  requested request hrequest := by
    rw [hcap]
    exact h.requested request (hfinalize ▸ hrequest)

theorem task (hsettled : Settled .receiving t) (h : AudioInv t heard)
    (hsends : t.Sends label t' bodies) : AudioInv t' heard := by
  have hstop := StopInv.listens.task hsettled h.stop hsends
  cases hsends with
  | fan hstep =>
      obtain ⟨-, ⟨-, rfl⟩ | ⟨_, _, -, -, rfl⟩⟩ := Turn.stepFan_cases hstep
      · exact h.aside hstop rfl rfl id rfl
      · exact h.aside hstop rfl rfl id rfl
  | events sends hsends =>
      cases hsends with
      | silent hmove => cases hmove <;> exact h.aside hstop rfl rfl id rfl
      | event => exact h.aside hstop rfl rfl id rfl
  | pump sends hsends =>
      cases hsends with
      | early hearly hmove _ =>
          cases hmove with
          | finish hpump _ _ => simp [Turn.Early, hpump] at hearly
          | _ => exact h.aside hstop rfl rfl id rfl
      | failed _ _ _ => exact h.aside hstop rfl rfl (by simp) rfl
      | _ => exact h.aside hstop rfl rfl id rfl
  | finalize reply sends hsends =>
      cases hsends with
      | requested hfinalize hpump hlive hrequest =>
          refine ⟨hstop, h.kept, ?_⟩
          intro request' hsame
          cases hsame
          refine ⟨h.stopped hsettled (by simp [Turn.pumpDone, hpump]), ?_⟩
          rw [Turn.audio_of_recognitionRequest hrequest]
          exact h.kept hlive
      | _ => exact ⟨hstop, h.kept, by simp⟩

/-- A live turn hears no audio after its stop. -/
theorem listens : Listens (@AudioInv vad asr)
    (fun heard item => ∀ data, item = .pcm data → ∀ ours, Heard.stop ours ∉ heard) where
  opened maxAudioBytes sessionId turnId control nBest :=
    { stop := StopInv.listens.opened maxAudioBytes sessionId turnId control nBest
      kept := fun _ => rfl
      requested := by
        intro request h
        cases h }
  pcm {t heard} data h hlive hallowed := by
    have hsame : (t.hear data).maxAudioBytes = t.maxAudioBytes ∧
        (t.hear data).finalize = t.finalize := by
      simp only [Turn.hear]
      split_ifs <;> exact ⟨rfl, rfl⟩
    refine ⟨StopInv.listens.pcm data h.stop hlive (fun _ hitem => nomatch hitem), ?_, ?_⟩
    · intro _
      rw [hsame.1, pcmBeforeStop_append (hallowed data rfl), List.flatten_append,
        List.flatten_singleton]
      exact Turn.requestAudio_hear data (h.kept hlive)
    · intro request hrequest
      rw [hsame.2] at hrequest
      obtain ⟨ours, hmem⟩ := (h.requested request hrequest).1
      exact absurd hmem (hallowed data rfl ours)
  stop {t heard} ours h hlive _ := by
    have hsame : pcmBeforeStop (heard ++ [.stop ours]) = pcmBeforeStop heard :=
      pcmBeforeStop_stopped _ (Or.inr ⟨ours, rfl⟩)
    refine ⟨StopInv.listens.stop ours h.stop hlive (fun _ _ => trivial), ?_, ?_⟩
    · intro _
      rw [hsame]
      exact h.kept hlive
    · intro request hrequest
      rw [hsame]
      exact ⟨⟨ours, by simp⟩, (h.requested request hrequest).2⟩
  dropped {t heard} item h hcancelled := by
    refine ⟨StopInv.listens.dropped item h.stop hcancelled, ?_, ?_⟩
    · intro hlive
      simp [hcancelled] at hlive
    · intro request hrequest
      obtain ⟨⟨ours, hmem⟩, haudio⟩ := h.requested request hrequest
      rw [pcmBeforeStop_stopped item (Or.inl ⟨ours, hmem⟩)]
      exact ⟨⟨ours, List.mem_append_left _ hmem⟩, haudio⟩
  task hsettled h hsends := h.task hsettled hsends

end AudioInv

namespace Listening

variable {l : Listening vad asr}

/-- No audio comes after the stop of a live turn. -/
def InTime (l : Listening vad asr) (label : ListenLabel) : Prop :=
  l.Guarded (fun heard item => ∀ data, item = .pcm data → ∀ ours, Heard.stop ours ∉ heard) label

end Listening

/-- A PCM frame changes a live turn. -/
theorem StreamSession.receive_pcm_iff {σ : StreamSession vad asr} {t : Turn vad asr}
    (hturn : σ.turn = some t) (data : Pcm) (sends : Bool) :
    σ.receive sends (.pcm data) = σ ↔ t.cancelled = true := by
  cases hcancelled : t.cancelled with
  | true => exact iff_of_true (handlePcm_of_cancelled hturn hcancelled data) rfl
  | false =>
      refine iff_of_false ?_ (by simp)
      intro hsame
      simp only [receive] at hsame
      rw [handlePcm_of_live hturn hcancelled] at hsame
      have hturns := congrArg StreamSession.turn hsame
      rw [hturn] at hturns
      simp only [Option.some.injEq] at hturns
      have hqueue := congrArg (fun t : Turn vad asr => t.queue.length) hturns
      simp [Turn.hear] at hqueue
      split_ifs at hqueue <;> simp at hqueue

/-- While the loop receives, a PCM frame for the active turn, late or not, changes nothing if
and only if the turn is cancelled.  In a run without late audio for a live turn, the request
gets the audio between start and stop. -/
theorem late_pcm_dropped_iff (vad : Vad) (asr : Asr) (maxAudioBytes : Nat)
    (labels : List ListenLabel) (l : Listening vad asr) (t : Turn vad asr)
    (hrun : (Listening.accepted vad asr maxAudioBytes).run labels = some l)
    (hloop : l.session.loop = .receiving) (hturn : l.session.turn = some t) :
    (∀ data sends, l.session.receive sends (.pcm data) = l.session ↔ t.cancelled = true) ∧
      (AlongRun Listening.step Listening.InTime (Listening.accepted vad asr maxAudioBytes) labels →
        ∀ request, t.finalize = .recognizing request →
          request.audio = pathB t.maxAudioBytes (pcmBeforeStop l.heard).flatten) := by
  refine ⟨StreamSession.receive_pcm_iff hturn, ?_⟩
  intro hintime request hrequest
  have hinv := AudioInv.listens.run hintime hrun
  exact ((hinv.turn hloop t hturn).requested request hrequest).2

section Examples

/-- The JSON of a control frame of session "s". -/
def controlJson (type : String) (turnId : Int) : TextFrame :=
  .value (.obj [("type", .str type), ("session_id", .str "s"), ("turn_id", .int turnId),
    ("scene_id", .str "main")])

/-- A turn up to its request, with what the client sends after the stop. -/
def requestRun (late : List Message) : List ListenLabel :=
  [.message (.text (controlJson "start" 1)), .other (.pump true), .other (.finalize .ok true),
    .message (.bytes [1]), .other .fan, .other (.events true), .other (.pump true),
    .other (.pump true), .message (.text (controlJson "stop" 1))] ++ late.map .message ++
  ([.fan, .events true, .events true, .pump true, .pump true, .pump true, .pump true,
    .finalize .ok true] : List StreamLabel).map .other

/-- A check of `InTime`. -/
def inTimeBy (l : Listening eagerVad okAsr) : ListenLabel → Bool
  | .message (.bytes _) _ => Heard.stop true ∉ l.heard ∧ Heard.stop false ∉ l.heard
  | _ => true

theorem inTime_of_inTimeBy (l : Listening eagerVad okAsr) (label : ListenLabel)
    (h : inTimeBy l label = true) : l.InTime label := by
  cases label with
  | other label => trivial
  | message m sends =>
      rintro t - - item hitem data rfl ours
      cases m with
      | bytes data =>
          simp only [inTimeBy, decide_eq_true_eq] at h
          cases ours
          · exact h.2
          · exact h.1
      | text frame =>
          simp only [Message.heard] at hitem
          split at hitem <;> simp at hitem
      | disconnect => simp [Message.heard] at hitem

theorem late_pcm_dropped_ok :
    ∃ l t request, (Listening.accepted eagerVad okAsr 8).run (requestRun []) = some l ∧
      l.session.turn = some t ∧ t.finalize = .recognizing request ∧
      request.audio = pathB 8 [1] ∧ request.audio = some [1] := by
  refine ⟨_, _, _, rfl, rfl, rfl, ?_, rfl⟩
  have hintime : AlongRun Listening.step Listening.InTime
      (Listening.accepted eagerVad okAsr 8) (requestRun []) :=
    alongRun_of_checkRun inTime_of_inTimeBy (by decide)
  exact (late_pcm_dropped_iff eagerVad okAsr 8 (requestRun []) _ _ rfl rfl rfl).2 hintime _ rfl

/-- Audio that comes after the stop is given to Path B. -/
theorem late_pcm_kept :
    ∃ l t request, (Listening.accepted eagerVad okAsr 8).run (requestRun [.bytes [2]]) = some l ∧
      l.session.turn = some t ∧ t.finalize = .recognizing request ∧
      l.heard = [.pcm [1], .stop true, .pcm [2]] ∧ request.audio = some [1, 2] ∧
      request.audio ≠ pathB 8 (pcmBeforeStop l.heard).flatten :=
  ⟨_, _, _, rfl, rfl, rfl, rfl, rfl, by decide⟩

end Examples

end Api
end Sandroid
