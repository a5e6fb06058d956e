import Sandroid.Api.TurnAudio

/-!
# From the audio to the request

What `_finalize_turn` asks the orchestrator about, in terms of the two backends alone: the
chunks that the client sends run through the queue, `fan_out` and the queue of
`segments_source` into the VAD, its first segment through `segment_chunks` into the ASR, and
the last of its finals into the request.

`PumpAt` accounts for every chunk on the way.  `request_of_first_segment` holds for every
interleaving of the client with the tasks.
-/

namespace Sandroid
namespace Api

open Lib

variable {vad : Vad} {asr : Asr}

/-- What `handle_pcm` and `handle_stop` put in the queue. -/
def Heard.item : Heard → Option Pcm
  | .pcm data => some data
  | .stop _ => none

/-- The text that `_stream_segment_through_asr` keeps. -/
def finalText (ps : List PartialTranscript) : String :=
  ps.foldl (fun text p => if p.isFinal then p.text else text) ""

theorem finalText_snoc (ps : List PartialTranscript) (p : PartialTranscript) :
    finalText (ps ++ [p]) = if p.isFinal then p.text else finalText ps := by
  rw [finalText, List.foldl_append]
  rfl

section Items

variable {heard : List Heard} {given : List Pcm} {rest : List (Option Pcm)}

theorem prefix_pcmBeforeStop (h : given.map some ++ rest = heard.map Heard.item) :
    given <+: pcmBeforeStop heard := by
  induction given generalizing heard with
  | nil => exact List.nil_prefix
  | cons data given ih =>
      cases heard with
      | nil => cases h
      | cons item heard =>
          rw [List.map_cons, List.cons_append, List.map_cons, List.cons.injEq] at h
          cases item with
          | pcm d =>
              cases h.1
              exact List.cons_prefix_cons.mpr ⟨rfl, ih h.2⟩
          | stop ours => cases h.1

/-- The sentinel comes with a stop, after all of the audio before it. -/
theorem pcmBeforeStop_of_sentinel (h : given.map some ++ none :: rest = heard.map Heard.item) :
    pcmBeforeStop heard = given ∧ ∃ ours, Heard.stop ours ∈ heard := by
  induction given generalizing heard with
  | nil =>
      cases heard with
      | nil => cases h
      | cons item heard =>
          rw [List.map_nil, List.nil_append, List.map_cons, List.cons.injEq] at h
          cases item with
          | pcm d => cases h.1
          | stop ours => exact ⟨rfl, ours, List.mem_cons_self⟩
  | cons data given ih =>
      cases heard with
      | nil => cases h
      | cons item heard =>
          rw [List.map_cons, List.cons_append, List.map_cons, List.cons.injEq] at h
          cases item with
          | pcm d =>
              cases h.1
              obtain ⟨hall, ours, hmem⟩ := ih h.2
              exact ⟨congrArg (data :: ·) hall, ours, List.mem_cons_of_mem _ hmem⟩
          | stop ours => cases h.1

theorem pcmBeforeStop_grows (heard more : List Heard) :
    pcmBeforeStop heard <+: pcmBeforeStop (heard ++ more) := by
  induction heard with
  | nil => exact List.nil_prefix
  | cons item heard ih =>
      cases item with
      | pcm d => exact List.cons_prefix_cons.mpr ⟨rfl, ih⟩
      | stop ours => exact List.prefix_rfl

end Items

/-- The VAD closes its first segment on the audio that has been heard; where it has met the
end, that was the stop. -/
def FirstHeard (vad : Vad) (heard : List Heard) (seg : SegmentResult) : Prop :=
  ∃ given ended s s', given <+: pcmBeforeStop heard ∧
    (ended = true → pcmBeforeStop heard = given ∧ ∃ ours, Heard.stop ours ∈ heard) ∧
    vad.segments.Reaches s given ended [] ∧ vad.segments.next s = .emit seg s'

theorem FirstHeard.first {heard : List Heard} {seg : SegmentResult}
    (h : FirstHeard vad heard seg) : vad.segments.First (pcmBeforeStop heard) seg := by
  obtain ⟨given, ended, s, s', hgiven, hended, hreaches, hnext⟩ := h
  exact ⟨s, s', ⟨given, ended, hgiven, fun he => (hended he).1.symm, hreaches⟩, hnext⟩

/-- Whatever is heard later. -/
theorem FirstHeard.later {heard : List Heard} {seg : SegmentResult}
    (h : FirstHeard vad heard seg) (item : Heard) : FirstHeard vad (heard ++ [item]) seg := by
  obtain ⟨given, ended, s, s', hgiven, hended, hreaches, hnext⟩ := h
  refine ⟨given, ended, s, s', hgiven.trans (pcmBeforeStop_grows heard [item]), ?_, hreaches,
    hnext⟩
  intro he
  obtain ⟨hall, ours, hmem⟩ := hended he
  refine ⟨?_, ours, List.mem_append_left _ hmem⟩
  rw [pcmBeforeStop_stopped item (Or.inl ⟨ours, hmem⟩), hall]

/-- The text that the ASR returns on the first segment. -/
def Recognized (vad : Vad) (asr : Asr) (heard : List Heard) (text : String) : Prop :=
  ∃ seg ps, FirstHeard vad heard seg ∧ seg.pcm16 ≠ [] ∧ asr.Returns (segmentChunks seg) ps ∧
    text = finalText ps

theorem Recognized.later {heard : List Heard} {text : String}
    (h : Recognized vad asr heard text) (item : Heard) :
    Recognized vad asr (heard ++ [item]) text := by
  obtain ⟨seg, ps, hseg, hne, hps, htext⟩ := h
  exact ⟨seg, ps, hseg.later item, hne, hps, htext⟩

/-- What the pump has at each of its places.  While it reads segments, what its source has
given, what waits in the two queues and what has been heard are the same items. -/
inductive PumpAt (vad : Vad) (asr : Asr) (heard : List Heard) (waiting : List (Option Pcm)) :
    Pump vad asr → Prop
  | created (hitems : waiting = heard.map Heard.item) : PumpAt vad asr heard waiting .created
  | segmenting {state : vad.segments.State} {ended : Bool} {given : List Pcm}
      (hreaches : vad.segments.Reaches state given ended [])
      (hitems : given.map some ++ ((if ended then [none] else []) ++ waiting) =
        heard.map Heard.item) : PumpAt vad asr heard waiting (.segmenting state ended)
  | joiningFan {outcome : SegmentOutcome}
      (hseg : ∀ seg, outcome = .segment (some seg) → FirstHeard vad heard seg) :
      PumpAt vad asr heard waiting (.joiningFan outcome)
  | joiningEvents {outcome : SegmentOutcome}
      (hseg : ∀ seg, outcome = .segment (some seg) → FirstHeard vad heard seg) :
      PumpAt vad asr heard waiting (.joiningEvents outcome)
  | recognizing {seg : SegmentResult} {state : asr.State} {given chunks : List AudioChunk}
      {ended : Bool} {ps : List PartialTranscript} (hseg : FirstHeard vad heard seg)
      (hne : seg.pcm16 ≠ []) (hreaches : asr.Reaches state given ended ps)
      (hchunks : given ++ chunks = segmentChunks seg) (hended : ended = true → chunks = []) :
      PumpAt vad asr heard waiting (.recognizing seg state chunks (finalText ps))
  | done {result : PumpResult}
      (htext : ∀ text, result = .returned text → text ≠ "" → Recognized vad asr heard text) :
      PumpAt vad asr heard waiting (.done result)

namespace PumpAt

variable {heard : List Heard} {waiting : List (Option Pcm)} {pump : Pump vad asr}

/-- A live turn hears one more frame. -/
theorem hear (h : PumpAt vad asr heard waiting pump) (item : Heard) :
    PumpAt vad asr (heard ++ [item]) (waiting ++ [item.item]) pump := by
  have hmore : (heard ++ [item]).map Heard.item = heard.map Heard.item ++ [item.item] :=
    List.map_append
  cases h with
  | created hitems =>
      rw [hitems, ← hmore]
      exact .created rfl
  | segmenting hreaches hitems =>
      refine .segmenting hreaches ?_
      rw [hmore, ← hitems, List.append_assoc, List.append_assoc]
  | joiningFan hseg => exact .joiningFan fun seg hout => (hseg seg hout).later item
  | joiningEvents hseg => exact .joiningEvents fun seg hout => (hseg seg hout).later item
  | recognizing hseg hne hreaches hchunks hended =>
      exact .recognizing (hseg.later item) hne hreaches hchunks hended
  | done htext => exact .done fun text hresult hne => (htext text hresult hne).later item

/-- Once it is done the queues do not count. -/
theorem finished {result : PumpResult} (h : PumpAt vad asr heard waiting (.done result))
    (item : Heard) (waiting' : List (Option Pcm)) :
    PumpAt vad asr (heard ++ [item]) waiting' (.done result) := by
  cases h with
  | done htext => exact .done fun text hresult hne => (htext text hresult hne).later item

/-- The pump ends without a text. -/
theorem ends {result : PumpResult} (hresult : ∀ text, result = .returned text → text = "") :
    PumpAt vad asr heard waiting (.done result) :=
  .done fun text htext hne => absurd (hresult text htext) hne

/-- The VAD has closed a segment, or has none. -/
theorem leave {seg : SegmentResult} {state state' : vad.segments.State} {ended : Bool}
    (h : PumpAt vad asr heard waiting (.segmenting state ended))
    (hnext : vad.segments.next state = .emit seg state') : FirstHeard vad heard seg := by
  cases h with
  | @segmenting _ _ given hreaches hitems =>
      refine ⟨given, ended, state, state', prefix_pcmBeforeStop hitems, ?_, hreaches, hnext⟩
      rintro rfl
      exact pcmBeforeStop_of_sentinel hitems

end PumpAt

namespace Turn

variable {t : Turn vad asr} {sends : Bool} {heard : List Heard}

/-- The items on their way to the VAD. -/
def waiting (t : Turn vad asr) : List (Option Pcm) :=
  t.segmentsQ ++ t.queue

/-- One step in the ASR stream. -/
theorem pumpAt_stepAsr {seg : SegmentResult} {state : asr.State} {chunks : List AudioChunk}
    {text : String} (h : PumpAt vad asr heard t.waiting (.recognizing seg state chunks text)) :
    PumpAt vad asr heard (t.stepAsr sends seg state chunks text).1.waiting
      (t.stepAsr sends seg state chunks text).1.pump := by
  have hblank : PumpAt vad asr heard t.waiting (.done (.returned "")) :=
    .ends fun text htext => (PumpResult.returned.inj htext).symm
  have hraised : PumpAt vad asr heard t.waiting (.done (.raised .failed)) :=
    .ends fun text htext => by cases htext
  cases h with
  | @recognizing _ _ given _ ended ps hseg hne hreaches hchunks hended =>
      rw [stepAsr]
      split
      case h_1 p state' hnext =>
        by_cases hcancelled : t.cancelled = true
        · rw [if_pos hcancelled]
          exact hblank
        · rw [if_neg hcancelled]
          cases sends with
          | true =>
              have htranscript : PumpAt vad asr heard t.waiting _ :=
                .recognizing hseg hne (hreaches.emit hnext) hchunks hended
              rw [finalText_snoc] at htranscript
              exact htranscript
          | false => exact hraised
      case h_2 resume hnext =>
        split
        case h_1 => exact .recognizing hseg hne (hreaches.finish hnext) hchunks fun _ => rfl
        case h_2 chunk chunks =>
          have hopen : ended = false := by
            cases ended with
            | false => rfl
            | true => cases hended rfl
          subst hopen
          refine .recognizing hseg hne (hreaches.pull hnext chunk) ?_ (by simp)
          rw [List.append_assoc]
          exact hchunks
      case h_3 hnext =>
        refine .done fun text htext _ => ?_
        cases htext
        refine ⟨seg, ps, hseg, hne, ⟨state, ⟨given, ended, ⟨chunks, hchunks⟩, ?_, hreaches⟩,
          hnext⟩, rfl⟩
        intro he
        rw [hended he, List.append_nil] at hchunks
        exact hchunks
      case h_4 message hnext =>
        split_ifs with hcancelled hsends
        · exact hblank
        · exact hblank
        · exact hraised

/-- The VAD takes the next item of its queue. -/
theorem pumpAt_pull {state : vad.segments.State} {resume : Option Pcm → vad.segments.State}
    {item : Option Pcm} {queue : List (Option Pcm)}
    (h : PumpAt vad asr heard t.waiting (.segmenting state false))
    (hnext : vad.segments.next state = .pull resume) (hqueue : t.segmentsQ = item :: queue) :
    PumpAt vad asr heard (queue ++ t.queue) (.segmenting (resume item) item.isNone) := by
  cases h with
  | @segmenting _ _ given hreaches hitems =>
      rw [waiting, hqueue] at hitems
      cases item with
      | none => exact .segmenting (hreaches.finish hnext) hitems
      | some data =>
          refine .segmenting (hreaches.pull hnext data) ?_
          rw [List.map_append, List.append_assoc]
          exact hitems

/-- The pump is behind its `finally`. -/
theorem pumpAt_afterJoin {outcome : SegmentOutcome}
    (h : PumpAt vad asr heard t.waiting (.joiningEvents outcome)) :
    PumpAt vad asr heard t.waiting (t.afterJoin outcome) := by
  cases h with
  | joiningEvents hseg =>
      simp only [afterJoin]
      split
      case h_1 f => exact .ends fun text htext => by cases htext
      case h_2 => exact .ends fun text htext => (PumpResult.returned.inj htext).symm
      case h_3 seg =>
        split_ifs with hskip
        · exact .ends fun text htext => (PumpResult.returned.inj htext).symm
        · exact .recognizing (hseg seg rfl) (not_or.mp hskip).2 .start rfl (by simp)

/-- One step of the pump. -/
theorem pumpAt_stepPump {r : Turn vad asr × List ServerFrame}
    (h : PumpAt vad asr heard t.waiting t.pump) (hstep : t.stepPump sends = some r) :
    PumpAt vad asr heard r.1.waiting r.1.pump := by
  simp only [stepPump] at hstep
  split at hstep
  case h_1 hpump =>
    rw [hpump] at h
    split at hstep
    · cases hstep
      exact .ends fun text htext => by cases htext
    · cases hstep
      cases h with
      | created hitems => exact .segmenting .start hitems
  case h_2 state ended hpump =>
    rw [hpump] at h
    split at hstep
    · cases hstep
      exact .joiningFan fun seg hout => by cases hout
    · split at hstep
      case h_1 seg state' hnext =>
        cases hstep
        refine .joiningFan fun seg' hout => ?_
        rw [SegmentOutcome.segment.injEq] at hout
        split at hout
        · cases hout
        · cases hout
          exact h.leave hnext
      case h_2 resume hnext =>
        cases ended with
        | true =>
            cases hstep
            cases h with
            | segmenting hreaches hitems => exact .segmenting (hreaches.finish hnext) hitems
        | false =>
            split at hstep
            case isTrue hended => cases hended
            case isFalse =>
              split at hstep
              case h_1 => cases hstep
              case h_2 item queue hqueue =>
                have hpull := pumpAt_pull h hnext hqueue
                cases hstep
                exact hpull
      case h_3 hnext =>
        cases hstep
        exact .joiningFan fun seg hout => by cases hout
      case h_4 message hnext =>
        cases hstep
        exact .joiningFan fun seg hout => by cases hout
  case h_3 outcome hpump =>
    rw [hpump] at h
    split at hstep
    · cases hstep
      cases h with
      | joiningFan hseg => exact .joiningEvents hseg
    · cases hstep
  case h_4 outcome hpump =>
    rw [hpump] at h
    split at hstep
    · cases hstep
      exact pumpAt_afterJoin h
    · cases hstep
  case h_5 seg state chunks text hpump =>
    rw [hpump] at h
    split at hstep
    · cases hstep
      exact .ends fun text htext => by cases htext
    · cases hstep
      exact pumpAt_stepAsr h
  case h_6 => cases hstep

/-- The pump does not touch the finalizer, and cancels only itself, at its end. -/
theorem stepPump_aside {r : Turn vad asr × List ServerFrame} (hstep : t.stepPump sends = some r) :
    r.1.finalize = t.finalize ∧
      (r.1.cancelled = true → t.cancelled = true ∨ r.1.pumpDone = true) := by
  have hmove := pumpMove_of_stepPump hstep
  generalize r.1 = t' at hmove ⊢
  cases hmove with
  | finish => exact ⟨rfl, fun _ => Or.inr rfl⟩
  | _ => exact ⟨rfl, Or.inl⟩

theorem text_of_recognitionRequest {text : String} {request : TurnRequest}
    (h : t.recognitionRequest text = some request) : request.text = text := by
  simp only [recognitionRequest] at h
  split at h
  · split at h
    · cases h
      rfl
    · cases h
  · cases h

/-- The finalizer asks about the text that the pump has returned. -/
theorem requested_of_stepFinalize {reply : OrchestratorAnswer}
    {r : Turn vad asr × List ServerFrame} (hstep : t.stepFinalize reply sends = some r)
    {request : TurnRequest} (hrequest : r.1.finalize = .recognizing request) :
    t.pump = .done (.returned request.text) ∧ isBlank request.text = false := by
  simp only [stepFinalize] at hstep
  split at hstep
  · split at hstep
    · cases hstep
    · cases hstep
      cases hrequest
  · split at hstep
    case h_1 =>
      cases hstep
      cases hrequest
    case h_2 =>
      split at hstep
      case h_1 =>
        cases hstep
        cases hrequest
      case h_2 text hpump =>
        split_ifs at hstep with hcancelled hblank
        · cases hstep
          cases hrequest
        · cases hstep
          cases hrequest
        · split at hstep
          case h_1 request' hmade =>
            cases hstep
            cases hrequest
            rw [text_of_recognitionRequest hmade]
            exact ⟨hpump, by simpa using hblank⟩
          case h_2 =>
            cases hstep
            cases hrequest
      case h_3 => cases hstep
    case h_3 =>
      cases reply with
      | _ =>
          cases hstep
          cases hrequest
    case h_4 => cases hstep

end Turn

/-- Where the pump stands, and what the finalizer has asked about. -/
structure PipeInv (t : Turn vad asr) (heard : List Heard) : Prop where
  cancelled : t.cancelled = true → t.pumpDone = true
  pump : PumpAt vad asr heard t.waiting t.pump
  requested : ∀ request, t.finalize = .recognizing request →
    isBlank request.text = false ∧ Recognized vad asr heard request.text

namespace PipeInv

variable {t t' : Turn vad asr} {heard : List Heard}

/-- Only the pump, the items on their way to it, the finalizer and `cancelled` count. -/
theorem of_eq (h : PipeInv t heard) (hcancelled : t'.cancelled = t.cancelled)
    (hpump : t'.pump = t.pump) (hwaiting : t'.waiting = t.waiting)
    (hfinalize : t'.finalize = t.finalize) : PipeInv t' heard where
  cancelled := by
    rw [hcancelled, Turn.pumpDone, hpump]
    exact h.cancelled
  pump := by
    rw [hwaiting, hpump]
    exact h.pump
  requested request hrequest := h.requested request (hfinalize ▸ hrequest)

/-- A live turn hears one more frame. -/
theorem hear (h : PipeInv t heard) (item : Heard) (hcancelled : t'.cancelled = t.cancelled)
    (hpump : t'.pump = t.pump) (hwaiting : t'.waiting = t.waiting ++ [item.item])
    (hfinalize : t'.finalize = t.finalize) : PipeInv t' (heard ++ [item]) where
  cancelled := by
    rw [hcancelled, Turn.pumpDone, hpump]
    exact h.cancelled
  pump := by
    rw [hwaiting, hpump]
    exact h.pump.hear item
  requested request hrequest := by
    obtain ⟨hblank, htext⟩ := h.requested request (hfinalize ▸ hrequest)
    exact ⟨hblank, htext.later item⟩

theorem stepPump {sends : Bool} {r : Turn vad asr × List ServerFrame} (h : PipeInv t heard)
    (hstep : t.stepPump sends = some r) : PipeInv r.1 heard := by
  obtain ⟨hfinalize, hcancelled⟩ := Turn.stepPump_aside hstep
  refine ⟨?_, Turn.pumpAt_stepPump h.pump hstep, ?_⟩
  · intro hnow
    obtain hbefore | hdone := hcancelled hnow
    · have hdone := h.cancelled hbefore
      cases hpump : t.pump with
      | done result => simp [Turn.stepPump, hpump] at hstep
      | _ => simp [Turn.pumpDone, hpump] at hdone
    · exact hdone
  · intro request hrequest
    exact h.requested request (hfinalize ▸ hrequest)

theorem stepFinalize {reply : OrchestratorAnswer} {sends : Bool}
    {r : Turn vad asr × List ServerFrame} (h : PipeInv t heard)
    (hstep : t.stepFinalize reply sends = some r) : PipeInv r.1 heard := by
  have hrequested {request : TurnRequest}
      (hrequest : r.1.finalize = .recognizing request) :
      isBlank request.text = false ∧ Recognized vad asr heard request.text := by
    obtain ⟨hpump, hblank⟩ := Turn.requested_of_stepFinalize hstep hrequest
    have hat := h.pump
    rw [hpump] at hat
    cases hat with
    | done htext =>
        refine ⟨hblank, htext _ rfl ?_⟩
        intro hempty
        rw [hempty] at hblank
        cases hblank
  obtain ⟨finalize, finalizeCancel, heq⟩ := Turn.stepFinalize_cases hstep
  rw [heq] at hrequested ⊢
  exact ⟨h.cancelled, h.pump, fun request hrequest => hrequested hrequest⟩

/-- Every step of a task, and every frame of the client, whenever it comes. -/
theorem attends : Attends (@PipeInv vad asr) (fun _ _ => True) where
  opened _ _ _ _ _ :=
    { cancelled := by
        intro h
        cases h
      pump := .created rfl
      requested := by
        intro request h
        cases h }
  pcm {t heard} data h _ _ := by
    have hsame : (t.hear data).cancelled = t.cancelled ∧ (t.hear data).pump = t.pump ∧
        (t.hear data).waiting = t.waiting ++ [some data] ∧
        (t.hear data).finalize = t.finalize := by
      simp only [Turn.hear, Turn.waiting]
      split_ifs <;> exact ⟨rfl, rfl, (List.append_assoc _ _ _).symm, rfl⟩
    obtain ⟨hcancelled, hpump, hwaiting, hfinalize⟩ := hsame
    exact h.hear (.pcm data) hcancelled hpump hwaiting hfinalize
  stop {t heard} ours h _ _ :=
    h.hear (.stop ours) rfl rfl (List.append_assoc _ _ _).symm rfl
  dropped {t heard} item h hcancelled := by
    refine ⟨h.cancelled, ?_, ?_⟩
    · have hdone := h.cancelled hcancelled
      have hpump := h.pump
      cases hp : t.pump with
      | done result =>
          rw [hp] at hpump
          exact hpump.finished item _
      | _ => simp [Turn.pumpDone, hp] at hdone
    · intro request hrequest
      obtain ⟨hblank, htext⟩ := h.requested request hrequest
      exact ⟨hblank, htext.later item⟩
  task {t r heard label} _ h hstep := by
    cases label with
    | client frame sends => cases hstep
    | loop => cases hstep
    | fan =>
        obtain ⟨t', hfan, rfl⟩ := Option.map_eq_some_iff.mp hstep
        obtain ⟨-, ⟨-, rfl⟩ | ⟨item, queue, -, hqueue, rfl⟩⟩ := Turn.stepFan_cases hfan
        · exact h.of_eq rfl rfl rfl rfl
        · refine h.of_eq rfl rfl ?_ rfl
          rw [Turn.waiting, Turn.waiting, hqueue, List.append_assoc, List.singleton_append]
    | events sends =>
        have hmove := Turn.eventsMove_of_stepEvents hstep
        generalize r.1 = t' at hmove ⊢
        cases hmove <;> exact h.of_eq rfl rfl rfl rfl
    | pump sends => exact h.stepPump hstep
    | finalize reply sends => exact h.stepFinalize hstep

theorem run {maxAudioBytes : Nat} {labels : List ListenLabel} {l : Listening vad asr}
    (hrun : (Listening.accepted vad asr maxAudioBytes).run labels = some l) : l.Inv PipeInv := by
  have hany : ∀ (l : Listening vad asr) label, l.Guarded (fun _ _ => True) label := by
    intro l label
    cases label with
    | message m => exact fun _ _ _ _ _ => trivial
    | other label => trivial
  exact attends.run (alongRun_of_forall hany _ _) hrun

end PipeInv

namespace Listening

variable {l : Listening vad asr} {request : TurnRequest}

/-- What the finalizer has asked the orchestrator about, while the loop receives. -/
def asked (l : Listening vad asr) : Option TurnRequest :=
  match l.session.loop, l.session.turn with
  | .receiving, some t =>
      match t.finalize with
      | .recognizing request => some request
      | _ => none
  | _, _ => none

theorem of_asked (h : l.asked = some request) :
    l.session.loop = .receiving ∧
      ∃ t, l.session.turn = some t ∧ t.finalize = .recognizing request := by
  rw [asked] at h
  split at h
  case h_1 t hloop hturn =>
    split at h
    case h_1 request' hfinalize =>
      cases h
      exact ⟨hloop, t, hturn, hfinalize⟩
    case h_2 => cases h
  case h_2 => cases h

/-- A request of a run, from a check of its text. -/
theorem exists_asked {maxAudioBytes : Nat} {labels : List ListenLabel} {text : String}
    (h : (((accepted vad asr maxAudioBytes).run labels).bind asked).map (·.text) = some text) :
    ∃ l request, (accepted vad asr maxAudioBytes).run labels = some l ∧
      l.asked = some request ∧ request.text = text := by
  obtain ⟨request, hasked, htext⟩ := Option.map_eq_some_iff.mp h
  obtain ⟨l, hrun, hasked⟩ := Option.bind_eq_some_iff.mp hasked
  exact ⟨l, request, hrun, hasked, htext⟩

theorem recognized_of_asked {maxAudioBytes : Nat} {labels : List ListenLabel}
    (hrun : (accepted vad asr maxAudioBytes).run labels = some l)
    (hasked : l.asked = some request) :
    isBlank request.text = false ∧ Recognized vad asr l.heard request.text := by
  obtain ⟨hloop, t, hturn, hfinalize⟩ := of_asked hasked
  exact ((PipeInv.run hrun).turn hloop t hturn).requested request hfinalize

end Listening

/-- **What the finalizer asks about is what the ASR returns on the first segment that the VAD
closes in the audio before the stop**, whatever the tasks and the client have done in the
meantime. -/
theorem request_of_first_segment (vad : Vad) (asr : Asr) (maxAudioBytes : Nat)
    (labels : List ListenLabel) (l : Listening vad asr) (request : TurnRequest)
    (hrun : (Listening.accepted vad asr maxAudioBytes).run labels = some l)
    (hasked : l.asked = some request) :
    isBlank request.text = false ∧
      ∃ seg ps, vad.segments.First (pcmBeforeStop l.heard) seg ∧ seg.pcm16 ≠ [] ∧
        asr.Returns (segmentChunks seg) ps ∧ request.text = finalText ps := by
  obtain ⟨hblank, seg, ps, hseg, hne, hps, htext⟩ := Listening.recognized_of_asked hrun hasked
  exact ⟨hblank, seg, ps, hseg.first, hne, hps, htext⟩

section Examples

theorem request_of_first_segment_ok :
    ∃ l request, (Listening.accepted eagerVad okAsr 8).run (requestRun [.bytes [2]]) = some l ∧
      l.asked = some request ∧ request.text = "ok" ∧
      ∃ seg ps, eagerVad.segments.First (pcmBeforeStop l.heard) seg ∧ seg.pcm16 ≠ [] ∧
        okAsr.Returns (segmentChunks seg) ps ∧ request.text = finalText ps := by
  obtain ⟨l, request, hrun, hasked, htext⟩ := @Listening.exists_asked eagerVad okAsr 8
    (requestRun [.bytes [2]]) "ok" (by decide +kernel)
  exact ⟨l, request, hrun, hasked, htext,
    (request_of_first_segment eagerVad okAsr 8 (requestRun [.bytes [2]]) l request hrun hasked).2⟩

end Examples

end Api
end Sandroid
