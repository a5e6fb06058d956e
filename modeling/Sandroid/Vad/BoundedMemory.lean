import Sandroid.Vad.Pieces
import Sandroid.Vad.SampleRate

/-!
# What the segmenter keeps in memory is bounded

In SILENT the pre-roll is shorter than what opens a segment; in SPEAKING and TRAILING the
open segment is shorter than what forces a cut.  Between the handler and the force cut a
segment may be longer, by a frame or by its pre-roll, and that is as long as one gets.

A call that raises, which takes a sample rate that no segment accepts, leaves the aggregator
where the call had come to.  What `Holds` says is kept even so; `Short` need not be.
-/

namespace Sandroid
namespace Vad

open Api

namespace SegmenterConfig

variable (cfg : SegmenterConfig)

/-- The longest that a segment lasts. -/
def longestMs : Int :=
  max (cfg.maxSpeechDurationMs + cfg.frameMs - 1)
    ((cfg.speechStartFrames * cfg.frameMs : Nat) : Int)

end SegmenterConfig

/-- The two buffers and the counter of the first. -/
structure Buffers (cfg : SegmenterConfig) (a : SegmentAggregator) : Prop where
  counted : a.preBuffer.length = a.speechCount
  short : a.state = .silent → a.preBuffer.length < cfg.speechStartFrames
  closed : a.state = .silent → a.segmentBuffer = []
  opened : a.state ≠ .silent → a.preBuffer = []

/-- The open segment lasts no longer than `bound`, and it is not about to close. -/
structure Within (cfg : SegmenterConfig) (bound : Int) (a : SegmentAggregator) : Prop where
  duration : a.state ≠ .silent → (a.cursorMs : Int) - a.segmentStartMs ≤ bound
  quiet : a.state = .trailing → 1 ≤ a.silenceCount ∧ a.silenceCount < cfg.silenceEndFrames

/-- No segment is longer than the longest. -/
def Lasts (cfg : SegmenterConfig) (out : SegmenterOutput) : Prop :=
  ∀ s ∈ out.segments, (s.endMs : Int) - s.startMs ≤ cfg.longestMs

/-- A step keeps the buffers.  If it returns, and no step before it has raised, it keeps the
bounds too; `sound` says the latter. -/
structure Settles (cfg : SegmenterConfig) (sound : Prop) (bound : Int) (r : SegmenterStep) :
    Prop where
  buffers : Buffers cfg r.1
  within : sound → r.2.isSome → Within cfg bound r.1
  lasts : sound → ∀ out ∈ r.2, Lasts cfg out

section Steps

variable {cfg : SegmenterConfig} {sound : Prop} {bound : Int}
variable {a : SegmentAggregator} {out : SegmenterOutput}

theorem lasts_empty : Lasts cfg {} :=
  fun _ hs => absurd hs List.not_mem_nil

theorem max_le_longestMs (cfg : SegmenterConfig) :
    cfg.maxSpeechDurationMs + cfg.frameMs - 1 ≤ cfg.longestMs :=
  le_max_left _ _

theorem preRoll_le_longestMs (cfg : SegmenterConfig) :
    ((cfg.speechStartFrames * cfg.frameMs : Nat) : Int) ≤ cfg.longestMs :=
  le_max_right _ _

theorem settles_return (hbuffers : Buffers cfg a) (hwithin : sound → Within cfg bound a)
    (hlasts : sound → Lasts cfg out) : Settles cfg sound bound (a, some out) where
  buffers := hbuffers
  within hsound _ := hwithin hsound
  lasts hsound out' hout := by
    rw [← Option.mem_some.mp hout]
    exact hlasts hsound

theorem settles_raise (hbuffers : Buffers cfg a) : Settles cfg sound bound (a, none) where
  buffers := hbuffers
  within _ hsome := absurd hsome Bool.false_ne_true
  lasts _ _ hout := absurd hout (Option.not_mem_none _)

/-- What `_emit_segment` can do: it raises, or it closes the segment and reports at most that. -/
theorem emitSegment_cases (cfg : SegmenterConfig) (a : SegmentAggregator)
    (out : SegmenterOutput) (endMs : Nat) (kindAfter : SegmenterState) :
    a.emitSegment cfg out endMs kindAfter = (a, none) ∨
      ∃ out', a.emitSegment cfg out endMs kindAfter =
          ({ a with segmentBuffer := [], state := kindAfter }, some out') ∧
        ∀ s ∈ out'.segments, s ∈ out.segments ∨
          (s.startMs = a.segmentStartMs ∧ s.endMs = endMs) := by
  rw [SegmentAggregator.emitSegment]
  split_ifs
  · refine .inr ⟨_, rfl, ?_⟩
    intro s hs
    rcases List.mem_append.mp hs with hs | hs
    · exact .inl hs
    · rw [List.mem_singleton.mp hs]
      exact .inr ⟨rfl, rfl⟩
  · exact .inl rfl
  · exact .inr ⟨_, rfl, fun s hs => .inl hs⟩

theorem within_of_silent (hs : a.state = .silent) : Within cfg bound a where
  duration hne := absurd hs hne
  quiet htrail := by rw [hs] at htrail; cases htrail

/-- In SPEAKING and TRAILING there is no pre-roll. -/
theorem Buffers.active {b : SegmentAggregator} (h : Buffers cfg a) (hs : a.state ≠ .silent)
    (hb : b.state ≠ .silent) (hpre : b.preBuffer = a.preBuffer)
    (hcount : b.speechCount = a.speechCount) : Buffers cfg b where
  counted := by rw [hpre, hcount, h.counted]
  short hsil := absurd hsil hb
  closed hsil := absurd hsil hb
  opened _ := by rw [hpre, h.opened hs]

theorem Lasts.report {out' : SegmenterOutput} (hout : Lasts cfg out)
    (hduration : (a.cursorMs : Int) - a.segmentStartMs ≤ cfg.longestMs)
    (hnew : ∀ s ∈ out'.segments, s ∈ out.segments ∨
      (s.startMs = a.segmentStartMs ∧ s.endMs = a.cursorMs)) : Lasts cfg out' := by
  intro s hmem
  rcases hnew s hmem with hold | ⟨hstart, hend⟩
  · exact hout s hold
  · rw [hstart, hend]
    exact hduration

theorem Buffers.closeSegment (h : Buffers cfg a) (hs : a.state ≠ .silent)
    (hduration : sound → (a.cursorMs : Int) - a.segmentStartMs ≤ cfg.longestMs)
    (hout : sound → Lasts cfg out) : Settles cfg sound bound (a.closeSegment cfg out) := by
  rw [SegmentAggregator.closeSegment]
  rcases emitSegment_cases cfg a out a.cursorMs .silent with heq | ⟨out', heq, hnew⟩
  · rw [heq]
    exact settles_raise h
  · rw [heq]
    refine settles_return ⟨h.counted, fun _ => ?_, fun _ => rfl, fun hne => absurd rfl hne⟩
      (fun _ => within_of_silent rfl)
      (fun hsound => (hout hsound).report (hduration hsound) hnew)
    rw [h.opened hs]
    exact speechStartFrames_pos cfg

/-- The force cut brings the open segment below the maximum. -/
theorem Buffers.maybeForceCut (hbuffers : Buffers cfg a) (hmax : 0 < cfg.maxSpeechDurationMs)
    (h : sound → Within cfg cfg.longestMs a) (hout : sound → Lasts cfg out) :
    Settles cfg sound (cfg.maxSpeechDurationMs - 1) (a.maybeForceCut cfg out) := by
  have hspeaking : SegmenterState.speaking ≠ .silent := by decide
  rw [SegmentAggregator.maybeForceCut]
  split_ifs with hs hshort
  · exact settles_return hbuffers (fun _ => within_of_silent hs) hout
  · exact settles_return hbuffers
      (fun hsound => ⟨fun _ => Int.le_sub_one_of_lt hshort, (h hsound).quiet⟩) hout
  · rcases emitSegment_cases cfg a out a.cursorMs .speaking with heq | ⟨out', heq, hnew⟩
    · rw [heq]
      exact settles_raise hbuffers
    · rw [heq]
      refine settles_return (hbuffers.active hs hspeaking rfl rfl)
        (fun _ => ⟨fun _ => ?_, fun htrail => by cases htrail⟩)
        (fun hsound => (hout hsound).report ((h hsound).duration hs) hnew)
      dsimp only
      omega

end Steps

section Frames

variable {cfg : SegmenterConfig} {sound : Prop} {a : SegmentAggregator}

/-- One more frame at the cursor. -/
theorem Within.advance (h : Within cfg (cfg.maxSpeechDurationMs - 1) a) :
    Within cfg cfg.longestMs { a with cursorMs := a.cursorMs + cfg.frameMs } := by
  refine ⟨fun hs => ?_, h.quiet⟩
  have hduration := h.duration hs
  have hlongest := max_le_longestMs cfg
  dsimp only
  push_cast
  omega

variable (hbuffers : Buffers cfg a) (frame : Pcm) (isSpeech : Bool)

include hbuffers

/-- The segment that opens has the pre-roll alone, however short the maximum is. -/
theorem Buffers.handleSilent (hs : a.state = .silent) :
    Settles cfg sound cfg.longestMs (a.handleSilent cfg frame isSpeech {}) := by
  have hlength : (a.preBuffer ++ [frame]).length = a.speechCount + 1 := by
    rw [List.length_append, hbuffers.counted, List.length_singleton]
  simp only [SegmentAggregator.handleSilent]
  split_ifs with hspeech hopen
  · refine settles_return ⟨rfl, fun hsil => (by cases hsil), fun hsil => (by cases hsil),
      fun _ => rfl⟩ (fun _ => ⟨fun _ => ?_, fun htrail => by cases htrail⟩) (fun _ => lasts_empty)
    have hshort := hbuffers.short hs
    rw [hbuffers.counted] at hshort
    have hframes : (a.preBuffer ++ [frame]).length = cfg.speechStartFrames := by omega
    have hlongest := preRoll_le_longestMs cfg
    rw [hframes]
    dsimp only
    omega
  · refine settles_return ⟨hlength, fun _ => ?_, fun _ => hbuffers.closed hs,
      fun hne => absurd hs hne⟩ (fun _ => within_of_silent hs) (fun _ => lasts_empty)
    rw [hlength]
    exact not_le.mp hopen
  · exact settles_return ⟨rfl, fun _ => speechStartFrames_pos cfg, fun _ => hbuffers.closed hs,
      fun hne => absurd hs hne⟩ (fun _ => within_of_silent hs) (fun _ => lasts_empty)

variable (h : sound → Within cfg cfg.longestMs a)

include h

theorem Buffers.handleSpeaking (hs : a.state = .speaking) :
    Settles cfg sound cfg.longestMs (a.handleSpeaking cfg frame isSpeech {}) := by
  have hne : a.state ≠ .silent := by
    rw [hs]
    decide
  have htrailing : SegmenterState.trailing ≠ .silent := by decide
  simp only [SegmentAggregator.handleSpeaking]
  split_ifs with hspeech hclose
  · exact settles_return (hbuffers.active hne hne rfl rfl)
      (fun hsound => ⟨(h hsound).duration, (h hsound).quiet⟩) (fun _ => lasts_empty)
  · exact Buffers.closeSegment (hbuffers.active hne htrailing rfl rfl) htrailing
      (fun hsound => (h hsound).duration hne) (fun _ => lasts_empty)
  · exact settles_return (hbuffers.active hne htrailing rfl rfl)
      (fun hsound => ⟨fun _ => (h hsound).duration hne, fun _ => ⟨le_rfl, not_le.mp hclose⟩⟩)
      (fun _ => lasts_empty)

theorem Buffers.handleTrailing (hs : a.state = .trailing) :
    Settles cfg sound cfg.longestMs (a.handleTrailing cfg frame isSpeech {}) := by
  have hne : a.state ≠ .silent := by
    rw [hs]
    decide
  have hspeaking : SegmenterState.speaking ≠ .silent := by decide
  simp only [SegmentAggregator.handleTrailing]
  split_ifs with hspeech hclose
  · exact settles_return (hbuffers.active hne hspeaking rfl rfl)
      (fun hsound => ⟨fun _ => (h hsound).duration hne, fun htrail => by cases htrail⟩)
      (fun _ => lasts_empty)
  · exact Buffers.closeSegment (hbuffers.active hne hne rfl rfl) hne
      (fun hsound => (h hsound).duration hne) (fun _ => lasts_empty)
  · exact settles_return (hbuffers.active hne hne rfl rfl)
      (fun hsound => ⟨fun _ => (h hsound).duration hne,
        fun _ => ⟨Nat.le_add_left _ _, not_le.mp hclose⟩⟩)
      (fun _ => lasts_empty)

theorem Buffers.handle : Settles cfg sound cfg.longestMs (a.handle cfg frame isSpeech {}) := by
  rw [SegmentAggregator.handle]
  split
  next hs => exact hbuffers.handleSilent frame isSpeech hs
  next hs => exact hbuffers.handleSpeaking frame isSpeech h hs
  next hs => exact hbuffers.handleTrailing frame isSpeech h hs

end Frames

section Runs

variable {cfg : SegmenterConfig} {sound : Prop} {a : SegmentAggregator}

theorem Buffers.feed (hbuffers : Buffers cfg a) (hmax : 0 < cfg.maxSpeechDurationMs)
    (h : sound → Within cfg (cfg.maxSpeechDurationMs - 1) a) (frame : Pcm) (isSpeech : Bool) :
    Settles cfg sound (cfg.maxSpeechDurationMs - 1) (a.feed cfg frame isSpeech) := by
  have hadvanced : Buffers cfg { a with cursorMs := a.cursorMs + cfg.frameMs } :=
    { hbuffers with }
  have hheard := hadvanced.handle frame isSpeech fun hsound => (h hsound).advance
  rw [SegmentAggregator.feed]
  generalize SegmentAggregator.handle cfg _ frame isSpeech {} = r at hheard ⊢
  obtain ⟨b, o⟩ := r
  cases o with
  | none => exact settles_raise hheard.buffers
  | some out =>
      exact hheard.buffers.maybeForceCut hmax (fun hsound => hheard.within hsound rfl)
        fun hsound => hheard.lasts hsound out rfl

theorem Buffers.flush (hbuffers : Buffers cfg a)
    (h : sound → Within cfg (cfg.maxSpeechDurationMs - 1) a) :
    Settles cfg sound (cfg.maxSpeechDurationMs - 1) (a.flush cfg) := by
  rw [SegmentAggregator.flush]
  split_ifs with hs
  · exact settles_return hbuffers h fun _ => lasts_empty
  · refine hbuffers.closeSegment hs (fun hsound => ?_) fun _ => lasts_empty
    have hduration := (h hsound).duration hs
    have hlongest := max_le_longestMs cfg
    omega

theorem Buffers.call (hbuffers : Buffers cfg a) (hmax : 0 < cfg.maxSpeechDurationMs)
    (h : sound → Within cfg (cfg.maxSpeechDurationMs - 1) a) (c : SegmenterCall) :
    Settles cfg sound (cfg.maxSpeechDurationMs - 1) (a.call cfg c) := by
  cases c with
  | feed frame isSpeech => exact hbuffers.feed hmax h frame isSpeech
  | flush => exact hbuffers.flush h

namespace SegmentAggregator

/-- Every call of the sequence returns. -/
def Returns (cfg : SegmenterConfig) (a : SegmentAggregator) : List SegmenterCall → Prop
  | [] => True
  | c :: calls => (a.call cfg c).2.isSome ∧ Returns cfg (a.call cfg c).1 calls

/-- With a sample rate that segments accept, all calls do. -/
theorem returns_of_sampleRate (hrate : 0 < cfg.sampleRate) (calls : List SegmenterCall) :
    a.Returns cfg calls := by
  induction calls generalizing a with
  | nil => trivial
  | cons c calls ih =>
      refine ⟨?_, ih⟩
      cases c with
      | feed frame isSpeech => exact feed_isSome hrate a frame isSpeech
      | flush => exact flush_isSome hrate a

end SegmentAggregator

theorem Buffers.after (hbuffers : Buffers cfg a) (hmax : 0 < cfg.maxSpeechDurationMs)
    (h : sound → Within cfg (cfg.maxSpeechDurationMs - 1) a) (calls : List SegmenterCall) :
    Buffers cfg (a.after cfg calls) ∧
      (sound → a.Returns cfg calls →
        Within cfg (cfg.maxSpeechDurationMs - 1) (a.after cfg calls) ∧
          ∀ out ∈ a.outputs cfg calls, Lasts cfg out) := by
  induction calls generalizing sound a with
  | nil =>
      exact ⟨hbuffers, fun hsound _ => ⟨h hsound, fun _ hout => absurd hout List.not_mem_nil⟩⟩
  | cons c calls ih =>
      have hstep := hbuffers.call hmax h c
      have hnext : sound ∧ (a.call cfg c).2.isSome →
          Within cfg (cfg.maxSpeechDurationMs - 1) (a.call cfg c).1 :=
        fun hs => hstep.within hs.1 hs.2
      obtain ⟨hafter, hbounds⟩ := ih hstep.buffers hnext
      refine ⟨hafter, fun hsound hreturns => ?_⟩
      obtain ⟨hwithin, hlasts⟩ := hbounds ⟨hsound, hreturns.1⟩ hreturns.2
      refine ⟨hwithin, fun out hout => ?_⟩
      rcases List.mem_append.mp hout with hfirst | hlater
      · exact hstep.lasts hsound out (Option.mem_toList.mp hfirst)
      · exact hlasts out hlater

theorem buffers_fresh : Buffers cfg {} :=
  ⟨rfl, fun _ => speechStartFrames_pos cfg, fun _ => rfl, fun _ => rfl⟩

end Runs

/-- What the two buffers hold after the frames `fed`. -/
structure Holds (cfg : SegmenterConfig) (fed : List Pcm) (a : SegmentAggregator) : Prop where
  cursor : a.cursorMs = fed.length * cfg.frameMs
  silent : a.state = .silent → a.preBuffer.length = a.speechCount ∧
    a.preBuffer.length < cfg.speechStartFrames ∧ a.segmentBuffer = []
  active : a.state ≠ .silent → a.preBuffer = [] ∧ cfg.frameMs ∣ a.segmentStartMs ∧
    a.segmentStartMs ≤ a.cursorMs ∧
    a.segmentBuffer = (fed.drop (a.segmentStartMs / cfg.frameMs)).flatten

/-- The open segment is short of the maximum, and its silence of the end. -/
structure Short (cfg : SegmenterConfig) (a : SegmentAggregator) : Prop where
  duration : a.state ≠ .silent → (a.cursorMs : Int) - a.segmentStartMs < cfg.maxSpeechDurationMs
  quiet : a.state = .trailing → 1 ≤ a.silenceCount ∧ a.silenceCount < cfg.silenceEndFrames

theorem Tracks.holds {cfg : SegmenterConfig} {fed : List Pcm} {log : SegmenterOutput}
    {a : SegmentAggregator} {i : Nat} (h : Tracks cfg fed log a i) (hbuffers : Buffers cfg a) :
    Holds cfg fed a := by
  refine ⟨h.cursor, fun hs => ⟨hbuffers.counted, hbuffers.short hs, hbuffers.closed hs⟩, ?_⟩
  intro hs
  obtain ⟨hpre, hstart, hbuffer⟩ := h.active hs
  refine ⟨hpre, ?_, ?_, ?_⟩
  · rw [hstart]
    exact Nat.dvd_mul_left cfg.frameMs i
  · rw [hstart, h.cursor]
    exact Nat.mul_le_mul_right _ h.mark_le
  · rw [hstart, Nat.mul_div_cancel _ cfg.frameMs_pos, hbuffer]

/-- The memory of the segmenter is bounded, in every state that calls reach, and so are its
segments. -/
theorem memory_bounded (cfg : SegmenterConfig) (hmax : 0 < cfg.maxSpeechDurationMs)
    (calls : List SegmenterCall) :
    Holds cfg (fedFrames calls) (SegmentAggregator.after cfg {} calls) ∧
      (SegmentAggregator.Returns cfg {} calls →
        Short cfg (SegmentAggregator.after cfg {} calls)) ∧
      (0 < cfg.sampleRate → SegmentAggregator.Returns cfg {} calls) ∧
      ∀ out ∈ SegmentAggregator.outputs cfg {} calls, ∀ s ∈ out.segments,
        (s.endMs : Int) - s.startMs ≤ max (cfg.maxSpeechDurationMs + cfg.frameMs - 1)
          ((cfg.speechStartFrames * cfg.frameMs : Nat) : Int) := by
  have hfresh : True → Within cfg (cfg.maxSpeechDurationMs - 1) {} := fun _ => within_of_silent rfl
  obtain ⟨hbuffers, hbounds⟩ := buffers_fresh.after hmax hfresh calls
  have hstart : Tracks cfg [] {} {} 0 := tracks_fresh
  obtain ⟨log, i, htracks⟩ := hstart.after calls
  refine ⟨htracks.holds hbuffers, ?_, fun hrate => ?_, ?_⟩
  · intro hreturns
    obtain ⟨hwithin, -⟩ := hbounds trivial hreturns
    exact ⟨fun hs => Int.lt_of_le_sub_one (hwithin.duration hs), hwithin.quiet⟩
  · exact SegmentAggregator.returns_of_sampleRate hrate calls
  · intro out hout
    by_cases hrate : 0 < cfg.sampleRate
    · have hreturns : SegmentAggregator.Returns cfg {} calls :=
        SegmentAggregator.returns_of_sampleRate hrate calls
      exact (hbounds trivial hreturns).2 out hout
    · have hnone := outputs_segments hrate {} calls
      intro s hs
      have hmem : s ∈ (SegmenterOutput.join (SegmentAggregator.outputs cfg {} calls)).segments :=
        List.mem_flatMap.mpr ⟨out, hout, hs⟩
      rw [hnone] at hmem
      exact absurd hmem List.not_mem_nil

/-- Two frames of pre-roll, and a cut for every frame after them. -/
def shortCuts : SegmenterConfig where
  frameMs := 10
  speechStartMs := 20
  minSpeechDurationMs := 0
  maxSpeechDurationMs := 10
  frameMs_pos := by decide

theorem memory_bounded_shortCuts :
    Holds shortCuts [[1], [2], [3]] (SegmentAggregator.after shortCuts {}
        [.feed [1] true, .feed [2] true, .feed [3] true]) ∧
      Short shortCuts (SegmentAggregator.after shortCuts {}
        [.feed [1] true, .feed [2] true, .feed [3] true]) := by
  have h := memory_bounded shortCuts (by decide) [.feed [1] true, .feed [2] true, .feed [3] true]
  exact ⟨h.1, h.2.1 (h.2.2.1 (by decide))⟩

-- the first segment is longer than the maximum, by its pre-roll
example :
    (SegmenterOutput.join (SegmentAggregator.outputs shortCuts {}
      [.feed [1] true, .feed [2] true, .feed [3] true])).segments =
    [⟨[1, 2], 16000, 0, 20⟩, ⟨[3], 16000, 20, 30⟩] := by
  decide

end Vad
end Sandroid
