import Sandroid.Vad.Segmentation

/-!
# Pieces of an utterance

An abstract model of the segmenter.  It forgets the audio and the clock and
counts frames: `Phase.idle run` is SILENT with `run` tentative speech frames, and
`Phase.piece start quiet` is SPEAKING or TRAILING with a piece that began at
frame `start` and has ended in `quiet` silent frames so far.  Its events say
where utterances open and which pieces they are cut into; whether a piece is
reported depends on its length and its audio.

`outputs_eq_render`: with a positive sample rate the aggregator reports what
the abstract model does, event by event.
-/

namespace Sandroid
namespace Vad

open Api

/-- Where the segmenter stands, in frames. -/
inductive Phase where
  | idle (run : Nat)
  | piece (start quiet : Nat)
deriving DecidableEq, Repr

/-- An utterance opens at frame `i`, or a piece of it goes from frame `i` to `j`. -/
inductive PieceEvent where
  | opened (i : Nat)
  | piece (i j : Nat)
deriving DecidableEq, Repr

namespace Phase

variable (cfg : SegmenterConfig)

/-- One more frame; with it `n` have been fed. -/
def hear (n : Nat) (isSpeech : Bool) : Phase → Phase × List PieceEvent
  | idle run =>
      if isSpeech then
        if cfg.speechStartFrames ≤ run + 1 then
          (piece (n - (run + 1)) 0, [.opened (n - (run + 1))])
        else
          (idle (run + 1), [])
      else
        (idle 0, [])
  | piece start quiet =>
      if isSpeech then
        (piece start 0, [])
      else if cfg.silenceEndFrames ≤ quiet + 1 then
        (idle 0, [.piece start n])
      else
        (piece start (quiet + 1), [])

/-- A piece of `k` frames is cut. -/
def TooLong (k : Nat) : Prop :=
  cfg.maxSpeechDurationMs ≤ ((k * cfg.frameMs : Nat) : Int)

instance (k : Nat) : Decidable (TooLong cfg k) :=
  inferInstanceAs (Decidable (_ ≤ _))

/-- A cut is due after `n` frames. -/
def Cuts (n : Nat) : Phase → Prop
  | idle _ => False
  | piece start _ => TooLong cfg (n - start)

/-- The cut after `n` frames. -/
def cut (n : Nat) : Phase → Phase × List PieceEvent
  | idle run => (idle run, [])
  | piece start quiet =>
      if TooLong cfg (n - start) then
        (piece n 0, [.piece start n])
      else
        (piece start quiet, [])

def feed (n : Nat) (isSpeech : Bool) (φ : Phase) : Phase × List PieceEvent :=
  let heard := φ.hear cfg n isSpeech
  let after := heard.1.cut cfg n
  (after.1, heard.2 ++ after.2)

/-- The end of the stream after `n` frames. -/
def flush (n : Nat) : Phase → Phase × List PieceEvent
  | idle run => (idle run, [])
  | piece start _ => (idle 0, [.piece start n])

/-- A call of the aggregator after `n` frames. -/
def call (n : Nat) (φ : Phase) : SegmenterCall → Phase × List PieceEvent
  | .feed _ isSpeech => φ.feed cfg (n + 1) isSpeech
  | .flush => φ.flush n

/-- The events of a run that begins after `n` frames. -/
def events (n : Nat) (φ : Phase) : List SegmenterCall → List PieceEvent
  | [] => []
  | c :: calls =>
      (φ.call cfg n c).2 ++ events (n + (fedFrames [c]).length) (φ.call cfg n c).1 calls

/-- The phase at the end of a run that begins after `n` frames. -/
def after (n : Nat) (φ : Phase) : List SegmenterCall → Phase
  | [] => φ
  | c :: calls => after (n + (fedFrames [c]).length) (φ.call cfg n c).1 calls

end Phase

/-- What `_emit_segment` reports of a piece, if it is long enough and not empty. -/
def reported (cfg : SegmenterConfig) (pcm16 : Pcm) (startMs endMs : Nat) : SegmenterOutput :=
  if cfg.minSpeechDurationMs ≤ (endMs : Int) - startMs ∧ pcm16 ≠ [] then
    { events := [⟨.speechEnd, endMs⟩]
      segments := [⟨pcm16, cfg.sampleRate.toNat, startMs, endMs⟩] }
  else
    {}

/-- The audio of the frames `i` to `j`. -/
def audioOf (fed : List Pcm) (i j : Nat) : Pcm :=
  ((fed.drop i).take (j - i)).flatten

/-- The frames `i` to `j` are long enough for a segment. -/
def LongEnough (cfg : SegmenterConfig) (iv : Nat × Nat) : Prop :=
  cfg.minSpeechDurationMs ≤ ((iv.2 * cfg.frameMs : Nat) : Int) - (iv.1 * cfg.frameMs : Nat)

instance (cfg : SegmenterConfig) (iv : Nat × Nat) : Decidable (LongEnough cfg iv) :=
  inferInstanceAs (Decidable (_ ≤ _))

/-- The segment of the frames `i` to `j`, unless it is too short or empty. -/
def segmentOf (cfg : SegmenterConfig) (fed : List Pcm) (iv : Nat × Nat) : Option SegmentResult :=
  if LongEnough cfg iv ∧ audioOf fed iv.1 iv.2 ≠ [] then
    some ⟨audioOf fed iv.1 iv.2, cfg.sampleRate.toNat, iv.1 * cfg.frameMs, iv.2 * cfg.frameMs⟩
  else
    none

/-- The segment is made of whole frames, and frame `k` is one of them. -/
def HoldsFrame (cfg : SegmenterConfig) (fed : List Pcm) (k : Nat) (s : SegmentResult) : Prop :=
  s.startMs / cfg.frameMs ≤ k ∧ k < s.endMs / cfg.frameMs ∧
    s.pcm16 = audioOf fed (s.startMs / cfg.frameMs) (s.endMs / cfg.frameMs)

instance (cfg : SegmenterConfig) (fed : List Pcm) (k : Nat) (s : SegmentResult) :
    Decidable (HoldsFrame cfg fed k s) :=
  inferInstanceAs (Decidable (_ ∧ _))

/-- The pieces of a run. -/
def pieces (evs : List PieceEvent) : List (Nat × Nat) :=
  evs.filterMap fun
    | .opened _ => none
    | .piece i j => some (i, j)

/-- What an event stands for in the output. -/
def PieceEvent.output (cfg : SegmenterConfig) (fed : List Pcm) : PieceEvent → SegmenterOutput
  | .opened i => { events := [⟨.speechStart, i * cfg.frameMs⟩] }
  | .piece i j => reported cfg (audioOf fed i j) (i * cfg.frameMs) (j * cfg.frameMs)

/-- All the events of a run in one output. -/
def render (cfg : SegmenterConfig) (fed : List Pcm) (evs : List PieceEvent) : SegmenterOutput :=
  SegmenterOutput.join (evs.map (PieceEvent.output cfg fed))

section Reports

variable {cfg : SegmenterConfig} (hrate : 0 < cfg.sampleRate) (a : SegmentAggregator)
include hrate

theorem emitSegment_eq (out : SegmenterOutput) (endMs : Nat) (kindAfter : SegmenterState) :
    a.emitSegment cfg out endMs kindAfter =
      ({ a with segmentBuffer := [], state := kindAfter },
        some (out.append (reported cfg a.segmentBuffer a.segmentStartMs endMs))) := by
  rw [SegmentAggregator.emitSegment, reported]
  split_ifs
  · simp [SegmenterOutput.append, SegmenterOutput.emit, SegmenterOutput.notify]
  · simp

theorem closeSegment_eq (out : SegmenterOutput) :
    a.closeSegment cfg out =
      ({ a with segmentBuffer := [], state := .silent, silenceCount := 0 },
        some (out.append (reported cfg a.segmentBuffer a.segmentStartMs a.cursorMs))) := by
  rw [SegmentAggregator.closeSegment, emitSegment_eq hrate]

theorem maybeForceCut_eq (out : SegmenterOutput) (hs : a.state ≠ .silent) :
    a.maybeForceCut cfg out =
      if (a.cursorMs : Int) - a.segmentStartMs < cfg.maxSpeechDurationMs then
        (a, some out)
      else
        ({ a with segmentBuffer := [], state := .speaking, segmentStartMs := a.cursorMs },
          some (out.append (reported cfg a.segmentBuffer a.segmentStartMs a.cursorMs))) := by
  rw [SegmentAggregator.maybeForceCut, if_neg hs, emitSegment_eq hrate]

end Reports

/-- The aggregator stands where the phase says, after the frames `fed`. -/
def Stands (cfg : SegmenterConfig) (fed : List Pcm) (a : SegmentAggregator) : Phase → Prop
  | .idle run =>
      a.cursorMs = fed.length * cfg.frameMs ∧ a.state = .silent ∧ a.speechCount = run ∧
        run < cfg.speechStartFrames ∧ run ≤ fed.length ∧
        a.preBuffer = fed.drop (fed.length - run)
  | .piece start quiet =>
      a.cursorMs = fed.length * cfg.frameMs ∧
        a.state = (if quiet = 0 then .speaking else .trailing) ∧
        (quiet ≠ 0 → a.silenceCount = quiet) ∧ start + quiet ≤ fed.length ∧
        a.speechCount = 0 ∧ a.preBuffer = [] ∧
        a.segmentStartMs = start * cfg.frameMs ∧ a.segmentBuffer = (fed.drop start).flatten

section Refinement

variable {cfg : SegmenterConfig} {fed : List Pcm} {a : SegmentAggregator} {φ : Phase}

theorem speechStartFrames_pos (cfg : SegmenterConfig) : 0 < cfg.speechStartFrames := by
  have h : (1 : Int) ≤ max 1 (cfg.speechStartMs / cfg.frameMs) := le_max_left _ _
  rw [SegmenterConfig.speechStartFrames]
  omega

theorem silenceEndFrames_pos (cfg : SegmenterConfig) : 0 < cfg.silenceEndFrames := by
  have h : (1 : Int) ≤ max 1 (cfg.silenceEndMs / cfg.frameMs) := le_max_left _ _
  rw [SegmenterConfig.silenceEndFrames]
  omega

theorem stands_fresh (cfg : SegmenterConfig) : Stands cfg [] {} (.idle 0) :=
  ⟨(Nat.zero_mul _).symm, rfl, rfl, speechStartFrames_pos cfg, le_rfl, rfl⟩

theorem audioOf_length (fed : List Pcm) (i : Nat) :
    audioOf fed i fed.length = (fed.drop i).flatten := by
  rw [audioOf, List.take_of_length_le (by simp)]

theorem render_append (evs evs' : List PieceEvent) :
    render cfg fed (evs ++ evs') = (render cfg fed evs).append (render cfg fed evs') := by
  simp [render, SegmenterOutput.join, SegmenterOutput.append]

theorem render_nil : render cfg fed [] = {} := rfl

theorem render_singleton (e : PieceEvent) : render cfg fed [e] = e.output cfg fed := by
  simp [render, SegmenterOutput.join]

/-- The call did what the phase does. -/
def Follows (cfg : SegmenterConfig) (fed : List Pcm) (out : SegmenterOutput)
    (r : SegmenterStep) (step : Phase × List PieceEvent) : Prop :=
  ∃ a', r = (a', some (out.append (render cfg fed step.2))) ∧ Stands cfg fed a' step.1

theorem Stands.closeSegment (hrate : 0 < cfg.sampleRate) {start quiet : Nat}
    (h : Stands cfg fed a (.piece start quiet)) (out : SegmenterOutput) :
    Follows cfg fed out (a.closeSegment cfg out) (.idle 0, [.piece start fed.length]) := by
  obtain ⟨hcursor, -, -, -, hcount, hpre, hstart, hbuf⟩ := h
  refine ⟨{ a with segmentBuffer := [], state := .silent, silenceCount := 0 }, ?_, hcursor, rfl,
    hcount, speechStartFrames_pos cfg, Nat.zero_le _, ?_⟩
  · rw [closeSegment_eq hrate, render_singleton, PieceEvent.output, audioOf_length, ← hbuf,
      ← hstart, ← hcursor]
  · simpa using hpre

theorem Stands.ne_silent {start quiet : Nat} (h : Stands cfg fed a (.piece start quiet)) :
    a.state ≠ .silent := by
  rw [h.2.1]
  split_ifs <;> decide

/-- How long the piece has lasted, in milliseconds. -/
theorem Stands.duration {start quiet : Nat} (h : Stands cfg fed a (.piece start quiet)) :
    (a.cursorMs : Int) - a.segmentStartMs =
      (((fed.length - start) * cfg.frameMs : Nat) : Int) := by
  obtain ⟨hcursor, -, -, hle, -, -, hstart, -⟩ := h
  rw [hcursor, hstart, Nat.sub_mul, Nat.cast_sub (Nat.mul_le_mul_right _ (by omega))]

theorem Stands.cuts_iff (h : Stands cfg fed a φ) :
    (a.state ≠ .silent ∧ cfg.maxSpeechDurationMs ≤ (a.cursorMs : Int) - a.segmentStartMs) ↔
      φ.Cuts cfg fed.length := by
  cases φ with
  | idle run => exact ⟨fun hc => hc.1 h.2.1, False.elim⟩
  | piece start quiet =>
      rw [h.duration]
      exact ⟨And.right, fun hc => ⟨h.ne_silent, hc⟩⟩

theorem Stands.maybeForceCut (hrate : 0 < cfg.sampleRate) (h : Stands cfg fed a φ)
    (out : SegmenterOutput) :
    Follows cfg fed out (a.maybeForceCut cfg out) (φ.cut cfg fed.length) := by
  cases φ with
  | idle run =>
      refine ⟨a, ?_, h⟩
      rw [SegmentAggregator.maybeForceCut, if_pos h.2.1, Phase.cut, render_nil,
        SegmenterOutput.append_empty]
  | piece start quiet =>
      rw [maybeForceCut_eq hrate a out h.ne_silent, h.duration, Phase.cut]
      have hstands := h
      obtain ⟨hcursor, -, -, -, hcount, hpre, hstart, hbuf⟩ := h
      by_cases hlong : Phase.TooLong cfg (fed.length - start)
      · rw [if_pos hlong, if_neg (not_lt.mpr hlong)]
        refine ⟨{ a with segmentBuffer := [], state := .speaking, segmentStartMs := a.cursorMs },
          ?_, hcursor, rfl, fun hne => absurd rfl hne, le_rfl, hcount, hpre, hcursor, ?_⟩
        · rw [render_singleton, PieceEvent.output, audioOf_length, ← hbuf, ← hstart, ← hcursor]
        · rw [List.drop_length, List.flatten_nil]
      · rw [if_neg hlong, if_pos (not_le.mp hlong)]
        refine ⟨a, ?_, hstands⟩
        rw [render_nil, SegmenterOutput.append_empty]

theorem Stands.cursor (h : Stands cfg fed a φ) : a.cursorMs = fed.length * cfg.frameMs := by
  cases φ <;> exact h.1

/-- The cursor after one more frame. -/
theorem Stands.cursor_add (h : Stands cfg fed a φ) (frame : Pcm) :
    a.cursorMs + cfg.frameMs = (fed ++ [frame]).length * cfg.frameMs := by
  rw [h.cursor, List.length_append, List.length_singleton, Nat.add_one_mul]

theorem Stands.handleSilent {run : Nat} (h : Stands cfg fed a (.idle run)) (frame : Pcm)
    (isSpeech : Bool) :
    Follows cfg (fed ++ [frame]) {}
      (({ a with cursorMs := a.cursorMs + cfg.frameMs } : SegmentAggregator).handleSilent cfg
        frame isSpeech {})
      (Phase.hear cfg (fed ++ [frame]).length isSpeech (.idle run)) := by
  have hcursor := h.cursor_add frame
  obtain ⟨-, hs, hcount, -, hrun, hpre⟩ := h
  have hlen : (a.preBuffer ++ [frame]).length = run + 1 := by
    rw [hpre, List.length_append, List.length_drop, List.length_singleton]
    omega
  have hdrop : a.preBuffer ++ [frame] =
      (fed ++ [frame]).drop ((fed ++ [frame]).length - (run + 1)) := by
    rw [hpre, List.drop_append_of_le_length (by simp)]
    simp
  have hle : run + 1 ≤ (fed ++ [frame]).length := by
    rw [List.length_append, List.length_singleton]
    omega
  have hstart : a.cursorMs + cfg.frameMs - (a.preBuffer ++ [frame]).length * cfg.frameMs =
      ((fed ++ [frame]).length - (run + 1)) * cfg.frameMs := by
    rw [hcursor, hlen, Nat.sub_mul]
  simp only [SegmentAggregator.handleSilent, hcount, Phase.hear]
  split_ifs with hspeech hopen
  · refine ⟨_, Prod.ext rfl ?_, hcursor, rfl, fun hne => absurd rfl hne, Nat.sub_le _ _, rfl, rfl,
      hstart, ?_⟩
    · rw [render_singleton, PieceEvent.output, ← hstart]
      rfl
    · rw [← hdrop]
  · exact ⟨_, rfl, hcursor, hs, rfl, not_le.mp hopen, hle, hdrop⟩
  · exact ⟨_, rfl, hcursor, hs, rfl, speechStartFrames_pos cfg, Nat.zero_le _, by simp⟩

/-- A piece takes up the frame. -/
theorem Stands.buffer {start quiet : Nat} (h : Stands cfg fed a (.piece start quiet))
    (frame : Pcm) : (a.segmentBuffer ++ frame) = ((fed ++ [frame]).drop start).flatten := by
  obtain ⟨-, -, -, hle, -, -, -, hbuf⟩ := h
  rw [hbuf, List.drop_append_of_le_length (by omega), List.flatten_append,
    List.flatten_singleton]

theorem Stands.handlePiece (hrate : 0 < cfg.sampleRate) {start quiet : Nat}
    (h : Stands cfg fed a (.piece start quiet)) (frame : Pcm) (isSpeech : Bool) :
    Follows cfg (fed ++ [frame]) {}
      (({ a with cursorMs := a.cursorMs + cfg.frameMs } : SegmentAggregator).handle cfg
        frame isSpeech {})
      (Phase.hear cfg (fed ++ [frame]).length isSpeech (.piece start quiet)) := by
  have hcursor := h.cursor_add frame
  have hbuffer := h.buffer frame
  obtain ⟨-, hs, hquiet, hle, hcount, hpre, hstart, -⟩ := h
  have hle' : start + 0 ≤ (fed ++ [frame]).length := by
    rw [List.length_append]
    omega
  have hmore_le : start + (quiet + 1) ≤ (fed ++ [frame]).length := by
    rw [List.length_append, List.length_singleton]
    omega
  have hmore : Stands cfg (fed ++ [frame])
      { a with
        cursorMs := a.cursorMs + cfg.frameMs
        segmentBuffer := a.segmentBuffer ++ frame
        state := .trailing
        silenceCount := quiet + 1 } (.piece start (quiet + 1)) :=
    ⟨hcursor, rfl, fun _ => rfl, hmore_le, hcount, hpre, hstart, hbuffer⟩
  have hclose := hmore.closeSegment hrate {}
  by_cases hzero : quiet = 0
  · subst hzero
    have hspeaking : a.state = .speaking := hs
    simp only [SegmentAggregator.handle, hspeaking, SegmentAggregator.handleSpeaking, Phase.hear]
    split_ifs with hspeech hend
    · exact ⟨_, rfl, hcursor, rfl, fun hne => absurd rfl hne, hle', hcount, hpre, hstart, hbuffer⟩
    · exact hclose
    · exact ⟨_, rfl, hmore⟩
  · have htrailing : a.state = .trailing := by
      rw [hs, if_neg hzero]
    simp only [SegmentAggregator.handle, htrailing, SegmentAggregator.handleTrailing, Phase.hear,
      hquiet hzero]
    split_ifs with hspeech hend
    · exact ⟨_, rfl, hcursor, rfl, fun hne => absurd rfl hne, hle', hcount, hpre, hstart, hbuffer⟩
    · exact hclose
    · exact ⟨_, rfl, hmore⟩

theorem Stands.handle (hrate : 0 < cfg.sampleRate) (h : Stands cfg fed a φ) (frame : Pcm)
    (isSpeech : Bool) :
    Follows cfg (fed ++ [frame]) {}
      (({ a with cursorMs := a.cursorMs + cfg.frameMs } : SegmentAggregator).handle cfg
        frame isSpeech {})
      (φ.hear cfg (fed ++ [frame]).length isSpeech) := by
  cases φ with
  | idle run =>
      have hs : a.state = .silent := h.2.1
      simp only [SegmentAggregator.handle, hs]
      have hsilent := h.handleSilent frame isSpeech
      rw [hs] at hsilent
      exact hsilent
  | piece start quiet => exact h.handlePiece hrate frame isSpeech

theorem Stands.feed (hrate : 0 < cfg.sampleRate) (h : Stands cfg fed a φ) (frame : Pcm)
    (isSpeech : Bool) :
    Follows cfg (fed ++ [frame]) {} (a.feed cfg frame isSpeech)
      (φ.feed cfg (fed ++ [frame]).length isSpeech) := by
  obtain ⟨b, hb, hheard⟩ := h.handle hrate frame isSpeech
  obtain ⟨b', hb', hcut⟩ := hheard.maybeForceCut hrate
    (SegmenterOutput.append {} (render cfg (fed ++ [frame])
      (φ.hear cfg (fed ++ [frame]).length isSpeech).2))
  refine ⟨b', ?_, hcut⟩
  rw [SegmentAggregator.feed, hb]
  refine hb'.trans ?_
  rw [SegmenterOutput.append_assoc, ← render_append]
  rfl

theorem Stands.forceCuts_iff (hrate : 0 < cfg.sampleRate) (h : Stands cfg fed a φ)
    (frame : Pcm) (isSpeech : Bool) :
    a.ForceCuts cfg frame isSpeech ↔
      (φ.hear cfg (fed.length + 1) isSpeech).1.Cuts cfg (fed.length + 1) := by
  obtain ⟨b, hb, hheard⟩ := h.handle hrate frame isSpeech
  have hcuts := hheard.cuts_iff
  rw [List.length_append, List.length_singleton] at hcuts
  rw [SegmentAggregator.ForceCuts, hb]
  exact hcuts

theorem Stands.flush (hrate : 0 < cfg.sampleRate) (h : Stands cfg fed a φ) :
    Follows cfg fed {} (a.flush cfg) (φ.flush fed.length) := by
  cases φ with
  | idle run =>
      refine ⟨a, ?_, h⟩
      rw [SegmentAggregator.flush, if_pos h.2.1]
      rfl
  | piece start quiet =>
      rw [SegmentAggregator.flush, if_neg h.ne_silent]
      exact h.closeSegment hrate {}

theorem Stands.call (hrate : 0 < cfg.sampleRate) (h : Stands cfg fed a φ) (c : SegmenterCall) :
    Follows cfg (fed ++ fedFrames [c]) {} (a.call cfg c) (φ.call cfg fed.length c) := by
  cases c with
  | feed frame isSpeech =>
      have hfeed := h.feed hrate frame isSpeech
      rw [List.length_append, List.length_singleton] at hfeed
      exact hfeed
  | flush =>
      rw [fedFrames, fedFrames, List.append_nil]
      exact h.flush hrate

end Refinement

section Rendering

variable {cfg : SegmenterConfig}

/-- The event is about the first `n` frames. -/
def PieceEvent.Within (n : Nat) : PieceEvent → Prop
  | .opened i => i ≤ n
  | .piece i j => i ≤ j ∧ j ≤ n

theorem audioOf_append {fed : List Pcm} {i j : Nat} (hj : j ≤ fed.length) (more : List Pcm) :
    audioOf (fed ++ more) i j = audioOf fed i j := by
  rw [audioOf, audioOf]
  by_cases hij : i ≤ j
  · rw [List.drop_append_of_le_length (hij.trans hj), List.take_append_of_le_length]
    rw [List.length_drop]
    omega
  · rw [Nat.sub_eq_zero_of_le (by omega), List.take_zero, List.take_zero]

/-- What is reported of the frames so far is not changed by later ones. -/
theorem PieceEvent.Within.output_append {fed : List Pcm} {e : PieceEvent}
    (h : e.Within fed.length) (more : List Pcm) :
    e.output cfg (fed ++ more) = e.output cfg fed := by
  cases e with
  | opened i => rfl
  | piece i j => rw [PieceEvent.output, PieceEvent.output, audioOf_append h.2]

theorem render_append_frames {fed : List Pcm} {evs : List PieceEvent}
    (h : ∀ e ∈ evs, e.Within fed.length) (more : List Pcm) :
    render cfg (fed ++ more) evs = render cfg fed evs := by
  rw [render, render, List.map_congr_left fun e he => (h e he).output_append more]

theorem pieces_append (evs evs' : List PieceEvent) :
    pieces (evs ++ evs') = pieces evs ++ pieces evs' :=
  List.filterMap_append

theorem mem_pieces {evs : List PieceEvent} {iv : Nat × Nat} :
    iv ∈ pieces evs ↔ .piece iv.1 iv.2 ∈ evs := by
  rw [pieces, List.mem_filterMap]
  constructor
  · rintro ⟨e, he, hspan⟩
    cases e with
    | opened i => cases hspan
    | piece i j =>
        cases hspan
        exact he
  · intro he
    exact ⟨_, he, rfl⟩

theorem PieceEvent.output_segments (fed : List Pcm) (e : PieceEvent) :
    (e.output cfg fed).segments = (pieces [e]).filterMap (segmentOf cfg fed) := by
  cases e with
  | opened i => rfl
  | piece i j =>
      have hone : (pieces [PieceEvent.piece i j]).filterMap (segmentOf cfg fed) =
          (segmentOf cfg fed (i, j)).toList := by
        rw [List.filterMap_eq_flatMap_toList]
        exact List.append_nil _
      rw [hone, PieceEvent.output, reported]
      split_ifs with hreport
      · have hsegment : segmentOf cfg fed (i, j) =
            some ⟨audioOf fed i j, cfg.sampleRate.toNat, i * cfg.frameMs, j * cfg.frameMs⟩ :=
          if_pos hreport
        rw [hsegment]
        rfl
      · have hsegment : segmentOf cfg fed (i, j) = none := if_neg hreport
        rw [hsegment]
        rfl

theorem segmentOf_eq_some {fed : List Pcm} {i j : Nat} {s : SegmentResult} :
    segmentOf cfg fed (i, j) = some s ↔
      LongEnough cfg (i, j) ∧ audioOf fed i j ≠ [] ∧
        s = ⟨audioOf fed i j, cfg.sampleRate.toNat, i * cfg.frameMs, j * cfg.frameMs⟩ := by
  rw [segmentOf]
  split_ifs with hreport
  · rw [Option.some.injEq]
    exact ⟨fun hs => ⟨hreport.1, hreport.2, hs.symm⟩, fun hs => hs.2.2.symm⟩
  · exact ⟨False.elim, fun hs => absurd ⟨hs.1, hs.2.1⟩ hreport⟩

theorem holdsFrame_of_segmentOf {fed : List Pcm} {i j k : Nat} {s : SegmentResult}
    (h : segmentOf cfg fed (i, j) = some s) : HoldsFrame cfg fed k s ↔ i ≤ k ∧ k < j := by
  obtain ⟨-, -, rfl⟩ := segmentOf_eq_some.mp h
  rw [HoldsFrame, Nat.mul_div_cancel _ cfg.frameMs_pos, Nat.mul_div_cancel _ cfg.frameMs_pos]
  exact ⟨fun hk => ⟨hk.1, hk.2.1⟩, fun hk => ⟨hk.1, hk.2, rfl⟩⟩

/-- The segments of a run are those of its pieces. -/
theorem render_segments (fed : List Pcm) (evs : List PieceEvent) :
    (render cfg fed evs).segments = (pieces evs).filterMap (segmentOf cfg fed) := by
  induction evs with
  | nil => rfl
  | cons e evs ih =>
      have hhead := @PieceEvent.output_segments cfg fed e
      have hsplit : pieces (e :: evs) = pieces [e] ++ pieces evs := pieces_append [e] evs
      rw [hsplit, List.filterMap_append, ← ih, ← hhead]
      simp [render, SegmenterOutput.join]

end Rendering

namespace Phase

/-- The phase speaks of the `n` frames fed so far. -/
def Fits (n : Nat) : Phase → Prop
  | idle run => run ≤ n
  | piece start quiet => start + quiet ≤ n

variable {cfg : SegmenterConfig} {n : Nat} {φ : Phase}

theorem Fits.hear (h : φ.Fits n) (isSpeech : Bool) :
    (φ.hear cfg (n + 1) isSpeech).1.Fits (n + 1) ∧
      ∀ e ∈ (φ.hear cfg (n + 1) isSpeech).2, e.Within (n + 1) := by
  cases φ with
  | idle run =>
      rw [Phase.hear]
      split_ifs
      · refine ⟨Nat.sub_le _ _, ?_⟩
        intro e he
        rw [List.mem_singleton.mp he]
        exact Nat.sub_le _ _
      · exact ⟨Nat.succ_le_succ h, fun e he => absurd he List.not_mem_nil⟩
      · exact ⟨Nat.zero_le _, fun e he => absurd he List.not_mem_nil⟩
  | piece start quiet =>
      have hle : start + quiet ≤ n := h
      rw [Phase.hear]
      split_ifs
      · refine ⟨?_, fun e he => absurd he List.not_mem_nil⟩
        rw [Fits]
        omega
      · refine ⟨Nat.zero_le _, ?_⟩
        intro e he
        rw [List.mem_singleton.mp he, PieceEvent.Within]
        omega
      · exact ⟨Nat.succ_le_succ hle, fun e he => absurd he List.not_mem_nil⟩

theorem Fits.cut (h : φ.Fits n) :
    (φ.cut cfg n).1.Fits n ∧ ∀ e ∈ (φ.cut cfg n).2, e.Within n := by
  cases φ with
  | idle run => exact ⟨h, fun e he => absurd he List.not_mem_nil⟩
  | piece start quiet =>
      have hle : start + quiet ≤ n := h
      rw [Phase.cut]
      split_ifs
      · refine ⟨le_rfl, ?_⟩
        intro e he
        rw [List.mem_singleton.mp he, PieceEvent.Within]
        omega
      · exact ⟨h, fun e he => absurd he List.not_mem_nil⟩

theorem Fits.flush (h : φ.Fits n) : (φ.flush n).1.Fits n ∧ ∀ e ∈ (φ.flush n).2, e.Within n := by
  cases φ with
  | idle run => exact ⟨h, fun e he => absurd he List.not_mem_nil⟩
  | piece start quiet =>
      have hle : start + quiet ≤ n := h
      refine ⟨Nat.zero_le _, ?_⟩
      intro e he
      rw [List.mem_singleton.mp he, PieceEvent.Within]
      omega

theorem Fits.call (h : φ.Fits n) (c : SegmenterCall) :
    (φ.call cfg n c).1.Fits (n + (fedFrames [c]).length) ∧
      ∀ e ∈ (φ.call cfg n c).2, e.Within (n + (fedFrames [c]).length) := by
  cases c with
  | feed frame isSpeech =>
      obtain ⟨hheard, hevents⟩ := @hear cfg n φ h isSpeech
      obtain ⟨hcut, hevents'⟩ := @cut cfg _ _ hheard
      refine ⟨hcut, ?_⟩
      intro e he
      rcases List.mem_append.mp he with he | he
      · exact hevents e he
      · exact hevents' e he
  | flush => exact h.flush

end Phase

section Runs

variable {cfg : SegmenterConfig} {fed : List Pcm} {a : SegmentAggregator} {φ : Phase}

/-- A run in two parts. -/
theorem Phase.run_append (n : Nat) (calls calls' : List SegmenterCall) :
    φ.after cfg n (calls ++ calls') =
        (φ.after cfg n calls).after cfg (n + (fedFrames calls).length) calls' ∧
      φ.events cfg n (calls ++ calls') =
        φ.events cfg n calls ++
          (φ.after cfg n calls).events cfg (n + (fedFrames calls).length) calls' := by
  induction calls generalizing n φ with
  | nil => exact ⟨rfl, rfl⟩
  | cons c calls ih =>
      obtain ⟨hafter, hevents⟩ := @ih (φ.call cfg n c).1 (n + (fedFrames [c]).length)
      rw [fedFrames_cons, List.length_append, ← Nat.add_assoc]
      refine ⟨hafter, ?_⟩
      rw [List.cons_append, Phase.events, hevents, Phase.events, List.append_assoc]
      rfl

theorem Stands.fits (h : Stands cfg fed a φ) : φ.Fits fed.length := by
  cases φ with
  | idle run => exact h.2.2.2.2.1
  | piece start quiet => exact h.2.2.2.1

/-- The aggregator and the abstract model, call by call. -/
theorem Stands.run (hrate : 0 < cfg.sampleRate) (h : Stands cfg fed a φ)
    (calls : List SegmenterCall) :
    SegmenterOutput.join (a.outputs cfg calls) =
        render cfg (fed ++ fedFrames calls) (φ.events cfg fed.length calls) ∧
      Stands cfg (fed ++ fedFrames calls) (a.after cfg calls)
        (φ.after cfg fed.length calls) := by
  induction calls generalizing fed a φ with
  | nil =>
      refine ⟨rfl, ?_⟩
      rw [fedFrames, List.append_nil]
      exact h
  | cons c calls ih =>
      obtain ⟨a', ha', hnext⟩ := h.call hrate c
      obtain ⟨houts, hafter⟩ := ih hnext
      rw [List.length_append] at houts hafter
      rw [fedFrames_cons, ← List.append_assoc, SegmentAggregator.outputs,
        SegmentAggregator.after, ha', Phase.events, Phase.after]
      refine ⟨?_, hafter⟩
      have hwithin := (@Phase.Fits.call cfg _ _ h.fits c).2
      rw [← List.length_append] at hwithin
      rw [render_append, render_append_frames hwithin, ← houts]
      simp [SegmenterOutput.join, SegmenterOutput.append]

theorem stands_after (hrate : 0 < cfg.sampleRate) (calls : List SegmenterCall) :
    Stands cfg (fedFrames calls) (SegmentAggregator.after cfg {} calls)
      (Phase.after cfg 0 (.idle 0) calls) :=
  ((stands_fresh cfg).run hrate calls).2

/-- The abstract model says what a fresh aggregator reports. -/
theorem outputs_eq_render (cfg : SegmenterConfig) (hrate : 0 < cfg.sampleRate)
    (calls : List SegmenterCall) :
    SegmenterOutput.join (SegmentAggregator.outputs cfg {} calls) =
      render cfg (fedFrames calls) (Phase.events cfg 0 (.idle 0) calls) :=
  ((stands_fresh cfg).run hrate calls).1

end Runs

/-- The calls that feed labelled frames. -/
def feedAll (frames : List (Pcm × Bool)) : List SegmenterCall :=
  frames.map fun f => .feed f.1 f.2

theorem fedFrames_feedAll (frames : List (Pcm × Bool)) :
    fedFrames (feedAll frames) = frames.map Prod.fst := by
  induction frames with
  | nil => rfl
  | cons f frames ih => exact congrArg (f.1 :: ·) ih

/-- Three frames make a piece that is cut, two silent frames close it. -/
def cutAfterThree : SegmenterConfig where
  frameMs := 10
  speechStartMs := 10
  silenceEndMs := 20
  minSpeechDurationMs := 20
  maxSpeechDurationMs := 30
  frameMs_pos := Nat.succ_pos 9

end Vad
end Sandroid
