import Sandroid.Vad.Segmenter
import Mathlib.Tactic

/-!
# Faithfulness of the segmentation

What the segments say about the frames that were fed, over every sequence of
`feed` and `flush` calls.

The invariant behind it is a mark: a number `i` of frames such that everything
already reported lies before frame `i` and everything buffered begins there.  In
SILENT the pre-roll buffer holds the frames from `i` on, otherwise the segment
buffer does.
-/

namespace Sandroid
namespace Vad

open Api

/-- The segment is cut out of the frames `fed`. -/
structure IsSegmentOf (cfg : SegmenterConfig) (fed : List Pcm) (s : SegmentResult) : Prop where
  start_lt_end : s.startMs < s.endMs
  dvd_start : cfg.frameMs ∣ s.startMs
  dvd_end : cfg.frameMs ∣ s.endMs
  end_le : s.endMs ≤ fed.length * cfg.frameMs
  pcm16_eq : s.pcm16 =
    ((fed.drop (s.startMs / cfg.frameMs)).take
      (s.endMs / cfg.frameMs - s.startMs / cfg.frameMs)).flatten
  long_enough : cfg.minSpeechDurationMs ≤ (s.endMs : Int) - s.startMs

/-- The times of the `speech_end` events. -/
def SegmenterOutput.speechEnds (out : SegmenterOutput) : List Nat :=
  (out.events.filter (·.kind = .speechEnd)).map (·.atMs)

/-- Every segment of the output has its `speech_end` there, and no other has. -/
def SegmenterOutput.Paired (out : SegmenterOutput) : Prop :=
  out.speechEnds = out.segments.map (·.endMs)

/-- All that is reported in a run that fed the frames `fed`. -/
structure FaithfulLog (cfg : SegmenterConfig) (fed : List Pcm) (log : SegmenterOutput) : Prop where
  cut : ∀ s ∈ log.segments, IsSegmentOf cfg fed s
  disjoint : log.segments.Pairwise (fun s t => s.endMs ≤ t.startMs)
  starts : ∀ e ∈ log.events.head?, e.kind = .speechStart
  monotone : log.events.Pairwise (fun e e' => e.atMs ≤ e'.atMs)

/-- The log reports nothing after frame `i`. -/
structure LogUpTo (cfg : SegmenterConfig) (fed : List Pcm) (log : SegmenterOutput) (i : Nat) :
    Prop extends FaithfulLog cfg fed log where
  events_le : ∀ e ∈ log.events, e.atMs ≤ i * cfg.frameMs
  ends_le : ∀ s ∈ log.segments, s.endMs ≤ i * cfg.frameMs

/-- The invariant, with its mark.  A `speech_start` can be lost only to a raise. -/
structure Tracks (cfg : SegmenterConfig) (fed : List Pcm) (log : SegmenterOutput)
    (a : SegmentAggregator) (i : Nat) : Prop where
  cursor : a.cursorMs = fed.length * cfg.frameMs
  mark_le : i ≤ fed.length
  silent : a.state = .silent → a.preBuffer = fed.drop i
  active : a.state ≠ .silent → a.preBuffer = [] ∧ a.segmentStartMs = i * cfg.frameMs ∧
    a.segmentBuffer = (fed.drop i).flatten
  started : 0 < cfg.sampleRate → a.state ≠ .silent → log.events ≠ []
  log_upTo : LogUpTo cfg fed log i

section Log

variable {cfg : SegmenterConfig} {fed : List Pcm} {log out : SegmenterOutput} {i : Nat}

theorem IsSegmentOf.mono {s : SegmentResult} (h : IsSegmentOf cfg fed s) (more : List Pcm) :
    IsSegmentOf cfg (fed ++ more) s := by
  have hend : s.endMs / cfg.frameMs ≤ fed.length := by
    exact Nat.div_le_of_le_mul (by simpa [Nat.mul_comm] using h.end_le)
  have hstart : s.startMs / cfg.frameMs ≤ s.endMs / cfg.frameMs := by
    exact Nat.div_le_div_right h.start_lt_end.le
  refine { h with end_le := ?_, pcm16_eq := ?_ }
  · refine h.end_le.trans ?_
    exact Nat.mul_le_mul_right _ (by simp)
  · rw [List.drop_append_of_le_length (by omega), List.take_append_of_le_length]
    · exact h.pcm16_eq
    · rw [List.length_drop]
      omega

theorem LogUpTo.feed (h : LogUpTo cfg fed log i) (frame : Pcm) :
    LogUpTo cfg (fed ++ [frame]) log i :=
  { h with cut := fun s hs => (h.cut s hs).mono _ }

theorem LogUpTo.mono_mark {j : Nat} (h : LogUpTo cfg fed log i) (hij : i ≤ j) :
    LogUpTo cfg fed log j := by
  have hmul : i * cfg.frameMs ≤ j * cfg.frameMs := Nat.mul_le_mul_right _ hij
  exact
    { h with
      events_le := fun e he => (h.events_le e he).trans hmul
      ends_le := fun s hs => (h.ends_le s hs).trans hmul }

/-- An initial part of a log. -/
theorem LogUpTo.of_append (h : LogUpTo cfg fed (log.append out) i) : LogUpTo cfg fed log i where
  cut s hs := h.cut s (List.mem_append_left _ hs)
  disjoint := (List.pairwise_append.mp h.disjoint).1
  starts e he := by
    apply h.starts
    cases hl : log.events with
    | nil => simp [hl] at he
    | cons d rest => simpa [SegmenterOutput.append, hl] using he
  monotone := (List.pairwise_append.mp h.monotone).1
  events_le e he := h.events_le e (List.mem_append_left _ he)
  ends_le s hs := h.ends_le s (List.mem_append_left _ hs)

theorem LogUpTo.notify {j : Nat} {kind : EventKind} (h : LogUpTo cfg fed log i) (hij : i ≤ j)
    (hkind : log.events = [] → kind = .speechStart) :
    LogUpTo cfg fed (log.notify ⟨kind, j * cfg.frameMs⟩) j := by
  have hj := h.mono_mark hij
  refine { hj with starts := ?_, monotone := ?_, events_le := ?_ }
  · intro e he
    cases hl : log.events with
    | nil =>
      simp only [SegmenterOutput.notify, hl, List.nil_append, List.head?_cons,
        Option.mem_def, Option.some.injEq] at he
      rw [← he]
      exact hkind hl
    | cons d rest =>
      apply h.starts
      simpa [SegmenterOutput.notify, hl] using he
  · apply List.pairwise_append.mpr
    refine ⟨h.monotone, List.pairwise_singleton _ _, ?_⟩
    intro e he e' he'
    rw [List.mem_singleton.mp he']
    exact hj.events_le e he
  · intro e he
    rcases List.mem_append.mp he with he | he
    · exact hj.events_le e he
    · rw [List.mem_singleton.mp he]

/-- The frames from the mark on become a segment. -/
theorem LogUpTo.emit {rate : Nat} (h : LogUpTo cfg fed log i) (hi : i < fed.length)
    (hmin : cfg.minSpeechDurationMs ≤
      ((fed.length * cfg.frameMs : Nat) : Int) - (i * cfg.frameMs : Nat)) :
    LogUpTo cfg fed
      (log.emit ⟨(fed.drop i).flatten, rate, i * cfg.frameMs, fed.length * cfg.frameMs⟩)
      fed.length := by
  have hlen := h.mono_mark hi.le
  have hpos := cfg.frameMs_pos
  refine { hlen with cut := ?_, disjoint := ?_, ends_le := ?_ }
  · intro s hs
    rcases List.mem_append.mp hs with hs | hs
    · exact h.cut s hs
    · rw [List.mem_singleton.mp hs]
      refine ⟨?_, Nat.dvd_mul_left _ _, Nat.dvd_mul_left _ _, le_rfl, ?_, hmin⟩
      · exact Nat.mul_lt_mul_of_pos_right hi hpos
      · simp only [Nat.mul_div_cancel _ hpos]
        rw [List.take_of_length_le (by simp)]
  · apply List.pairwise_append.mpr
    refine ⟨h.disjoint, List.pairwise_singleton _ _, ?_⟩
    intro s hs t ht
    rw [List.mem_singleton.mp ht]
    exact h.ends_le s hs
  · intro s hs
    rcases List.mem_append.mp hs with hs | hs
    · exact hlen.ends_le s hs
    · rw [List.mem_singleton.mp hs]

end Log

section Output

variable (out log : SegmenterOutput)

@[simp] theorem SegmenterOutput.append_empty : out.append {} = out := by
  simp [SegmenterOutput.append]

theorem SegmenterOutput.append_assoc (out' : SegmenterOutput) :
    (log.append out).append out' = log.append (out.append out') := by
  simp [SegmenterOutput.append]

theorem SegmenterOutput.append_notify (e : SegmentEvent) :
    log.append (out.notify e) = (log.append out).notify e := by
  simp [SegmenterOutput.append, SegmenterOutput.notify]

theorem SegmenterOutput.append_emit (s : SegmentResult) :
    log.append (out.emit s) = (log.append out).emit s := by
  simp [SegmenterOutput.append, SegmenterOutput.emit]

theorem SegmenterOutput.notify_events_ne_nil (e : SegmentEvent) :
    (out.notify e).events ≠ [] := by
  simp [SegmenterOutput.notify]

theorem SegmenterOutput.paired_empty : SegmenterOutput.Paired {} := rfl

variable {out}

theorem SegmenterOutput.Paired.notifyStart (h : out.Paired) (t : Nat) :
    (out.notify ⟨.speechStart, t⟩).Paired := by
  simpa [SegmenterOutput.Paired, SegmenterOutput.speechEnds, SegmenterOutput.notify] using h

theorem SegmenterOutput.Paired.emitEnd (h : out.Paired) (s : SegmentResult) :
    ((out.emit s).notify ⟨.speechEnd, s.endMs⟩).Paired := by
  simp only [SegmenterOutput.Paired, SegmenterOutput.speechEnds] at h
  simp [SegmenterOutput.Paired, SegmenterOutput.speechEnds, SegmenterOutput.notify,
    SegmenterOutput.emit, h]

end Output

/-- What a step leaves: the log grows by the output that is returned, if any. -/
def Kept (cfg : SegmenterConfig) (fed : List Pcm) (log : SegmenterOutput) (r : SegmenterStep) :
    Prop :=
  (∃ i, Tracks cfg fed (log.append (r.2.getD {})) r.1 i) ∧ ∀ out ∈ r.2, out.Paired

section Steps

variable {cfg : SegmenterConfig} {fed : List Pcm} {log out : SegmenterOutput}
variable {a : SegmentAggregator} {i : Nat}

theorem Tracks.kept (h : Tracks cfg fed (log.append out) a i) (hp : out.Paired) :
    Kept cfg fed log (a, some out) := by
  refine ⟨⟨i, h⟩, ?_⟩
  rintro _ ⟨⟩
  exact hp

/-- A raise loses the output of the call. -/
theorem Tracks.kept_raise (h : Tracks cfg fed (log.append out) a i)
    (hrate : ¬ 0 < cfg.sampleRate) : Kept cfg fed log (a, none) := by
  refine ⟨⟨i, ?_⟩, by simp⟩
  rw [Option.getD_none, SegmenterOutput.append_empty]
  exact
    { h with
      started := fun hpos => absurd hpos hrate
      log_upTo := h.log_upTo.of_append }

/-- The three ways of `_emit_segment`: it raises, or the frames up to now are
reported or dropped and the mark moves to the cursor. -/
theorem Tracks.emitSegment_cases (h : Tracks cfg fed (log.append out) a i)
    (hs : a.state ≠ .silent) (hp : out.Paired) (kindAfter : SegmenterState) :
    (¬ 0 < cfg.sampleRate ∧ a.emitSegment cfg out a.cursorMs kindAfter = (a, none)) ∨
    ∃ out', a.emitSegment cfg out a.cursorMs kindAfter =
        ({ a with segmentBuffer := [], state := kindAfter }, some out') ∧
      out'.Paired ∧ LogUpTo cfg fed (log.append out') fed.length ∧
      (0 < cfg.sampleRate → (log.append out').events ≠ []) := by
  obtain ⟨-, hstart, hbuf⟩ := h.active hs
  by_cases hemit : cfg.minSpeechDurationMs ≤ (a.cursorMs : Int) - a.segmentStartMs ∧
      a.segmentBuffer ≠ []
  · by_cases hrate : 0 < cfg.sampleRate
    · refine .inr ⟨_, by rw [SegmentAggregator.emitSegment, if_pos hemit, if_pos hrate],
        hp.emitEnd _, ?_, ?_⟩
      · rw [SegmenterOutput.append_notify, SegmenterOutput.append_emit]
        have hi : i < fed.length := by
          by_contra hge
          apply hemit.2
          rw [hbuf, List.drop_eq_nil_of_le (by omega), List.flatten_nil]
        obtain ⟨hmin, -⟩ := hemit
        rw [hstart, h.cursor] at hmin
        rw [hstart, hbuf, h.cursor]
        refine (h.log_upTo.emit hi hmin).notify le_rfl ?_
        intro hnil
        exact absurd hnil (h.started hrate hs)
      · intro _
        rw [SegmenterOutput.append_notify]
        exact SegmenterOutput.notify_events_ne_nil _ _
    · exact .inl ⟨hrate, by rw [SegmentAggregator.emitSegment, if_pos hemit, if_neg hrate]⟩
  · refine .inr ⟨out, by rw [SegmentAggregator.emitSegment, if_neg hemit], hp, ?_, ?_⟩
    · exact h.log_upTo.mono_mark h.mark_le
    · intro hrate
      exact h.started hrate hs

theorem Tracks.closeSegment (h : Tracks cfg fed (log.append out) a i)
    (hs : a.state ≠ .silent) (hp : out.Paired) :
    Kept cfg fed log (a.closeSegment cfg out) := by
  rw [SegmentAggregator.closeSegment]
  rcases h.emitSegment_cases hs hp .silent with ⟨hrate, heq⟩ | ⟨out', heq, hp', hlog, -⟩
  · rw [heq]
    exact h.kept_raise hrate
  · rw [heq]
    refine Tracks.kept (i := fed.length) ?_ hp'
    exact
      { cursor := h.cursor
        mark_le := le_rfl
        silent := fun _ => by simpa using (h.active hs).1
        active := fun hne => absurd rfl hne
        started := fun _ hne => absurd rfl hne
        log_upTo := hlog }

theorem Tracks.maybeForceCut (h : Tracks cfg fed (log.append out) a i) (hp : out.Paired) :
    Kept cfg fed log (a.maybeForceCut cfg out) := by
  rw [SegmentAggregator.maybeForceCut]
  split_ifs with hs hdur
  · exact h.kept hp
  · exact h.kept hp
  · rcases h.emitSegment_cases hs hp .speaking with ⟨hrate, heq⟩ | ⟨out', heq, hp', hlog, hne⟩
    · rw [heq]
      exact h.kept_raise hrate
    · rw [heq]
      refine Tracks.kept (i := fed.length) ?_ hp'
      exact
        { cursor := h.cursor
          mark_le := le_rfl
          silent := fun hsil => (by cases hsil)
          active := fun _ => ⟨(h.active hs).1, h.cursor, by simp⟩
          started := fun hrate _ => hne hrate
          log_upTo := hlog }

/-- A frame that goes to the segment buffer. -/
theorem Tracks.buffer_frame {b : SegmentAggregator} (h : Tracks cfg fed log a i)
    (hs : a.state ≠ .silent) (frame : Pcm)
    (hcursor : b.cursorMs = a.cursorMs + cfg.frameMs)
    (hpre : b.preBuffer = a.preBuffer)
    (hstart : b.segmentStartMs = a.segmentStartMs)
    (hbuf : b.segmentBuffer = a.segmentBuffer ++ frame)
    (hb : b.state ≠ .silent) :
    Tracks cfg (fed ++ [frame]) log b i := by
  obtain ⟨hpre', hstart', hbuf'⟩ := h.active hs
  have hlen : i ≤ (fed ++ [frame]).length := by
    rw [List.length_append]
    exact h.mark_le.trans (Nat.le_add_right _ _)
  refine ⟨?_, hlen, fun hsil => absurd hsil hb, fun _ => ⟨?_, ?_, ?_⟩, ?_, h.log_upTo.feed frame⟩
  · rw [hcursor, h.cursor, List.length_append, List.length_singleton, Nat.add_one_mul]
  · rw [hpre, hpre']
  · rw [hstart, hstart']
  · rw [hbuf, hbuf', List.drop_append_of_le_length h.mark_le, List.flatten_append,
      List.flatten_singleton]
  · intro hrate _
    exact h.started hrate hs

/-- SILENT without a new segment: the pre-roll buffer grows or is cleared. -/
theorem Tracks.stay_silent {b : SegmentAggregator} {j : Nat} (h : Tracks cfg fed log a i)
    (frame : Pcm) (hcursor : b.cursorMs = a.cursorMs + cfg.frameMs) (hb : b.state = .silent)
    (hij : i ≤ j) (hj : j ≤ fed.length + 1) (hpre : b.preBuffer = (fed ++ [frame]).drop j) :
    Tracks cfg (fed ++ [frame]) log b j := by
  refine ⟨?_, by simpa using hj, fun _ => hpre, fun hne => absurd hb hne,
    fun _ hne => absurd hb hne, (h.log_upTo.feed frame).mono_mark hij⟩
  rw [hcursor, h.cursor, List.length_append, List.length_singleton, Nat.add_one_mul]

theorem Tracks.handleSilent (h : Tracks cfg fed log a i) (hs : a.state = .silent)
    (frame : Pcm) (isSpeech : Bool) :
    Kept cfg (fed ++ [frame]) log
      (({ a with cursorMs := a.cursorMs + cfg.frameMs } : SegmentAggregator).handleSilent cfg
        frame isSpeech {}) := by
  have hi := h.mark_le
  have hpre : a.preBuffer ++ [frame] = (fed ++ [frame]).drop i := by
    rw [h.silent hs, List.drop_append_of_le_length hi]
  simp only [SegmentAggregator.handleSilent]
  split_ifs with hspeech hcount
  · have hstart : a.cursorMs + cfg.frameMs - (a.preBuffer ++ [frame]).length * cfg.frameMs =
        i * cfg.frameMs := by
      rw [hpre, h.cursor, ← Nat.add_one_mul, ← Nat.sub_mul, List.length_drop,
        List.length_append, List.length_singleton]
      congr 1
      omega
    refine Tracks.kept (i := i) ?_ (SegmenterOutput.paired_empty.notifyStart _)
    rw [SegmenterOutput.append_notify, SegmenterOutput.append_empty, hstart, hpre]
    refine ⟨?_, ?_, fun hsil => (by cases hsil), fun _ => ⟨rfl, rfl, rfl⟩, ?_, ?_⟩
    · rw [h.cursor, List.length_append, List.length_singleton, Nat.add_one_mul]
    · rw [List.length_append]
      exact hi.trans (Nat.le_add_right _ _)
    · intro _ _
      exact SegmenterOutput.notify_events_ne_nil _ _
    · exact (h.log_upTo.feed frame).notify le_rfl (fun _ => rfl)
  · refine Tracks.kept (i := i) ?_ SegmenterOutput.paired_empty
    rw [SegmenterOutput.append_empty]
    exact h.stay_silent frame rfl hs le_rfl (by omega) hpre
  · refine Tracks.kept (i := fed.length + 1) ?_ SegmenterOutput.paired_empty
    rw [SegmenterOutput.append_empty]
    exact h.stay_silent frame rfl hs (by omega) le_rfl (by simp)

theorem Tracks.handleSpeaking (h : Tracks cfg fed log a i) (hs : a.state = .speaking)
    (frame : Pcm) (isSpeech : Bool) :
    Kept cfg (fed ++ [frame]) log
      (({ a with cursorMs := a.cursorMs + cfg.frameMs } : SegmentAggregator).handleSpeaking cfg
        frame isSpeech {}) := by
  have hne : a.state ≠ .silent := by
    rw [hs]
    decide
  have htrail : SegmenterState.trailing ≠ .silent := by decide
  have hlog : log = log.append {} := (log.append_empty).symm
  simp only [SegmentAggregator.handleSpeaking]
  split_ifs with hspeech hcount
  · refine Tracks.kept (i := i) ?_ SegmenterOutput.paired_empty
    rw [← hlog]
    exact h.buffer_frame hne frame rfl rfl rfl rfl hne
  · refine Tracks.closeSegment (i := i) ?_ htrail SegmenterOutput.paired_empty
    rw [← hlog]
    exact h.buffer_frame hne frame rfl rfl rfl rfl htrail
  · refine Tracks.kept (i := i) ?_ SegmenterOutput.paired_empty
    rw [← hlog]
    exact h.buffer_frame hne frame rfl rfl rfl rfl htrail

theorem Tracks.handleTrailing (h : Tracks cfg fed log a i) (hs : a.state = .trailing)
    (frame : Pcm) (isSpeech : Bool) :
    Kept cfg (fed ++ [frame]) log
      (({ a with cursorMs := a.cursorMs + cfg.frameMs } : SegmentAggregator).handleTrailing cfg
        frame isSpeech {}) := by
  have hne : a.state ≠ .silent := by
    rw [hs]
    decide
  have hspeak : SegmenterState.speaking ≠ .silent := by decide
  have hlog : log = log.append {} := (log.append_empty).symm
  simp only [SegmentAggregator.handleTrailing]
  split_ifs with hspeech hcount
  · refine Tracks.kept (i := i) ?_ SegmenterOutput.paired_empty
    rw [← hlog]
    exact h.buffer_frame hne frame rfl rfl rfl rfl hspeak
  · refine Tracks.closeSegment (i := i) ?_ hne SegmenterOutput.paired_empty
    rw [← hlog]
    exact h.buffer_frame hne frame rfl rfl rfl rfl hne
  · refine Tracks.kept (i := i) ?_ SegmenterOutput.paired_empty
    rw [← hlog]
    exact h.buffer_frame hne frame rfl rfl rfl rfl hne

theorem Tracks.handle (h : Tracks cfg fed log a i) (frame : Pcm) (isSpeech : Bool) :
    Kept cfg (fed ++ [frame]) log
      (({ a with cursorMs := a.cursorMs + cfg.frameMs } : SegmentAggregator).handle cfg
        frame isSpeech {}) := by
  rw [SegmentAggregator.handle]
  split
  next hs => exact h.handleSilent hs frame isSpeech
  next hs => exact h.handleSpeaking hs frame isSpeech
  next hs => exact h.handleTrailing hs frame isSpeech

theorem Tracks.feed (h : Tracks cfg fed log a i) (frame : Pcm) (isSpeech : Bool) :
    Kept cfg (fed ++ [frame]) log (a.feed cfg frame isSpeech) := by
  have hk := h.handle frame isSpeech
  rw [SegmentAggregator.feed]
  generalize SegmentAggregator.handle cfg _ frame isSpeech {} = r at hk ⊢
  obtain ⟨b, o⟩ := r
  cases o with
  | none => exact hk
  | some out =>
    obtain ⟨⟨j, hj⟩, hp⟩ := hk
    exact hj.maybeForceCut (hp out rfl)

theorem Tracks.flush (h : Tracks cfg fed log a i) : Kept cfg fed log (a.flush cfg) := by
  have h' : Tracks cfg fed (log.append {}) a i := by
    rw [SegmenterOutput.append_empty]
    exact h
  rw [SegmentAggregator.flush]
  split_ifs with hs
  · exact h'.kept SegmenterOutput.paired_empty
  · exact h'.closeSegment hs SegmenterOutput.paired_empty

/-- One call, whichever it is. -/
theorem Tracks.call (h : Tracks cfg fed log a i) (c : SegmenterCall) :
    Kept cfg (fed ++ fedFrames [c]) log (a.call cfg c) := by
  cases c with
  | feed frame isSpeech => exact h.feed frame isSpeech
  | flush =>
    rw [fedFrames, fedFrames, List.append_nil]
    exact h.flush

end Steps

section Runs

variable {cfg : SegmenterConfig} {fed : List Pcm} {log : SegmenterOutput}
variable {a : SegmentAggregator} {i : Nat}

theorem logUpTo_empty : LogUpTo cfg [] {} 0 where
  cut s hs := by cases hs
  disjoint := .nil
  starts e he := by cases he
  monotone := .nil
  events_le e he := by cases he
  ends_le s hs := by cases hs

theorem tracks_fresh : Tracks cfg [] {} {} 0 where
  cursor := (Nat.zero_mul _).symm
  mark_le := le_rfl
  silent _ := rfl
  active hne := absurd rfl hne
  started _ hne := absurd rfl hne
  log_upTo := logUpTo_empty

theorem fedFrames_append (calls calls' : List SegmenterCall) :
    fedFrames (calls ++ calls') = fedFrames calls ++ fedFrames calls' := by
  induction calls with
  | nil => rfl
  | cons c calls ih => cases c <;> simp [fedFrames, ih]

theorem fedFrames_cons (c : SegmenterCall) (calls : List SegmenterCall) :
    fedFrames (c :: calls) = fedFrames [c] ++ fedFrames calls :=
  fedFrames_append [c] calls

theorem SegmentAggregator.after_append (calls calls' : List SegmenterCall) :
    a.after cfg (calls ++ calls') = (a.after cfg calls).after cfg calls' := by
  induction calls generalizing a with
  | nil => rfl
  | cons c calls ih => exact ih

/-- The invariant after a run. -/
theorem Tracks.after (h : Tracks cfg fed log a i) (calls : List SegmenterCall) :
    ∃ log' j, Tracks cfg (fed ++ fedFrames calls) log' (a.after cfg calls) j := by
  induction calls generalizing fed log a i with
  | nil =>
    refine ⟨log, i, ?_⟩
    rw [fedFrames, List.append_nil]
    exact h
  | cons c calls ih =>
    obtain ⟨⟨j, hj⟩, -⟩ := h.call c
    rw [fedFrames_cons, ← List.append_assoc]
    exact ih hj

theorem SegmenterOutput.join_cons (out : SegmenterOutput) (outs : List SegmenterOutput) :
    SegmenterOutput.join (out :: outs) = out.append (SegmenterOutput.join outs) := rfl

theorem SegmenterOutput.append_join_toList (o : Option SegmenterOutput)
    (outs : List SegmenterOutput) :
    log.append (SegmenterOutput.join (o.toList ++ outs)) =
      (log.append (o.getD {})).append (SegmenterOutput.join outs) := by
  cases o with
  | none => simp
  | some out => simp [SegmenterOutput.join_cons, SegmenterOutput.append_assoc]

/-- The invariant over a run of calls. -/
theorem Tracks.outputs (h : Tracks cfg fed log a i) (calls : List SegmenterCall) :
    FaithfulLog cfg (fed ++ fedFrames calls)
        (log.append (SegmenterOutput.join (a.outputs cfg calls))) ∧
      ∀ out ∈ a.outputs cfg calls, out.Paired := by
  induction calls generalizing fed log a i with
  | nil =>
    refine ⟨?_, fun out hout => absurd hout List.not_mem_nil⟩
    simpa [fedFrames, SegmentAggregator.outputs, SegmenterOutput.join,
      SegmenterOutput.append] using h.log_upTo.toFaithfulLog
  | cons c calls ih =>
    obtain ⟨⟨j, hj⟩, hp⟩ := h.call c
    obtain ⟨hlog, hps⟩ := ih hj
    rw [SegmentAggregator.outputs]
    constructor
    · rw [SegmenterOutput.append_join_toList]
      rw [List.append_assoc, ← fedFrames_append] at hlog
      exact hlog
    · intro out hout
      rcases List.mem_append.mp hout with hout | hout
      · exact hp out (Option.mem_toList.mp hout)
      · exact hps out hout

/-- Segmentation is faithful to the audio, from a fresh aggregator, after every
initial part of a sequence of calls. -/
theorem segmentation_faithful (cfg : SegmenterConfig) (calls : List SegmenterCall) :
    (∀ n, FaithfulLog cfg (fedFrames (calls.take n))
      (SegmenterOutput.join (SegmentAggregator.outputs cfg {} (calls.take n)))) ∧
    ∀ out ∈ SegmentAggregator.outputs cfg {} calls, out.Paired := by
  refine ⟨fun n => ?_, (tracks_fresh.outputs calls).2⟩
  have hfresh : Tracks cfg [] {} {} 0 := tracks_fresh
  have h := hfresh.outputs (calls.take n)
  simpa [SegmenterOutput.append] using h.1

-- two frames of pre-roll are part of the segment
example :
    SegmenterOutput.join (SegmentAggregator.outputs
      { frameMs := 10, speechStartMs := 20, silenceEndMs := 10, minSpeechDurationMs := 0,
        frameMs_pos := Nat.succ_pos 9 } {}
      [.feed [0] false, .feed [1] true, .feed [2] true, .feed [3] false, .flush]) =
    { events := [⟨.speechStart, 10⟩, ⟨.speechEnd, 40⟩]
      segments := [⟨[1, 2, 3], 16000, 10, 40⟩] } := by
  decide

end Runs

end Vad
end Sandroid
