import Sandroid.Vad.Segmentation

/-!
# Sample rates that no segment accepts

With a sample rate that is not positive a segment cannot be built, and the call
that would report one raises.  So no call returns a segment, and the pieces that
do end are those that would not have been reported: they are too short, or they
have no audio.
-/

namespace Sandroid
namespace Vad

open Api

/-- The piece that is open is not one to report. -/
def Dropped (cfg : SegmenterConfig) (a : SegmentAggregator) : Prop :=
  (a.cursorMs : Int) - a.segmentStartMs < cfg.minSpeechDurationMs ∨ a.segmentBuffer = []

/-- The open piece takes up a frame. -/
structure TakesUp (a : SegmentAggregator) (frame : Pcm) (b : SegmentAggregator) : Prop where
  state_ne : b.state ≠ .silent
  cursor : b.cursorMs = a.cursorMs
  start : b.segmentStartMs = a.segmentStartMs
  buffer : b.segmentBuffer = a.segmentBuffer ++ frame

/-- The piece goes on, with or without a raise, or it is dropped. -/
def GoesOn (cfg : SegmenterConfig) (out : SegmenterOutput) (b : SegmentAggregator)
    (r : SegmenterStep) : Prop :=
  r = (b, none) ∨ r = (b, some out) ∨ Dropped cfg b ∧
    r = ({ b with segmentBuffer := [], state := .silent, silenceCount := 0 }, some out)

/-- A frame in SILENT opens an utterance, or nothing is reported. -/
theorem handle_silent_cases (cfg : SegmenterConfig) (a : SegmentAggregator) (hs : a.state = .silent)
    (frame : Pcm) (isSpeech : Bool) :
    ∃ b out, a.handle cfg frame isSpeech {} = (b, some out) ∧
      (b.state = .silent ∧ out.events = [] ∨
        b.state ≠ .silent ∧ out.events = [⟨.speechStart, b.segmentStartMs⟩]) := by
  simp only [SegmentAggregator.handle, hs, SegmentAggregator.handleSilent]
  split_ifs
  · exact ⟨_, _, rfl, .inr ⟨by simp, rfl⟩⟩
  · exact ⟨_, _, rfl, .inl ⟨rfl, rfl⟩⟩
  · exact ⟨_, _, rfl, .inl ⟨rfl, rfl⟩⟩

/-- After a call in SPEAKING or TRAILING, that came to `b`: an end of the piece in SILENT
drops it, and a cut leaves no audio behind. -/
structure Proceeds (cfg : SegmenterConfig) (b : SegmentAggregator) (r : SegmenterStep) : Prop where
  cursor : r.1.cursorMs = b.cursorMs
  closed : r.1.state = .silent → Dropped cfg b
  going : r.1.state ≠ .silent → r.1.segmentStartMs = b.segmentStartMs ∨ b.segmentBuffer = []

theorem GoesOn.segments {cfg : SegmenterConfig} {out : SegmenterOutput} {b : SegmentAggregator}
    {r : SegmenterStep} (h : GoesOn cfg out b r) :
    ∀ out' ∈ r.2, out'.segments = out.segments := by
  have hsame : ∀ out' ∈ some out, out'.segments = out.segments :=
    fun _ hout => congrArg _ (Option.mem_some.mp hout).symm
  rcases h with rfl | rfl | ⟨-, rfl⟩
  · exact fun _ hout => absurd hout (Option.not_mem_none _)
  · exact hsame
  · exact hsame

section Rejected

variable {cfg : SegmenterConfig} (hrate : ¬ 0 < cfg.sampleRate) (a : SegmentAggregator)
  (out : SegmenterOutput)

include hrate

theorem emitSegment_rejected (kindAfter : SegmenterState) :
    a.emitSegment cfg out a.cursorMs kindAfter = (a, none) ∨
      Dropped cfg a ∧ a.emitSegment cfg out a.cursorMs kindAfter =
        ({ a with segmentBuffer := [], state := kindAfter }, some out) := by
  rw [SegmentAggregator.emitSegment, if_neg hrate]
  split_ifs with hreport
  · exact .inl rfl
  · refine .inr ⟨?_, rfl⟩
    by_cases hlong : cfg.minSpeechDurationMs ≤ (a.cursorMs : Int) - a.segmentStartMs
    · right
      by_contra hne
      exact hreport ⟨hlong, hne⟩
    · exact .inl (not_le.mp hlong)

theorem closeSegment_rejected :
    a.closeSegment cfg out = (a, none) ∨
      Dropped cfg a ∧ a.closeSegment cfg out =
        ({ a with segmentBuffer := [], state := .silent, silenceCount := 0 }, some out) := by
  rw [SegmentAggregator.closeSegment]
  rcases emitSegment_rejected hrate a out .silent with heq | ⟨hdropped, heq⟩
  · rw [heq]
    exact .inl rfl
  · rw [heq]
    exact .inr ⟨hdropped, rfl⟩

theorem maybeForceCut_rejected :
    a.maybeForceCut cfg out = (a, none) ∨ a.maybeForceCut cfg out = (a, some out) ∨
      a.state ≠ .silent ∧ Dropped cfg a ∧
        cfg.maxSpeechDurationMs ≤ (a.cursorMs : Int) - a.segmentStartMs ∧
        a.maybeForceCut cfg out =
          ({ a with segmentBuffer := [], state := .speaking, segmentStartMs := a.cursorMs },
            some out) := by
  rw [SegmentAggregator.maybeForceCut]
  split_ifs with hs hdur
  · exact .inr (.inl rfl)
  · exact .inr (.inl rfl)
  · rcases emitSegment_rejected hrate a out .speaking with heq | ⟨hdropped, heq⟩
    · rw [heq]
      exact .inl rfl
    · rw [heq]
      exact .inr (.inr ⟨hs, hdropped, not_lt.mp hdur, rfl⟩)

theorem handle_rejected (hs : a.state ≠ .silent) (frame : Pcm) (isSpeech : Bool) :
    ∃ b, GoesOn cfg out b (a.handle cfg frame isSpeech out) ∧ TakesUp a frame b := by
  have hspeaking : SegmenterState.speaking ≠ .silent := by decide
  have htrailing : SegmenterState.trailing ≠ .silent := by decide
  have hclose (b : SegmentAggregator) : GoesOn cfg out b (b.closeSegment cfg out) :=
    (closeSegment_rejected hrate b out).imp id .inr
  rw [SegmentAggregator.handle]
  split
  next heq => exact absurd heq hs
  next heq =>
    simp only [SegmentAggregator.handleSpeaking]
    split_ifs
    · exact ⟨_, .inr (.inl rfl), hs, rfl, rfl, rfl⟩
    · exact ⟨_, hclose _, htrailing, rfl, rfl, rfl⟩
    · exact ⟨_, .inr (.inl rfl), htrailing, rfl, rfl, rfl⟩
  next heq =>
    simp only [SegmentAggregator.handleTrailing]
    split_ifs
    · exact ⟨_, .inr (.inl rfl), hspeaking, rfl, rfl, rfl⟩
    · exact ⟨_, hclose _, hs, rfl, rfl, rfl⟩
    · exact ⟨_, .inr (.inl rfl), hs, rfl, rfl, rfl⟩

theorem handle_segments (frame : Pcm) (isSpeech : Bool) :
    ∀ out' ∈ (a.handle cfg frame isSpeech out).2, out'.segments = out.segments := by
  by_cases hs : a.state = .silent
  · simp only [SegmentAggregator.handle, hs, SegmentAggregator.handleSilent]
    split_ifs
    all_goals
      intro out' hout
      exact (congrArg SegmenterOutput.segments (Option.mem_some.mp hout).symm).trans rfl
  · obtain ⟨b, hgoes, -⟩ := handle_rejected hrate a out hs frame isSpeech
    exact hgoes.segments

theorem maybeForceCut_segments :
    ∀ out' ∈ (a.maybeForceCut cfg out).2, out'.segments = out.segments := by
  rcases maybeForceCut_rejected hrate a out with heq | heq | ⟨-, -, -, heq⟩ <;> rw [heq]
  · exact fun _ hout => absurd hout (Option.not_mem_none _)
  · exact fun _ hout => congrArg _ (Option.mem_some.mp hout).symm
  · exact fun _ hout => congrArg _ (Option.mem_some.mp hout).symm

theorem call_segments (c : SegmenterCall) : ∀ out ∈ (a.call cfg c).2, out.segments = [] := by
  cases c with
  | feed frame isSpeech =>
      rw [SegmentAggregator.call, SegmentAggregator.feed]
      have hheard := handle_segments hrate { a with cursorMs := a.cursorMs + cfg.frameMs } {}
        frame isSpeech
      split
      next => exact fun _ hout => absurd hout (Option.not_mem_none _)
      next heq =>
        rw [heq] at hheard
        intro out' hout
        exact (maybeForceCut_segments hrate _ _ out' hout).trans (hheard _ rfl)
  | flush =>
      rw [SegmentAggregator.call, SegmentAggregator.flush]
      split_ifs
      · exact fun _ hout => congrArg _ (Option.mem_some.mp hout).symm
      · exact GoesOn.segments ((closeSegment_rejected hrate a {}).imp id .inr)

/-- No call returns a segment. -/
theorem outputs_segments (calls : List SegmenterCall) :
    (SegmenterOutput.join (a.outputs cfg calls)).segments = [] := by
  induction calls generalizing a with
  | nil => rfl
  | cons c calls ih =>
      have hcall := call_segments hrate a c
      rw [SegmentAggregator.outputs]
      cases hout : (a.call cfg c).2 with
      | none => exact ih _
      | some out =>
          rw [hout] at hcall
          rw [Option.toList_some, List.singleton_append, SegmenterOutput.join_cons,
            SegmenterOutput.append, hcall out rfl, ih]
          rfl

variable (hmin : cfg.minSpeechDurationMs ≤ cfg.maxSpeechDurationMs)

include hmin

theorem maybeForceCut_proceeds (hs : a.state ≠ .silent) :
    Proceeds cfg a (a.maybeForceCut cfg out) := by
  rcases maybeForceCut_rejected hrate a out with heq | heq | ⟨-, hdropped, hdur, heq⟩ <;> rw [heq]
  · exact ⟨rfl, fun hsil => absurd hsil hs, fun _ => .inl rfl⟩
  · exact ⟨rfl, fun hsil => absurd hsil hs, fun _ => .inl rfl⟩
  · refine ⟨rfl, fun _ => hdropped, fun _ => .inr ?_⟩
    exact hdropped.resolve_left (not_lt.mpr (hmin.trans hdur))

/-- One call in SPEAKING or TRAILING. -/
theorem call_proceeds (hs : a.state ≠ .silent) (c : SegmenterCall) :
    ∃ b : SegmentAggregator, Proceeds cfg b (a.call cfg c) ∧
      b.segmentStartMs = a.segmentStartMs ∧
      b.segmentBuffer = a.segmentBuffer ++ (fedFrames [c]).flatten := by
  cases c with
  | feed frame isSpeech =>
      obtain ⟨b, hgoes, htakes⟩ := handle_rejected hrate
        { a with cursorMs := a.cursorMs + cfg.frameMs } {} hs frame isSpeech
      refine ⟨b, ?_, htakes.start, by simpa [fedFrames] using htakes.buffer⟩
      rw [SegmentAggregator.call, SegmentAggregator.feed]
      rcases hgoes with heq | heq | ⟨hdropped, heq⟩ <;> rw [heq]
      · exact ⟨rfl, fun hsil => absurd hsil htakes.state_ne, fun _ => .inl rfl⟩
      · exact maybeForceCut_proceeds hrate b {} hmin htakes.state_ne
      · exact ⟨rfl, fun _ => hdropped, fun hne => absurd rfl hne⟩
  | flush =>
      refine ⟨a, ?_, rfl, by simp [fedFrames]⟩
      rw [SegmentAggregator.call, SegmentAggregator.flush, if_neg hs]
      rcases closeSegment_rejected hrate a {} with heq | ⟨hdropped, heq⟩ <;> rw [heq]
      · exact ⟨rfl, fun hsil => absurd hsil hs, fun _ => .inl rfl⟩
      · exact ⟨rfl, fun _ => hdropped, fun hne => absurd rfl hne⟩

end Rejected

section Blank

variable {cfg : SegmenterConfig} {fed : List Pcm} {log : SegmenterOutput}
  {a b : SegmentAggregator} {i j p : Nat}

/-- The frames from `p` on, before `i`, have no audio. -/
def Blank (fed : List Pcm) (p i : Nat) : Prop :=
  ∀ m frame, p ≤ m → m < i → fed[m]? = some frame → frame = []

theorem blank_of_drop (h : (fed.drop i).flatten = []) (j : Nat) : Blank fed i j := by
  intro m frame hle _ hm
  rw [List.flatten_eq_nil_iff] at h
  apply h
  rw [List.mem_iff_getElem?]
  refine ⟨m - i, ?_⟩
  rw [List.getElem?_drop, Nat.add_sub_cancel' hle, hm]

theorem Blank.trans (h : Blank fed p i) (h' : Blank fed i j) : Blank fed p j := by
  intro m frame hp hj hm
  rcases Nat.lt_or_ge m i with hlt | hge
  · exact h m frame hp hlt hm
  · exact h' m frame hge hj hm

theorem Blank.append (h : Blank fed p i) (hi : i ≤ fed.length) (more : List Pcm) :
    Blank (fed ++ more) p i := by
  intro m frame hp hlt hm
  rw [List.getElem?_append_left (hlt.trans_le hi)] at hm
  exact h m frame hp hlt hm

/-- From frame `p` on all audio is in the open piece. -/
def AudioOpen (cfg : SegmenterConfig) (fed : List Pcm) (p : Nat) (a : SegmentAggregator) : Prop :=
  ∃ log i, Tracks cfg fed log a i ∧ Blank fed p i

/-- What a step leaves behind has no audio. -/
theorem Proceeds.audioOpen {r : SegmenterStep} (h : Proceeds cfg b r)
    (hstart : b.segmentStartMs = i * cfg.frameMs)
    (hbuffer : b.segmentBuffer = (fed.drop i).flatten) (hblank : Blank fed p i)
    (hkept : Kept cfg fed log r) (hs : r.1.state ≠ .silent) : AudioOpen cfg fed p r.1 := by
  obtain ⟨⟨j, hj⟩, -⟩ := hkept
  refine ⟨_, j, hj, ?_⟩
  rcases h.going hs with hsame | hempty
  · rw [(hj.active hs).2.1, hstart] at hsame
    rw [Nat.eq_of_mul_eq_mul_right cfg.frameMs_pos hsame]
    exact hblank
  · rw [hbuffer] at hempty
    exact hblank.trans (blank_of_drop hempty j)

/-- The piece before a call, and the frame it takes up. -/
theorem Tracks.buffer_append (h : Tracks cfg fed log a i) (hs : a.state ≠ .silent)
    (more : List Pcm) : a.segmentBuffer ++ more.flatten = ((fed ++ more).drop i).flatten := by
  rw [(h.active hs).2.2, List.drop_append_of_le_length h.mark_le, List.flatten_append]

variable (hrate : ¬ 0 < cfg.sampleRate)
  (hmin : cfg.minSpeechDurationMs ≤ cfg.maxSpeechDurationMs)

include hrate hmin

theorem AudioOpen.call (h : AudioOpen cfg fed p a) (hs : a.state ≠ .silent) (c : SegmenterCall)
    (hs' : (a.call cfg c).1.state ≠ .silent) :
    AudioOpen cfg (fed ++ fedFrames [c]) p (a.call cfg c).1 := by
  obtain ⟨log, i, htracks, hblank⟩ := h
  obtain ⟨b, hproceeds, hstart, hbuffer⟩ := call_proceeds hrate a hmin hs c
  rw [(htracks.active hs).2.1] at hstart
  rw [htracks.buffer_append hs] at hbuffer
  exact hproceeds.audioOpen hstart hbuffer (hblank.append htracks.mark_le _) (htracks.call c) hs'

/-- The call that ends the utterance drops the open piece. -/
theorem AudioOpen.closed (h : AudioOpen cfg fed p a) (hs : a.state ≠ .silent) (c : SegmenterCall)
    (hs' : (a.call cfg c).1.state = .silent) {k : Nat} {frame : Pcm}
    (hk : (fed ++ fedFrames [c])[k]? = some frame) (hframe : frame ≠ []) (hp : p ≤ k) :
    a.segmentStartMs ≤ k * cfg.frameMs ∧
      ((a.call cfg c).1.cursorMs : Int) - a.segmentStartMs < cfg.minSpeechDurationMs := by
  obtain ⟨log, i, htracks, hblank⟩ := h
  obtain ⟨b, hproceeds, hstart, hbuffer⟩ := call_proceeds hrate a hmin hs c
  rw [htracks.buffer_append hs] at hbuffer
  have hik : i ≤ k := by
    by_contra hlt
    exact hframe (hblank.append htracks.mark_le _ k frame hp (not_le.mp hlt) hk)
  constructor
  · rw [(htracks.active hs).2.1]
    exact Nat.mul_le_mul_right _ hik
  · rw [← hstart, hproceeds.cursor]
    refine (hproceeds.closed hs').resolve_right ?_
    intro hempty
    rw [hbuffer] at hempty
    exact hframe (blank_of_drop hempty (k + 1) k frame hik (Nat.lt_succ_self k) hk)

/-- The call that opens an utterance. -/
theorem Tracks.audioOpen (h : Tracks cfg fed log a i) (hs : a.state = .silent)
    (c : SegmenterCall) {out : SegmenterOutput} {t : Nat} (hout : out ∈ (a.call cfg c).2)
    (hevent : ⟨.speechStart, t⟩ ∈ out.events) (hs' : (a.call cfg c).1.state ≠ .silent) :
    ∃ p, t = p * cfg.frameMs ∧ AudioOpen cfg (fed ++ fedFrames [c]) p (a.call cfg c).1 := by
  have hkept := h.call c
  cases c with
  | flush =>
      rw [SegmentAggregator.call, SegmentAggregator.flush, if_pos hs] at hout
      cases hout
      exact absurd hevent List.not_mem_nil
  | feed frame isSpeech =>
      obtain ⟨⟨p, hp⟩, -⟩ := h.handle frame isSpeech
      obtain ⟨b, heard, heq, hcases⟩ :=
        handle_silent_cases cfg { a with cursorMs := a.cursorMs + cfg.frameMs } hs frame isSpeech
      rw [heq] at hp
      rw [SegmentAggregator.call, SegmentAggregator.feed, heq] at hout hs' hkept ⊢
      dsimp only at hout hs' hkept ⊢
      rcases hcases with ⟨hsil, hnone⟩ | ⟨hne, hstart⟩
      · rw [SegmentAggregator.maybeForceCut, if_pos hsil] at hout
        cases hout
        rw [hnone] at hevent
        exact absurd hevent List.not_mem_nil
      · have hevents : out.events = heard.events := by
          rcases maybeForceCut_rejected hrate b heard with hcut | hcut | ⟨-, -, -, hcut⟩ <;>
            rw [hcut] at hout <;> cases hout <;> rfl
        rw [hevents, hstart] at hevent
        cases List.mem_singleton.mp hevent
        obtain ⟨-, hstart', hbuffer⟩ := hp.active hne
        refine ⟨p, hstart', ?_⟩
        have hblank : Blank (fed ++ [frame]) p p := by
          intro m _ hle hlt
          exact absurd hle (not_le.mpr hlt)
        exact (maybeForceCut_proceeds hrate b heard hmin hne).audioOpen hstart' hbuffer hblank
          hkept hs'

theorem AudioOpen.run (h : AudioOpen cfg fed p a) (calls : List SegmenterCall)
    (hs : ∀ m ≤ calls.length, (a.after cfg (calls.take m)).state ≠ .silent) :
    AudioOpen cfg (fed ++ fedFrames calls) p (a.after cfg calls) := by
  induction calls generalizing fed a with
  | nil =>
      rw [fedFrames, List.append_nil]
      exact h
  | cons c calls ih =>
      have hnext := h.call hrate hmin (hs 0 (Nat.zero_le _)) c
        (hs 1 (Nat.succ_le_succ (Nat.zero_le _)))
      rw [fedFrames_cons, ← List.append_assoc]
      exact ih hnext fun m hm => hs (m + 1) (Nat.succ_le_succ hm)

end Blank

end Vad
end Sandroid
