import Sandroid.Lib.Tiling
import Sandroid.Vad.Pieces
import Sandroid.Vad.SampleRate

/-!
# Coverage of long utterances

From the `speech_start` of an utterance to its end the pieces tile the frames,
and a piece that is cut is as long as the maximum.  So only the piece that is
open at the end can be too short to be reported.
-/

namespace Sandroid
namespace Vad

open Api Lib

namespace Phase

variable {cfg : SegmenterConfig} {n : Nat} {φ : Phase}

theorem Fits.after (h : φ.Fits n) (calls : List SegmenterCall) :
    (φ.after cfg n calls).Fits (n + (fedFrames calls).length) := by
  induction calls generalizing n φ with
  | nil => exact h
  | cons c calls ih =>
      rw [fedFrames_cons, List.length_append, ← Nat.add_assoc]
      exact ih (@Fits.call cfg n φ h c).1

/-- The frame from which on nothing has been put into a piece yet. -/
def mark (n : Nat) : Phase → Nat
  | idle run => n - run
  | piece start _ => start

theorem Fits.mark_le (h : φ.Fits n) : φ.mark n ≤ n := by
  cases φ with
  | idle run => exact Nat.sub_le _ _
  | piece start quiet => exact (Nat.le_add_right _ _).trans h

theorem cut_between (h : φ.Fits n) :
    φ.mark n ≤ (φ.cut cfg n).1.mark n ∧
      Between (φ.mark n) (pieces (φ.cut cfg n).2) ((φ.cut cfg n).1.mark n) := by
  cases φ with
  | idle run => exact ⟨le_rfl, fun iv hiv => absurd hiv List.not_mem_nil⟩
  | piece start quiet =>
      have hle := h.mark_le
      rw [cut]
      split_ifs
      · refine ⟨hle, ?_⟩
        intro iv hiv
        cases List.mem_singleton.mp hiv
        exact ⟨le_rfl, le_rfl⟩
      · exact ⟨le_rfl, fun iv hiv => absurd hiv List.not_mem_nil⟩

theorem hear_between (h : φ.Fits n) (isSpeech : Bool) :
    φ.mark n ≤ (φ.hear cfg (n + 1) isSpeech).1.mark (n + 1) ∧
      Between (φ.mark n) (pieces (φ.hear cfg (n + 1) isSpeech).2)
        ((φ.hear cfg (n + 1) isSpeech).1.mark (n + 1)) := by
  have hnone (m : Nat) : Between (φ.mark n) [] m := fun iv hiv => absurd hiv List.not_mem_nil
  have hle := h.mark_le
  cases φ with
  | idle run =>
      rw [hear]
      split_ifs
      · refine ⟨?_, hnone _⟩
        rw [mark, mark, Nat.add_sub_add_right]
      · refine ⟨?_, hnone _⟩
        rw [mark, mark, Nat.add_sub_add_right]
      · exact ⟨hle.trans (Nat.le_succ n), hnone _⟩
  | piece start quiet =>
      rw [hear]
      split_ifs
      · exact ⟨le_rfl, hnone _⟩
      · refine ⟨hle.trans (Nat.le_succ n), ?_⟩
        intro iv hiv
        cases List.mem_singleton.mp hiv
        exact ⟨le_rfl, le_rfl⟩
      · exact ⟨le_rfl, hnone _⟩

/-- What a call adds lies between the marks before and after it. -/
theorem call_between (h : φ.Fits n) (c : SegmenterCall) :
    φ.mark n ≤ (φ.call cfg n c).1.mark (n + (fedFrames [c]).length) ∧
      Between (φ.mark n) (pieces (φ.call cfg n c).2)
        ((φ.call cfg n c).1.mark (n + (fedFrames [c]).length)) := by
  cases c with
  | feed frame isSpeech =>
      obtain ⟨hle, hbetween⟩ := @hear_between cfg n φ h isSpeech
      obtain ⟨hle', hbetween'⟩ := @cut_between cfg _ _ (@Fits.hear cfg n φ h isSpeech).1
      refine ⟨hle.trans hle', ?_⟩
      rw [call, feed, pieces_append]
      exact (hbetween.mono le_rfl hle').append (hbetween'.mono hle le_rfl)
  | flush =>
      cases φ with
      | idle run => exact ⟨le_rfl, fun iv hiv => absurd hiv List.not_mem_nil⟩
      | piece start quiet =>
          refine ⟨h.mark_le, ?_⟩
          intro iv hiv
          cases List.mem_singleton.mp hiv
          exact ⟨le_rfl, le_rfl⟩

theorem events_between (h : φ.Fits n) (calls : List SegmenterCall) :
    φ.mark n ≤ (φ.after cfg n calls).mark (n + (fedFrames calls).length) ∧
      Between (φ.mark n) (pieces (φ.events cfg n calls))
        ((φ.after cfg n calls).mark (n + (fedFrames calls).length)) := by
  induction calls generalizing n φ with
  | nil => exact ⟨le_rfl, fun iv hiv => absurd hiv List.not_mem_nil⟩
  | cons c calls ih =>
      obtain ⟨hle, hbetween⟩ := @call_between cfg n φ h c
      obtain ⟨hle', hbetween'⟩ := ih (@Fits.call cfg n φ h c).1
      rw [fedFrames_cons, List.length_append, ← Nat.add_assoc, after, events, pieces_append]
      exact ⟨hle.trans hle', (hbetween.mono le_rfl hle').append (hbetween'.mono hle le_rfl)⟩

/-- While the utterance goes on, the pieces tile the frames and each is as long as the
maximum. -/
def Tiled (cfg : SegmenterConfig) (lo : Nat) (evs : List PieceEvent) (hi : Nat) : Prop :=
  Tiles lo (pieces evs) hi ∧ ∀ iv ∈ pieces evs, TooLong cfg (iv.2 - iv.1)

theorem tiled_nil (lo : Nat) : Tiled cfg lo [] lo :=
  ⟨.nil lo, fun _ hiv => absurd hiv List.not_mem_nil⟩

theorem Tiled.append {lo mid hi : Nat} {evs evs' : List PieceEvent}
    (h : Tiled cfg lo evs mid) (h' : Tiled cfg mid evs' hi) : Tiled cfg lo (evs ++ evs') hi := by
  rw [Tiled, pieces_append]
  refine ⟨h.1.append h'.1, ?_⟩
  intro iv hiv
  rcases List.mem_append.mp hiv with hiv | hiv
  · exact h.2 iv hiv
  · exact h'.2 iv hiv

theorem cut_tiled (h : φ.Fits n) :
    Tiled cfg (φ.mark n) (φ.cut cfg n).2 ((φ.cut cfg n).1.mark n) := by
  cases φ with
  | idle run => exact tiled_nil _
  | piece start quiet =>
      have hle := h.mark_le
      rw [cut]
      split_ifs with hlong
      · refine ⟨.singleton hle, ?_⟩
        intro iv hiv
        cases List.mem_singleton.mp hiv
        exact hlong
      · exact tiled_nil _

/-- SPEAKING or TRAILING. -/
def Active : Phase → Prop
  | idle _ => False
  | piece _ _ => True

theorem Active.of_cut (h : (φ.cut cfg n).1.Active) : φ.Active := by
  cases φ with
  | idle run => exact h
  | piece start quiet => trivial

theorem hear_tiled {isSpeech : Bool} (hactive : (φ.hear cfg (n + 1) isSpeech).1.Active) :
    Tiled cfg (φ.mark n) (φ.hear cfg (n + 1) isSpeech).2
      ((φ.hear cfg (n + 1) isSpeech).1.mark (n + 1)) := by
  cases φ with
  | idle run =>
      rw [hear] at hactive ⊢
      split_ifs at hactive ⊢
      · rw [mark, mark, Nat.add_sub_add_right]
        exact tiled_nil _
      · exact hactive.elim
      · exact hactive.elim
  | piece start quiet =>
      rw [hear] at hactive ⊢
      split_ifs at hactive ⊢
      · exact tiled_nil _
      · exact hactive.elim
      · exact tiled_nil _

theorem call_tiled (h : φ.Fits n) (c : SegmenterCall) (hactive : (φ.call cfg n c).1.Active) :
    Tiled cfg (φ.mark n) (φ.call cfg n c).2
      ((φ.call cfg n c).1.mark (n + (fedFrames [c]).length)) := by
  cases c with
  | flush =>
      cases φ with
      | idle run => exact hactive.elim
      | piece start quiet => exact hactive.elim
  | feed frame isSpeech =>
      have hcut := @cut_tiled cfg _ _ (@Fits.hear cfg n φ h isSpeech).1
      have hheard := @hear_tiled cfg n φ isSpeech (Active.of_cut hactive)
      exact hheard.append hcut

/-- The pieces of an utterance that goes on through all the calls. -/
theorem events_tiled (h : φ.Fits n) (calls : List SegmenterCall)
    (hactive : ∀ m < calls.length, (φ.after cfg n (calls.take (m + 1))).Active) :
    Tiled cfg (φ.mark n) (φ.events cfg n calls)
      ((φ.after cfg n calls).mark (n + (fedFrames calls).length)) := by
  induction calls generalizing n φ with
  | nil => exact tiled_nil _
  | cons c calls ih =>
      have hnow : (φ.call cfg n c).1.Active := hactive 0 (Nat.succ_pos _)
      have hlater := ih (@Fits.call cfg n φ h c).1
        (fun m hm => hactive (m + 1) (Nat.succ_lt_succ hm))
      rw [fedFrames_cons, List.length_append, ← Nat.add_assoc, after, events]
      exact (call_tiled h c hnow).append hlater

/-- An utterance opens at the mark. -/
theorem opened_eq_mark {i : Nat} {c : SegmenterCall} (h : .opened i ∈ (φ.call cfg n c).2) :
    i = φ.mark n := by
  cases c with
  | flush =>
      cases φ with
      | idle run => exact absurd h List.not_mem_nil
      | piece start quiet => simp [call, flush] at h
  | feed frame isSpeech =>
      rcases List.mem_append.mp h with h | h
      · cases φ with
        | idle run =>
            rw [hear] at h
            split_ifs at h
            · cases List.mem_singleton.mp h
              rw [mark, Nat.add_sub_add_right]
            · exact absurd h List.not_mem_nil
            · exact absurd h List.not_mem_nil
        | piece start quiet =>
            rw [hear] at h
            split_ifs at h <;> simp at h
      · generalize (φ.hear cfg (n + 1) isSpeech).1 = ψ at h
        cases ψ with
        | idle run => exact absurd h List.not_mem_nil
        | piece start quiet =>
            rw [cut] at h
            split_ifs at h <;> simp at h

/-- The call that ends an utterance ends the piece that is open. -/
theorem call_closes {c : SegmenterCall} (hactive : φ.Active)
    (hidle : ¬ (φ.call cfg n c).1.Active) :
    pieces (φ.call cfg n c).2 = [(φ.mark n, n + (fedFrames [c]).length)] ∧
      (φ.call cfg n c).1 = idle 0 := by
  cases φ with
  | idle run => exact hactive.elim
  | piece start quiet =>
      cases c with
      | flush => exact ⟨rfl, rfl⟩
      | feed frame isSpeech =>
          have hcut (quiet' : Nat) : ((piece start quiet').cut cfg (n + 1)).1.Active := by
            rw [cut]
            split_ifs <;> trivial
          have hheard : (piece start quiet).hear cfg (n + 1) isSpeech =
              (idle 0, [.piece start (n + 1)]) := by
            rw [call, feed] at hidle
            rw [hear] at hidle ⊢
            split_ifs at hidle ⊢
            · exact absurd (hcut _) hidle
            · rfl
            · exact absurd (hcut _) hidle
          rw [call, feed, hheard]
          exact ⟨rfl, rfl⟩

end Phase

section Counting

variable {cfg : SegmenterConfig} {fed : List Pcm} {k : Nat} {frame : Pcm}

theorem audioOf_ne_nil (hk : fed[k]? = some frame) (hframe : frame ≠ []) {i j : Nat}
    (hi : i ≤ k) (hj : k < j) : audioOf fed i j ≠ [] := by
  intro hnil
  rw [audioOf, List.flatten_eq_nil_iff] at hnil
  apply hframe
  apply hnil
  rw [List.mem_iff_getElem?]
  refine ⟨k - i, ?_⟩
  rw [List.getElem?_take, if_pos (by omega), List.getElem?_drop, Nat.add_sub_cancel' hi, hk]

/-- How many segments hold a frame with audio. -/
theorem countP_segments (hk : fed[k]? = some frame) (hframe : frame ≠ [])
    (ivs : List (Nat × Nat)) :
    (ivs.filterMap (segmentOf cfg fed)).countP (HoldsFrame cfg fed k ·) =
      coverCount k (ivs.filter (LongEnough cfg ·)) := by
  rw [List.countP_filterMap, coverCount, List.countP_filter]
  apply List.countP_congr
  rintro ⟨i, j⟩ _
  have hcovered : (decide (i ≤ k ∧ k < j) && decide (LongEnough cfg (i, j))) = true ↔
      (i ≤ k ∧ k < j) ∧ LongEnough cfg (i, j) := by
    rw [Bool.and_eq_true, decide_eq_true_eq, decide_eq_true_eq]
  refine Iff.trans ?_ hcovered.symm
  rcases hsegment : segmentOf cfg fed (i, j) with _ | s
  · refine ⟨fun hfalse => (by cases hfalse), ?_⟩
    rintro ⟨hheld, hlong⟩
    have hsome := segmentOf_eq_some.mpr
      ⟨hlong, audioOf_ne_nil hk hframe hheld.1 hheld.2, rfl⟩
    rw [hsegment] at hsome
    cases hsome
  · have hlong := (segmentOf_eq_some.mp hsegment).1
    rw [← holdsFrame_of_segmentOf hsegment]
    exact ⟨fun hheld => ⟨of_decide_eq_true hheld, hlong⟩, fun hheld => decide_eq_true hheld.1⟩

theorem longEnough_of_tooLong (hmin : cfg.minSpeechDurationMs ≤ cfg.maxSpeechDurationMs)
    {iv : Nat × Nat} (h : Phase.TooLong cfg (iv.2 - iv.1)) (hle : iv.1 ≤ iv.2) :
    LongEnough cfg iv := by
  have hlong := hmin.trans h
  rw [Nat.sub_mul, Nat.cast_sub (Nat.mul_le_mul_right _ hle)] at hlong
  exact hlong

theorem filter_eq_self_of_tiled (hmin : cfg.minSpeechDurationMs ≤ cfg.maxSpeechDurationMs)
    {lo hi : Nat} {evs : List PieceEvent} (h : Phase.Tiled cfg lo evs hi) :
    (pieces evs).filter (LongEnough cfg ·) = pieces evs := by
  rw [List.filter_eq_self]
  intro iv hiv
  exact decide_eq_true (longEnough_of_tooLong hmin (h.2 iv hiv) (h.1.le_of_mem hiv))

/-- From the opening of an utterance to its end every frame is covered once,
unless it lies in the last piece and that is too short. -/
theorem coverCount_utterance (hmin : cfg.minSpeechDurationMs ≤ cfg.maxSpeechDurationMs)
    {φ : Phase} {n : Nat} (hfits : φ.Fits n) {earlier : List PieceEvent}
    (hearlier : Between 0 (pieces earlier) (φ.mark n)) (utterance rest : List SegmenterCall)
    (hne : utterance ≠ [])
    (hactive : ∀ m < utterance.length, (φ.after cfg n (utterance.take (m + 1))).Active)
    (closing : SegmenterCall)
    (hclosing : ¬ (φ.after cfg n (utterance ++ [closing])).Active)
    (hk : φ.mark n ≤ k) (hkend : k < n + (fedFrames (utterance ++ [closing])).length) :
    coverCount k ((pieces (earlier ++ φ.events cfg n (utterance ++ closing :: rest))).filter
        (LongEnough cfg ·)) =
      if k < (φ.after cfg n utterance).mark (n + (fedFrames utterance).length) ∨
          LongEnough cfg ((φ.after cfg n utterance).mark (n + (fedFrames utterance).length),
            n + (fedFrames (utterance ++ [closing])).length) then 1 else 0 := by
  have htiled := Phase.events_tiled hfits utterance hactive
  have hlast := @Phase.Fits.after cfg n φ hfits utterance
  have hsplit := (@Phase.run_append cfg φ n utterance (closing :: rest)).2
  have hclose := (@Phase.run_append cfg φ n utterance [closing]).1
  have hspeaking : (φ.after cfg n utterance).Active := by
    obtain ⟨m, hm⟩ := Nat.exists_eq_succ_of_ne_zero (mt List.length_eq_zero_iff.mp hne)
    have hwhole := hactive m (by omega)
    rwa [List.take_of_length_le (by omega)] at hwhole
  rw [fedFrames_append, List.length_append, ← Nat.add_assoc] at hkend ⊢
  generalize φ.after cfg n utterance = ψ at *
  generalize n + (fedFrames utterance).length = n' at *
  rw [hclose] at hclosing
  obtain ⟨hpieces, hidle⟩ := Phase.call_closes hspeaking hclosing
  have hlater := (@Phase.events_between cfg _ _ (@Phase.Fits.call cfg _ _ hlast closing).1 rest).2
  rw [hidle] at hlater
  rw [hsplit, Phase.events, pieces_append, pieces_append, pieces_append, List.filter_append,
    List.filter_append, List.filter_append, coverCount_append, coverCount_append,
    coverCount_append]
  have hzero : coverCount k ((pieces earlier).filter (LongEnough cfg ·)) = 0 :=
    (hearlier.sublist List.filter_sublist).coverCount_eq_zero (.inr hk)
  have hcuts := htiled.1.coverCount (k := k)
  rw [← filter_eq_self_of_tiled hmin htiled] at hcuts
  have hafter : coverCount k ((pieces ((ψ.call cfg n' closing).1.events cfg
      (n' + (fedFrames [closing]).length) rest)).filter (LongEnough cfg ·)) = 0 := by
    rw [hidle]
    exact (hlater.sublist List.filter_sublist).coverCount_eq_zero (.inl hkend)
  rw [hzero, hcuts, hafter, hpieces, coverCount_filter_singleton]
  by_cases hlt : k < ψ.mark n'
  · simp [hk, hlt, not_le.mpr hlt]
  · simp [hkend, hlt, not_lt.mp hlt]

end Counting

/-- A run that enters SPEAKING with `speech_start` at `a` in the call `opening`, and next
returns to SILENT in the call `closing`. -/
structure SpeakingSpan (cfg : SegmenterConfig) (before : List SegmenterCall)
    (opening : SegmenterCall) (during : List SegmenterCall) (closing : SegmenterCall) (a : Nat) :
    Prop where
  silent_before : (SegmentAggregator.after cfg {} before).state = .silent
  opens : ∃ out ∈ ((SegmentAggregator.after cfg {} before).call cfg opening).2,
    ⟨.speechStart, a⟩ ∈ out.events
  stays : ∀ m ≤ during.length,
    (SegmentAggregator.after cfg {} (before ++ opening :: during.take m)).state ≠ .silent
  closes :
    (SegmentAggregator.after cfg {} (before ++ opening :: during ++ [closing])).state = .silent

section Spans

variable {cfg : SegmenterConfig} {fed : List Pcm} {a : SegmentAggregator} {φ : Phase}

theorem Stands.active_iff (h : Stands cfg fed a φ) : φ.Active ↔ a.state ≠ .silent := by
  cases φ with
  | idle run => exact ⟨False.elim, fun hne => hne h.2.1⟩
  | piece start quiet => exact ⟨fun _ => h.ne_silent, fun _ => trivial⟩

theorem Stands.segmentStart (h : Stands cfg fed a φ) (hactive : φ.Active) :
    a.segmentStartMs = φ.mark fed.length * cfg.frameMs := by
  cases φ with
  | idle run => exact hactive.elim
  | piece start quiet => exact h.2.2.2.2.2.2.1

/-- A `speech_start` comes from the opening of an utterance. -/
theorem opened_of_mem_events {evs : List PieceEvent} {t : Nat}
    (h : ⟨.speechStart, t⟩ ∈ (render cfg fed evs).events) :
    ∃ i, .opened i ∈ evs ∧ t = i * cfg.frameMs := by
  rw [render, SegmenterOutput.join, List.mem_flatMap] at h
  obtain ⟨out, hout, ht⟩ := h
  obtain ⟨e, he, rfl⟩ := List.mem_map.mp hout
  cases e with
  | opened i =>
      cases List.mem_singleton.mp ht
      exact ⟨i, he, rfl⟩
  | piece i j =>
      rw [PieceEvent.output, reported] at ht
      split_ifs at ht
      · cases List.mem_singleton.mp ht
      · exact absurd ht List.not_mem_nil

/-- The span in the abstract model: it opens at the mark and goes on, and its times are
those of the frames. -/
theorem SpeakingSpan.phases (hrate : 0 < cfg.sampleRate) {before during : List SegmenterCall}
    {opening closing : SegmenterCall} {start : Nat}
    (h : SpeakingSpan cfg before opening during closing start) :
    let φ := Phase.after cfg 0 (.idle 0) before
    let n := (fedFrames before).length
    start = φ.mark n * cfg.frameMs ∧
      (∀ m < (opening :: during).length,
        (φ.after cfg n ((opening :: during).take (m + 1))).Active) ∧
      ¬ (φ.after cfg n (opening :: during ++ [closing])).Active ∧
      (SegmentAggregator.after cfg {} (before ++ opening :: during)).segmentStartMs =
        (φ.after cfg n (opening :: during)).mark (n + (fedFrames (opening :: during)).length) *
          cfg.frameMs ∧
      (SegmentAggregator.after cfg {} (before ++ opening :: during ++ [closing])).cursorMs =
        (n + (fedFrames (opening :: during ++ [closing])).length) * cfg.frameMs := by
  intro φ n
  have hrun (calls : List SegmenterCall) :
      Phase.after cfg 0 (.idle 0) (before ++ calls) = φ.after cfg n calls := by
    have happend := (@Phase.run_append cfg (.idle 0) 0 before calls).1
    rwa [Nat.zero_add] at happend
  have hactive : ∀ m < (opening :: during).length,
      (φ.after cfg n ((opening :: during).take (m + 1))).Active := by
    intro m hm
    have hstands := stands_after hrate (before ++ (opening :: during).take (m + 1))
    rw [← hrun, hstands.active_iff]
    exact h.stays m (Nat.le_of_lt_succ hm)
  refine ⟨?_, hactive, ?_, ?_, ?_⟩
  · obtain ⟨out, hout, hevent⟩ := h.opens
    obtain ⟨b, hb, -⟩ := (stands_after hrate before).call hrate opening
    rw [hb] at hout
    cases hout
    obtain ⟨i, hi, hstart⟩ := opened_of_mem_events (by simpa [SegmenterOutput.append] using hevent)
    rw [hstart, Phase.opened_eq_mark hi]
  · have hstands := stands_after hrate (before ++ (opening :: during ++ [closing]))
    rw [← hrun, hstands.active_iff, ← List.append_assoc]
    exact fun hne => hne h.closes
  · have hstands := stands_after hrate (before ++ opening :: during)
    have hspeaking := hactive during.length (Nat.lt_succ_self _)
    rw [List.take_of_length_le (by simp), ← hrun] at hspeaking
    rw [hstands.segmentStart hspeaking, hrun, fedFrames_append, List.length_append]
  · have hstands := stands_after hrate (before ++ (opening :: during ++ [closing]))
    rw [List.append_assoc, hstands.cursor, fedFrames_append, List.length_append]

/-- The frames of a span, with a sample rate that segments accept. -/
theorem SpeakingSpan.covered (hrate : 0 < cfg.sampleRate)
    (hmin : cfg.minSpeechDurationMs ≤ cfg.maxSpeechDurationMs)
    {before during : List SegmenterCall} {opening closing : SegmenterCall} {a : Nat}
    (h : SpeakingSpan cfg before opening during closing a) (rest : List SegmenterCall) :
    let calls := before ++ opening :: during ++ closing :: rest
    let segments := (SegmenterOutput.join (SegmentAggregator.outputs cfg {} calls)).segments
    let last := (SegmentAggregator.after cfg {} (before ++ opening :: during)).segmentStartMs
    let b := (SegmentAggregator.after cfg {} (before ++ opening :: during ++ [closing])).cursorMs
    cfg.minSpeechDurationMs ≤ (b : Int) - a →
      ∀ k frame, (fedFrames calls)[k]? = some frame → frame ≠ [] →
        a ≤ k * cfg.frameMs → k * cfg.frameMs < b →
          (k * cfg.frameMs < last ∨ cfg.minSpeechDurationMs ≤ (b : Int) - last →
            segments.countP (HoldsFrame cfg (fedFrames calls) k ·) = 1) ∧
          (last ≤ k * cfg.frameMs → (b : Int) - last < cfg.minSpeechDurationMs →
            segments.countP (HoldsFrame cfg (fedFrames calls) k ·) = 0 ∧ a < last) := by
  intro calls segments last b hlong k frame hk hframe hka hkb
  obtain ⟨hstart, hactive, hclosing, hlast, hb⟩ := h.phases hrate
  have hfits := (stands_after hrate before).fits
  have hearlier := (@Phase.events_between cfg 0 (.idle 0) le_rfl before).2
  have hsplit := (@Phase.run_append cfg (.idle 0) 0 before
    (opening :: during ++ closing :: rest)).2
  rw [Nat.zero_add] at hearlier hsplit
  have hcalls : calls = before ++ (opening :: during ++ closing :: rest) :=
    List.append_assoc _ _ _
  have hcount : segments.countP (HoldsFrame cfg (fedFrames calls) k ·) = coverCount k
      ((pieces (Phase.events cfg 0 (.idle 0) calls)).filter (LongEnough cfg ·)) := by
    rw [← countP_segments hk hframe, ← render_segments, ← outputs_eq_render cfg hrate calls]
  have hpos := cfg.frameMs_pos
  have hka' := Nat.le_of_mul_le_mul_right (hstart.symm.trans_le hka) hpos
  have hkb' := Nat.lt_of_mul_lt_mul_right (hkb.trans_eq hb)
  rw [hcount, hcalls, hsplit, coverCount_utterance hmin hfits hearlier (opening :: during) rest
    (List.cons_ne_nil _ _) hactive closing hclosing hka' hkb']
  generalize Phase.mark _ (Phase.after cfg _ _ (opening :: during)) = s at hlast ⊢
  generalize (fedFrames before).length + (fedFrames (opening :: during ++ [closing])).length = e
    at hb ⊢
  have hbefore : k < s ↔ k * cfg.frameMs < last := by
    rw [show last = s * cfg.frameMs from hlast, Nat.mul_lt_mul_right hpos]
  have henough : LongEnough cfg (s, e) ↔ cfg.minSpeechDurationMs ≤ (b : Int) - last := by
    rw [show last = s * cfg.frameMs from hlast, show b = e * cfg.frameMs from hb]
    exact Iff.rfl
  constructor
  · intro hcovered
    rw [if_pos (hcovered.imp hbefore.mpr henough.mpr)]
  · intro hlate hshort
    have hlost : ¬ (k < s ∨ LongEnough cfg (s, e)) := by
      rw [hbefore, henough]
      omega
    rw [if_neg hlost]
    exact ⟨rfl, by omega⟩

/-- With a sample rate that no segment accepts only audio that need not be reported is
lost. -/
theorem SpeakingSpan.dropped (hrate : ¬ 0 < cfg.sampleRate)
    (hmin : cfg.minSpeechDurationMs ≤ cfg.maxSpeechDurationMs)
    {before during : List SegmenterCall} {opening closing : SegmenterCall} {start : Nat}
    (h : SpeakingSpan cfg before opening during closing start) (rest : List SegmenterCall)
    {k : Nat} {frame : Pcm}
    (hk : (fedFrames (before ++ opening :: during ++ closing :: rest))[k]? = some frame)
    (hframe : frame ≠ []) (hstart : start ≤ k * cfg.frameMs)
    (hend : k * cfg.frameMs <
      (SegmentAggregator.after cfg {} (before ++ opening :: during ++ [closing])).cursorMs) :
    (SegmentAggregator.after cfg {} (before ++ opening :: during)).segmentStartMs ≤
        k * cfg.frameMs ∧
      ((SegmentAggregator.after cfg {} (before ++ opening :: during ++ [closing])).cursorMs : Int) -
          (SegmentAggregator.after cfg {} (before ++ opening :: during)).segmentStartMs <
        cfg.minSpeechDurationMs := by
  have hfresh : Tracks cfg [] {} {} 0 := tracks_fresh
  obtain ⟨log, i, htracks⟩ := hfresh.after before
  rw [List.nil_append] at htracks
  obtain ⟨out, hout, hevent⟩ := h.opens
  have hstays : ∀ m ≤ during.length,
      ((((SegmentAggregator.after cfg {} before).call cfg opening).1).after cfg
        (during.take m)).state ≠ .silent := by
    intro m hm
    have hstate := h.stays m hm
    rwa [SegmentAggregator.after_append] at hstate
  obtain ⟨p, rfl, hopen⟩ := htracks.audioOpen hrate hmin h.silent_before opening hout hevent
    (hstays 0 (Nat.zero_le _))
  have hduring := hopen.run hrate hmin during hstays
  have hspeaking := hstays during.length le_rfl
  rw [List.take_length] at hspeaking
  have hafter : SegmentAggregator.after cfg {} (before ++ opening :: during) =
      (((SegmentAggregator.after cfg {} before).call cfg opening).1).after cfg during := by
    rw [SegmentAggregator.after_append]
    rfl
  have hcloses := h.closes
  rw [SegmentAggregator.after_append, hafter] at hcloses
  have hframes : fedFrames before ++ fedFrames [opening] ++ fedFrames during ++
      fedFrames [closing] = fedFrames (before ++ opening :: during ++ [closing]) := by
    rw [fedFrames_append, fedFrames_append, fedFrames_cons opening during, List.append_assoc,
      List.append_assoc, List.append_assoc, List.append_assoc]
  obtain ⟨_, _, hended⟩ := hfresh.after (before ++ opening :: during ++ [closing])
  have hlt : k < (fedFrames (before ++ opening :: during ++ [closing])).length := by
    rw [hended.cursor, List.nil_append] at hend
    exact Nat.lt_of_mul_lt_mul_right hend
  have hcalls : before ++ opening :: during ++ closing :: rest =
      before ++ opening :: during ++ [closing] ++ rest := by simp
  rw [hcalls, fedFrames_append, List.getElem?_append_left hlt, ← hframes] at hk
  have hclosed := hduring.closed hrate hmin hspeaking closing hcloses hk hframe
    (Nat.le_of_mul_le_mul_right hstart cfg.frameMs_pos)
  rw [← hafter] at hclosed
  have hend_eq : SegmentAggregator.after cfg {} (before ++ opening :: during ++ [closing]) =
      ((SegmentAggregator.after cfg {} (before ++ opening :: during)).call cfg closing).1 :=
    SegmentAggregator.after_append _ _
  rw [hend_eq]
  exact hclosed

/-- From the `speech_start` at `a` to the end at `b` every frame with audio is in exactly
one segment, unless it lies in the piece that the last force cut left and that piece is
shorter than the minimum; then it is in none. -/
theorem speaking_span_covered (cfg : SegmenterConfig)
    (hmin : cfg.minSpeechDurationMs ≤ cfg.maxSpeechDurationMs)
    (before : List SegmenterCall) (opening : SegmenterCall) (during : List SegmenterCall)
    (closing : SegmenterCall) (rest : List SegmenterCall) (a : Nat)
    (h : SpeakingSpan cfg before opening during closing a) :
    let calls := before ++ opening :: during ++ closing :: rest
    let segments := (SegmenterOutput.join (SegmentAggregator.outputs cfg {} calls)).segments
    let last := (SegmentAggregator.after cfg {} (before ++ opening :: during)).segmentStartMs
    let b := (SegmentAggregator.after cfg {} (before ++ opening :: during ++ [closing])).cursorMs
    cfg.minSpeechDurationMs ≤ (b : Int) - a →
      ∀ k frame, (fedFrames calls)[k]? = some frame → frame ≠ [] →
        a ≤ k * cfg.frameMs → k * cfg.frameMs < b →
          (k * cfg.frameMs < last ∨ cfg.minSpeechDurationMs ≤ (b : Int) - last →
            segments.countP (HoldsFrame cfg (fedFrames calls) k ·) = 1) ∧
          (last ≤ k * cfg.frameMs → (b : Int) - last < cfg.minSpeechDurationMs →
            segments.countP (HoldsFrame cfg (fedFrames calls) k ·) = 0 ∧ a < last) := by
  by_cases hrate : 0 < cfg.sampleRate
  · exact h.covered hrate hmin rest
  · intro calls segments last b hlong k frame hk hframe hka hkb
    obtain ⟨hlate, hshort⟩ := h.dropped hrate hmin rest hk hframe hka hkb
    have hnone : segments = [] := outputs_segments hrate {} calls
    rw [hnone]
    constructor
    · intro hcovered
      omega
    · exact fun _ _ => ⟨rfl, by omega⟩

end Spans

theorem four_frames_span :
    SpeakingSpan cutAfterThree [] (.feed [1] true) (List.replicate 3 (.feed [1] true)) .flush
      0 where
  silent_before := rfl
  opens := ⟨{ events := [⟨.speechStart, 0⟩] }, rfl, List.mem_singleton.mpr rfl⟩
  stays := by decide
  closes := by decide

/-- Four frames of speech: the first three are cut off as a segment, and the fourth is too
short to be one. -/
theorem speaking_span_covered_four_frames :
    let calls := List.replicate 4 (SegmenterCall.feed [1] true) ++ [.flush]
    let segments :=
      (SegmenterOutput.join (SegmentAggregator.outputs cutAfterThree {} calls)).segments
    segments.countP (HoldsFrame cutAfterThree (fedFrames calls) 0 ·) = 1 ∧
      segments.countP (HoldsFrame cutAfterThree (fedFrames calls) 3 ·) = 0 := by
  have h := speaking_span_covered cutAfterThree (by decide) [] (.feed [1] true)
    (List.replicate 3 (.feed [1] true)) .flush [] 0 four_frames_span (by decide)
  constructor
  · exact (h 0 [1] rfl (by decide) (by decide) (by decide)).1 (.inl (by decide))
  · exact ((h 3 [1] rfl (by decide) (by decide) (by decide)).2 (by decide) (by decide)).1

/-- The fourth frame is in no segment. -/
theorem speaking_span_not_covered :
    ¬ ∀ (cfg : SegmenterConfig) (frames : List (Pcm × Bool)) (before : List SegmenterCall)
        (opening : SegmenterCall) (during : List SegmenterCall) (closing : SegmenterCall)
        (rest : List SegmenterCall) (a : Nat),
        cfg.minSpeechDurationMs ≤ cfg.maxSpeechDurationMs →
        feedAll frames ++ [.flush] = before ++ opening :: during ++ closing :: rest →
        SpeakingSpan cfg before opening during closing a →
        let calls := feedAll frames ++ [.flush]
        let b :=
          (SegmentAggregator.after cfg {} (before ++ opening :: during ++ [closing])).cursorMs
        cfg.minSpeechDurationMs ≤ (b : Int) - a →
          ∀ k, a ≤ k * cfg.frameMs → k * cfg.frameMs < b →
            (SegmenterOutput.join
              (SegmentAggregator.outputs cfg {} calls)).segments.countP
                (HoldsFrame cfg (fedFrames calls) k ·) = 1 := by
  intro h
  have hthird := h cutAfterThree (List.replicate 4 ([1], true)) [] (.feed [1] true)
    (List.replicate 3 (.feed [1] true)) .flush [] 0 (by decide) rfl four_frames_span (by decide)
    3 (by decide) (by decide)
  exact absurd hthird (by decide)

end Vad
end Sandroid
