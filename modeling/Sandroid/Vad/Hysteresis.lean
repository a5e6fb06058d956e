import Sandroid.Lib.Streak
import Sandroid.Vad.Pieces

/-!
# Hysteresis

Without a force cut the segmenter finds the utterances that an offline reading
of the labels finds: from a position on, the first `S` speech frames in a row
open an utterance, and the first `E` silent frames in a row behind them close
it.  The two counters of the segmenter are streaks, and so the runs of the
abstract model spell out the greedy reading event by event.
-/

namespace Sandroid
namespace Vad

open Api Lib

section Reference

variable (S E : Nat) (labels : List Bool)

/-- An utterance that begins at frame `i` ends before frame `j`: behind the first
`E` silent frames in a row after its first `S` frames, or else with the labels. -/
def EndsAt (i j : Nat) : Prop :=
  IsLeast {j | i + S + E ≤ j ∧ Block labels false (j - E) E} j ∨
    (∀ j, i + S + E ≤ j → ¬ Block labels false (j - E) E) ∧ j = labels.length

/-- The utterances from frame `p` on, each as early as can be. -/
inductive Utterances : Nat → List (Nat × Nat) → Prop
  | none {p : Nat} (h : ∀ i, p ≤ i → ¬ Block labels true i S) : Utterances p []
  | next {p i j : Nat} {rest : List (Nat × Nat)}
      (hopen : IsLeast {i | p ≤ i ∧ Block labels true i S} i)
      (hclose : EndsAt S E labels i j)
      (hrest : Utterances j rest) : Utterances p ((i, j) :: rest)

variable {S E labels}

theorem EndsAt.unique {i j j' : Nat} (h : EndsAt S E labels i j) (h' : EndsAt S E labels i j') :
    j = j' := by
  rcases h with h | ⟨hnone, rfl⟩ <;> rcases h' with h' | ⟨hnone', rfl⟩
  · exact h.unique h'
  · exact absurd h.1.2 (hnone' j h.1.1)
  · exact absurd h'.1.2 (hnone j' h'.1.1)
  · rfl

/-- The reference is a function of the labels. -/
theorem Utterances.unique {p : Nat} {ivs ivs' : List (Nat × Nat)}
    (h : Utterances S E labels p ivs) (h' : Utterances S E labels p ivs') : ivs = ivs' := by
  induction h generalizing ivs' with
  | none hnone =>
      cases h' with
      | none _ => rfl
      | next hopen _ _ => exact absurd hopen.1.2 (hnone _ hopen.1.1)
  | next hopen hclose _ ih =>
      cases h' with
      | none hnone => exact absurd hopen.1.2 (hnone _ hopen.1.1)
      | next hopen' hclose' hrest' =>
          cases hopen.unique hopen'
          cases hclose.unique hclose'
          rw [ih hrest']

theorem EndsAt.of_isLeast {i k : Nat} (h : IsLeast {k | i + S ≤ k ∧ Block labels false k E} k) :
    EndsAt S E labels i (k + E) := by
  refine .inl ⟨⟨Nat.add_le_add_right h.1.1 E, ?_⟩, ?_⟩
  · rw [Nat.add_sub_cancel]
    exact h.1.2
  · rintro j ⟨hj, hblock⟩
    have hle : k ≤ j - E := h.2 ⟨by omega, hblock⟩
    omega

theorem EndsAt.of_forall {i : Nat}
    (h : ∀ k, i + S ≤ k → ¬ Block labels false k E) : EndsAt S E labels i labels.length :=
  .inr ⟨fun j hj => h (j - E) (by omega), rfl⟩

end Reference

section Awaits

variable (cfg : SegmenterConfig) (labels : List Bool)

/-- The events of an utterance. -/
def utteranceEvents (iv : Nat × Nat) : List PieceEvent :=
  [.opened iv.1, .piece iv.1 iv.2]

/-- The events that may follow after `n` frames, by the reference. -/
def Phase.Awaits (n : Nat) : Phase → List PieceEvent → Prop
  | .idle run, evs =>
      ∀ p, Streak labels true cfg.speechStartFrames p n run →
        ∃ ivs, Utterances cfg.speechStartFrames cfg.silenceEndFrames labels p ivs ∧
          evs = ivs.flatMap utteranceEvents
  | .piece i quiet, evs =>
      Streak labels false cfg.silenceEndFrames (i + cfg.speechStartFrames) n quiet →
        ∃ j ivs, EndsAt cfg.speechStartFrames cfg.silenceEndFrames labels i j ∧
          Utterances cfg.speechStartFrames cfg.silenceEndFrames labels j ivs ∧
          evs = .piece i j :: ivs.flatMap utteranceEvents

variable {cfg labels} {n : Nat} {φ : Phase} {evs : List PieceEvent}

/-- One more frame. -/
theorem Phase.Awaits.hear {isSpeech : Bool} (hn : labels[n]? = some isSpeech)
    (h : (φ.hear cfg (n + 1) isSpeech).1.Awaits cfg labels (n + 1) evs) :
    φ.Awaits cfg labels n ((φ.hear cfg (n + 1) isSpeech).2 ++ evs) := by
  cases φ with
  | idle run =>
      intro p hstreak
      cases isSpeech with
      | false =>
          have hother : labels[n]? ≠ some true := by simp [hn]
          exact h p (hstreak.other hother)
      | true =>
          rw [Phase.hear, if_pos rfl] at h ⊢
          have hlt := hstreak.lt
          have hle := hstreak.le
          split_ifs at h ⊢ with hopen
          · have hfirst := hstreak.found hn hopen
            have hstart : n + 1 - (run + 1) + cfg.speechStartFrames = n + 1 := by omega
            obtain ⟨j, ivs, hend, hrest, rfl⟩ := h (by
              rw [hstart]
              exact Streak.start (silenceEndFrames_pos cfg) labels false (n + 1))
            rw [Nat.add_sub_add_right] at hend ⊢
            exact ⟨(n - run, j) :: ivs, .next hfirst hend hrest, rfl⟩
          · exact h p (hstreak.same hn (by omega))
  | piece i quiet =>
      intro hstreak
      cases isSpeech with
      | true =>
          have hother : labels[n]? ≠ some false := by simp [hn]
          exact h (hstreak.other hother)
      | false =>
          rw [Phase.hear, if_neg Bool.false_ne_true] at h ⊢
          have hlt := hstreak.lt
          have hle := hstreak.le
          split_ifs at h ⊢ with hclose
          · have hend := EndsAt.of_isLeast (hstreak.found hn hclose)
            have hstop : n - quiet + cfg.silenceEndFrames = n + 1 := by omega
            rw [hstop] at hend
            obtain ⟨ivs, hrest, rfl⟩ := h (n + 1)
              (Streak.start (speechStartFrames_pos cfg) labels true (n + 1))
            exact ⟨n + 1, ivs, hend, hrest, rfl⟩
          · exact h (hstreak.same hn (by omega))

/-- The end of the labels. -/
theorem Phase.awaits_flush (φ : Phase) (hn : labels.length = n) :
    φ.Awaits cfg labels n (φ.flush n).2 := by
  cases φ with
  | idle run =>
      intro p hstreak
      exact ⟨[], .none (hstreak.none_left hn), rfl⟩
  | piece i quiet =>
      intro hstreak
      refine ⟨n, [], ?_, .none ?_, rfl⟩
      · rw [← hn]
        exact .of_forall (hstreak.none_left hn)
      · exact (Streak.start (speechStartFrames_pos cfg) labels true n).none_left hn

end Awaits

section Uncut

variable {cfg : SegmenterConfig} {φ : Phase} {frames : List (Pcm × Bool)}

/-- No cut falls due while the frames are fed after `n` others. -/
def Uncut (cfg : SegmenterConfig) (n : Nat) (φ : Phase) : List (Pcm × Bool) → Prop
  | [] => True
  | f :: frames =>
      ¬ (φ.hear cfg (n + 1) f.2).1.Cuts cfg (n + 1) ∧
        Uncut cfg (n + 1) (φ.hear cfg (n + 1) f.2).1 frames

theorem Phase.cut_of_not_cuts {n : Nat} (h : ¬ φ.Cuts cfg n) : φ.cut cfg n = (φ, []) := by
  cases φ with
  | idle run => rfl
  | piece start quiet => exact if_neg h

theorem Phase.feed_of_not_cuts {n : Nat} {isSpeech : Bool}
    (h : ¬ (φ.hear cfg n isSpeech).1.Cuts cfg n) :
    φ.feed cfg n isSpeech = φ.hear cfg n isSpeech := by
  rw [Phase.feed, Phase.cut_of_not_cuts h, List.append_nil]

/-- The segmenter cuts when the abstract model does. -/
theorem Stands.uncut (hrate : 0 < cfg.sampleRate) {fed : List Pcm} {a : SegmentAggregator}
    (h : Stands cfg fed a φ)
    (hcut : ∀ before frame isSpeech rest, frames = before ++ (frame, isSpeech) :: rest →
      ¬ (a.after cfg (feedAll before)).ForceCuts cfg frame isSpeech) :
    Uncut cfg fed.length φ frames := by
  induction frames generalizing fed a φ with
  | nil => trivial
  | cons f frames ih =>
      have hnow : ¬ (φ.hear cfg (fed.length + 1) f.2).1.Cuts cfg (fed.length + 1) := by
        rw [← h.forceCuts_iff hrate f.1]
        exact hcut [] f.1 f.2 frames rfl
      refine ⟨hnow, ?_⟩
      obtain ⟨a', ha', hnext⟩ := h.call hrate (.feed f.1 f.2)
      rw [Phase.call, Phase.feed_of_not_cuts hnow] at hnext
      have hrest := ih hnext (by
        intro before frame isSpeech rest hsplit
        have hlater := hcut (f :: before) frame isSpeech rest (by rw [hsplit]; rfl)
        rw [feedAll, List.map_cons, SegmentAggregator.after, ha'] at hlater
        exact hlater)
      rw [List.length_append] at hrest
      exact hrest

/-- The run over the labels that follow, and the flush. -/
theorem Uncut.awaits {labels : List Bool} {n : Nat} (h : Uncut cfg n φ frames)
    (hlabels : labels.drop n = frames.map Prod.snd) (hn : n ≤ labels.length) :
    φ.Awaits cfg labels n (φ.events cfg n (feedAll frames ++ [.flush])) := by
  induction frames generalizing n φ with
  | nil =>
      have hlen : labels.length = n := by
        have hdrop := congrArg List.length hlabels
        rw [List.length_drop] at hdrop
        simp at hdrop
        omega
      have hevents : φ.events cfg n (feedAll [] ++ [.flush]) = (φ.flush n).2 := List.append_nil _
      rw [hevents]
      exact φ.awaits_flush hlen
  | cons f frames ih =>
      obtain ⟨hnow, hlater⟩ := h
      have hlabel : labels[n]? = some f.2 := by
        rw [← List.head?_drop, hlabels, List.map_cons, List.head?_cons]
      have hdrop : labels.drop (n + 1) = frames.map Prod.snd := by
        rw [← List.tail_drop, hlabels, List.map_cons, List.tail_cons]
      have hlt : n < labels.length := (List.getElem?_eq_some_iff.mp hlabel).1
      have hevents : φ.events cfg n (feedAll (f :: frames) ++ [.flush]) =
          (φ.hear cfg (n + 1) f.2).2 ++
            (φ.hear cfg (n + 1) f.2).1.events cfg (n + 1) (feedAll frames ++ [.flush]) := by
        rw [← Phase.feed_of_not_cuts hnow]
        rfl
      rw [hevents]
      exact (ih hlater hdrop hlt).hear hlabel

end Uncut

section Segments

variable (cfg : SegmenterConfig) (fed : List Pcm)

/-- The times of the `speech_start` events. -/
def SegmenterOutput.speechStarts (out : SegmenterOutput) : List Nat :=
  (out.events.filter (·.kind = .speechStart)).map (·.atMs)

theorem SegmenterOutput.speechStarts_append (out out' : SegmenterOutput) :
    (out.append out').speechStarts = out.speechStarts ++ out'.speechStarts := by
  simp [SegmenterOutput.speechStarts, SegmenterOutput.append]

theorem pieces_utterances (ivs : List (Nat × Nat)) :
    pieces (ivs.flatMap utteranceEvents) = ivs := by
  induction ivs with
  | nil => rfl
  | cons iv ivs ih =>
      rw [List.flatMap_cons, pieces_append, ih]
      rfl

theorem reported_speechStarts (pcm16 : Pcm) (startMs endMs : Nat) :
    (reported cfg pcm16 startMs endMs).speechStarts = [] := by
  rw [reported]
  split_ifs
  · rfl
  · rfl

theorem speechStarts_utterances (ivs : List (Nat × Nat)) :
    (render cfg fed (ivs.flatMap utteranceEvents)).speechStarts = ivs.map (·.1 * cfg.frameMs) := by
  induction ivs with
  | nil => rfl
  | cons iv ivs ih =>
      have hrender : render cfg fed (utteranceEvents iv) =
          SegmenterOutput.append { events := [⟨.speechStart, iv.1 * cfg.frameMs⟩] }
            (reported cfg (audioOf fed iv.1 iv.2) (iv.1 * cfg.frameMs) (iv.2 * cfg.frameMs)) := by
        simp [render, utteranceEvents, PieceEvent.output, SegmenterOutput.join,
          SegmenterOutput.append]
      rw [List.flatMap_cons, render_append, SegmenterOutput.speechStarts_append, ih, hrender,
        SegmenterOutput.speechStarts_append, reported_speechStarts]
      rfl

end Segments

/-- Without a force cut the segments are those of the greedy reference. -/
theorem segments_greedy (cfg : SegmenterConfig) (hrate : 0 < cfg.sampleRate)
    (frames : List (Pcm × Bool))
    (hcut : ∀ before frame isSpeech rest, frames = before ++ (frame, isSpeech) :: rest →
      ¬ (SegmentAggregator.after cfg {} (feedAll before)).ForceCuts cfg frame isSpeech) :
    (∃ ivs, Utterances cfg.speechStartFrames cfg.silenceEndFrames (frames.map Prod.snd) 0 ivs) ∧
      ∀ ivs, Utterances cfg.speechStartFrames cfg.silenceEndFrames (frames.map Prod.snd) 0 ivs →
        let out := SegmenterOutput.join
          (SegmentAggregator.outputs cfg {} (feedAll frames ++ [.flush]))
        out.segments = ivs.filterMap (segmentOf cfg (frames.map Prod.fst)) ∧
          out.speechStarts = ivs.map (·.1 * cfg.frameMs) := by
  have hfresh := stands_fresh cfg
  have huncut := hfresh.uncut hrate hcut
  have hstreak := Streak.start (speechStartFrames_pos cfg) (frames.map Prod.snd) true 0
  obtain ⟨ivs, hivs, hevents⟩ := huncut.awaits rfl (Nat.zero_le _) 0 hstreak
  have hrun := outputs_eq_render cfg hrate (feedAll frames ++ [.flush])
  rw [List.length_nil] at hevents
  rw [hevents, fedFrames_append, fedFrames_feedAll] at hrun
  refine ⟨⟨ivs, hivs⟩, ?_⟩
  intro ivs' hivs'
  cases hivs.unique hivs'
  have hfed : frames.map Prod.fst ++ fedFrames [.flush] = frames.map Prod.fst :=
    List.append_nil _
  rw [hrun, hfed]
  refine ⟨?_, speechStarts_utterances cfg _ ivs⟩
  rw [render_segments, pieces_utterances]

theorem segments_greedy_two_frames :
    let cfg : SegmenterConfig :=
      { frameMs := 10, speechStartMs := 10, silenceEndMs := 10, minSpeechDurationMs := 0,
        frameMs_pos := Nat.succ_pos 9 }
    ∃ ivs, Utterances 1 1 [true, false] 0 ivs ∧
      (SegmenterOutput.join (SegmentAggregator.outputs cfg {}
        (feedAll [([1], true), ([2], false)] ++ [.flush]))).segments =
        ivs.filterMap (segmentOf cfg [[1], [2]]) := by
  intro cfg
  have hcut : ∀ before frame isSpeech rest,
      [(([1] : Pcm), true), ([2], false)] = before ++ (frame, isSpeech) :: rest →
        ¬ (SegmentAggregator.after cfg {} (feedAll before)).ForceCuts cfg frame isSpeech := by
    intro before frame isSpeech rest h
    rcases before with _ | ⟨f, _ | ⟨g, before⟩⟩
    · cases h
      decide
    · cases h
      decide
    · simp at h
  obtain ⟨⟨ivs, hivs⟩, hall⟩ :=
    segments_greedy cfg (by decide) [([1], true), ([2], false)] hcut
  refine ⟨ivs, ?_, (hall ivs hivs).1⟩
  have hstart : cfg.speechStartFrames = 1 := by decide
  have hend : cfg.silenceEndFrames = 1 := by decide
  rw [hstart, hend] at hivs
  exact hivs

end Vad
end Sandroid
