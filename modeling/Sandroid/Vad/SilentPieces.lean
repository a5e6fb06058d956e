import Sandroid.Vad.Pieces
import Sandroid.Vad.SampleRate

/-!
# Segments without speech

A piece that opens an utterance begins with speech, and so does a piece that is
left by a force cut in the middle of speech.  Only a cut that is followed by
nothing but silence leaves a piece without a speech frame.  When that piece
ends, and is long enough and not empty, it is reported.
-/

namespace Sandroid
namespace Vad

open Api

/-- The labels that a sequence of calls feeds. -/
def fedLabels : List SegmenterCall → List Bool
  | [] => []
  | .feed _ isSpeech :: calls => isSpeech :: fedLabels calls
  | .flush :: calls => fedLabels calls

/-- The calls that feed silence. -/
def quiet (silence : List Pcm) : List SegmenterCall :=
  silence.map (SegmenterCall.feed · false)

/-- A force cut, the silent frames behind it, and how the piece they make ends: by the
silence, by the next cut, or by `flush`. -/
structure SilentPiece (cfg : SegmenterConfig) (calls before : List SegmenterCall) (frame : Pcm)
    (isSpeech : Bool) (silence : List Pcm) (rest : List SegmenterCall) : Prop where
  calls_eq : calls = before ++ .feed frame isSpeech :: (quiet silence ++ rest)
  cuts : (SegmentAggregator.after cfg {} before).ForceCuts cfg frame isSpeech
  le_end : silence.length ≤ cfg.silenceEndFrames
  not_cut : silence.length ≤ 1 ∨ ¬ Phase.TooLong cfg (silence.length - 1)
  ends : silence.length = cfg.silenceEndFrames ∨ Phase.TooLong cfg silence.length ∨
    rest.head? = some .flush

/-- Such a piece that is reported. -/
structure ReportedSilence (cfg : SegmenterConfig) (calls before : List SegmenterCall)
    (frame : Pcm) (isSpeech : Bool) (silence : List Pcm) (rest : List SegmenterCall) : Prop
    extends SilentPiece cfg calls before frame isSpeech silence rest where
  rate_pos : 0 < cfg.sampleRate
  long_enough : cfg.minSpeechDurationMs ≤ ((silence.length * cfg.frameMs : Nat) : Int)
  has_audio : silence.flatten ≠ []

/-- A frame of the segment was fed as speech. -/
def HasSpeech (cfg : SegmenterConfig) (calls : List SegmenterCall) (s : SegmentResult) : Prop :=
  ∃ k, (fedLabels calls)[k]? = some true ∧ HoldsFrame cfg (fedFrames calls) k s

section Labels

theorem fedLabels_append (calls calls' : List SegmenterCall) :
    fedLabels (calls ++ calls') = fedLabels calls ++ fedLabels calls' := by
  induction calls with
  | nil => rfl
  | cons c calls ih => cases c <;> simp [fedLabels, ih]

theorem length_fedLabels (calls : List SegmenterCall) :
    (fedLabels calls).length = (fedFrames calls).length := by
  induction calls with
  | nil => rfl
  | cons c calls ih => cases c <;> simp [fedLabels, fedFrames, ih]

theorem length_fedFrames_feed (calls : List SegmenterCall) (frame : Pcm) (isSpeech : Bool) :
    (fedFrames (calls ++ [.feed frame isSpeech])).length = (fedFrames calls).length + 1 := by
  rw [fedFrames_append, List.length_append]
  rfl

theorem fedFrames_quiet (silence : List Pcm) : fedFrames (quiet silence) = silence := by
  induction silence with
  | nil => rfl
  | cons frame silence ih => exact congrArg (frame :: ·) ih

theorem fedLabels_quiet (silence : List Pcm) :
    fedLabels (quiet silence) = List.replicate silence.length false := by
  induction silence with
  | nil => rfl
  | cons frame silence ih => exact congrArg (false :: ·) ih

theorem quiet_append (silence : List Pcm) (frame : Pcm) :
    quiet (silence ++ [frame]) = quiet silence ++ [.feed frame false] :=
  List.map_append

end Labels

section Invariant

variable {cfg : SegmenterConfig} {calls : List SegmenterCall}

/-- Some frame from `iv.1` on, before `iv.2`, was fed as speech. -/
def Voiced (labels : List Bool) (iv : Nat × Nat) : Prop :=
  ∃ k, iv.1 ≤ k ∧ k < iv.2 ∧ labels[k]? = some true

theorem Voiced.append {labels : List Bool} {iv : Nat × Nat} (h : Voiced labels iv)
    (more : List Bool) : Voiced (labels ++ more) iv := by
  obtain ⟨k, hle, hlt, hk⟩ := h
  refine ⟨k, hle, hlt, ?_⟩
  rw [List.getElem?_append_left (List.getElem?_eq_some_iff.mp hk).1, hk]

/-- The piece that began at frame `start` follows a cut and has been silence so far. -/
def Hushed (cfg : SegmenterConfig) (calls : List SegmenterCall) (start run : Nat) : Prop :=
  ∃ before frame isSpeech silence,
    calls = before ++ .feed frame isSpeech :: quiet silence ∧
      (SegmentAggregator.after cfg {} before).ForceCuts cfg frame isSpeech ∧
      start = (fedFrames before).length + 1 ∧ run = silence.length ∧
      (run ≤ 1 ∨ ¬ Phase.TooLong cfg (run - 1))

/-- What holds after the handler. -/
def Phase.Heard (cfg : SegmenterConfig) (calls : List SegmenterCall) : Phase → Prop
  | .idle _ => True
  | .piece start run => run < cfg.silenceEndFrames ∧
      (Voiced (fedLabels calls) (start, (fedFrames calls).length) ∨ Hushed cfg calls start run)

/-- What holds after a call. -/
def Phase.Settled (cfg : SegmenterConfig) (calls : List SegmenterCall) : Phase → Prop
  | .idle _ => True
  | .piece start run => run < cfg.silenceEndFrames ∧
      (Voiced (fedLabels calls) (start, (fedFrames calls).length) ∨
        Hushed cfg calls start run ∧ (run = 0 ∨ ¬ Phase.TooLong cfg run))

/-- A piece has speech in it, or is silence behind a cut. -/
def Explained (cfg : SegmenterConfig) (calls : List SegmenterCall) (iv : Nat × Nat) : Prop :=
  Voiced (fedLabels calls) iv ∨
    ∃ before frame isSpeech silence rest,
      SilentPiece cfg calls before frame isSpeech silence rest ∧
        iv = ((fedFrames before).length + 1, (fedFrames before).length + 1 + silence.length)

theorem Explained.append {iv : Nat × Nat} (h : Explained cfg calls iv)
    (more : List SegmenterCall) : Explained cfg (calls ++ more) iv := by
  rcases h with hvoiced | ⟨before, frame, isSpeech, silence, rest, hsilent, rfl⟩
  · left
    rw [fedLabels_append]
    exact hvoiced.append _
  · refine .inr ⟨before, frame, isSpeech, silence, rest ++ more, ?_, rfl⟩
    refine { hsilent with calls_eq := ?_, ends := ?_ }
    · rw [hsilent.calls_eq]
      simp
    · refine hsilent.ends.imp id (Or.imp id ?_)
      intro hhead
      rw [List.head?_append, hhead]
      rfl

theorem Voiced.mono {labels : List Bool} {i j j' : Nat} (h : Voiced labels (i, j))
    (hle : j ≤ j') : Voiced labels (i, j') := by
  obtain ⟨k, hk, hlt, hspeech⟩ := h
  exact ⟨k, hk, hlt.trans_le hle, hspeech⟩

/-- The piece takes up a frame of speech. -/
theorem voiced_speech {start : Nat} (hstart : start ≤ (fedFrames calls).length) (frame : Pcm) :
    Voiced (fedLabels (calls ++ [.feed frame true])) (start, (fedFrames calls).length + 1) := by
  refine ⟨(fedFrames calls).length, hstart, Nat.lt_succ_self _, ?_⟩
  rw [fedLabels_append, ← length_fedLabels, List.getElem?_append_right le_rfl, Nat.sub_self]
  rfl

/-- A hushed piece lasts as long as the silence. -/
theorem Hushed.add_eq {start run : Nat} (h : Hushed cfg calls start run) :
    start + run = (fedFrames calls).length := by
  obtain ⟨before, frame, isSpeech, silence, rfl, -, rfl, rfl, -⟩ := h
  rw [fedFrames_append, fedFrames, fedFrames_quiet]
  simp
  omega

/-- The piece takes up a silent frame. -/
theorem Hushed.silence {start run : Nat} (h : Hushed cfg calls start run)
    (hcut : run = 0 ∨ ¬ Phase.TooLong cfg run) (frame : Pcm) :
    Hushed cfg (calls ++ [.feed frame false]) start (run + 1) := by
  obtain ⟨before, frame', isSpeech, silence, rfl, hforce, hstart, hrun, -⟩ := h
  refine ⟨before, frame', isSpeech, silence ++ [frame], ?_, hforce, hstart, ?_, ?_⟩
  · rw [quiet_append]
    simp
  · rw [hrun, List.length_append, List.length_singleton]
  · exact hcut.imp (fun hzero => by omega) id

/-- The piece ends: by the silence, by a cut, or by `flush`. -/
theorem Hushed.explained {start run : Nat} (h : Hushed cfg calls start run)
    (hle : run ≤ cfg.silenceEndFrames) (rest : List SegmenterCall)
    (hends : run = cfg.silenceEndFrames ∨ Phase.TooLong cfg run ∨ rest.head? = some .flush) :
    Explained cfg (calls ++ rest) (start, (fedFrames calls).length) := by
  have hend := h.add_eq
  obtain ⟨before, frame, isSpeech, silence, hcalls, hforce, rfl, rfl, hcut⟩ := h
  refine .inr ⟨before, frame, isSpeech, silence, rest, ⟨?_, hforce, hle, hcut, hends⟩, ?_⟩
  · rw [hcalls]
    simp
  · rw [hend]

/-- One more frame, before the cut. -/
theorem Phase.Settled.hear {φ : Phase} (h : φ.Settled cfg calls)
    (hfits : φ.Fits (fedFrames calls).length) (frame : Pcm) (isSpeech : Bool) :
    (φ.hear cfg ((fedFrames calls).length + 1) isSpeech).1.Heard cfg
        (calls ++ [.feed frame isSpeech]) ∧
      ∀ iv ∈ pieces (φ.hear cfg ((fedFrames calls).length + 1) isSpeech).2,
        Explained cfg (calls ++ [.feed frame isSpeech]) iv := by
  have hlen := length_fedFrames_feed calls frame isSpeech
  cases φ with
  | idle run =>
      rw [Phase.hear]
      split_ifs with hspeech hopen
      · refine ⟨⟨silenceEndFrames_pos cfg, .inl ?_⟩, fun _ hiv => absurd hiv List.not_mem_nil⟩
        rw [hlen, hspeech]
        exact voiced_speech (by omega) frame
      · exact ⟨trivial, fun _ hiv => absurd hiv List.not_mem_nil⟩
      · exact ⟨trivial, fun _ hiv => absurd hiv List.not_mem_nil⟩
  | piece start run =>
      obtain ⟨hrun, hpiece⟩ := h
      have hstart : start + run ≤ (fedFrames calls).length := hfits
      cases isSpeech with
      | true =>
          refine ⟨⟨silenceEndFrames_pos cfg, .inl ?_⟩, fun _ hiv => absurd hiv List.not_mem_nil⟩
          rw [hlen]
          exact voiced_speech (by omega) frame
      | false =>
          have hmore : Voiced (fedLabels (calls ++ [.feed frame false]))
                (start, (fedFrames calls).length + 1) ∨
              Hushed cfg (calls ++ [.feed frame false]) start (run + 1) := by
            rcases hpiece with hvoiced | ⟨hhushed, hcut⟩
            · left
              rw [fedLabels_append]
              exact (hvoiced.append _).mono (Nat.le_succ _)
            · exact .inr (hhushed.silence hcut frame)
          rw [Phase.hear, if_neg Bool.false_ne_true]
          split_ifs with hclose
          · refine ⟨trivial, ?_⟩
            intro iv hiv
            cases List.mem_singleton.mp hiv
            rcases hmore with hvoiced | hhushed
            · exact .inl hvoiced
            · have hended := hhushed.explained hrun [] (.inl (Nat.le_antisymm hrun hclose))
              rwa [List.append_nil, hlen] at hended
          · refine ⟨⟨not_le.mp hclose, ?_⟩, fun _ hiv => absurd hiv List.not_mem_nil⟩
            rw [hlen]
            exact hmore

/-- The cut. -/
theorem Phase.Heard.cut {φ : Phase} {frame : Pcm} {isSpeech : Bool}
    (h : φ.Heard cfg (calls ++ [.feed frame isSpeech]))
    (hcuts : φ.Cuts cfg ((fedFrames calls).length + 1) →
      (SegmentAggregator.after cfg {} calls).ForceCuts cfg frame isSpeech) :
    (φ.cut cfg ((fedFrames calls).length + 1)).1.Settled cfg
        (calls ++ [.feed frame isSpeech]) ∧
      ∀ iv ∈ pieces (φ.cut cfg ((fedFrames calls).length + 1)).2,
        Explained cfg (calls ++ [.feed frame isSpeech]) iv := by
  have hlen := length_fedFrames_feed calls frame isSpeech
  cases φ with
  | idle run => exact ⟨trivial, fun _ hiv => absurd hiv List.not_mem_nil⟩
  | piece start run =>
      obtain ⟨hrun, hpiece⟩ := h
      rw [Phase.cut]
      split_ifs with hlong
      · constructor
        · refine ⟨silenceEndFrames_pos cfg, .inr ⟨?_, .inl rfl⟩⟩
          exact ⟨calls, frame, isSpeech, [], rfl, hcuts hlong, rfl, rfl, .inl (Nat.zero_le _)⟩
        · intro iv hiv
          cases List.mem_singleton.mp hiv
          rw [← hlen]
          rcases hpiece with hvoiced | hhushed
          · exact .inl hvoiced
          · have hend := hhushed.add_eq
            have hrun_long : Phase.TooLong cfg run := by
              have hdur : (fedFrames calls).length + 1 - start = run := by omega
              rwa [hdur] at hlong
            have hended := hhushed.explained hrun.le [] (.inr (.inl hrun_long))
            rwa [List.append_nil] at hended
      · refine ⟨⟨hrun, ?_⟩, fun _ hiv => absurd hiv List.not_mem_nil⟩
        refine hpiece.imp id ?_
        intro hhushed
        have hend := hhushed.add_eq
        have hdur : (fedFrames calls).length + 1 - start = run := by omega
        rw [hdur] at hlong
        exact ⟨hhushed, .inr hlong⟩

/-- `flush`. -/
theorem Phase.Settled.flush {φ : Phase} (h : φ.Settled cfg calls) :
    (φ.flush (fedFrames calls).length).1.Settled cfg (calls ++ [.flush]) ∧
      ∀ iv ∈ pieces (φ.flush (fedFrames calls).length).2, Explained cfg (calls ++ [.flush]) iv := by
  cases φ with
  | idle run => exact ⟨trivial, fun _ hiv => absurd hiv List.not_mem_nil⟩
  | piece start run =>
      obtain ⟨hrun, hpiece⟩ := h
      refine ⟨trivial, ?_⟩
      intro iv hiv
      cases List.mem_singleton.mp hiv
      rcases hpiece with hvoiced | ⟨hhushed, -⟩
      · exact Explained.append (.inl hvoiced) _
      · exact hhushed.explained hrun.le [.flush] (.inr (.inr rfl))

/-- The invariant over a run. -/
theorem settled_run (hrate : 0 < cfg.sampleRate) (calls : List SegmenterCall) :
    (Phase.after cfg 0 (.idle 0) calls).Settled cfg calls ∧
      ∀ iv ∈ pieces (Phase.events cfg 0 (.idle 0) calls), Explained cfg calls iv := by
  induction calls using List.reverseRecOn with
  | nil => exact ⟨trivial, fun _ hiv => absurd hiv List.not_mem_nil⟩
  | append_singleton calls c ih =>
      obtain ⟨hsettled, hexplained⟩ := ih
      have hstands := stands_after hrate calls
      obtain ⟨hafter, hevents⟩ := @Phase.run_append cfg (.idle 0) 0 calls [c]
      rw [Nat.zero_add] at hafter hevents
      rw [hafter, hevents, pieces_append]
      generalize Phase.after cfg 0 (.idle 0) calls = φ at *
      have hstep : (φ.call cfg (fedFrames calls).length c).1.Settled cfg (calls ++ [c]) ∧
          ∀ iv ∈ pieces (φ.call cfg (fedFrames calls).length c).2,
            Explained cfg (calls ++ [c]) iv := by
        cases c with
        | flush => exact hsettled.flush
        | feed frame isSpeech =>
            obtain ⟨hheard, hpieces⟩ := hsettled.hear hstands.fits frame isSpeech
            obtain ⟨hcut, hpieces'⟩ := hheard.cut (hstands.forceCuts_iff hrate frame isSpeech).mpr
            refine ⟨hcut, ?_⟩
            intro iv hiv
            rw [Phase.call, Phase.feed, pieces_append] at hiv
            rcases List.mem_append.mp hiv with hiv | hiv
            · exact hpieces iv hiv
            · exact hpieces' iv hiv
      refine ⟨hstep.1, ?_⟩
      intro iv hiv
      rcases List.mem_append.mp hiv with hiv | hiv
      · exact (hexplained iv hiv).append [c]
      · rw [Phase.events, Phase.events, List.append_nil] at hiv
        exact hstep.2 iv hiv

end Invariant

section Converse

variable {cfg : SegmenterConfig}

theorem tooLong_mono {k k' : Nat} (h : Phase.TooLong cfg k) (hle : k ≤ k') :
    Phase.TooLong cfg k' := by
  have hmul : k * cfg.frameMs ≤ k' * cfg.frameMs := Nat.mul_le_mul_right _ hle
  exact h.trans (by exact_mod_cast hmul)

/-- A piece that is nothing but silence is among the events. -/
theorem piece_of_quiet {start run n : Nat} (silence : List Pcm) (rest : List SegmenterCall)
    (hne : silence ≠ []) (hn : n = start + run)
    (hle : run + silence.length ≤ cfg.silenceEndFrames)
    (hcut : ∀ k, 0 < k → k < run + silence.length → ¬ Phase.TooLong cfg k)
    (hends : run + silence.length = cfg.silenceEndFrames ∨
      Phase.TooLong cfg (run + silence.length) ∨ rest.head? = some .flush) :
    .piece start (n + silence.length) ∈
      (Phase.piece start run).events cfg n (quiet silence ++ rest) := by
  induction silence generalizing run n with
  | nil => exact absurd rfl hne
  | cons frame silence ih =>
      rw [List.length_cons] at hle hcut hends
      have hdur : n + 1 - start = run + 1 := by omega
      have hevents : (Phase.piece start run).events cfg n (quiet (frame :: silence) ++ rest) =
          ((Phase.piece start run).feed cfg (n + 1) false).2 ++
            ((Phase.piece start run).feed cfg (n + 1) false).1.events cfg (n + 1)
              (quiet silence ++ rest) := rfl
      rw [hevents, Phase.feed, Phase.hear, if_neg Bool.false_ne_true, List.length_cons]
      by_cases hclose : cfg.silenceEndFrames ≤ run + 1
      · have hlast : silence.length = 0 := by omega
        rw [if_pos hclose, hlast]
        exact List.mem_append_left _ (List.mem_append_left _ (List.mem_singleton.mpr rfl))
      · rw [if_neg hclose]
        dsimp only
        rw [Phase.cut, hdur]
        by_cases hlast : silence = []
        · subst hlast
          by_cases hlong : Phase.TooLong cfg (run + 1)
          · rw [if_pos hlong]
            exact List.mem_append_left _ (List.mem_append_right _ (List.mem_singleton.mpr rfl))
          · rw [if_neg hlong]
            have hflush : rest.head? = some .flush :=
              (hends.resolve_left (by simp; omega)).resolve_left hlong
            obtain ⟨rest', rfl⟩ := List.head?_eq_some_iff.mp hflush
            exact List.mem_append_right _
              (List.mem_append_left _ (List.mem_singleton.mpr rfl))
        · have hpos := List.length_pos_iff.mpr hlast
          rw [if_neg (hcut (run + 1) (Nat.succ_pos _) (by omega))]
          have hlater := @ih (run + 1) (n + 1) hlast (by omega) (by omega)
            (fun k hk hlt => hcut k hk (by omega)) (by
              rw [Nat.add_right_comm]
              exact hends)
          rw [Nat.add_right_comm] at hlater
          exact List.mem_append_right _ hlater

theorem cut_of_cuts {φ : Phase} {n : Nat} (h : φ.Cuts cfg n) : (φ.cut cfg n).1 = .piece n 0 := by
  cases φ with
  | idle run => exact h.elim
  | piece start run =>
      have hlong : Phase.TooLong cfg (n - start) := h
      rw [Phase.cut, if_pos hlong]

variable {calls before rest : List SegmenterCall} {frame : Pcm} {isSpeech : Bool}
  {silence : List Pcm}

theorem SilentPiece.piece_mem (hrate : 0 < cfg.sampleRate)
    (h : SilentPiece cfg calls before frame isSpeech silence rest) (hne : silence ≠ []) :
    ((fedFrames before).length + 1, (fedFrames before).length + 1 + silence.length) ∈
      pieces (Phase.events cfg 0 (.idle 0) calls) := by
  have hforce := ((stands_after hrate before).forceCuts_iff hrate frame isSpeech).mp h.cuts
  have hevents := (@Phase.run_append cfg (.idle 0) 0 before
    (.feed frame isSpeech :: (quiet silence ++ rest))).2
  rw [Nat.zero_add] at hevents
  rw [mem_pieces, h.calls_eq, hevents, Phase.events, Phase.call, Phase.feed, cut_of_cuts hforce]
  apply List.mem_append_right
  apply List.mem_append_right
  refine piece_of_quiet silence rest hne rfl ?_ ?_ ?_
  · rw [Nat.zero_add]
    exact h.le_end
  · intro k hpos hlt hlong
    rcases h.not_cut with hone | hcut
    · omega
    · exact hcut (tooLong_mono hlong (by omega))
  · rw [Nat.zero_add]
    exact h.ends

theorem SilentPiece.fedFrames_eq
    (h : SilentPiece cfg calls before frame isSpeech silence rest) :
    fedFrames calls = (fedFrames before ++ [frame]) ++ (silence ++ fedFrames rest) := by
  rw [h.calls_eq, fedFrames_append, fedFrames, fedFrames_append, fedFrames_quiet]
  simp

theorem SilentPiece.fedLabels_eq
    (h : SilentPiece cfg calls before frame isSpeech silence rest) :
    fedLabels calls = (fedLabels before ++ [isSpeech]) ++
      (List.replicate silence.length false ++ fedLabels rest) := by
  rw [h.calls_eq, fedLabels_append, fedLabels, fedLabels_append, fedLabels_quiet]
  simp

theorem SilentPiece.audio (h : SilentPiece cfg calls before frame isSpeech silence rest) :
    audioOf (fedFrames calls) ((fedFrames before).length + 1)
      ((fedFrames before).length + 1 + silence.length) = silence.flatten := by
  have hlen : (fedFrames before ++ [frame]).length = (fedFrames before).length + 1 := by simp
  rw [audioOf, h.fedFrames_eq, ← hlen, List.drop_left, Nat.add_sub_cancel_left, List.take_left]

theorem SilentPiece.not_voiced (h : SilentPiece cfg calls before frame isSpeech silence rest) :
    ¬ Voiced (fedLabels calls) ((fedFrames before).length + 1,
      (fedFrames before).length + 1 + silence.length) := by
  rintro ⟨k, hle, hlt, hk⟩
  have hlen : (fedLabels before ++ [isSpeech]).length = (fedFrames before).length + 1 := by
    simp [length_fedLabels]
  dsimp only at hle hlt
  rw [h.fedLabels_eq, List.getElem?_append_right (by omega), hlen, List.getElem?_append_left
    (by simp; omega), List.getElem?_replicate, if_pos (by omega)] at hk
  cases hk

end Converse

theorem longEnough_add_iff {cfg : SegmenterConfig} (i k : Nat) :
    LongEnough cfg (i, i + k) ↔ cfg.minSpeechDurationMs ≤ ((k * cfg.frameMs : Nat) : Int) := by
  have hdur : (((i + k) * cfg.frameMs : Nat) : Int) - (i * cfg.frameMs : Nat) =
      ((k * cfg.frameMs : Nat) : Int) := by
    rw [Nat.add_mul, Nat.cast_add, add_sub_cancel_left]
  rw [← hdur]
  exact Iff.rfl

/-- Every segment has speech in it unless a cut is followed by a silent piece that is
reported. -/
theorem segments_have_speech_iff (cfg : SegmenterConfig) (calls : List SegmenterCall) :
    (∀ s ∈ (SegmenterOutput.join (SegmentAggregator.outputs cfg {} calls)).segments,
        HasSpeech cfg calls s) ↔
      ¬ ∃ before frame isSpeech silence rest,
        ReportedSilence cfg calls before frame isSpeech silence rest := by
  constructor
  · rintro hall ⟨before, frame, isSpeech, silence, rest, h⟩
    have hne : silence ≠ [] := by
      rintro rfl
      exact h.has_audio rfl
    have hpiece := h.toSilentPiece.piece_mem h.rate_pos hne
    have haudio := h.has_audio
    rw [← h.toSilentPiece.audio] at haudio
    have hsegment := segmentOf_eq_some.mpr
      ⟨(longEnough_add_iff _ _).mpr h.long_enough, haudio, rfl⟩
    have hmem := List.mem_filterMap.mpr ⟨_, hpiece, hsegment⟩
    rw [← render_segments, ← outputs_eq_render cfg h.rate_pos] at hmem
    obtain ⟨k, hspeech, hheld⟩ := hall _ hmem
    obtain ⟨hle, hlt⟩ := (holdsFrame_of_segmentOf hsegment).mp hheld
    exact h.toSilentPiece.not_voiced ⟨k, hle, hlt, hspeech⟩
  · intro hnone s hs
    by_cases hrate : 0 < cfg.sampleRate
    · rw [outputs_eq_render cfg hrate, render_segments, List.mem_filterMap] at hs
      obtain ⟨⟨i, j⟩, hpiece, hsegment⟩ := hs
      obtain ⟨hlong, haudio, -⟩ := segmentOf_eq_some.mp hsegment
      rcases (settled_run hrate calls).2 _ hpiece with
        ⟨k, hi, hj, hspeech⟩ | ⟨before, frame, isSpeech, silence, rest, hsilent, hspan⟩
      · exact ⟨k, hspeech, (holdsFrame_of_segmentOf hsegment).mpr ⟨hi, hj⟩⟩
      · cases hspan
        rw [hsilent.audio] at haudio
        refine absurd ?_ hnone
        refine ⟨before, frame, isSpeech, silence, rest,
          { hsilent with rate_pos := hrate, long_enough := ?_, has_audio := haudio }⟩
        exact (longEnough_add_iff _ _).mp hlong
    · rw [outputs_segments hrate] at hs
      exact absurd hs List.not_mem_nil

/-- A cut at the end of the speech: the two silent frames that close the utterance are a
segment of their own. -/
theorem segment_without_speech :
    ¬ ∀ (cfg : SegmenterConfig) (calls : List SegmenterCall),
      ∀ s ∈ (SegmenterOutput.join (SegmentAggregator.outputs cfg {} calls)).segments,
        HasSpeech cfg calls s := by
  intro h
  let calls : List SegmenterCall := feedAll
    [([1], true), ([1], true), ([1], true), ([0], false), ([0], false)]
  have hsecond := h cutAfterThree calls ⟨[0, 0], 16000, 30, 50⟩ (by decide)
  obtain ⟨k, hspeech, hlow, hhigh, -⟩ := hsecond
  have hlow' : 3 ≤ k := hlow
  have hhigh' : k < 5 := hhigh
  have hlabels : fedLabels calls = [true, true, true, false, false] := by decide
  rw [hlabels] at hspeech
  interval_cases k
  · cases hspeech
  · cases hspeech

end Vad
end Sandroid
