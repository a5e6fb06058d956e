import Sandroid.Models.PseudoStreaming
import Mathlib.Data.List.MinMax

/-!
# The inside of Paraformer

`_features` and `_run_and_decode` of `models/asr/paraformer.py`: the filter bank's frames are
stacked, seven at a time and six apart, by a strided view on their buffer, then normalized;
and the network's rows become tokens.  Filter bank and network are parameters.

* `features_windows`: the view stays inside of the buffer and its rows are the windows.
* `stream_agrees_with_file`: what `stream` ends with is what `transcribe_file` makes of a
  file with the same audio.
-/

namespace Sandroid
namespace Models

open Lib Api Vad Sandroid.Core

/-- `_FBANK_NUM_BINS`. -/
def fbankNumBins : Nat := 80

/-- `_LFR_WINDOW`. -/
def lfrWindow : Nat := 7

/-- `_LFR_SHIFT`. -/
def lfrShift : Nat := 6

/-- `_STACKED_DIM`. -/
def stackedDim : Nat := fbankNumBins * lfrWindow

/-- `_BLANK_ID`. -/
def blankId : Nat := 0

/-- `_EOS_ID`. -/
def eosId : Nat := 2

/-- What `__init__` leaves: it rejects statistics of another length. -/
structure ParaformerModel where
  /-- `OnlineFbank` on samples in the range of 16-bit integers: its frames -/
  fbank : List ℚ → List (List ℚ)
  fbank_width : ∀ samples, ∀ frame ∈ fbank samples, frame.length = fbankNumBins
  negMean : List ℚ
  invStd : List ℚ
  negMean_length : negMean.length = stackedDim
  invStd_length : invStd.length = stackedDim
  tokens : Nat → Option String
  /-- `session.run`: the rows of `logits[0]` -/
  logits : List (List ℚ) → Except String (List (List ℚ))

/-- `as_strided(feats, (rows, cols), (rowStride * 4, 4))` on the buffer of `feats`, none
where it would read past its end. -/
def asStrided (buffer : List ℚ) (cols rowStride : Nat) : Nat → Option (List (List ℚ))
  | 0 => some []
  | rows + 1 => do
      let front ← asStrided buffer cols rowStride rows
      let row ← readAt buffer (rows * rowStride) cols
      some (front ++ [row])

namespace ParaformerModel

variable (model : ParaformerModel)

/-- `(row + self._neg_mean) * self._inv_std`. -/
def cmvn (row : List ℚ) : List ℚ :=
  List.zipWith (· * ·) (List.zipWith (· + ·) row model.negMean) model.invStd

/-- `_features`, none if the view were to leave the buffer. -/
def features? (pcm : List ℚ) : Option (List (List ℚ)) :=
  let feats := model.fbank (pcm.map (· * 32768))
  if feats.length < lfrWindow then
    some []
  else do
    let tOut := (feats.length - lfrWindow) / lfrShift + 1
    let stacked ← asStrided feats.flatten stackedDim (lfrShift * fbankNumBins) tOut
    some (stacked.map model.cmvn)

/-- `row.argmax()`, the first of the greatest. -/
def argmax (row : List ℚ) : Option Nat :=
  (List.range row.length).argmax (fun i => row.getD i 0)

/-- `_run_and_decode`. -/
def runAndDecode (feats : List (List ℚ)) : Except String String := do
  let rows ← model.logits feats
  match rows.mapM argmax with
  | none => .error "attempt to get argmax of an empty sequence"
  | some ids =>
      let pieces := ids.filterMap (fun i =>
        if i = blankId ∨ i = eosId then none else model.tokens i)
      .ok (String.join pieces)

/-- The backend with this inside. -/
def backend : ParaformerASR where
  features pcm := (model.features? pcm).getD []
  runAndDecode := model.runAndDecode

end ParaformerModel

/-- How many windows there are. -/
def windowCount (frames : Nat) : Nat :=
  (frames - lfrWindow) / lfrShift + 1

/-- The window at a place. -/
def lfrAt (feats : List (List ℚ)) (t : Nat) : List (List ℚ) :=
  (feats.drop (t * lfrShift)).take lfrWindow

theorem asStrided_eq {feats : List (List ℚ)} (hwidth : ∀ f ∈ feats, f.length = fbankNumBins)
    {rows : Nat} (h : ∀ t < rows, t * lfrShift + lfrWindow ≤ feats.length) :
    asStrided feats.flatten stackedDim (lfrShift * fbankNumBins) rows =
      some ((List.range rows).map (fun t => (lfrAt feats t).flatten)) := by
  induction rows with
  | zero => rfl
  | succ rows ih =>
      have hin := h rows (Nat.lt_succ_self rows)
      have hbuffer : rows * (lfrShift * fbankNumBins) + stackedDim ≤ feats.flatten.length := by
        rw [length_flatten_of_width hwidth, stackedDim, ← Nat.mul_assoc,
          Nat.mul_comm fbankNumBins, ← Nat.add_mul]
        exact Nat.mul_le_mul_right _ hin
      have hrow : (feats.flatten.drop (rows * (lfrShift * fbankNumBins))).take stackedDim =
          (lfrAt feats rows).flatten := by
        rw [← Nat.mul_assoc, drop_flatten hwidth, stackedDim, Nat.mul_comm fbankNumBins,
          take_flatten fun f hf => hwidth f (List.mem_of_mem_drop hf)]
        rfl
      rw [asStrided, ih fun t ht => h t (Nat.lt_succ_of_lt ht), readAt_of_le hbuffer, hrow,
        List.range_succ, List.map_append]
      rfl

/-- The last window starts early enough to be complete. -/
theorem windows_inside {frames t : Nat} (h : lfrWindow ≤ frames) (ht : t < windowCount frames) :
    t * lfrShift + lfrWindow ≤ frames := by
  rw [windowCount, lfrShift] at ht
  rw [lfrWindow] at h ht ⊢
  rw [lfrShift]
  omega

theorem length_lfrAt {feats : List (List ℚ)} {t : Nat}
    (h : t * lfrShift + lfrWindow ≤ feats.length) : (lfrAt feats t).length = lfrWindow := by
  rw [lfrAt, List.length_take, List.length_drop]
  omega

/-- The last frame of a window is the first of the next. -/
theorem lfrAt_overlap {feats : List (List ℚ)} {t : Nat}
    (h : (t + 1) * lfrShift + lfrWindow ≤ feats.length) :
    (lfrAt feats t).getLast? = (lfrAt feats (t + 1)).head? := by
  have hlength : (lfrAt feats t).length = lfrWindow := by
    rw [Nat.succ_mul] at h
    exact length_lfrAt (by omega)
  rw [List.getLast?_eq_getElem?, hlength, lfrAt, lfrAt, List.head?_take, List.head?_drop,
    if_neg (by decide), List.getElem?_take_of_lt (by decide), List.getElem?_drop, Nat.succ_mul]
  rfl

namespace ParaformerModel

variable (model : ParaformerModel)

theorem length_cmvn {row : List ℚ} (h : row.length = stackedDim) :
    (model.cmvn row).length = stackedDim := by
  rw [cmvn, List.length_zipWith, List.length_zipWith, h, model.negMean_length,
    model.invStd_length, Nat.min_self, Nat.min_self]

/-- The frames of the filter bank for some samples. -/
def frames (pcm : List ℚ) : List (List ℚ) :=
  model.fbank (pcm.map (· * 32768))

theorem features_of_short {pcm : List ℚ} (h : (model.frames pcm).length < lfrWindow) :
    model.features? pcm = some [] :=
  if_pos h

theorem features_of_long {pcm : List ℚ} (h : lfrWindow ≤ (model.frames pcm).length) :
    model.features? pcm = some ((List.range (windowCount (model.frames pcm).length)).map
      fun t => model.cmvn (lfrAt (model.frames pcm) t).flatten) := by
  have hview := asStrided_eq (model.fbank_width (pcm.map (· * 32768)))
    fun t ht => windows_inside h ht
  refine (if_neg (not_lt.mpr h)).trans ?_
  change (asStrided _ _ _ (windowCount (model.frames pcm).length)).bind _ = _
  rw [frames, hview, Option.bind_some, List.map_map]
  rfl

theorem length_flatten_lfrAt {pcm : List ℚ} {t : Nat}
    (h : t * lfrShift + lfrWindow ≤ (model.frames pcm).length) :
    (lfrAt (model.frames pcm) t).flatten.length = stackedDim := by
  have hwidth (f : List ℚ) (hf : f ∈ lfrAt (model.frames pcm) t) : f.length = fbankNumBins :=
    model.fbank_width _ f (List.mem_of_mem_drop (List.mem_of_mem_take hf))
  rw [length_flatten_of_width hwidth, length_lfrAt h, Nat.mul_comm]
  rfl

/-- What the rows of the features are: seven frames each, normalized, six apart, all that
are complete. -/
structure Windows (pcm : List ℚ) (feats : List (List ℚ)) : Prop where
  short : (model.frames pcm).length < lfrWindow → feats = []
  count : lfrWindow ≤ (model.frames pcm).length →
    (feats.length - 1) * lfrShift + lfrWindow ≤ (model.frames pcm).length ∧
      (model.frames pcm).length < feats.length * lfrShift + lfrWindow
  row : ∀ (t : Nat) (r : List ℚ), feats[t]? = some r →
    r = model.cmvn (lfrAt (model.frames pcm) t).flatten ∧ r.length = stackedDim ∧
      (lfrAt (model.frames pcm) t).length = lfrWindow
  overlap : ∀ t : Nat, t + 1 < feats.length →
    (lfrAt (model.frames pcm) t).getLast? = (lfrAt (model.frames pcm) (t + 1)).head?

/-- **The view never leaves the buffer, and its rows are the windows.** -/
theorem features_windows (pcm : List ℚ) :
    ∃ feats, model.features? pcm = some feats ∧ model.Windows pcm feats := by
  by_cases hshort : (model.frames pcm).length < lfrWindow
  · refine ⟨[], model.features_of_short hshort, fun _ => rfl, fun hlong => ?_, ?_, ?_⟩
    · exact absurd hshort (not_lt.mpr hlong)
    · intro t r hr
      cases hr
    · intro t ht
      cases ht
  · have hlong := not_lt.mp hshort
    have hinside (t : Nat) (ht : t < windowCount (model.frames pcm).length) :=
      windows_inside hlong ht
    refine ⟨_, model.features_of_long hlong, fun h => absurd h hshort, fun _ => ?_, ?_, ?_⟩
    · rw [List.length_map, List.length_range, windowCount, lfrShift]
      rw [lfrWindow] at hlong ⊢
      omega
    · intro t r hr
      rw [List.getElem?_map, Option.map_eq_some_iff] at hr
      obtain ⟨t', ht', rfl⟩ := hr
      obtain ⟨ht, rfl⟩ := List.getElem?_eq_some_iff.mp ht'
      rw [List.getElem_range] at *
      rw [List.length_range] at ht
      exact ⟨rfl, model.length_cmvn (model.length_flatten_lfrAt (hinside t ht)),
        length_lfrAt (hinside t ht)⟩
    · intro t ht
      rw [List.length_map, List.length_range] at ht
      exact lfrAt_overlap (hinside (t + 1) ht)

end ParaformerModel

/-- `_wrap_pcm_as_wav` of `api/routes.py`. -/
def wrapPcmAsWav (pcm16 : Pcm) (sampleRate : Nat) : Pcm :=
  waveBytes 1 2 sampleRate pcm16

/-- The format in its header, at the rate of the model. -/
def monoFormat : WaveFormat :=
  ⟨1, 2, sampleRate, Nat.one_pos, Nat.two_pos⟩

theorem decodeWav_wrapPcmAsWav {audio : Pcm} (heven : audio.length % 2 = 0)
    (hfits : 36 + audio.length < 256 ^ 4) :
    ParaformerASR.decodeWav (wrapPcmAsWav audio sampleRate) = .ok (toSamples audio) := by
  have hopen := openWave_waveBytes monoFormat (by decide) (by decide) (by decide) heven hfits
  have hframes := @readframes_plainFile audio monoFormat heven (Nat.dvd_of_mod_eq_zero heven)
  have hdecode := ParaformerASR.decodeWav_native hopen rfl rfl rfl (by rw [hframes]; exact heven)
  rw [hframes] at hdecode
  exact hdecode

/-- The duration in a transcript of a file. -/
def durationOf (audio : Pcm) : Nat :=
  (roundHalfEven ((((toSamples audio).length : Nat) : ℚ) / sampleRate * 1000)).toNat

/-- It is rounded, the times of a stream are cut off. -/
theorem bufferedMs_durationOf (audio : Pcm) :
    bufferedMs audio ≤ durationOf audio ∧ durationOf audio ≤ bufferedMs audio + 1 := by
  obtain ⟨n, hn⟩ : ∃ n, n = audio.length / 2 := ⟨_, rfl⟩
  have hq : ((((toSamples audio).length : Nat) : ℚ) / sampleRate * 1000) =
      ((n * 1000 : Nat) : ℚ) / ((sampleRate : Nat) : ℚ) := by
    rw [length_toSamples, ← hn]
    push_cast
    ring
  have hfloor : ⌊((n * 1000 : Nat) : ℚ) / ((sampleRate : Nat) : ℚ)⌋ =
      ((bufferedMs audio : Nat) : Int) := by
    rw [Rat.floor_natCast_div_natCast, bufferedMs, hn]
    rfl
  rw [durationOf, hq]
  rcases roundHalfEven_cases (((n * 1000 : Nat) : ℚ) / ((sampleRate : Nat) : ℚ)) with
    ⟨hround, -⟩ | ⟨hround, -⟩
  · rw [hround, hfloor]
    omega
  · rw [hround, hfloor]
    omega

namespace ParaformerModel

variable {model : ParaformerModel} {partialEmitMs : Nat}

/-- No audio, no features: the stream does not even ask. -/
theorem features_nil (hsilence : model.fbank [] = []) : model.backend.features [] = [] := by
  have hshort : (model.frames []).length < lfrWindow := by
    rw [frames, List.map_nil, hsilence]
    decide
  change (model.features? []).getD [] = []
  rw [model.features_of_short hshort]
  rfl

/-- What both make of whole samples. -/
theorem transcribeFile_wrapPcmAsWav (hsilence : model.fbank [] = []) {audio : Pcm}
    (heven : audio.length % 2 = 0) (hfits : 36 + audio.length < 256 ^ 4) :
    model.backend.transcribeFile (wrapPcmAsWav audio sampleRate) =
      match model.backend.decodePcmBuffer audio with
      | .ok text => .ok ⟨text, ParaformerASR.certain, durationOf audio⟩
      | .error message => .error (.network message) := by
  simp only [ParaformerASR.transcribeFile, decodeWav_wrapPcmAsWav heven hfits, bind, Except.bind,
    ParaformerASR.decodePcmBuffer]
  by_cases hempty : audio = []
  · subst hempty
    rw [if_pos rfl, toSamples, if_pos (features_nil hsilence)]
    rfl
  · have hodd : ¬ audio.length % 2 = 1 := by omega
    rw [if_neg hempty, if_neg hodd]
    by_cases hfeats : model.backend.features (toSamples audio) = []
    · rw [if_pos hfeats, if_pos hfeats]
      rfl
    · rw [if_neg hfeats, if_neg hfeats]
      cases model.backend.runAndDecode (model.backend.features (toSamples audio)) with
      | error message => rfl
      | ok text => rfl

/-- An item says what the transcript of the file with this audio says, and its time is at
most a millisecond less. -/
def SaysTheFile (model : ParaformerModel) (audio : Pcm) (p : PartialTranscript) : Prop :=
  ∃ transcript, model.backend.transcribeFile (wrapPcmAsWav audio sampleRate) = .ok transcript ∧
    p.text = transcript.text ∧ p.endMs ≤ transcript.durationMs ∧
    transcript.durationMs ≤ p.endMs + 1

theorem saysTheFile (hsilence : model.fbank [] = []) {audio : Pcm}
    (hfits : 36 + audio.length < 256 ^ 4) {text : String}
    (htext : model.backend.decodePcmBuffer audio = .ok text) (isFinal : Bool) :
    model.SaysTheFile audio ⟨text, isFinal, 0, bufferedMs audio⟩ := by
  have hfile := transcribeFile_wrapPcmAsWav hsilence (even_of_decodePcmBuffer htext) hfits
  rw [htext] at hfile
  have hduration := bufferedMs_durationOf audio
  exact ⟨_, hfile, rfl, hduration.1, hduration.2⟩

/-- The generator fails with what the decoder raised on the audio so far. -/
theorem decodePcmBuffer_of_fail {asr : ParaformerASR} {s : StreamState}
    {heard : List AudioChunk} {ended : Bool} {sent : List PartialTranscript}
    (h : StreamAt asr partialEmitMs s heard ended sent) {message : String}
    (hnext : (asr.stream partialEmitMs).next s = .fail message) :
    asr.decodePcmBuffer (audioOf heard) = .error message := by
  cases h with
  | awaiting hlast hsent => cases hnext
  | decoding haudio hlate hsent =>
      simp only [ParaformerASR.stream] at hnext
      cases htext : asr.decodePcmBuffer (audioOf heard) with
      | error m =>
          rw [htext] at hnext
          cases hnext
          rfl
      | ok text =>
          rw [htext] at hnext
          cases hnext
  | @ending _ _ _ lastText hlast hsent =>
      simp only [ParaformerASR.stream] at hnext
      by_cases haudio : audioOf heard = []
      · rw [if_neg (not_not.mpr haudio)] at hnext
        cases hnext
      · rw [if_pos haudio] at hnext
        cases htext : asr.decodePcmBuffer (audioOf heard) with
        | error m =>
            rw [htext] at hnext
            cases hnext
            rfl
        | ok text =>
            rw [htext] at hnext
            cases hnext
  | returned hsent htext => cases hnext

/-- **A stream says of its audio so far what `transcribe_file` says of the file with it**: in
every partial, in the final with which it ends, and in the exception with which it fails. -/
theorem stream_agrees_with_file (hsilence : model.fbank [] = [])
    {s : (model.backend.stream partialEmitMs).State} {heard : List AudioChunk} {ended : Bool}
    {sent : List PartialTranscript}
    (hreaches : (model.backend.stream partialEmitMs).Reaches s heard ended sent)
    (hfits : 36 + (audioOf heard).length < 256 ^ 4) :
    (∀ p s', (model.backend.stream partialEmitMs).next s = .emit p s' →
      model.SaysTheFile (audioOf heard) p) ∧
    ((model.backend.stream partialEmitMs).next s = .stop → ended = true ∧
      ∃ front final, sent = front ++ [final] ∧ final.isFinal = true ∧
        model.SaysTheFile (audioOf heard) final) ∧
    ∀ message, (model.backend.stream partialEmitMs).next s = .fail message →
      (audioOf heard).length % 2 = 0 →
      model.backend.transcribeFile (wrapPcmAsWav (audioOf heard) sampleRate) =
        .error (.network message) := by
  have hat := streamAt_of_reaches hreaches
  refine ⟨?_, ?_, ?_⟩
  · rintro ⟨text, isFinal, startMs, endMs⟩ s' hnext
    obtain ⟨htext, hend, -⟩ := hat.emit hnext
    rw [show endMs = bufferedMs (audioOf heard) from hend]
    exact saysTheFile hsilence hfits htext isFinal
  · intro hstop
    obtain ⟨hended, partials, emittedMs, text, -, htext, hsent⟩ := hat.of_stop hstop
    exact ⟨hended, partials, _, hsent, rfl, saysTheFile hsilence hfits htext true⟩
  · intro message hnext heven
    rw [transcribeFile_wrapPcmAsWav hsilence heven hfits, decodePcmBuffer_of_fail hat hnext]

end ParaformerModel

/-- A filter bank that makes seven frames of any audio, which are one window, and a network
that hears the token `a` in every window. -/
def oneWindowModel : ParaformerModel where
  fbank samples := if samples = [] then [] else List.replicate 7 (List.replicate fbankNumBins 0)
  fbank_width samples frame hframe := by
    split_ifs at hframe
    · cases hframe
    · rw [List.eq_of_mem_replicate hframe]
      exact List.length_replicate
  negMean := List.replicate stackedDim 0
  invStd := List.replicate stackedDim 1
  negMean_length := List.length_replicate
  invStd_length := List.length_replicate
  tokens i := if i = 3 then some "a" else none
  logits feats := .ok (feats.map fun _ => [0, 0, 0, 1])

/-- A millisecond of silence. -/
def silentMillisecond : AudioChunk :=
  ⟨List.replicate 32 0, 0⟩

theorem oneWindowModel_reaches :
    (oneWindowModel.backend.stream 1).Reaches .returned [silentMillisecond] true
      [⟨"a", false, 0, 1⟩, ⟨"a", true, 0, 1⟩] := by
  have htext : oneWindowModel.backend.decodePcmBuffer silentMillisecond.pcm16 = .ok "a" := by
    decide +kernel
  have hreceive : receiveChunk 1 [] 0 "" silentMillisecond =
      .decoding silentMillisecond.pcm16 1 := by
    rw [receiveChunk, if_neg (by decide)]
    simp only [List.nil_append]
    rw [if_neg (by decide)]
    rfl
  have hpull := Generator.Reaches.pull (g := oneWindowModel.backend.stream 1) .start rfl
    silentMillisecond
  simp only [hreceive] at hpull
  have hfinish : (oneWindowModel.backend.stream 1).Reaches
      (.ending silentMillisecond.pcm16 "a") [silentMillisecond] true [⟨"a", false, 0, 1⟩] :=
    (hpull.emit (next_decoding 1 htext)).finish rfl
  have hfinal := @next_ending oneWindowModel.backend 1 silentMillisecond.pcm16 "a" "a"
    ((if_pos (by decide)).trans htext)
  have hms : bufferedMs silentMillisecond.pcm16 = 1 := by decide
  rw [hms] at hfinal
  exact hfinish.emit hfinal

theorem stream_agrees_with_file_silent :
    ∃ front final, ([⟨"a", false, 0, 1⟩, ⟨"a", true, 0, 1⟩] : List PartialTranscript) =
        front ++ [final] ∧ final.isFinal = true ∧
      oneWindowModel.SaysTheFile (audioOf [silentMillisecond]) final :=
  ((ParaformerModel.stream_agrees_with_file rfl oneWindowModel_reaches (by decide)).2.1 rfl).2

end Models
end Sandroid
