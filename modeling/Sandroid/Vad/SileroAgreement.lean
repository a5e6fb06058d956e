import Sandroid.Vad.Segmentation
import Sandroid.Vad.Silero
import Mathlib.Tactic

/-!
# File mode and streaming mode agree

Both modes feed the same frames to the model and the aggregator: the windows of
the whole byte string, the last one padded with zeros.  For the streaming mode
this does not depend on how the bytes are cut into chunks.
-/

namespace Sandroid
namespace Vad

open Api Lib

theorem windowSamples_pos : 0 < windowSamples := by decide

theorem windowBytes_pos : 0 < windowBytes := by decide

section Samples

theorem length_toSamples (pcm : Pcm) : (toSamples pcm).length = pcm.length / 2 := by
  fun_induction toSamples pcm with
  | case1 => rfl
  | case2 b => simp
  | case3 lo hi rest ih =>
    rw [List.length_cons, ih, List.length_cons, List.length_cons]
    omega

theorem toSamples_append (pcm rest : Pcm) (heven : Even pcm.length) :
    toSamples (pcm ++ rest) = toSamples pcm ++ toSamples rest := by
  fun_induction toSamples pcm with
  | case1 => rfl
  | case2 b => simp at heven
  | case3 lo hi pcm ih =>
    rw [List.cons_append, List.cons_append, toSamples, ih, List.cons_append]
    rw [List.length_cons, List.length_cons] at heven
    simpa [parity_simps] using heven

theorem toSamples_replicate_zero (k : Nat) :
    toSamples (List.replicate (k * 2) 0) = List.replicate k 0 := by
  induction k with
  | zero => simp [toSamples]
  | succ k ih =>
    have hzero : int16 0 0 = 0 := by decide
    rw [Nat.succ_mul, List.replicate_succ, List.replicate_succ, toSamples, ih, hzero,
      Int.cast_zero, zero_div, List.replicate_succ]

theorem toSamples_take_drop (pcm : Pcm) (k : Nat) (h : k * 2 ≤ pcm.length) :
    toSamples (pcm.take (k * 2)) = (toSamples pcm).take k ∧
      toSamples (pcm.drop (k * 2)) = (toSamples pcm).drop k := by
  have heven : Even (pcm.take (k * 2)).length := by
    rw [List.length_take, Nat.min_eq_left h]
    exact ⟨k, by omega⟩
  have hlen : (toSamples (pcm.take (k * 2))).length = k := by
    rw [length_toSamples, List.length_take, Nat.min_eq_left h]
    omega
  have hsplit := toSamples_append _ (pcm.drop (k * 2)) heven
  rw [List.take_append_drop] at hsplit
  rw [hsplit]
  exact ⟨(List.take_left' hlen).symm, (List.drop_left' hlen).symm⟩

end Samples

/-- The padded windows of a byte string. -/
def paddedFrames (pcm : Pcm) : List Pcm :=
  let tail := leftover windowBytes pcm
  fullWindows windowBytes pcm ++
    if tail ≠ [] then [tail ++ List.replicate (windowBytes - tail.length) 0] else []

theorem paddedFrames_nil : paddedFrames [] = [] := by
  simp [paddedFrames, leftover, fullWindows]

theorem paddedFrames_of_lt {pcm : Pcm} (hne : pcm ≠ []) (h : pcm.length < windowBytes) :
    paddedFrames pcm = [pcm ++ List.replicate (windowBytes - pcm.length) 0] := by
  simp [paddedFrames, leftover_of_lt h, fullWindows_of_lt h, hne]

theorem paddedFrames_of_le {pcm : Pcm} (h : windowBytes ≤ pcm.length) :
    paddedFrames pcm = pcm.take windowBytes :: paddedFrames (pcm.drop windowBytes) := by
  simp only [paddedFrames, fullWindows_of_le windowBytes_pos h, leftover_of_le windowBytes_pos h,
    List.cons_append]

namespace SileroVad

theorem iterWindows_nil : iterWindows [] = [] := by
  simp [iterWindows, leftover, fullWindows]

theorem iterWindows_of_lt {samples : List ℚ} (hne : samples ≠ [])
    (h : samples.length < windowSamples) :
    iterWindows samples =
      [samples ++ List.replicate (windowSamples - samples.length) 0] := by
  simp [iterWindows, leftover_of_lt h, fullWindows_of_lt h, hne]

theorem iterWindows_of_le {samples : List ℚ} (h : windowSamples ≤ samples.length) :
    iterWindows samples =
      samples.take windowSamples :: iterWindows (samples.drop windowSamples) := by
  simp only [iterWindows, fullWindows_of_le windowSamples_pos h,
    leftover_of_le windowSamples_pos h, List.cons_append]

/-- The windows of file mode are those of the padded frames. -/
theorem iterWindows_toSamples (pcm : Pcm) (heven : Even pcm.length) :
    iterWindows (toSamples pcm) = (paddedFrames pcm).map toSamples := by
  induction pcm using windows_induction windowBytes_pos with
  | short pcm h =>
    by_cases hne : pcm = []
    · subst hne
      rw [toSamples, iterWindows_nil, paddedFrames_nil, List.map_nil]
    · obtain ⟨m, hm⟩ := heven
      have hpos := List.length_pos_iff.mpr hne
      have hlen := length_toSamples pcm
      rw [windowBytes] at h
      rw [paddedFrames_of_lt hne h, List.map_singleton, toSamples_append _ _ ⟨m, hm⟩,
        iterWindows_of_lt (List.ne_nil_of_length_pos (by omega)) (by omega)]
      have hpad : windowBytes - pcm.length =
          (windowSamples - (toSamples pcm).length) * 2 := by
        rw [windowBytes, hlen]
        omega
      rw [hpad, toSamples_replicate_zero]
  | long pcm h ih =>
    have hlen := length_toSamples pcm
    obtain ⟨htake, hdrop⟩ := toSamples_take_drop pcm windowSamples h
    have heven' : Even (pcm.drop windowBytes).length := by
      rw [List.length_drop, Nat.even_sub h]
      exact iff_of_true heven ⟨windowSamples, rfl⟩
    have hle : windowSamples ≤ (toSamples pcm).length := by
      rw [windowBytes] at h
      omega
    rw [paddedFrames_of_le h, List.map_cons, iterWindows_of_le hle, ← ih heven']
    rw [windowBytes, htake, hdrop]

variable {P S : Type} [LE P] [DecidableLE P] (vad : SileroVad P S)

/-- Feed frames one after another, then flush. -/
def feedAll (s : SileroState S) : List Pcm → List SegmenterOutput
  | [] => [flush s]
  | frame :: frames =>
      let r := vad.feedWindow s (toSamples frame) frame
      r.2 :: feedAll r.1 frames

theorem finishStream_eq (s : SileroState S) {residual : Pcm}
    (h : residual.length < windowBytes) :
    vad.finishStream s residual = vad.feedAll s (paddedFrames residual) := by
  rw [finishStream]
  split_ifs with hne
  · rw [paddedFrames_of_lt hne h]
    rfl
  · rw [not_not] at hne
    rw [hne, paddedFrames_nil]
    rfl

/-- The `while` loop feeds the complete windows. -/
theorem feedAll_drainResidual (residual rest : Pcm) (s : SileroState S) :
    vad.feedAll s (paddedFrames (residual ++ rest)) =
      (vad.drainResidual s residual).1 ++
        vad.feedAll (vad.drainResidual s residual).2.1
          (paddedFrames ((vad.drainResidual s residual).2.2 ++ rest)) := by
  induction residual using windows_induction windowBytes_pos generalizing s with
  | short residual h =>
    rw [drainResidual, if_neg (by omega), List.nil_append]
  | long residual h ih =>
    have hle : windowBytes ≤ (residual ++ rest).length := by
      rw [List.length_append]
      omega
    rw [drainResidual, if_pos h, paddedFrames_of_le hle, List.take_append_of_le_length h,
      List.drop_append_of_le_length h, feedAll, ih]
    rfl

theorem length_drainResidual_lt (residual : Pcm) (s : SileroState S) :
    (vad.drainResidual s residual).2.2.length < windowBytes := by
  induction residual using windows_induction windowBytes_pos generalizing s with
  | short residual h =>
    rw [drainResidual, if_neg (by omega)]
    exact h
  | long residual h ih =>
    rw [drainResidual, if_pos h]
    exact ih _

/-- Streaming feeds the windows of the bytes, however they are cut into chunks. -/
theorem driveFrom_eq (chunks : List Pcm) (s : SileroState S) {residual : Pcm}
    (h : residual.length < windowBytes) :
    vad.driveFrom s residual chunks =
      vad.feedAll s (paddedFrames (residual ++ chunks.flatten)) := by
  induction chunks generalizing s residual with
  | nil =>
    rw [driveFrom, List.flatten_nil, List.append_nil]
    exact vad.finishStream_eq s h
  | cons chunk chunks ih =>
    rw [List.flatten_cons, ← List.append_assoc, feedAll_drainResidual, driveFrom,
      ih _ (vad.length_drainResidual_lt _ _)]

theorem driveStream_eq (chunks : List Pcm) :
    vad.driveStream chunks = vad.feedAll vad.fresh (paddedFrames chunks.flatten) :=
  vad.driveFrom_eq chunks vad.fresh windowBytes_pos

/-- Up to the end of a window the bytes of file mode are the padded frame. -/
theorem frameBytes_eq (pcm : Pcm) (i : Nat) :
    frameBytes pcm i = frameBytes (pcm.drop (i * windowBytes)) 0 := by
  rw [frameBytes, frameBytes, Nat.zero_mul, List.drop_zero]

theorem frameBytes_of_lt {pcm : Pcm} (h : pcm.length < windowBytes) :
    frameBytes pcm 0 = pcm ++ List.replicate (windowBytes - pcm.length) 0 := by
  rw [frameBytes, Nat.zero_mul, List.drop_zero, List.take_of_length_le h.le]

theorem frameBytes_of_le {pcm : Pcm} (h : windowBytes ≤ pcm.length) :
    frameBytes pcm 0 = pcm.take windowBytes := by
  rw [frameBytes, Nat.zero_mul, List.drop_zero, List.length_take, Nat.min_eq_left h,
    Nat.sub_self, List.replicate_zero, List.append_nil]

/-- The loop of file mode from window `i` on, over the bytes that are left. -/
theorem detectLoop_eq (pcm rest : Pcm) (i : Nat) (hrest : pcm.drop (i * windowBytes) = rest)
    (s : SileroState S) :
    vad.detectLoop pcm s i ((paddedFrames rest).map toSamples) =
      ((vad.feedAll s (paddedFrames rest)).flatMap (·.segments)).map
        SegmentResult.toSpeechSegment := by
  induction rest using windows_induction windowBytes_pos generalizing s i with
  | short rest h =>
    by_cases hne : rest = []
    · subst hne
      rw [paddedFrames_nil, List.map_nil, detectLoop, feedAll, List.flatMap_singleton]
    · rw [paddedFrames_of_lt hne h, List.map_singleton, detectLoop, detectLoop, frameBytes_eq,
        hrest, frameBytes_of_lt h, feedAll, feedAll, List.flatMap_cons, List.flatMap_singleton,
        List.map_append]
  | long rest h ih =>
    have hnext : pcm.drop ((i + 1) * windowBytes) = rest.drop windowBytes := by
      rw [← hrest, List.drop_drop, Nat.add_one_mul]
    rw [paddedFrames_of_le h, List.map_cons, detectLoop, frameBytes_eq, hrest,
      frameBytes_of_le h, ih (i + 1) hnext, feedAll, List.flatMap_cons, List.map_append]

theorem iterWindows_eq_nil_iff (pcm : Pcm) (heven : Even pcm.length) :
    iterWindows (toSamples pcm) = [] ↔ pcm = [] := by
  rw [iterWindows_toSamples pcm heven, List.map_eq_nil_iff]
  constructor
  · intro h
    by_contra hne
    by_cases hlt : pcm.length < windowBytes
    · simp [paddedFrames_of_lt hne hlt] at h
    · simp [paddedFrames_of_le (not_lt.mp hlt)] at h
  · rintro rfl
    exact paddedFrames_nil

theorem detect_eq (pcm : Pcm) (heven : Even pcm.length) :
    vad.detect pcm 16000 =
      .ok (((vad.feedAll vad.fresh (paddedFrames pcm)).flatMap (·.segments)).map
        SegmentResult.toSpeechSegment) := by
  have hmod : pcm.length % 2 = 0 := Nat.even_iff.mp heven
  have hfloat : pcmToFloat pcm = toSamples pcm := by
    rw [pcmToFloat, if_neg (by omega)]
  simp only [detect, hfloat, ne_eq, not_true_eq_false, if_false]
  split_ifs with hnil
  · rw [iterWindows_eq_nil_iff pcm heven] at hnil
    subst hnil
    rw [paddedFrames_nil, feedAll, List.flatMap_singleton]
    rfl
  · rw [iterWindows_toSamples pcm heven,
      vad.detectLoop_eq pcm pcm 0 (by rw [Nat.zero_mul, List.drop_zero])]

/-- Everything that streaming yields comes from one run of the aggregator, over the frames. -/
theorem feedAll_calls (s : SileroState S) (frames : List Pcm) :
    ∃ calls, fedFrames calls = frames ∧
      vad.feedAll s frames = s.aggregator.outputs sileroConfig calls := by
  induction frames generalizing s with
  | nil =>
    refine ⟨[.flush], rfl, ?_⟩
    rw [feedAll, SegmentAggregator.outputs, SegmentAggregator.outputs, List.append_nil]
    exact (Option.toList_eq_singleton_iff.mpr (Option.some_get _).symm).symm
  | cons frame frames ih =>
    obtain ⟨calls, hfed, hcalls⟩ := ih (vad.feedWindow s (toSamples frame) frame).1
    refine ⟨.feed frame (vad.threshold ≤ (vad.inferWindow (toSamples frame) s.state).1) :: calls,
      ?_, ?_⟩
    · rw [fedFrames_cons, hfed]
      rfl
    · rw [feedAll, hcalls, SegmentAggregator.outputs]
      have hsome := Option.toList_eq_singleton_iff.mpr
        (Option.some_get (feed_isSome sileroConfig_rate s.aggregator frame
          (vad.threshold ≤ (vad.inferWindow (toSamples frame) s.state).1))).symm
      rw [SegmentAggregator.call, hsome]
      rfl

theorem feedAll_eq_outputs (s : SileroState S) (frames : List Pcm) :
    ∃ calls, vad.feedAll s frames = s.aggregator.outputs sileroConfig calls := by
  obtain ⟨calls, -, hcalls⟩ := vad.feedAll_calls s frames
  exact ⟨calls, hcalls⟩

theorem flatMap_speechEnds {outs : List SegmenterOutput} (h : ∀ out ∈ outs, out.Paired) :
    ((outs.flatMap (·.events)).filter (·.kind = .speechEnd)).map (·.atMs) =
      (outs.flatMap (·.segments)).map (·.endMs) := by
  rw [List.filter_flatMap, List.map_flatMap, List.map_flatMap]
  exact List.flatMap_congr h

/-- The cut into chunks does not matter, the ends of speech are those of the segments,
and whole samples give the segments of file mode. -/
theorem file_and_stream_agree (bytes : Pcm) (chunks : List Pcm) (hcut : chunks.flatten = bytes) :
    vad.streamSegments chunks = vad.streamSegments [bytes] ∧
    vad.streamEvents chunks = vad.streamEvents [bytes] ∧
    ((vad.streamEvents chunks).filter (·.kind = .speechEnd)).map (·.atMs) =
      (vad.streamSegments chunks).map (·.endMs) ∧
    (Even bytes.length →
      vad.detect bytes 16000 =
        .ok ((vad.streamSegments chunks).map SegmentResult.toSpeechSegment)) := by
  have hbytes : [bytes].flatten = bytes := List.flatten_singleton
  refine ⟨?_, ?_, ?_, ?_⟩
  · rw [streamSegments, streamSegments, driveStream_eq, driveStream_eq, hcut, hbytes]
  · rw [streamEvents, streamEvents, driveStream_eq, driveStream_eq, hcut, hbytes]
  · obtain ⟨calls, hcalls⟩ := vad.feedAll_eq_outputs vad.fresh (paddedFrames chunks.flatten)
    rw [streamEvents, streamSegments, driveStream_eq, hcalls]
    exact flatMap_speechEnds (tracks_fresh.outputs calls).2
  · intro heven
    rw [vad.detect_eq bytes heven, streamSegments, driveStream_eq, hcut]

/-- A detector that hears speech in all windows but the first. -/
def countingVad : SileroVad Nat Nat where
  inferWindow _ n := (n, n + 1)
  zeroState := 0
  threshold := 1

/-- Eleven windows and a few bytes. -/
def longBytes : Pcm :=
  List.replicate 11270 7

/-- They come with a cut in the middle of a sample. -/
def longChunks : List Pcm :=
  [List.replicate 3 7, [], List.replicate 11267 7]

theorem file_and_stream_agree_cut :
    (countingVad.streamSegments longChunks).map (fun seg => (seg.startMs, seg.endMs)) =
      [(32, 384)] ∧
    countingVad.streamSegments longChunks = countingVad.streamSegments [longBytes] ∧
    countingVad.streamEvents longChunks = countingVad.streamEvents [longBytes] ∧
    ((countingVad.streamEvents longChunks).filter (·.kind = .speechEnd)).map (·.atMs) =
      (countingVad.streamSegments longChunks).map (·.endMs) ∧
    countingVad.detect longBytes 16000 =
      .ok ((countingVad.streamSegments longChunks).map SegmentResult.toSpeechSegment) := by
  have hcut : longChunks.flatten = longBytes := by
    simp only [longChunks, longBytes, List.flatten_cons, List.flatten_nil, List.append_nil,
      List.nil_append, List.replicate_append_replicate]
  obtain ⟨hsegments, hevents, hends, hdetect⟩ :=
    file_and_stream_agree countingVad longBytes longChunks hcut
  refine ⟨?_, hsegments, hevents, hends, hdetect ⟨5635, by rw [longBytes, List.length_replicate]⟩⟩
  rw [streamSegments, driveStream_eq, hcut]
  decide +kernel

end SileroVad

end Vad
end Sandroid
