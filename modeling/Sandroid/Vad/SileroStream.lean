import Sandroid.Lib.Generator
import Sandroid.Vad.BoundedMemory
import Sandroid.Vad.SileroAgreement

/-!
# The channels of the Silero detector

`stream_events` and `stream_segments` of `vad/silero.py` as generators over the chunks, with
`_drive_stream` inside of them.

`ChannelAt` is the invariant of their states: what has been yielded, what is about to be, and
what the rest of the chunks will add are together what the driver yields.
`streamSegments_of_first` is about the first segment over some chunks.
-/

namespace Sandroid
namespace Vad

open Api Lib

/-- Where `_drive_stream` stands. -/
inductive DriveState (S : Type) where
  /-- at the head of the loop, with the residual bytes -/
  | reading (state : SileroState S) (residual : Pcm)
  | returned

section Channel

variable {P S ο : Type} [LE P] [DecidableLE P]

namespace SileroVad

/-- A channel: `part` picks what it yields of an output.  The windows of a chunk are fed when
it comes, and not as the loop asks for their outputs: nothing else sees the aggregator. -/
def channel (vad : SileroVad P S) (part : SegmenterOutput → List ο) : Generator Pcm ο where
  State := List ο × DriveState S
  start := ([], .reading vad.fresh [])
  next
    | (y :: pending, drive) => .emit y (pending, drive)
    | ([], .reading state residual) => .pull fun
        | some chunk =>
            let q := vad.drainResidual state (residual ++ chunk)
            (q.1.flatMap part, .reading q.2.1 q.2.2)
        | none => ((vad.finishStream state residual).flatMap part, .returned)
    | ([], .returned) => .stop

end SileroVad

/-- Where a channel is once it has received `heard` and has yielded `sent`. -/
inductive ChannelAt (vad : SileroVad P S) (part : SegmenterOutput → List ο) :
    List ο × DriveState S → List Pcm → Bool → List ο → Prop
  | reading {pending sent : List ο} {state : SileroState S} {residual : Pcm} {heard : List Pcm}
      (hall : ∀ rest, (vad.driveStream (heard ++ rest)).flatMap part =
        sent ++ (pending ++ (vad.driveFrom state residual rest).flatMap part)) :
      ChannelAt vad part (pending, .reading state residual) heard false sent
  | returned {pending sent : List ο} {heard : List Pcm}
      (hall : (vad.driveStream heard).flatMap part = sent ++ pending) :
      ChannelAt vad part (pending, .returned) heard true sent

variable {vad : SileroVad P S} {part : SegmenterOutput → List ο}

theorem channelAt_of_reaches {s : (vad.channel part).State} {heard : List Pcm} {ended : Bool}
    {sent : List ο} (h : (vad.channel part).Reaches s heard ended sent) :
    ChannelAt vad part s heard ended sent := by
  induction h with
  | start => exact .reading fun rest => rfl
  | @emit s s' heard ended sent y _ hnext ih =>
      cases ih with
      | @reading pending _ state residual _ hall =>
          cases pending with
          | nil => cases hnext
          | cons y' pending =>
              cases hnext
              refine .reading fun rest => ?_
              rw [hall rest, List.append_assoc]
              rfl
      | @returned pending _ _ hall =>
          cases pending with
          | nil => cases hnext
          | cons y' pending =>
              cases hnext
              refine .returned ?_
              rw [hall, List.append_assoc]
              rfl
  | @pull s heard sent resume _ hnext chunk ih =>
      cases ih with
      | @reading pending _ state residual _ hall =>
          cases pending with
          | cons y' pending => cases hnext
          | nil =>
              cases hnext
              refine .reading fun rest => ?_
              rw [List.append_assoc, List.singleton_append, hall (chunk :: rest), List.nil_append,
                SileroVad.driveFrom, List.flatMap_append]
  | @finish s heard ended sent resume _ hnext ih =>
      cases ih with
      | @reading pending _ state residual _ hall =>
          cases pending with
          | cons y' pending => cases hnext
          | nil =>
              cases hnext
              refine .returned ?_
              have hlast := hall []
              rw [List.append_nil] at hlast
              exact hlast
      | @returned pending _ _ hall =>
          cases pending with
          | cons y' pending => cases hnext
          | nil => cases hnext

/-- What comes first over some chunks. -/
theorem driveStream_of_first {chunks : List Pcm} {y : ο}
    (h : (vad.channel part).First chunks y) :
    ∃ rest, (vad.driveStream chunks).flatMap part = y :: rest := by
  obtain ⟨s, s', ⟨given, ended, ⟨more, hgiven⟩, hended, hreaches⟩, hnext⟩ := h
  cases channelAt_of_reaches hreaches with
  | @reading pending _ state residual _ hall =>
      cases pending with
      | nil => cases hnext
      | cons y' pending =>
          cases hnext
          rw [← hgiven, hall more]
          exact ⟨_, rfl⟩
  | @returned pending _ _ hall =>
      cases pending with
      | nil => cases hnext
      | cons y' pending =>
          cases hnext
          rw [← hended rfl, hall]
          exact ⟨_, rfl⟩

theorem streamSegments_of_first {chunks : List Pcm} {seg : SegmentResult}
    (h : (vad.channel (·.segments)).First chunks seg) :
    ∃ rest, vad.streamSegments chunks = seg :: rest :=
  driveStream_of_first h

/-- Every frame is a complete window. -/
theorem length_of_mem_paddedFrames {pcm frame : Pcm} (h : frame ∈ paddedFrames pcm) :
    frame.length = windowBytes := by
  induction pcm using windows_induction windowBytes_pos with
  | short pcm hlt =>
      by_cases hne : pcm = []
      · rw [hne, paddedFrames_nil] at h
        cases h
      · rw [paddedFrames_of_lt hne hlt, List.mem_singleton] at h
        rw [h, List.length_append, List.length_replicate]
        omega
  | long pcm hle ih =>
      rw [paddedFrames_of_le hle] at h
      rcases List.mem_cons.mp h with rfl | h
      · rw [List.length_take]
        omega
      · exact ih h

/-- A segment is at 16 kHz, and short enough for the header of a WAV file. -/
theorem fits_of_mem_streamSegments {chunks : List Pcm} {seg : SegmentResult}
    (h : seg ∈ vad.streamSegments chunks) :
    seg.sampleRate = 16000 ∧ 36 + seg.pcm16.length < 256 ^ 4 := by
  obtain ⟨calls, hfed, hcalls⟩ := vad.feedAll_calls vad.fresh (paddedFrames chunks.flatten)
  rw [SileroVad.streamSegments, SileroVad.driveStream_eq, hcalls] at h
  have hlasts : (seg.endMs : Int) - seg.startMs ≤ sileroConfig.longestMs := by
    obtain ⟨out, hout, hseg⟩ := List.mem_flatMap.mp h
    have hfresh : True → Within sileroConfig (sileroConfig.maxSpeechDurationMs - 1) {} :=
      fun _ => within_of_silent rfl
    have hreturns := SegmentAggregator.returns_of_sampleRate (a := {}) sileroConfig_rate calls
    exact ((buffers_fresh.after (by decide) hfresh calls).2 trivial hreturns).2 out hout seg hseg
  have hlongest : sileroConfig.longestMs = 30031 := by decide
  have hjoin : seg ∈ (SegmenterOutput.join
      (SegmentAggregator.outputs sileroConfig {} calls)).segments := h
  rw [outputs_eq_render _ sileroConfig_rate, hfed, render_segments, List.mem_filterMap] at hjoin
  obtain ⟨⟨i, j⟩, -, hiv⟩ := hjoin
  obtain ⟨-, -, rfl⟩ := segmentOf_eq_some.mp hiv
  have hwidth (frame : Pcm)
      (hframe : frame ∈ ((paddedFrames chunks.flatten).drop i).take (j - i)) :
      frame.length = windowBytes :=
    length_of_mem_paddedFrames (List.mem_of_mem_drop (List.mem_of_mem_take hframe))
  have hlength : (audioOf (paddedFrames chunks.flatten) i j).length ≤ (j - i) * windowBytes := by
    rw [audioOf, length_flatten_of_width hwidth]
    exact Nat.mul_le_mul_right _ (List.length_take_le _ _)
  have hframe : sileroConfig.frameMs = 32 := by decide
  have hwindow : windowBytes = 1024 := by decide
  simp only [hlongest, hframe] at hlasts
  refine ⟨rfl, ?_⟩
  simp only
  rw [hwindow] at hlength
  omega

end Channel

end Vad
end Sandroid
