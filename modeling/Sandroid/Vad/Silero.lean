import Sandroid.Lib.Windows
import Sandroid.Vad.Segmenter
import Mathlib.Data.Rat.Defs
import Mathlib.Tactic.Common

/-!
# The Silero detector

`SileroVAD` of `vad/silero.py`, in file mode and in streaming mode.  The neural
network is a parameter: a function of the window and of the recurrent state.

A sample is an int16 divided by 32768, which single precision holds exactly; it
is a rational number here.  Probabilities are only compared with the threshold.
-/

namespace Sandroid
namespace Vad

open Api Lib

/-- `_WINDOW_SAMPLES`. -/
def windowSamples : Nat := 512

/-- The bytes of a window. -/
def windowBytes : Nat := windowSamples * 2

/-- `_FRAME_MS`. -/
def sileroFrameMs : Nat := windowSamples * 1000 / 16000

/-- The aggregator of the detector: its frame length, and the defaults. -/
def sileroConfig : SegmenterConfig :=
  { sampleRate := 16000, frameMs := sileroFrameMs, frameMs_pos := Nat.succ_pos 31 }

theorem sileroConfig_rate : 0 < sileroConfig.sampleRate := by decide

/-- A little-endian int16. -/
def int16 (lo hi : UInt8) : Int :=
  let n : Int := (lo.toNat + 256 * hi.toNat : Nat)
  if n < 32768 then n else n - 65536

/-- `np.frombuffer(..., dtype=np.int16).astype(np.float32) / 32768.0`. -/
def toSamples : Pcm → List ℚ
  | [] => []
  | [_] => []
  | lo :: hi :: rest => (int16 lo hi : ℚ) / 32768 :: toSamples rest

/-- A result of file mode. -/
structure SpeechSegment where
  startMs : Nat
  endMs : Nat
deriving DecidableEq, Repr

def SegmentResult.toSpeechSegment (s : SegmentResult) : SpeechSegment :=
  ⟨s.startMs, s.endMs⟩

/-- `SileroVADError`, with the sample rate that is refused. -/
structure SileroError where
  got : Nat
deriving DecidableEq, Repr

/-- The model with its initial state, and the threshold. -/
structure SileroVad (P S : Type) where
  inferWindow : List ℚ → S → P × S
  zeroState : S
  threshold : P

/-- What both modes carry from window to window. -/
structure SileroState (S : Type) where
  aggregator : SegmentAggregator
  state : S

section Silero

variable {P S : Type} [LE P] [DecidableLE P] (vad : SileroVad P S)

namespace SileroVad

def fresh : SileroState S :=
  { aggregator := {}, state := vad.zeroState }

/-- Infer one window, and feed its bytes; at 16 kHz the aggregator does not raise. -/
def feedWindow (s : SileroState S) (window : List ℚ) (frame : Pcm) :
    SileroState S × SegmenterOutput :=
  let (prob, state) := vad.inferWindow window s.state
  let isSpeech := decide (vad.threshold ≤ prob)
  let r := s.aggregator.feed sileroConfig frame isSpeech
  (⟨r.1, state⟩, r.2.get (feed_isSome sileroConfig_rate s.aggregator frame isSpeech))

/-- The last step of both modes. -/
def flush (s : SileroState S) : SegmenterOutput :=
  (s.aggregator.flush sileroConfig).2.get (flush_isSome sileroConfig_rate s.aggregator)

/-- `_pcm_to_float`: an odd last byte is dropped. -/
def pcmToFloat (pcm16 : Pcm) : List ℚ :=
  if pcm16.length % 2 ≠ 0 then toSamples pcm16.dropLast else toSamples pcm16

/-- `_iter_windows`: the windows, the last one padded. -/
def iterWindows (samples : List ℚ) : List (List ℚ) :=
  let tail := leftover windowSamples samples
  fullWindows windowSamples samples ++
    if tail ≠ [] then [tail ++ List.replicate (windowSamples - tail.length) 0] else []

/-- The bytes of window `i`, padded when the input was short. -/
def frameBytes (pcm16 : Pcm) (i : Nat) : Pcm :=
  let frame := (pcm16.drop (i * windowBytes)).take windowBytes
  frame ++ List.replicate (windowBytes - frame.length) 0

/-- The loop of `detect`, from window `i` on. -/
def detectLoop (pcm16 : Pcm) (s : SileroState S) (i : Nat) :
    List (List ℚ) → List SpeechSegment
  | [] => (flush s).segments.map SegmentResult.toSpeechSegment
  | window :: windows =>
      let r := vad.feedWindow s window (frameBytes pcm16 i)
      r.2.segments.map SegmentResult.toSpeechSegment ++ detectLoop pcm16 r.1 (i + 1) windows

def detect (pcm16 : Pcm) (sampleRate : Nat) : Except SileroError (List SpeechSegment) :=
  if sampleRate ≠ 16000 then
    .error ⟨sampleRate⟩
  else
    let windows := iterWindows (pcmToFloat pcm16)
    if windows = [] then
      .ok []
    else
      .ok (vad.detectLoop pcm16 vad.fresh 0 windows)

/-- The `while` loop over the residual bytes: what is yielded, and where it ends. -/
def drainResidual (s : SileroState S) (residual : Pcm) :
    List SegmenterOutput × SileroState S × Pcm :=
  if windowBytes ≤ residual.length then
    let frame := residual.take windowBytes
    let r := vad.feedWindow s (toSamples frame) frame
    let q := drainResidual r.1 (residual.drop windowBytes)
    (r.2 :: q.1, q.2)
  else
    ([], s, residual)
termination_by residual.length
decreasing_by
  rw [List.length_drop]
  have : 0 < windowBytes := by decide
  omega

/-- After the last chunk: the residual bytes as a padded window, and the flush. -/
def finishStream (s : SileroState S) (residual : Pcm) : List SegmenterOutput :=
  if residual ≠ [] then
    let padded := residual ++ List.replicate (windowBytes - residual.length) 0
    let r := vad.feedWindow s (toSamples padded) padded
    [r.2, flush r.1]
  else
    [flush s]

/-- `_drive_stream` from a given point on: all that it yields. -/
def driveFrom (s : SileroState S) (residual : Pcm) : List Pcm → List SegmenterOutput
  | [] => vad.finishStream s residual
  | chunk :: chunks =>
      let q := vad.drainResidual s (residual ++ chunk)
      q.1 ++ driveFrom q.2.1 q.2.2 chunks

def driveStream (chunks : List Pcm) : List SegmenterOutput :=
  vad.driveFrom vad.fresh [] chunks

def streamEvents (chunks : List Pcm) : List SegmentEvent :=
  (vad.driveStream chunks).flatMap (·.events)

def streamSegments (chunks : List Pcm) : List SegmentResult :=
  (vad.driveStream chunks).flatMap (·.segments)

end SileroVad

end Silero

end Vad
end Sandroid
