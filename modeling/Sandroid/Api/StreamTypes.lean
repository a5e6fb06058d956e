import Mathlib.Data.List.Basic

/-!
# Data of the streaming interfaces

The records of `vad/base.py` and `models/asr/base.py` that pass between the VAD,
the ASR backends and the WebSocket layer.
-/

namespace Sandroid
namespace Api

abbrev Pcm := List UInt8

/-- The kinds of a `SegmentEvent`. -/
inductive EventKind where
  | speechStart
  | speechEnd
  | silence
deriving DecidableEq, Repr

structure SegmentEvent where
  kind : EventKind
  atMs : Nat
deriving DecidableEq, Repr

structure SegmentResult where
  pcm16 : Pcm
  sampleRate : Nat
  startMs : Nat
  endMs : Nat
deriving DecidableEq, Repr

structure AudioChunk where
  pcm16 : Pcm
  sequence : Nat
deriving DecidableEq, Repr

structure PartialTranscript where
  text : String
  isFinal : Bool
  startMs : Nat
  endMs : Nat
deriving DecidableEq, Repr

end Api
end Sandroid
