import Sandroid.Api.StreamTypes
import Mathlib.Algebra.Order.Group.Nat
import Mathlib.Data.Int.Order.Basic

/-!
# The speech segmentation state machine

`SegmentAggregator` of `vad/segmenter.py`.  Handlers take the output record and
append to it, as in the source.

Durations of the configuration are integers of any sign; the constructor rejects
a frame length that is not positive.  The sample rate is checked later, when a
segment is built: with one that is not positive the call raises, its output is
lost, and the aggregator stays as it was at that point.
-/

namespace Sandroid
namespace Vad

open Api

structure SegmenterConfig where
  sampleRate : Int := 16000
  frameMs : Nat := 32
  speechStartMs : Int := 300
  silenceEndMs : Int := 600
  minSpeechDurationMs : Int := 250
  maxSpeechDurationMs : Int := 30000
  frameMs_pos : 0 < frameMs

namespace SegmenterConfig

variable (cfg : SegmenterConfig)

def speechStartFrames : Nat :=
  (max 1 (cfg.speechStartMs / cfg.frameMs)).toNat

def silenceEndFrames : Nat :=
  (max 1 (cfg.silenceEndMs / cfg.frameMs)).toNat

end SegmenterConfig

inductive SegmenterState where
  | silent
  | speaking
  | trailing
deriving DecidableEq, Repr

/-- Everything produced by one call. -/
structure SegmenterOutput where
  events : List SegmentEvent := []
  segments : List SegmentResult := []
deriving DecidableEq, Repr

structure SegmentAggregator where
  state : SegmenterState := .silent
  speechCount : Nat := 0
  silenceCount : Nat := 0
  preBuffer : List Pcm := []
  segmentBuffer : Pcm := []
  segmentStartMs : Nat := 0
  cursorMs : Nat := 0
deriving DecidableEq, Repr

namespace SegmenterOutput

/-- Append an event alone. -/
def notify (out : SegmenterOutput) (e : SegmentEvent) : SegmenterOutput :=
  { out with events := out.events ++ [e] }

/-- Append a segment. -/
def emit (out : SegmenterOutput) (s : SegmentResult) : SegmenterOutput :=
  { out with segments := out.segments ++ [s] }

/-- One output after another. -/
def append (out out' : SegmenterOutput) : SegmenterOutput :=
  { events := out.events ++ out'.events, segments := out.segments ++ out'.segments }

/-- All the outputs of a run in one. -/
def join (outs : List SegmenterOutput) : SegmenterOutput :=
  { events := outs.flatMap events, segments := outs.flatMap segments }

end SegmenterOutput

/-- The aggregator after a step, with the output record unless the step raised. -/
abbrev SegmenterStep := SegmentAggregator × Option SegmenterOutput

namespace SegmentAggregator

variable (cfg : SegmenterConfig)

/-- `_emit_segment`: a segment that is too short or empty is suppressed. -/
def emitSegment (a : SegmentAggregator) (out : SegmenterOutput) (endMs : Nat)
    (kindAfter : SegmenterState) : SegmenterStep :=
  if cfg.minSpeechDurationMs ≤ (endMs : Int) - a.segmentStartMs ∧ a.segmentBuffer ≠ [] then
    if 0 < cfg.sampleRate then
      ({ a with segmentBuffer := [], state := kindAfter },
        some ((out.emit ⟨a.segmentBuffer, cfg.sampleRate.toNat, a.segmentStartMs, endMs⟩).notify
          ⟨.speechEnd, endMs⟩))
    else
      (a, none)
  else
    ({ a with segmentBuffer := [], state := kindAfter }, some out)

/-- `_close_segment`. -/
def closeSegment (a : SegmentAggregator) (out : SegmenterOutput) : SegmenterStep :=
  match a.emitSegment cfg out a.cursorMs .silent with
  | (a, none) => (a, none)
  | (a, some out) => ({ a with silenceCount := 0 }, some out)

/-- `_handle_silent`; the start of the segment is not below zero. -/
def handleSilent (a : SegmentAggregator) (frame : Pcm) (isSpeech : Bool)
    (out : SegmenterOutput) : SegmenterStep :=
  if ¬ isSpeech then
    ({ a with speechCount := 0, preBuffer := [] }, some out)
  else
    let a := { a with preBuffer := a.preBuffer ++ [frame], speechCount := a.speechCount + 1 }
    if cfg.speechStartFrames ≤ a.speechCount then
      let startMs := a.cursorMs - a.preBuffer.length * cfg.frameMs
      ({ a with
          segmentStartMs := startMs
          segmentBuffer := a.preBuffer.flatten
          preBuffer := []
          speechCount := 0
          state := .speaking },
        some (out.notify ⟨.speechStart, startMs⟩))
    else
      (a, some out)

/-- `_handle_speaking`. -/
def handleSpeaking (a : SegmentAggregator) (frame : Pcm) (isSpeech : Bool)
    (out : SegmenterOutput) : SegmenterStep :=
  let a := { a with segmentBuffer := a.segmentBuffer ++ frame }
  if isSpeech then
    (a, some out)
  else
    let a := { a with state := .trailing, silenceCount := 1 }
    if cfg.silenceEndFrames ≤ a.silenceCount then
      a.closeSegment cfg out
    else
      (a, some out)

/-- `_handle_trailing`. -/
def handleTrailing (a : SegmentAggregator) (frame : Pcm) (isSpeech : Bool)
    (out : SegmenterOutput) : SegmenterStep :=
  let a := { a with segmentBuffer := a.segmentBuffer ++ frame }
  if isSpeech then
    ({ a with state := .speaking, silenceCount := 0 }, some out)
  else
    let a := { a with silenceCount := a.silenceCount + 1 }
    if cfg.silenceEndFrames ≤ a.silenceCount then
      a.closeSegment cfg out
    else
      (a, some out)

/-- `_maybe_force_cut`: close the segment but stay in SPEAKING. -/
def maybeForceCut (a : SegmentAggregator) (out : SegmenterOutput) : SegmenterStep :=
  if a.state = .silent then
    (a, some out)
  else if (a.cursorMs : Int) - a.segmentStartMs < cfg.maxSpeechDurationMs then
    (a, some out)
  else
    match a.emitSegment cfg out a.cursorMs .speaking with
    | (a, none) => (a, none)
    | (a, some out) => ({ a with segmentStartMs := a.cursorMs }, some out)

/-- The handler of the current state. -/
def handle (a : SegmentAggregator) (frame : Pcm) (isSpeech : Bool) (out : SegmenterOutput) :
    SegmenterStep :=
  match a.state with
  | .silent => a.handleSilent cfg frame isSpeech out
  | .speaking => a.handleSpeaking cfg frame isSpeech out
  | .trailing => a.handleTrailing cfg frame isSpeech out

def feed (a : SegmentAggregator) (frame : Pcm) (isSpeech : Bool) : SegmenterStep :=
  let a := { a with cursorMs := a.cursorMs + cfg.frameMs }
  match a.handle cfg frame isSpeech {} with
  | (a, none) => (a, none)
  | (a, some out) => a.maybeForceCut cfg out

/-- `feed` comes to a force cut: after the handler the segment is too long. -/
def ForceCuts (a : SegmentAggregator) (frame : Pcm) (isSpeech : Bool) : Prop :=
  let a := ({ a with cursorMs := a.cursorMs + cfg.frameMs }.handle cfg frame isSpeech {}).1
  a.state ≠ .silent ∧ cfg.maxSpeechDurationMs ≤ (a.cursorMs : Int) - a.segmentStartMs

instance (a : SegmentAggregator) (frame : Pcm) (isSpeech : Bool) :
    Decidable (a.ForceCuts cfg frame isSpeech) :=
  inferInstanceAs (Decidable (_ ∧ _))

def flush (a : SegmentAggregator) : SegmenterStep :=
  if a.state = .silent then
    (a, some {})
  else
    a.closeSegment cfg {}

end SegmentAggregator

/-- A call of the aggregator. -/
inductive SegmenterCall where
  | feed (frame : Pcm) (isSpeech : Bool)
  | flush
deriving DecidableEq, Repr

namespace SegmentAggregator

variable (cfg : SegmenterConfig)

def call (a : SegmentAggregator) : SegmenterCall → SegmenterStep
  | .feed frame isSpeech => a.feed cfg frame isSpeech
  | .flush => a.flush cfg

/-- The outputs that a sequence of calls returns, in order. -/
def outputs (a : SegmentAggregator) : List SegmenterCall → List SegmenterOutput
  | [] => []
  | c :: calls => (a.call cfg c).2.toList ++ outputs (a.call cfg c).1 calls

/-- The aggregator after a sequence of calls. -/
def after (a : SegmentAggregator) : List SegmenterCall → SegmentAggregator
  | [] => a
  | c :: calls => after (a.call cfg c).1 calls

end SegmentAggregator

section NoRaise

variable {cfg : SegmenterConfig} (hrate : 0 < cfg.sampleRate) (a : SegmentAggregator)

include hrate

/-! With a positive sample rate no call raises. -/

theorem emitSegment_isSome (out : SegmenterOutput) (endMs : Nat) (kindAfter : SegmenterState) :
    (a.emitSegment cfg out endMs kindAfter).2.isSome := by
  rw [SegmentAggregator.emitSegment]
  split_ifs <;> rfl

theorem closeSegment_isSome (out : SegmenterOutput) : (a.closeSegment cfg out).2.isSome := by
  have h := emitSegment_isSome hrate a out a.cursorMs .silent
  rw [SegmentAggregator.closeSegment]
  split
  next heq => simp [heq] at h
  next => rfl

theorem maybeForceCut_isSome (out : SegmenterOutput) : (a.maybeForceCut cfg out).2.isSome := by
  have h := emitSegment_isSome hrate a out a.cursorMs .speaking
  rw [SegmentAggregator.maybeForceCut]
  split
  · rfl
  · split
    · rfl
    · split
      next heq => simp [heq] at h
      next => rfl

theorem handle_isSome (frame : Pcm) (isSpeech : Bool) (out : SegmenterOutput) :
    (a.handle cfg frame isSpeech out).2.isSome := by
  rw [SegmentAggregator.handle]
  split
  · simp only [SegmentAggregator.handleSilent]
    split_ifs <;> rfl
  · simp only [SegmentAggregator.handleSpeaking]
    split_ifs
    · rfl
    · exact closeSegment_isSome hrate _ out
    · rfl
  · simp only [SegmentAggregator.handleTrailing]
    split_ifs
    · rfl
    · exact closeSegment_isSome hrate _ out
    · rfl

theorem feed_isSome (frame : Pcm) (isSpeech : Bool) : (a.feed cfg frame isSpeech).2.isSome := by
  have h := handle_isSome hrate { a with cursorMs := a.cursorMs + cfg.frameMs } frame isSpeech {}
  rw [SegmentAggregator.feed]
  split
  next heq => simp [heq] at h
  next => exact maybeForceCut_isSome hrate _ _

theorem flush_isSome : (a.flush cfg).2.isSome := by
  rw [SegmentAggregator.flush]
  split_ifs
  · rfl
  · exact closeSegment_isSome hrate a {}

end NoRaise

/-- The frames that a sequence of calls feeds. -/
def fedFrames : List SegmenterCall → List Pcm
  | [] => []
  | .feed frame _ :: calls => frame :: fedFrames calls
  | .flush :: calls => fedFrames calls

end Vad
end Sandroid
