import Sandroid.Core.Audio
import Sandroid.Core.Matcher

/-!
# The Paraformer backend on a file

`transcribe_file` of `models/asr/paraformer.py`, with its own reading of the file.  The
feature extraction and the neural network are parameters.
-/

namespace Sandroid
namespace Models

open Lib Api Vad Sandroid.Core

/-- What leaves `transcribe_file`. -/
inductive AsrFault where
  /-- `ParaformerError` -/
  | paraformer (message : String)
  /-- an exception of `wave` that is not `wave.Error` -/
  | wave (e : WaveError)
  /-- NumPy: half a sample -/
  | value
  /-- an exception of the network -/
  | network (text : String)
deriving DecidableEq, Repr

structure FinalTranscript where
  text : String
  confidence : Confidence
  durationMs : Nat
deriving DecidableEq

/-- `_SAMPLE_RATE`. -/
def sampleRate : Nat := 16000

structure ParaformerASR where
  features : List ℚ → List (List ℚ)
  runAndDecode : List (List ℚ) → Except String String

namespace ParaformerASR

def decodeWav (wavBytes : Pcm) : Except AsrFault (List ℚ) :=
  match openWave wavBytes with
  | .error (.error message) => .error (.paraformer ("failed to parse WAV: " ++ message))
  | .error e => .error (.wave e)
  | .ok w =>
      if w.fmt.nchannels ≠ 1 then
        .error (.paraformer ("expected mono WAV, got " ++
          String.ofList (decimal w.fmt.nchannels) ++ " channels"))
      else if w.fmt.sampwidth ≠ 2 then
        .error (.paraformer ("expected 16-bit PCM, got " ++
          String.ofList (decimal (w.fmt.sampwidth * 8)) ++ "-bit"))
      else if w.fmt.framerate ≠ sampleRate then
        .error (.paraformer ("expected " ++ String.ofList (decimal sampleRate) ++ " Hz, got " ++
          String.ofList (decimal w.fmt.framerate) ++ " Hz"))
      else
        let frames := w.readframes w.nframes
        if frames.length % 2 = 1 then .error .value else .ok (toSamples frames)

theorem certain_range : (0 : ℚ) ≤ 1 ∧ (1 : ℚ) ≤ 1 :=
  ⟨zero_le_one, le_rfl⟩

def certain : Confidence :=
  ⟨1, certain_range⟩

def transcribeFile (asr : ParaformerASR) (wavBytes : Pcm) : Except AsrFault FinalTranscript := do
  let pcm ← decodeWav wavBytes
  let durationMs := (roundHalfEven ((pcm.length : ℚ) / sampleRate * 1000)).toNat
  let feats := asr.features pcm
  if feats = [] then
    .ok ⟨"", certain, durationMs⟩
  else
    match asr.runAndDecode feats with
    | .error text => .error (.network text)
    | .ok text => .ok ⟨text, certain, durationMs⟩

/-- A mono file at 16 kHz is accepted as it is. -/
theorem decodeWav_native {wavBytes : Pcm} {w : WaveFile} (hopen : openWave wavBytes = .ok w)
    (hmono : w.fmt.nchannels = 1) (hwidth : w.fmt.sampwidth = 2)
    (hrate : w.fmt.framerate = 16000) (heven : (w.readframes w.nframes).length % 2 = 0) :
    decodeWav wavBytes = .ok (toSamples (w.readframes w.nframes)) := by
  have hodd : ¬ (w.readframes w.nframes).length % 2 = 1 := by omega
  rw [decodeWav, hopen]
  simp only [if_neg (not_not.mpr hmono), if_neg (not_not.mpr hwidth),
    if_neg (not_not.mpr (show w.fmt.framerate = sampleRate from hrate)), if_neg hodd]

/-- Nothing else is. -/
theorem native_of_decodeWav {wavBytes : Pcm} {samples : List ℚ}
    (h : decodeWav wavBytes = .ok samples) :
    ∃ w, openWave wavBytes = .ok w ∧ w.fmt.nchannels = 1 ∧ w.fmt.framerate = 16000 := by
  rw [decodeWav] at h
  split at h
  next => cases h
  next => cases h
  next w hopen =>
    split_ifs at h with hmono hwidth hrate
    exact ⟨w, hopen, not_not.mp hmono, not_not.mp hrate⟩

/-- After the format check only the network raises. -/
theorem transcribeFile_of_decoded {asr : ParaformerASR} {wavBytes : Pcm} {samples : List ℚ}
    (h : decodeWav wavBytes = .ok samples) {message : String} :
    asr.transcribeFile wavBytes ≠ .error (.paraformer message) := by
  intro herror
  simp only [transcribeFile, h, bind, Except.bind] at herror
  split at herror
  next => cases herror
  next =>
    split at herror
    next => cases herror
    next => cases herror

end ParaformerASR

end Models
end Sandroid
