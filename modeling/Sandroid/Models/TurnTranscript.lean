import Sandroid.Api.TurnPipeline
import Sandroid.Models.ParaformerFeatures
import Sandroid.Vad.SileroStream

/-!
# A streamed turn and its offline counterpart

A turn with the detector and the recognizer of the release.  `_pump_vad_asr` promises the
text of `transcribe_file` on the first closed segment, and streams it instead.
`request_of_offline`: in every run the request carries that text, for the first of the
segments that file mode finds in the audio before the stop.
-/

namespace Sandroid
namespace Models

open Lib Api Vad

variable {P S : Type} [LE P] [DecidableLE P]

/-- Both channels of the detector. -/
def sileroBackend (silero : SileroVad P S) : Api.Vad where
  events := silero.channel (·.events)
  segments := silero.channel (·.segments)

/-- What file mode and `transcribe_file` make of some audio: the text of the first segment. -/
def OfflineText (silero : SileroVad P S) (model : ParaformerModel) (audio : Pcm) (text : String) :
    Prop :=
  ∃ seg rest transcript, silero.streamSegments [audio] = seg :: rest ∧
    (audio.length % 2 = 0 →
      silero.detect audio 16000 = .ok ((seg :: rest).map SegmentResult.toSpeechSegment)) ∧
    model.backend.transcribeFile (wrapPcmAsWav seg.pcm16 seg.sampleRate) = .ok transcript ∧
    text = transcript.text

/-- The first segment of the channel, however the audio comes in, is the first of file mode. -/
theorem detect_of_first {silero : SileroVad P S} {chunks : List Pcm} {seg : SegmentResult}
    (h : (sileroBackend silero).segments.First chunks seg) :
    ∃ rest, silero.streamSegments [chunks.flatten] = seg :: rest ∧
      (chunks.flatten.length % 2 = 0 → silero.detect chunks.flatten 16000 =
        .ok ((seg :: rest).map SegmentResult.toSpeechSegment)) := by
  obtain ⟨rest, hfirst⟩ := streamSegments_of_first h
  have hwhole : silero.streamSegments [chunks.flatten] = seg :: rest := by
    rw [← hfirst, SileroVad.streamSegments, SileroVad.streamSegments, SileroVad.driveStream_eq,
      SileroVad.driveStream_eq, List.flatten_singleton]
  refine ⟨rest, hwhole, fun heven => ?_⟩
  rw [silero.detect_eq _ (Nat.even_iff.mpr heven), ← hfirst, SileroVad.streamSegments,
    SileroVad.driveStream_eq]

/-- The stream over a segment returns the text of the file with it. -/
theorem transcript_of_returns {model : ParaformerModel} (hsilence : model.fbank [] = [])
    {partialEmitMs : Nat} {seg : SegmentResult} (hrate : seg.sampleRate = 16000)
    (hfits : 36 + seg.pcm16.length < 256 ^ 4) {ps : List PartialTranscript}
    (h : (model.backend.stream partialEmitMs).Returns (segmentChunks seg) ps) :
    ∃ transcript,
      model.backend.transcribeFile (wrapPcmAsWav seg.pcm16 seg.sampleRate) = .ok transcript ∧
        finalText ps = transcript.text := by
  obtain ⟨s, ⟨given, ended, -, hended, hreaches⟩, hstop⟩ := h
  obtain ⟨hover, partials, emittedMs, text, -, htext, rfl⟩ :=
    (streamAt_of_reaches hreaches).of_stop hstop
  rw [hended hover, audioOf_segmentChunks] at htext
  obtain ⟨transcript, hfile, hsame, -⟩ := ParaformerModel.saysTheFile hsilence hfits htext true
  refine ⟨transcript, ?_, ?_⟩
  · rw [hrate]
    exact hfile
  · rw [finalText_snoc, ← hsame]
    rfl

/-- **The text of a turn is the offline one.** -/
theorem request_of_offline (silero : SileroVad P S) (model : ParaformerModel)
    (hsilence : model.fbank [] = []) (partialEmitMs maxAudioBytes : Nat)
    (labels : List ListenLabel)
    (l : Listening (sileroBackend silero) (model.backend.stream partialEmitMs))
    (request : TurnRequest)
    (hrun : (Listening.accepted (sileroBackend silero) (model.backend.stream partialEmitMs)
      maxAudioBytes).run labels = some l)
    (hasked : l.asked = some request) :
    OfflineText silero model (pcmBeforeStop l.heard).flatten request.text := by
  obtain ⟨-, seg, ps, hseg, -, hps, htext⟩ := Listening.recognized_of_asked hrun hasked
  obtain ⟨rest, hwhole, hdetect⟩ := detect_of_first hseg.first
  have hmem : seg ∈ silero.streamSegments [(pcmBeforeStop l.heard).flatten] := by
    rw [hwhole]
    exact List.mem_cons_self
  obtain ⟨hrate, hfits⟩ := fits_of_mem_streamSegments hmem
  obtain ⟨transcript, hfile, hsame⟩ := transcript_of_returns hsilence hrate hfits hps
  exact ⟨seg, rest, transcript, hwhole, hdetect, hfile, htext.trans hsame⟩

/-- A detector that hears speech in every window. -/
def speechVad : SileroVad Nat Unit where
  inferWindow _ _ := (1, ())
  zeroState := ()
  threshold := 1

/-- Nine windows, which are just a segment, and the tasks one after the other. -/
def offlineRun : List ListenLabel :=
  [.message (.text (controlJson "start" 1)), .other (.pump true), .other (.finalize .ok true),
    .message (.bytes (List.replicate 9216 0)), .other .fan, .other (.events true),
    .other (.pump true), .message (.text (controlJson "stop" 1)), .other .fan] ++
  (List.replicate 4 (StreamLabel.events true) ++ List.replicate 9 (StreamLabel.pump true) ++
    [StreamLabel.finalize .ok true]).map .other

theorem request_of_offline_spoken :
    ∃ l request, (Listening.accepted (sileroBackend speechVad)
        (oneWindowModel.backend.stream 800) 65536).run offlineRun = some l ∧
      l.asked = some request ∧ request.text = "a" ∧
      OfflineText speechVad oneWindowModel (pcmBeforeStop l.heard).flatten request.text := by
  obtain ⟨l, request, hrun, hasked, htext⟩ := @Listening.exists_asked (sileroBackend speechVad)
    (oneWindowModel.backend.stream 800) 65536 offlineRun "a" (by decide +kernel)
  exact ⟨l, request, hrun, hasked, htext,
    request_of_offline speechVad oneWindowModel rfl 800 65536 offlineRun l request hrun hasked⟩

end Models
end Sandroid
