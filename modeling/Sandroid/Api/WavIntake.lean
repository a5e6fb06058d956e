import Sandroid.Api.RecognizeFile

/-!
# What the audio front end does with any reading

`decode_wav` of `core/audio.py` takes what Python's `wave` reads and turns it into 16 kHz
mono PCM16; whatever is wrong with a file is to come out as an `AudioFormatError`, which
`recognize_file` answers with status 400.  The header comes from outside: here the reader is
a parameter, and its channels, width, rate and frames have nothing to do with each other.

`wav_intake_iff`: when a payload is taken in as it should be.  Memory has no bound here.
-/

namespace Sandroid
namespace Api

open Lib Sandroid.Core Storage Models Sandroid.Vad

/-- What an open reader reports. -/
structure WaveReport where
  fmt : WaveFormat
  /-- `reader.readframes(reader.getnframes())` -/
  frames : Pcm

/-- `wave.open` of a payload, and what `decode_wav` asks of the reader. -/
def waveReading (data : Pcm) : Except WaveError WaveReport :=
  match openWave data with
  | .error e => .error e
  | .ok reader => .ok ⟨reader.fmt, reader.readframes reader.nframes⟩

/-- `decode_wav`, over any reader. -/
def decodeWavBy (reading : Pcm → Except WaveError WaveReport) (data : Pcm) :
    Except AudioFault AudioBuffer :=
  if data = [] then
    .error (.format "empty audio payload")
  else
    match reading data with
    | .error (.error message) => .error (.format ("invalid WAV payload: " ++ message))
    | .error e => .error (.wave e)
    | .ok report =>
        let channels := report.fmt.nchannels
        let sampleWidth := report.fmt.sampwidth
        let sampleRate := report.fmt.framerate
        if sampleWidth ≠ targetSampleWidth then
          .error (.format ("unsupported sample width " ++
            String.ofList (decimal (sampleWidth * 8)) ++
            "-bit; v0.1 accepts 16-bit PCM WAV only"))
        else if channels ≠ 1 ∧ channels ≠ 2 then
          .error (.format ("unsupported channel count " ++ String.ofList (decimal channels)))
        else do
          let samples ← fromBuffer report.frames
          let mono ← toMono channels samples
          let resampled ← resampleLinear mono sampleRate targetSampleRate
          .ok ⟨toBytes resampled, targetSampleRate, targetChannels⟩

/-- With the reader of the standard library it is the decoder of the front end. -/
theorem decodeWavBy_waveReading (data : Pcm) : decodeWavBy waveReading data = decodeWav data := by
  rw [decodeWavBy, decodeWav, waveReading]
  cases openWave data with
  | ok reader => rfl
  | error e =>
      cases e with
      | error message => rfl
      | eof => rfl
      | runtime => rfl

/-- A buffer in the canonical form, or an `AudioFormatError`. -/
def DecodedOrRefused : Except AudioFault AudioBuffer → Prop
  | .ok buffer => buffer.sampleRate = 16000 ∧ buffer.channels = 1 ∧ buffer.pcm16.length % 2 = 0
  | .error (.format _) => True
  | .error _ => False

/-- The payload is taken in as it should be, and a refusal becomes a status 400. -/
structure TakenIn (reading : Pcm → Except WaveError WaveReport) (data : Pcm) : Prop where
  expected : DecodedOrRefused (decodeWavBy reading data)
  refused : reading data = waveReading data → ∀ (service : FileService) (store : SessionStore)
    (form : FileForm) (message : String), form.sceneId ≠ none ∨ form.categoryPath ≠ none →
    data.length ≤ service.maxAudioBytes → decodeWavBy reading data = .error (.format message) →
    service.recognizeFile store form data = ⟨[], .refused 400 message, store⟩

/-- Frames of 16 bits, in one channel or in two, are whole and, if there are any, have a
rate. -/
def WaveReport.Convertible (report : WaveReport) : Prop :=
  report.fmt.sampwidth = 2 → report.fmt.nchannels ≤ 2 →
    report.frames.length % (2 * report.fmt.nchannels) = 0 ∧
      (report.frames = [] ∨ report.fmt.framerate ≠ 0)

/-- The reader either raises a `wave.Error` or reports convertible frames. -/
def Readable (reading : Pcm → Except WaveError WaveReport) (data : Pcm) : Prop :=
  data = [] ∨ (∃ message, reading data = .error (.error message)) ∨
    ∃ report, reading data = .ok report ∧ report.Convertible

section Steps

variable {frames : Pcm} {channels rate : Nat}

/-- The steps of the conversion, one after the other. -/
def convert (channels rate : Nat) (frames : Pcm) : Except AudioFault AudioBuffer := do
  let samples ← fromBuffer frames
  let mono ← toMono channels samples
  let resampled ← resampleLinear mono rate targetSampleRate
  .ok ⟨toBytes resampled, targetSampleRate, targetChannels⟩

/-- The conversion raises nothing unexpected if and only if each of its steps succeeds. -/
theorem decodedOrRefused_convert_iff_steps : DecodedOrRefused (convert channels rate frames) ↔
    ∃ samples mono resampled, fromBuffer frames = .ok samples ∧
      toMono channels samples = .ok mono ∧
      resampleLinear mono rate targetSampleRate = .ok resampled := by
  constructor
  · intro h
    cases hconvert : convert channels rate frames with
    | ok buffer =>
        simp only [convert, except_bind_eq_ok_iff] at hconvert
        obtain ⟨samples, hsamples, mono, hmono, resampled, hresampled, -⟩ := hconvert
        exact ⟨samples, mono, resampled, hsamples, hmono, hresampled⟩
    | error e =>
        rw [hconvert] at h
        cases e with
        | format message =>
            simp only [convert, except_bind_eq_error_iff] at hconvert
            rcases hconvert with hbuffer | ⟨samples, -, hmono | ⟨mono, -, hrest⟩⟩
            · exact absurd hbuffer (fromBuffer_ne_format message)
            · exact absurd hmono (toMono_ne_format message)
            · rcases hrest with hresample | ⟨resampled, -, hok⟩
              · exact absurd hresample (resampleLinear_ne_format message)
              · cases hok
        | wave e => exact h.elim
        | value => exact h.elim
        | zeroDivision => exact h.elim
  · rintro ⟨samples, mono, resampled, hsamples, hmono, hresampled⟩
    have hconvert : convert channels rate frames =
        .ok ⟨toBytes resampled, targetSampleRate, targetChannels⟩ := by
      simp only [convert, except_bind_eq_ok_iff]
      exact ⟨samples, hsamples, mono, hmono, resampled, hresampled, rfl⟩
    rw [hconvert]
    refine ⟨rfl, rfl, ?_⟩
    rw [length_toBytes]
    exact Nat.mul_mod_right 2 _

/-- An even number of bytes, and no samples for one channel or for two if and only if there
are no bytes. -/
theorem mono_eq_nil_iff (hwhole : frames.length % (2 * channels) = 0)
    (hchannels : channels = 1 ∨ channels = 2) :
    (if channels = 2 then mixDown (int16s frames) else int16s frames) = [] ↔ frames = [] := by
  rw [← List.length_eq_zero_iff, ← List.length_eq_zero_iff]
  rcases hchannels with rfl | rfl
  · rw [if_neg (by decide), length_int16s]
    omega
  · rw [if_pos rfl, length_mixDown, length_int16s]
    omega

/-- The samples are whole, and so are the pairs of them. -/
theorem whole_frames_iff (hchannels : channels = 1 ∨ channels = 2) :
    frames.length % 2 = 0 ∧ (channels = 2 → (int16s frames).length % 2 = 0) ↔
      frames.length % (2 * channels) = 0 := by
  rw [length_int16s]
  rcases hchannels with rfl | rfl
  · omega
  · omega

theorem decodedOrRefused_convert_iff (hchannels : channels = 1 ∨ channels = 2) :
    DecodedOrRefused (convert channels rate frames) ↔
      frames.length % (2 * channels) = 0 ∧ (frames = [] ∨ rate ≠ 0) := by
  rw [decodedOrRefused_convert_iff_steps]
  constructor
  · rintro ⟨samples, mono, resampled, hsamples, hmono, hresampled⟩
    obtain ⟨heven, rfl⟩ := fromBuffer_eq_ok_iff.mp hsamples
    obtain ⟨hpairs, rfl⟩ := toMono_eq_ok_iff.mp hmono
    have hwhole := (whole_frames_iff hchannels).mp ⟨heven, hpairs⟩
    refine ⟨hwhole, ?_⟩
    rw [← mono_eq_nil_iff hwhole hchannels]
    exact resampleLinear_ok_iff.mp ⟨resampled, hresampled⟩
  · rintro ⟨hwhole, hrate⟩
    obtain ⟨heven, hpairs⟩ := (whole_frames_iff hchannels).mpr hwhole
    rw [← mono_eq_nil_iff hwhole hchannels] at hrate
    obtain ⟨resampled, hresampled⟩ := resampleLinear_ok_iff.mpr hrate
    exact ⟨_, _, resampled, fromBuffer_eq_ok_iff.mpr ⟨heven, rfl⟩,
      toMono_eq_ok_iff.mpr ⟨hpairs, rfl⟩, hresampled⟩

end Steps

section Intake

variable {reading : Pcm → Except WaveError WaveReport} {data : Pcm} {report : WaveReport}

/-- A width or a number of channels that is not supported is refused by name; the rest is
converted. -/
theorem decodedOrRefused_of_report (hdata : data ≠ []) (hreport : reading data = .ok report) :
    DecodedOrRefused (decodeWavBy reading data) ↔ report.Convertible := by
  rw [decodeWavBy, if_neg hdata, hreport]
  simp only
  split_ifs with hwidth hchannels
  · exact iff_of_true trivial (fun htwo => absurd htwo hwidth)
  · refine iff_of_true trivial (fun _ hfew => ?_)
    have hpos := report.fmt.nchannels_pos
    omega
  · have hfew : report.fmt.nchannels = 1 ∨ report.fmt.nchannels = 2 := by omega
    have hconvert := @decodedOrRefused_convert_iff report.frames report.fmt.nchannels
      report.fmt.framerate hfew
    rw [convert] at hconvert
    rw [hconvert, WaveReport.Convertible]
    constructor
    · exact fun h _ _ => h
    · exact fun h => h (not_not.mp hwidth) (by omega)

/-- A reader that raises something else has not read the payload. -/
theorem not_readable_of_error {e : WaveError} (hdata : data ≠ [])
    (hreading : reading data = .error e) (he : ∀ message, e ≠ .error message) :
    ¬ Readable reading data := by
  rintro (h | ⟨message, h⟩ | ⟨report, h, -⟩)
  · exact hdata h
  · rw [hreading] at h
    exact he message (Except.error.inj h)
  · rw [hreading] at h
    cases h

theorem decodedOrRefused_iff :
    DecodedOrRefused (decodeWavBy reading data) ↔ Readable reading data := by
  by_cases hdata : data = []
  · rw [decodeWavBy, if_pos hdata]
    exact iff_of_true trivial (Or.inl hdata)
  · cases hreading : reading data with
    | ok report =>
        rw [decodedOrRefused_of_report hdata hreading]
        constructor
        · exact fun h => Or.inr (Or.inr ⟨report, hreading, h⟩)
        · rintro (h | ⟨message, h⟩ | ⟨report', h, hconvertible⟩)
          · exact absurd h hdata
          · rw [hreading] at h
            cases h
          · rw [hreading] at h
            rw [Except.ok.inj h]
            exact hconvertible
    | error e =>
        rw [decodeWavBy, if_neg hdata, hreading]
        cases e with
        | error message => exact iff_of_true trivial (Or.inr (Or.inl ⟨message, hreading⟩))
        | eof =>
            refine iff_of_false (fun h => h.elim) (not_readable_of_error hdata hreading ?_)
            exact fun message h => (by cases h)
        | runtime =>
            refine iff_of_false (fun h => h.elim) (not_readable_of_error hdata hreading ?_)
            exact fun message h => (by cases h)

/-- An `AudioFormatError` is answered with status 400, before anything else is called. -/
theorem recognizeFile_of_format {service : FileService} {form : FileForm} {message : String}
    (store : SessionStore) (hform : form.sceneId ≠ none ∨ form.categoryPath ≠ none)
    (hsize : data.length ≤ service.maxAudioBytes)
    (hdecode : decodeWav data = .error (.format message)) :
    service.recognizeFile store form data = ⟨[], .refused 400 message, store⟩ := by
  rw [FileService.recognizeFile, if_neg (not_and_or.mpr hform), if_neg (not_lt.mpr hsize), hdecode]

/-- It depends on the reading of this payload only. -/
theorem decodeWavBy_congr {reading' : Pcm → Except WaveError WaveReport}
    (h : reading data = reading' data) : decodeWavBy reading data = decodeWavBy reading' data := by
  rw [decodeWavBy, decodeWavBy, h]

/-- **A payload is taken in as it should be if and only if the reader raises a `wave.Error`
or reports convertible frames.** -/
theorem wav_intake_iff : TakenIn reading data ↔ Readable reading data := by
  constructor
  · exact fun h => decodedOrRefused_iff.mp h.expected
  · intro h
    refine ⟨decodedOrRefused_iff.mpr h, ?_⟩
    intro hsame service store form message hform hsize hrefused
    rw [decodeWavBy_congr hsame, decodeWavBy_waveReading] at hrefused
    exact recognizeFile_of_format store hform hsize hrefused

end Intake

/-- A file of 16 bits whose last bytes did not arrive. -/
def truncatedFile (nchannels missing : Nat) : Pcm :=
  (waveBytes nchannels 2 16000 [1, 0, 2, 0]).take (48 - missing)

/-- Payloads that are not refused with an `AudioFormatError`: a header that ends too soon,
half a sample, half a frame, and a rate of zero. -/
theorem wav_intake_faults :
    decodeWav (asciiBytes "RIFF") = .error (.wave .eof) ∧
      decodeWav (truncatedFile 1 1) = .error .value ∧
      decodeWav (truncatedFile 2 2) = .error .value ∧
      decodeWav (waveBytes 1 2 0 [1, 0]) = .error .zeroDivision ∧
      ¬ TakenIn waveReading (asciiBytes "RIFF") ∧
      ¬ TakenIn waveReading (truncatedFile 1 1) ∧
      ¬ TakenIn waveReading (truncatedFile 2 2) ∧
      ¬ TakenIn waveReading (waveBytes 1 2 0 [1, 0]) := by
  have heof : decodeWav (asciiBytes "RIFF") = .error (.wave .eof) := by decide +kernel
  have hsample : decodeWav (truncatedFile 1 1) = .error .value := by decide +kernel
  have hframe : decodeWav (truncatedFile 2 2) = .error .value := by decide +kernel
  have hrate : decodeWav (waveBytes 1 2 0 [1, 0]) = .error .zeroDivision := by decide +kernel
  have hnot {data : Pcm} {e : AudioFault} (he : decodeWav data = .error e)
      (hfault : ¬ DecodedOrRefused (.error e)) : ¬ TakenIn waveReading data := by
    intro h
    have hexpected := h.expected
    rw [decodeWavBy_waveReading, he] at hexpected
    exact hfault hexpected
  exact ⟨heof, hsample, hframe, hrate, hnot heof id, hnot hsample id, hnot hframe id,
    hnot hrate id⟩

end Api
end Sandroid
