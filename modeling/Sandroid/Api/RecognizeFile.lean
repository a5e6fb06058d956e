import Sandroid.Core.FailedRecognition
import Sandroid.Models.Paraformer

/-!
# Recognition of an uploaded file

`recognize_file` of `api/routes.py`: the upload is decoded to 16 kHz mono, the detector and
the orchestrator get the decoded samples, and the ASR gets the upload itself, which it
decodes on its own.

A run of the handler is its calls to the three of them, its outcome, and the session store
after it.  `heard_alike_iff`: when they have all been given the same recording.
-/

namespace Sandroid
namespace Api

open Lib Sandroid.Core Storage Models Sandroid.Vad

/-- What the handler depends on. -/
structure FileService where
  orchestrator : Orchestrator
  /-- `uuid4().hex` -/
  uuid : Nat → String
  /-- `repr` of a string -/
  repr : String → String
  asr : ParaformerASR
  /-- `vad.detect` -/
  detect : Pcm → Nat → Except SileroError (List SpeechSegment)
  maxAudioBytes : Nat

/-- The form fields beside the file. -/
structure FileForm where
  sceneId : Option String := none
  categoryPath : Option CategoryPath := none
  sessionId : Option String := none
  nBest : NBest := defaultNBest

inductive FileCall where
  | detect (pcm16 : Pcm) (sampleRate : Nat)
  | transcribe (wavBytes : Pcm)
  | recognize (req : RecognitionRequest)

/-- An exception that no `except` of the handler catches. -/
inductive FileFault where
  | audio (e : AudioFault)
  | vad (e : SileroError)
  | asr (e : AsrFault)
  | orchestrator (e : PyError)
deriving DecidableEq

inductive FileOutcome where
  /-- `HTTPException` -/
  | refused (status : Nat) (detail : String)
  | raised (e : FileFault)
  | answered (response : RecognitionResponse)
deriving DecidableEq

structure FileRun where
  calls : List FileCall
  outcome : FileOutcome
  store : SessionStore

/-- The `except` clauses around `orchestrator.recognize`; `str` of a `KeyError` is the
`repr` of its text. -/
def fileOutcome (repr : String → String) : Except PyError RecognitionResponse → FileOutcome
  | .ok response => .answered response
  | .error e =>
      match e.kind with
      | .keyError => .refused 404 (repr (e.message repr))
      | .valueError => .refused 422 (e.message repr)
      | .other => .raised (.orchestrator e)

def FileService.recognizeFile (service : FileService) (store : SessionStore) (form : FileForm)
    (raw : Pcm) : FileRun :=
  if form.sceneId = none ∧ form.categoryPath = none then
    ⟨[], .refused 422 "either scene_id or category_path is required", store⟩
  else if service.maxAudioBytes < raw.length then
    ⟨[], .refused 413 ("audio payload exceeds " ++
      String.ofList (decimal service.maxAudioBytes) ++ " bytes"), store⟩
  else
    match decodeWav raw with
    | .error (.format message) => ⟨[], .refused 400 message, store⟩
    | .error e => ⟨[], .raised (.audio e), store⟩
    | .ok buffer =>
        let detect := FileCall.detect buffer.pcm16 buffer.sampleRate
        match service.detect buffer.pcm16 buffer.sampleRate with
        | .error e => ⟨[detect], .raised (.vad e), store⟩
        | .ok [] => ⟨[detect], .refused 422 "no speech detected in audio", store⟩
        | .ok (_ :: _) =>
            match service.asr.transcribeFile raw with
            | .error e => ⟨[detect, .transcribe raw], .raised (.asr e), store⟩
            | .ok transcript =>
                let req : RecognitionRequest :=
                  { sceneId := form.sceneId
                    categoryPath := form.categoryPath
                    text := transcript.text
                    audio := some buffer.pcm16
                    sessionId := form.sessionId
                    nBest := form.nBest }
                let result := service.orchestrator.recognize service.uuid store req
                ⟨[detect, .transcribe raw, .recognize req],
                  fileOutcome service.repr result.1, result.2⟩

/-- The ASR is given a file it accepts, and hears in it the samples that the detector and
the orchestrator are given. -/
structure HeardAlike (run : FileRun) : Prop where
  same : ∀ wavBytes, .transcribe wavBytes ∈ run.calls →
    ∃ pcm16, .detect pcm16 16000 ∈ run.calls ∧
      ParaformerASR.decodeWav wavBytes = .ok (toSamples pcm16) ∧
      ∀ req, .recognize req ∈ run.calls → req.audio = some pcm16
  accepted : ∀ message, run.outcome ≠ .raised (.asr (.paraformer message))

/-- A file whose header says mono and 16 kHz. -/
def Native (raw : Pcm) : Prop :=
  ∃ reader, openWave raw = .ok reader ∧ reader.fmt.nchannels = 1 ∧ reader.fmt.framerate = 16000

section HeardAlike

variable {service : FileService} {store : SessionStore} {form : FileForm} {raw : Pcm}
  {buffer : AudioBuffer}

/-- What the orchestrator raises is not the fault of the ASR. -/
theorem fileOutcome_ne_asr {repr : String → String} {e : AsrFault}
    (result : Except PyError RecognitionResponse) :
    fileOutcome repr result ≠ .raised (.asr e) := by
  intro h
  cases result with
  | ok response => cases h
  | error e' =>
      simp only [fileOutcome] at h
      cases hkind : e'.kind with
      | keyError =>
          rw [hkind] at h
          cases h
      | valueError =>
          rw [hkind] at h
          cases h
      | other =>
          rw [hkind] at h
          cases h

/-- A request that comes to the ASR. -/
theorem recognizeFile_of_speech (store : SessionStore)
    (hform : form.sceneId ≠ none ∨ form.categoryPath ≠ none)
    (hsize : raw.length ≤ service.maxAudioBytes) (hdecode : decodeWav raw = .ok buffer)
    (hspeech : ∃ segment segments,
      service.detect buffer.pcm16 buffer.sampleRate = .ok (segment :: segments)) :
    (∃ e, service.asr.transcribeFile raw = .error e ∧
      service.recognizeFile store form raw =
        ⟨[.detect buffer.pcm16 buffer.sampleRate, .transcribe raw], .raised (.asr e), store⟩) ∨
    ∃ req result store', req.audio = some buffer.pcm16 ∧
      service.recognizeFile store form raw =
        ⟨[.detect buffer.pcm16 buffer.sampleRate, .transcribe raw, .recognize req],
          fileOutcome service.repr result, store'⟩ := by
  obtain ⟨segment, segments, hspeech⟩ := hspeech
  rw [FileService.recognizeFile, if_neg (not_and_or.mpr hform), if_neg (not_lt.mpr hsize), hdecode]
  simp only [hspeech]
  cases htext : service.asr.transcribeFile raw with
  | error e => exact Or.inl ⟨e, rfl, rfl⟩
  | ok transcript => exact Or.inr ⟨_, _, _, rfl, rfl⟩

/-- For an upload that is decoded and in which speech is found: the ASR hears the same
recording if and only if the file is mono and at 16 kHz. -/
theorem heard_alike_iff (hform : form.sceneId ≠ none ∨ form.categoryPath ≠ none)
    (hsize : raw.length ≤ service.maxAudioBytes) (hdecode : decodeWav raw = .ok buffer)
    (hspeech : ∃ segment segments,
      service.detect buffer.pcm16 buffer.sampleRate = .ok (segment :: segments)) :
    HeardAlike (service.recognizeFile store form raw) ↔ Native raw := by
  have hrun := recognizeFile_of_speech store hform hsize hdecode hspeech
  have hcalled : .transcribe raw ∈ (service.recognizeFile store form raw).calls := by
    rcases hrun with ⟨e, -, hrun⟩ | ⟨req, result, store', -, hrun⟩
    · rw [hrun]
      simp
    · rw [hrun]
      simp
  constructor
  · intro h
    obtain ⟨pcm16, -, haccepted, -⟩ := h.same raw hcalled
    exact ParaformerASR.native_of_decodeWav haccepted
  · rintro ⟨reader, hopen, hmono, hrate⟩
    obtain ⟨hwidth, heven, hpcm⟩ := decodeWav_native hdecode hopen hmono hrate
    obtain ⟨hsampleRate, -, -⟩ := decodeWav_canonical hdecode
    have haccepted := ParaformerASR.decodeWav_native hopen hmono hwidth hrate heven
    rw [← hpcm] at haccepted
    rw [hsampleRate] at hrun
    rcases hrun with ⟨e, he, hrun⟩ | ⟨req, result, store', haudio, hrun⟩
    · rw [hrun]
      refine ⟨?_, ?_⟩
      · intro wavBytes hmem
        simp only [List.mem_cons, FileCall.transcribe.injEq, reduceCtorEq, false_or,
          List.not_mem_nil, or_false] at hmem
        rw [hmem]
        exact ⟨buffer.pcm16, by simp, haccepted, by simp⟩
      · intro message heq
        rw [FileFault.asr.inj (FileOutcome.raised.inj heq)] at he
        exact ParaformerASR.transcribeFile_of_decoded haccepted he
    · rw [hrun]
      refine ⟨?_, ?_⟩
      · intro wavBytes hmem
        simp only [List.mem_cons, FileCall.transcribe.injEq, reduceCtorEq, false_or,
          List.not_mem_nil, or_false] at hmem
        rw [hmem]
        refine ⟨buffer.pcm16, by simp, haccepted, ?_⟩
        intro req' hreq
        simp only [List.mem_cons, FileCall.recognize.injEq, reduceCtorEq, false_or,
          List.not_mem_nil, or_false] at hreq
        rw [hreq]
        exact haudio
      · exact fun _ => fileOutcome_ne_asr result

end HeardAlike

section Examples

/-- A network that says what the menu scene asks for. -/
def menuAsr : ParaformerASR :=
  { features := fun pcm => [pcm]
    runAndDecode := fun _ => .ok "abc" }

def menuService : FileService :=
  { orchestrator := menuOrchestrator
    uuid := drawnId
    repr := id
    asr := menuAsr
    detect := fun _ _ => .ok [⟨0, 1⟩]
    maxAudioBytes := 1024 }

def menuForm : FileForm :=
  { sceneId := some "menu" }

/-- Two samples, for one channel or for two. -/
def twoSampleFile (nchannels : Nat) : Pcm :=
  waveBytes nchannels 2 16000 [1, 0, 2, 0]

theorem heard_alike_mono :
    HeardAlike (menuService.recognizeFile .empty menuForm (twoSampleFile 1)) := by
  have hopen : openWave (twoSampleFile 1) =
      .ok (plainFile ⟨1, 2, 16000, one_pos, two_pos⟩ [1, 0, 2, 0]) :=
    openWave_waveBytes ⟨1, 2, 16000, one_pos, two_pos⟩ (by decide) (by decide)
      (by decide) rfl (by decide)
  have hdecode : decodeWav (twoSampleFile 1) = .ok ⟨[1, 0, 2, 0], 16000, 1⟩ := by
    decide +kernel
  exact (heard_alike_iff (Or.inl (by decide)) (by decide) hdecode ⟨_, _, rfl⟩).mpr
    ⟨_, hopen, rfl, rfl⟩

/-- One frame in stereo: the detector hears the mean, and the ASR refuses the file. -/
theorem heard_alike_stereo :
    decodeWav (twoSampleFile 2) = .ok ⟨[1, 0], 16000, 1⟩ ∧
      (menuService.recognizeFile .empty menuForm (twoSampleFile 2)).outcome =
        .raised (.asr (.paraformer "expected mono WAV, got 2 channels")) ∧
      ¬ HeardAlike (menuService.recognizeFile .empty menuForm (twoSampleFile 2)) := by
  have houtcome : (menuService.recognizeFile .empty menuForm (twoSampleFile 2)).outcome =
      .raised (.asr (.paraformer "expected mono WAV, got 2 channels")) := by
    decide +kernel
  exact ⟨by decide +kernel, houtcome, fun h => h.accepted _ houtcome⟩

end Examples

end Api
end Sandroid
