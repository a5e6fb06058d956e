import Sandroid.Mrcp.BridgeConnection
import Sandroid.Mrcp.BridgeUtterance
import Mathlib.Tactic

/-!
# Whose audio a RESULT is about

A connection has one audio queue, and each START makes an ASR task that reads it.
Nothing stops the task of an earlier START, so that two of them may share the audio.

As long as every START finds the earlier tasks ended and the queue empty, or comes
after EOS, when no RESULT can follow any more, the task that a RESULT is about has
received exactly the audio since the latest START; and AUDIO and EOS at the wrong
moment are refused.
-/

namespace Sandroid
namespace Mrcp

open Lib Api

/-- The AUDIO payloads since the most recent START. -/
def audioSinceStart (frames : List Frame) : List Bytes :=
  frames.foldl (fun audio f =>
    if f.ftype = frameStart then []
    else if f.ftype = frameAudio then audio ++ [f.payload]
    else audio) []

/-- AUDIO before START, EOS before START, and a second EOS. -/
def OutOfOrder (before : List Frame) (f : Frame) : Prop :=
  (f.ftype = frameAudio ∧ ∀ g ∈ before, g.ftype ≠ frameStart) ∨
  (f.ftype = frameEos ∧
    ((∀ g ∈ before, g.ftype ≠ frameStart) ∨ ∃ g ∈ before, g.ftype = frameEos))

/-- No frame is out of order. -/
def InOrder (frames : List Frame) : Prop :=
  ∀ before f after, frames = before ++ f :: after → ¬ OutOfOrder before f

theorem audioSinceStart_start {frames : List Frame} {f : Frame} (h : f.ftype = frameStart) :
    audioSinceStart (frames ++ [f]) = [] := by
  rw [audioSinceStart, List.foldl_append, List.foldl_cons, List.foldl_nil, if_pos h]

theorem audioSinceStart_audio {frames : List Frame} {f : Frame} (h : f.ftype = frameAudio) :
    audioSinceStart (frames ++ [f]) = audioSinceStart frames ++ [f.payload] := by
  have hstart : f.ftype ≠ frameStart := by
    rw [h]
    decide
  rw [audioSinceStart, List.foldl_append, List.foldl_cons, List.foldl_nil, if_neg hstart,
    if_pos h, audioSinceStart]

theorem audioSinceStart_other {frames : List Frame} {f : Frame} (hstart : f.ftype ≠ frameStart)
    (haudio : f.ftype ≠ frameAudio) : audioSinceStart (frames ++ [f]) = audioSinceStart frames := by
  rw [audioSinceStart, List.foldl_append, List.foldl_cons, List.foldl_nil, if_neg hstart,
    if_neg haudio, audioSinceStart]

theorem InOrder.append {frames : List Frame} {f : Frame} (h : InOrder frames)
    (hf : ¬ OutOfOrder frames f) : InOrder (frames ++ [f]) := by
  intro before g after hsplit
  rcases List.eq_nil_or_concat after with rfl | ⟨after', last, rfl⟩
  · obtain ⟨rfl, hlast⟩ := List.append_inj' hsplit rfl
    cases hlast
    exact hf
  · rw [List.concat_eq_append, ← List.cons_append, ← List.append_assoc] at hsplit
    obtain ⟨rfl, _⟩ := List.append_inj' hsplit rfl
    exact h before g after' rfl

/-- The text that a stream over exactly these chunks ends with. -/
def Transcript (asr : Asr) (chunks : List AudioChunk) (text : String) : Prop :=
  ∃ s ys, asr.Reaches s chunks true ys ∧ asr.next s = .stop ∧ text = ys.foldl takeFinal ""

/-- The task is where its chunks and transcripts have led it. -/
structure RunAsr.Ok {asr : Asr} (task : RunAsr asr) : Prop where
  heard : ∃ ys, asr.Reaches task.state task.received task.exhausted ys ∧
    task.finalText = ys.foldl takeFinal ""
  returned : task.status = .returned → asr.next task.state = .stop

section Task

variable {asr : Asr} {task task' : RunAsr asr} {queue queue' : List (Option Bytes)}

theorem RunAsr.ok_init : RunAsr.Ok ({} : RunAsr asr) :=
  ⟨⟨[], .start, rfl⟩, fun h => by cases h⟩

theorem RunAsr.Ok.moves (h : task.Ok) (hstatus : task.status = .running)
    (hmove : task.Moves queue task' queue') : task'.Ok := by
  obtain ⟨ys, hreach, htext⟩ := h.heard
  have hnot : ¬ task.status = .returned := by
    rw [hstatus]
    intro hreturned
    cases hreturned
  cases hmove with
  | @emit _ item state hnext =>
    refine ⟨⟨ys ++ [item], hreach.emit hnext, ?_⟩, fun hr => absurd hr hnot⟩
    rw [List.foldl_append, ← htext]
    rfl
  | stop hnext => exact ⟨⟨ys, hreach, htext⟩, fun _ => hnext⟩
  | fail hnext => exact ⟨⟨ys, hreach, htext⟩, fun hr => by cases hr⟩
  | again hnext hexhausted =>
    refine ⟨⟨ys, ?_, htext⟩, fun hr => absurd hr hnot⟩
    rw [hexhausted]
    exact hreach.finish hnext
  | finish hnext hexhausted =>
    exact ⟨⟨ys, hreach.finish hnext, htext⟩, fun hr => absurd hr hnot⟩
  | pull hnext hexhausted =>
    rw [hexhausted] at hreach
    refine ⟨⟨ys, ?_, htext⟩, fun hr => absurd hr hnot⟩
    rw [show task.exhausted = false from hexhausted]
    exact hreach.pull hnext _

/-- A stream that reads to the end returns with the transcript of its chunks. -/
theorem RunAsr.Ok.transcript (hasr : asr.Exhausts) (h : task.Ok)
    (hreturned : task.status = .returned) :
    task.exhausted = true ∧ Transcript asr task.received task.finalText := by
  obtain ⟨ys, hreach, htext⟩ := h.heard
  have hstop := h.returned hreturned
  cases hexhausted : task.exhausted with
  | false =>
    rw [hexhausted] at hreach
    exact absurd hstop (hasr hreach)
  | true =>
    rw [hexhausted] at hreach
    exact ⟨rfl, task.state, ys, hreach, hstop, htext⟩

end Task

namespace Connection

variable {config : BridgeConfig} {c c' : Connection config}

/-- A RESULT has the transcript of a stream that received the audio since the latest
START, as of the frames read before it. -/
def Faithful (config : BridgeConfig) (arrived : List Frame) (w : Written) : Prop :=
  w.frame.ftype = frameResult →
    ∃ text confidence intentId, Transcript config.asr w.heard text ∧
      w.frame.payload = renderNlsml text confidence intentId ∧
      w.heard.map AudioChunk.pcm16 = audioSinceStart (arrived.take w.after)

/-- The last frame read was answered with ERROR(UNEXPECTED_FRAME), and the connection
is closed. -/
def Refused (c : Connection config) : Prop :=
  c.phase = .closed ∧ ∃ w ∈ c.written, w.after = c.arrived.length ∧
    ∃ message, errorFrame? "UNEXPECTED_FRAME" message = some w.frame

/-- Where the ASR tasks stand while a RESULT is still possible. -/
inductive Stage (c : Connection config) : Prop
  | answered (phase : c.phase = .reading) (eosSeen : c.channel.eosSeen = true)
  | unopened (phase : c.phase = .reading) (started : c.channel.started = false)
      (eosSeen : c.channel.eosSeen = false)
  | hearing {old : List (RunAsr config.asr)} {task : RunAsr config.asr} {pending : List Bytes}
      (phase : c.phase = .reading) (eosSeen : c.channel.eosSeen = false)
      (tasks : c.tasks = old ++ [task]) (ended : ∀ t ∈ old, t.status ≠ .running)
      (queue : c.channel.audioQueue = pending.map some) (unended : task.exhausted = false)
      (audio : task.status = .running →
        task.received.map AudioChunk.pcm16 ++ pending = audioSinceStart c.arrived)
  | awaiting {old : List (RunAsr config.asr)} {task : RunAsr config.asr} {pending : List Bytes}
      (phase : c.phase = .awaitingAsr) (eosSeen : c.channel.eosSeen = true)
      (tasks : c.tasks = old ++ [task]) (ended : ∀ t ∈ old, t.status ≠ .running)
      (queue : c.channel.audioQueue = pending.map some ++ [none]) (unended : task.exhausted = false)
      (audio : task.status = .running →
        task.received.map AudioChunk.pcm16 ++ pending = audioSinceStart c.arrived)
  | drained {old : List (RunAsr config.asr)} {task : RunAsr config.asr}
      (phase : c.phase = .awaitingAsr) (eosSeen : c.channel.eosSeen = true)
      (tasks : c.tasks = old ++ [task]) (ended : ∀ t ∈ old, t.status ≠ .running)
      (exhausted : task.exhausted = true)
      (audio : task.received.map AudioChunk.pcm16 = audioSinceStart c.arrived)

/-- A connection that is still open. -/
structure Live (c : Connection config) : Prop where
  tasks : ∀ t ∈ c.tasks, t.Ok
  started : c.channel.started = true ↔ ∃ f ∈ c.arrived, f.ftype = frameStart
  eosSeen : c.channel.eosSeen = true ↔ ∃ f ∈ c.arrived, f.ftype = frameEos
  stage : Stage c

structure Inv (c : Connection config) : Prop where
  results : ∀ w ∈ c.written, Faithful config c.arrived w ∧ w.after ≤ c.arrived.length
  order : InOrder c.arrived ∨
    ∃ before f, c.arrived = before ++ [f] ∧ InOrder before ∧ c.Refused
  live : c.phase = .closed ∨ Live c

section Closing

@[simp] theorem close_phase (c : Connection config) : c.close.phase = .closed := rfl
@[simp] theorem close_arrived (c : Connection config) : c.close.arrived = c.arrived := rfl
@[simp] theorem close_written (c : Connection config) : c.close.written = c.written := rfl

theorem errorFrame?_ftype {code message : String} {frame : Frame}
    (h : errorFrame? code message = some frame) : frame.ftype = frameError := by
  rw [errorFrame?] at h
  split at h
  next => cases h
  next =>
    rw [← Option.some.inj h]

theorem refuse_phase (c : Connection config) (code message : String) :
    (c.refuse code message).phase = .closed := by
  rw [refuse]
  split <;> rfl

theorem refuse_arrived (c : Connection config) (code message : String) :
    (c.refuse code message).arrived = c.arrived := by
  rw [refuse]
  split <;> rfl

/-- A refusal writes at most an ERROR. -/
theorem mem_written_refuse {code message : String} {w : Written}
    (h : w ∈ (c.refuse code message).written) :
    w ∈ c.written ∨ (w.frame.ftype = frameError ∧ w.after = c.arrived.length) := by
  rw [refuse] at h
  split at h
  next => exact Or.inl h
  next frame hframe =>
    rw [close_written, write, List.mem_append, List.mem_singleton] at h
    rcases h with h | rfl
    · exact Or.inl h
    · exact Or.inr ⟨errorFrame?_ftype hframe, rfl⟩

theorem refused_refuse {message : String} {frame : Frame}
    (h : errorFrame? "UNEXPECTED_FRAME" message = some frame) :
    (c.refuse "UNEXPECTED_FRAME" message).Refused := by
  refine ⟨refuse_phase _ _ _, ⟨c.arrived.length, frame, []⟩, ?_, ?_, message, h⟩
  · rw [refuse, h]
    simp [write]
  · rw [refuse_arrived]

theorem Faithful.of_error {arrived : List Frame} {w : Written}
    (h : w.frame.ftype = frameError) : Faithful config arrived w := by
  intro hresult
  rw [h] at hresult
  exact absurd hresult (by decide)

theorem Faithful.of_transcript {arrived : List Frame} {payload : Bytes} {heard : List AudioChunk}
    {text intentId : String} {confidence : ℚ} (htranscript : Transcript config.asr heard text)
    (hpayload : payload = renderNlsml text confidence intentId)
    (haudio : heard.map AudioChunk.pcm16 = audioSinceStart arrived) :
    Faithful config arrived ⟨arrived.length, ⟨frameResult, payload⟩, heard⟩ := by
  intro _
  refine ⟨text, confidence, intentId, htranscript, hpayload, ?_⟩
  rw [List.take_length]
  exact haudio

theorem Faithful.append {arrived more : List Frame} {w : Written}
    (h : Faithful config arrived w) (hafter : w.after ≤ arrived.length) :
    Faithful config (arrived ++ more) w := by
  intro hresult
  rw [List.take_append_of_le_length hafter]
  exact h hresult

/-- Nothing out of order has been read from an open connection. -/
theorem Inv.inOrder (h : Inv c) (hphase : c.phase ≠ .closed) : InOrder c.arrived := by
  rcases h.order with horder | ⟨before, f, _, _, hrefused⟩
  · exact horder
  · exact absurd hrefused.1 hphase

theorem Inv.isLive (h : Inv c) (hphase : c.phase ≠ .closed) : Live c :=
  h.live.resolve_left hphase

/-- The results stay what they were when a frame is read. -/
theorem Inv.results_read (h : Inv c) (f : Frame) :
    ∀ w ∈ c.written, Faithful config (c.arrived ++ [f]) w ∧
      w.after ≤ (c.arrived ++ [f]).length := by
  intro w hw
  obtain ⟨hfaithful, hafter⟩ := h.results w hw
  refine ⟨hfaithful.append hafter, hafter.trans ?_⟩
  rw [List.length_append]
  omega

/-- A refusal keeps the invariant. -/
theorem Inv.refuse {code message : String}
    (hresults : ∀ w ∈ c.written, Faithful config c.arrived w ∧ w.after ≤ c.arrived.length)
    (horder : InOrder c.arrived) : Inv (c.refuse code message) := by
  refine ⟨?_, Or.inl (by rw [refuse_arrived]; exact horder), Or.inl (refuse_phase _ _ _)⟩
  intro w hw
  rw [refuse_arrived]
  rcases mem_written_refuse hw with hold | ⟨hftype, hafter⟩
  · exact hresults w hold
  · exact ⟨.of_error hftype, hafter.le⟩

theorem Inv.close
    (hresults : ∀ w ∈ c.written, Faithful config c.arrived w ∧ w.after ≤ c.arrived.length)
    (horder : InOrder c.arrived) : Inv c.close :=
  ⟨hresults, Or.inl horder, Or.inl rfl⟩

/-- The refusal of a frame out of order. -/
theorem Inv.refuse_last {before : List Frame} {f : Frame} {message : String} {frame : Frame}
    (hresults : ∀ w ∈ c.written, Faithful config c.arrived w ∧ w.after ≤ c.arrived.length)
    (harrived : c.arrived = before ++ [f]) (horder : InOrder before)
    (hframe : errorFrame? "UNEXPECTED_FRAME" message = some frame) :
    Inv (c.refuse "UNEXPECTED_FRAME" message) := by
  refine ⟨?_, Or.inr ⟨before, f, ?_, horder, refused_refuse hframe⟩,
    Or.inl (refuse_phase _ _ _)⟩
  · intro w hw
    rw [refuse_arrived]
    rcases mem_written_refuse hw with hold | ⟨hftype, hafter⟩
    · exact hresults w hold
    · exact ⟨.of_error hftype, hafter.le⟩
  · rw [refuse_arrived]
    exact harrived

end Closing

section Reading

/-- A START is harmless: no task is left from an earlier one and no audio either, or
EOS has been seen. -/
def Fresh (c : Connection config) : Prop :=
  c.channel.eosSeen = true ∨
    (c.channel.audioQueue = [] ∧ ∀ t ∈ c.tasks, t.status ≠ .running)

theorem exists_ftype_append {frames : List Frame} {f : Frame} {t : UInt8} :
    (∃ g ∈ frames ++ [f], g.ftype = t) ↔ (∃ g ∈ frames, g.ftype = t) ∨ f.ftype = t := by
  simp only [List.mem_append, List.mem_singleton, or_and_right, exists_or, exists_eq_left]

theorem exists_ftype_append_of_ne {frames : List Frame} {f : Frame} {t : UInt8}
    (h : f.ftype ≠ t) : (∃ g ∈ frames ++ [f], g.ftype = t) ↔ ∃ g ∈ frames, g.ftype = t := by
  rw [exists_ftype_append, or_iff_left h]

theorem not_outOfOrder {frames : List Frame} {f : Frame} (haudio : f.ftype ≠ frameAudio)
    (heos : f.ftype ≠ frameEos) : ¬ OutOfOrder frames f := by
  rintro (⟨h, _⟩ | ⟨h, _⟩)
  · exact haudio h
  · exact heos h

variable {f : Frame} {rest : Bytes}

theorem Inv.handleStart (h : Inv c) (hphase : c.phase = .reading) (hfresh : c.Fresh)
    (hf : f.ftype = frameStart) : Inv ((c.taken f rest).handleStart f.payload) := by
  have hopen : c.phase ≠ .closed := by
    rw [hphase]
    intro hclosed
    cases hclosed
  have haudio : f.ftype ≠ frameAudio := by
    rw [hf]
    decide
  have heos : f.ftype ≠ frameEos := by
    rw [hf]
    decide
  have horder : InOrder (c.taken f rest).arrived :=
    (h.inOrder hopen).append (not_outOfOrder haudio heos)
  have hresults := h.results_read f
  have hlive := h.isLive hopen
  rw [Connection.handleStart]
  split
  next e _ =>
    split
    next => exact .refuse hresults horder
    next => exact .close hresults horder
  next fields _ _ =>
    refine ⟨hresults, Or.inl horder, Or.inr ⟨?_, ?_, ?_, ?_⟩⟩
    · intro t ht
      rcases List.mem_append.mp ht with ht | ht
      · exact hlive.tasks t ht
      · rw [List.mem_singleton.mp ht]
        exact RunAsr.ok_init
    · exact ⟨fun _ => ⟨f, by simp [openChannel, taken], hf⟩, fun _ => rfl⟩
    · exact hlive.eosSeen.trans (exists_ftype_append_of_ne heos).symm
    · rcases hfresh with hseen | ⟨hqueue, hended⟩
      · exact .answered hphase hseen
      · cases hseen : c.channel.eosSeen with
        | true => exact .answered hphase hseen
        | false =>
          refine @Stage.hearing _ _ c.tasks {} [] hphase hseen rfl hended hqueue rfl ?_
          intro _
          exact (audioSinceStart_start hf).symm
  next => exact .refuse hresults horder

theorem errorFrame?_audio :
    ∃ frame, errorFrame? "UNEXPECTED_FRAME" "AUDIO before START" = some frame :=
  ⟨_, rfl⟩

theorem errorFrame?_eos : ∃ frame, errorFrame? "UNEXPECTED_FRAME" "bad EOS" = some frame :=
  ⟨_, rfl⟩

theorem Inv.handleAudio (h : Inv c) (hphase : c.phase = .reading) (hf : f.ftype = frameAudio) :
    Inv ((c.taken f rest).handleAudio f.payload) := by
  have hopen : c.phase ≠ .closed := by
    rw [hphase]
    intro hclosed
    cases hclosed
  have hstart : f.ftype ≠ frameStart := by
    rw [hf]
    decide
  have heos : f.ftype ≠ frameEos := by
    rw [hf]
    decide
  have hresults := h.results_read f
  have hlive := h.isLive hopen
  by_cases hstarted : c.channel.started = true
  · rw [handleAudio_of_started (show (c.taken f rest).channel.started = true from hstarted)]
    have horder : ¬ OutOfOrder c.arrived f := by
      rintro (⟨_, hnone⟩ | ⟨hf', _⟩)
      · obtain ⟨g, hg, hgs⟩ := hlive.started.mp hstarted
        exact hnone g hg hgs
      · exact heos hf'
    refine ⟨hresults, Or.inl ((h.inOrder hopen).append horder), Or.inr ⟨hlive.tasks, ?_, ?_, ?_⟩⟩
    · simp only [accumulate_started]
      exact hlive.started.trans (exists_ftype_append_of_ne hstart).symm
    · simp only [accumulate_eosSeen]
      exact hlive.eosSeen.trans (exists_ftype_append_of_ne heos).symm
    · cases hlive.stage with
      | answered phase eosSeen =>
        exact .answered phase ((accumulate_eosSeen _ _).trans eosSeen)
      | unopened phase started eosSeen =>
        rw [started] at hstarted
        cases hstarted
      | @hearing old task pending phase eosSeen tasks ended queue unended audio =>
        refine @Stage.hearing _ _ old task (pending ++ [f.payload]) phase ?_ tasks ended ?_
          unended ?_
        · exact (accumulate_eosSeen _ _).trans eosSeen
        · change (accumulate c.channel f.payload).audioQueue ++ [some f.payload] = _
          rw [accumulate_audioQueue, queue, List.map_append]
          rfl
        · intro hrunning
          rw [← List.append_assoc, audio hrunning]
          exact (audioSinceStart_audio hf).symm
      | awaiting phase => rw [phase] at hphase; cases hphase
      | drained phase => rw [phase] at hphase; cases hphase
  · rw [handleAudio_refused (show ¬ (c.taken f rest).channel.started = true from hstarted)]
    obtain ⟨frame, hframe⟩ := errorFrame?_audio
    exact .refuse_last hresults rfl (h.inOrder hopen) hframe

theorem Inv.handleEos (h : Inv c) (hphase : c.phase = .reading) (hf : f.ftype = frameEos) :
    Inv (c.taken f rest).handleEos := by
  have hopen : c.phase ≠ .closed := by
    rw [hphase]
    intro hclosed
    cases hclosed
  have hstart : f.ftype ≠ frameStart := by
    rw [hf]
    decide
  have haudio : f.ftype ≠ frameAudio := by
    rw [hf]
    decide
  have hresults := h.results_read f
  have hlive := h.isLive hopen
  by_cases hbad : ¬ (c.taken f rest).channel.started = true ∨
      (c.taken f rest).channel.eosSeen = true
  · rw [handleEos_refused hbad]
    obtain ⟨frame, hframe⟩ := errorFrame?_eos
    exact .refuse_last hresults rfl (h.inOrder hopen) hframe
  · rw [not_or, not_not] at hbad
    obtain ⟨hstarted, hseen⟩ := hbad
    have horder : ¬ OutOfOrder c.arrived f := by
      rintro (⟨hf', _⟩ | ⟨_, hnone | hsome⟩)
      · exact haudio hf'
      · obtain ⟨g, hg, hgs⟩ := hlive.started.mp hstarted
        exact hnone g hg hgs
      · exact hseen (hlive.eosSeen.mpr hsome)
    cases hlive.stage with
    | answered phase eosSeen => exact absurd eosSeen hseen
    | unopened phase started eosSeen =>
      exact absurd (started.symm.trans hstarted) Bool.false_ne_true
    | @hearing old task pending phase eosSeen tasks ended queue unended audio =>
      have htasks : (c.taken f rest).tasks ≠ [] := by
        change c.tasks ≠ []
        rw [tasks]
        simp
      rw [handleEos_of_started hstarted hseen htasks]
      refine ⟨hresults, Or.inl ((h.inOrder hopen).append horder),
        Or.inr ⟨hlive.tasks, ?_, ?_, ?_⟩⟩
      · exact hlive.started.trans (exists_ftype_append_of_ne hstart).symm
      · exact ⟨fun _ => ⟨f, by simp [taken], hf⟩, fun _ => rfl⟩
      · refine @Stage.awaiting _ _ old task pending rfl rfl tasks ended ?_ unended ?_
        · change c.channel.audioQueue ++ [none] = _
          rw [queue]
        · intro hrunning
          exact (audio hrunning).trans (audioSinceStart_other hstart haudio).symm
    | awaiting phase => rw [phase] at hphase; cases hphase
    | drained phase => rw [phase] at hphase; cases hphase

/-- Frames of other types change nothing. -/
theorem Inv.ignore (h : Inv c) (hphase : c.phase = .reading) (hstart : f.ftype ≠ frameStart)
    (haudio : f.ftype ≠ frameAudio) (heos : f.ftype ≠ frameEos) : Inv (c.taken f rest) := by
  have hopen : c.phase ≠ .closed := by
    rw [hphase]
    intro hclosed
    cases hclosed
  have hlive := h.isLive hopen
  refine ⟨h.results_read f, Or.inl ((h.inOrder hopen).append (not_outOfOrder haudio heos)),
    Or.inr ⟨hlive.tasks, ?_, ?_, ?_⟩⟩
  · exact hlive.started.trans (exists_ftype_append_of_ne hstart).symm
  · exact hlive.eosSeen.trans (exists_ftype_append_of_ne heos).symm
  · cases hlive.stage with
    | answered phase eosSeen => exact .answered phase eosSeen
    | unopened phase started eosSeen => exact .unopened phase started eosSeen
    | @hearing old task pending phase eosSeen tasks ended queue unended audio =>
      refine .hearing phase eosSeen tasks ended queue unended ?_
      intro hrunning
      exact (audio hrunning).trans (audioSinceStart_other hstart haudio).symm
    | awaiting phase => rw [phase] at hphase; cases hphase
    | drained phase => rw [phase] at hphase; cases hphase

theorem Inv.readNext (h : Inv c) (hphase : c.phase = .reading)
    (hfresh : ∀ f rest, readFrame c.input = .frame f rest → f.ftype = frameStart → c.Fresh) :
    Inv c.readNext := by
  have hopen : c.phase ≠ .closed := by
    rw [hphase]
    intro hclosed
    cases hclosed
  cases hread : readFrame c.input with
  | incomplete =>
    rw [Connection.readNext, hread]
    exact .close h.results (h.inOrder hopen)
  | invalidSize total =>
    rw [Connection.readNext, hread]
    exact .close h.results (h.inOrder hopen)
  | frame f rest =>
    rw [readNext_of_frame hread]
    by_cases hstart : f.ftype = frameStart
    · rw [dispatch_start hstart]
      exact h.handleStart hphase (hfresh f rest hread hstart) hstart
    by_cases haudio : f.ftype = frameAudio
    · rw [dispatch_audio haudio]
      exact h.handleAudio hphase haudio
    by_cases heos : f.ftype = frameEos
    · rw [dispatch_eos heos]
      exact h.handleEos hphase heos
    have hignored : Inv (c.taken f rest) := h.ignore hphase hstart haudio heos
    by_cases hstop : f.ftype = frameStop
    · rw [dispatch_stop hstop]
      exact .close hignored.results ((h.inOrder hopen).append (not_outOfOrder haudio heos))
    · rw [dispatch_unknown hstart haudio heos hstop]
      exact hignored

end Reading

section Answering

/-- Only the current task can move. -/
theorem running_getElem? {old : List (RunAsr config.asr)} {task t : RunAsr config.asr} {i : Nat}
    (hended : ∀ t ∈ old, t.status ≠ .running) (hget : (old ++ [task])[i]? = some t)
    (hrunning : t.status = .running) : i = old.length ∧ t = task := by
  rcases Nat.lt_or_ge i old.length with hlt | hge
  · rw [List.getElem?_append_left hlt] at hget
    exact absurd hrunning (hended t (List.mem_of_getElem? hget))
  · rw [List.getElem?_append_right hge] at hget
    have hi : i - old.length = 0 := by
      by_contra hne
      obtain ⟨k, hk⟩ := Nat.exists_eq_succ_of_ne_zero hne
      rw [hk] at hget
      cases hget
    rw [hi] at hget
    exact ⟨by omega, (Option.some.inj hget).symm⟩

theorem Stage.asrStep {i : Nat} {t t' : RunAsr config.asr} {queue : List (Option Bytes)}
    (h : Stage c) (hget : c.tasks[i]? = some t) (hrunning : t.status = .running)
    (hmoves : t.Moves c.channel.audioQueue t' queue) :
    Stage { c with
      channel := { c.channel with audioQueue := queue }
      tasks := c.tasks.set i t' } := by
  have hset : ∀ {old : List (RunAsr config.asr)} {task : RunAsr config.asr},
      c.tasks = old ++ [task] → (∀ t ∈ old, t.status ≠ .running) →
      t = task ∧ c.tasks.set i t' = old ++ [t'] := by
    intro old task htasks hended
    rw [htasks] at hget
    obtain ⟨rfl, rfl⟩ := running_getElem? hended hget hrunning
    refine ⟨rfl, ?_⟩
    rw [htasks]
    simp
  cases h with
  | answered phase eosSeen => exact .answered phase eosSeen
  | unopened phase started eosSeen => exact .unopened phase started eosSeen
  | @hearing old task pending phase eosSeen tasks ended q unended audio =>
    obtain ⟨rfl, htasks⟩ := hset tasks ended
    have haudio := audio hrunning
    rw [q] at hmoves
    generalize hp : pending.map some = items at hmoves
    cases hmoves with
    | emit hnext => exact .hearing phase eosSeen htasks ended hp.symm unended fun _ => haudio
    | stop hnext => exact .hearing phase eosSeen htasks ended hp.symm unended fun _ => haudio
    | fail hnext => exact .hearing phase eosSeen htasks ended hp.symm unended fun _ => haudio
    | again hnext hexhausted =>
      rw [unended] at hexhausted
      cases hexhausted
    | finish hnext hexhausted =>
      cases pending with
      | nil => cases hp
      | cons pcm pending => cases hp
    | pull hnext hexhausted =>
      cases pending with
      | nil => cases hp
      | cons pcm pending =>
        cases hp
        refine @Stage.hearing _ _ old _ pending phase eosSeen htasks ended rfl unended ?_
        intro _
        rw [← haudio, List.map_append, List.append_assoc]
        rfl
  | @awaiting old task pending phase eosSeen tasks ended q unended audio =>
    obtain ⟨rfl, htasks⟩ := hset tasks ended
    have haudio := audio hrunning
    rw [q] at hmoves
    generalize hp : pending.map some ++ [none] = items at hmoves
    cases hmoves with
    | emit hnext => exact .awaiting phase eosSeen htasks ended hp.symm unended fun _ => haudio
    | stop hnext => exact .awaiting phase eosSeen htasks ended hp.symm unended fun _ => haudio
    | fail hnext => exact .awaiting phase eosSeen htasks ended hp.symm unended fun _ => haudio
    | again hnext hexhausted =>
      rw [unended] at hexhausted
      cases hexhausted
    | finish hnext hexhausted =>
      cases pending with
      | nil =>
        rw [List.append_nil] at haudio
        exact .drained phase eosSeen htasks ended rfl haudio
      | cons pcm pending => cases hp
    | pull hnext hexhausted =>
      cases pending with
      | nil => cases hp
      | cons pcm pending =>
        cases hp
        refine @Stage.awaiting _ _ old _ pending phase eosSeen htasks ended rfl unended ?_
        intro _
        rw [← haudio, List.map_append, List.append_assoc]
        rfl
  | @drained old task phase eosSeen tasks ended exhausted audio =>
    obtain ⟨rfl, htasks⟩ := hset tasks ended
    generalize c.channel.audioQueue = items at hmoves
    cases hmoves with
    | emit hnext => exact .drained phase eosSeen htasks ended exhausted audio
    | stop hnext => exact .drained phase eosSeen htasks ended exhausted audio
    | fail hnext => exact .drained phase eosSeen htasks ended exhausted audio
    | again hnext hexhausted => exact .drained phase eosSeen htasks ended exhausted audio
    | finish hnext hexhausted =>
      rw [exhausted] at hexhausted
      cases hexhausted
    | pull hnext hexhausted =>
      rw [exhausted] at hexhausted
      cases hexhausted

theorem Inv.asrStep {i : Nat} (h : Inv c) (hstep : c.asrStep i = some c') : Inv c' := by
  obtain ⟨t, t', queue, hget, hrunning, hmoves, rfl⟩ := asrStep_eq_some hstep
  refine ⟨h.results, h.order, ?_⟩
  rcases h.live with hclosed | hlive
  · exact Or.inl hclosed
  · refine Or.inr ⟨?_, hlive.started, hlive.eosSeen, hlive.stage.asrStep hget hrunning hmoves⟩
    intro task htask
    rcases List.mem_or_eq_of_mem_set htask with hold | rfl
    · exact hlive.tasks task hold
    · exact (hlive.tasks t (List.mem_of_getElem? hget)).moves hrunning hmoves

/-- The task that a RESULT is about has received the audio since the latest START. -/
theorem Live.heard (hasr : config.asr.Exhausts) (h : Live c) {task : RunAsr config.asr}
    (hphase : c.phase = .awaitingAsr) (hlast : c.tasks.getLast? = some task)
    (hreturned : task.status = .returned) :
    Transcript config.asr task.received task.finalText ∧
      task.received.map AudioChunk.pcm16 = audioSinceStart c.arrived := by
  have hok := h.tasks task (List.mem_of_getLast? hlast)
  obtain ⟨hexhausted, htranscript⟩ := hok.transcript hasr hreturned
  refine ⟨htranscript, ?_⟩
  have hcurrent : ∀ {old : List (RunAsr config.asr)} {t : RunAsr config.asr},
      c.tasks = old ++ [t] → t = task := by
    intro old t htasks
    rw [htasks, List.getLast?_concat] at hlast
    exact Option.some.inj hlast
  cases h.stage with
  | answered phase => rw [phase] at hphase; cases hphase
  | unopened phase => rw [phase] at hphase; cases hphase
  | hearing phase => rw [phase] at hphase; cases hphase
  | awaiting phase eosSeen tasks ended queue unended audio =>
    rw [hcurrent tasks, hexhausted] at unended
    cases unended
  | drained phase eosSeen tasks ended exhausted audio =>
    rw [hcurrent tasks] at audio
    exact audio

theorem Live.eosSeen_of_awaiting (h : Live c) (hphase : c.phase = .awaitingAsr) :
    c.channel.eosSeen = true := by
  cases h.stage with
  | answered phase => rw [phase] at hphase; cases hphase
  | unopened phase => rw [phase] at hphase; cases hphase
  | hearing phase => rw [phase] at hphase; cases hphase
  | awaiting phase eosSeen => exact eosSeen
  | drained phase eosSeen => exact eosSeen

theorem Inv.sendResult (hasr : config.asr.Exhausts) (h : Inv c) {task : RunAsr config.asr}
    (hphase : c.phase = .awaitingAsr) (hlast : c.tasks.getLast? = some task)
    (hreturned : task.status = .returned) : Inv (c.sendResult task) := by
  have hopen : c.phase ≠ .closed := by
    rw [hphase]
    intro hclosed
    cases hclosed
  have hlive := h.isLive hopen
  obtain ⟨htranscript, haudio⟩ := hlive.heard hasr hphase hlast hreturned
  rcases Nat.lt_or_ge ((c.nlsmlFor task.finalText).length + 1) (2 ^ 32) with hshort | hlong
  · rw [sendResult_of_short hshort]
    have hpayload := nlsmlFor_eq c task.finalText
    refine ⟨?_, Or.inl (h.inOrder hopen), Or.inr ⟨hlive.tasks, hlive.started, hlive.eosSeen, ?_⟩⟩
    · intro w hw
      rcases List.mem_append.mp hw with hold | hnew
      · exact h.results w hold
      · rw [List.mem_singleton.mp hnew]
        exact ⟨.of_transcript htranscript hpayload haudio, Nat.le_refl _⟩
    · exact .answered rfl (hlive.eosSeen_of_awaiting hphase)
  · rw [sendResult_of_long hlong]
    exact .close h.results (h.inOrder hopen)

theorem Inv.finishEos (hasr : config.asr.Exhausts) (h : Inv c)
    (hfinish : c.finishEos = some c') : Inv c' := by
  rw [Connection.finishEos] at hfinish
  split at hfinish
  next task hphase hlast =>
    split at hfinish
    next hreturned =>
      rw [← Option.some.inj hfinish]
      exact h.sendResult hasr hphase hlast hreturned
    next message _ =>
      rw [← Option.some.inj hfinish]
      refine .refuse h.results (h.inOrder ?_)
      rw [hphase]
      intro hclosed
      cases hclosed
    next => cases hfinish
  next => cases hfinish

theorem Inv.timeout (h : Inv c) (htimeout : c.timeout = some c') : Inv c' := by
  rw [Connection.timeout] at htimeout
  split at htimeout
  next task hphase hlast =>
    split_ifs at htimeout with hrunning
    rw [← Option.some.inj htimeout]
    refine .refuse h.results (h.inOrder ?_)
    rw [hphase]
    intro hclosed
    cases hclosed
  next => cases htimeout

end Answering

section Runs

/-- The condition on a step: a START that is read is harmless. -/
def StartsFresh (c : Connection config) (label : Label) : Prop :=
  label = .read → ∀ f rest, readFrame c.input = .frame f rest → f.ftype = frameStart → c.Fresh

theorem Inv.step (hasr : config.asr.Exhausts) {label : Label} (h : Inv c)
    (hfresh : c.StartsFresh label) (hstep : c.step label = some c') : Inv c' := by
  cases label with
  | read =>
    rw [Connection.step] at hstep
    split_ifs at hstep with hphase
    rw [← Option.some.inj hstep]
    exact h.readNext hphase (hfresh rfl)
  | asr i => exact h.asrStep hstep
  | finish => exact h.finishEos hasr hstep
  | timeout => exact h.timeout hstep

theorem inv_connected (input : Bytes) : Inv (connected config input) := by
  refine ⟨(by simp [connected]), Or.inl ?_,
    Or.inr ⟨(by simp [connected]), (by simp [connected]), (by simp [connected]),
      .unopened rfl rfl rfl⟩⟩
  intro before f after hsplit
  simp [connected] at hsplit

/-- **Every RESULT is about the latest START.**  In a run in which every START is
harmless, whatever the frames and the schedule: a RESULT has the transcript of a stream
that received exactly the audio since the latest START, and a frame out of order is
answered with ERROR(UNEXPECTED_FRAME) and is the last one. -/
theorem results_of_latest_start (hasr : config.asr.Exhausts) (input : Bytes)
    (labels : List Label) (c : Connection config)
    (hfresh : AlongRun step StartsFresh (connected config input) labels)
    (hrun : runSteps step (connected config input) labels = some c) :
    (∀ w ∈ c.written, w.frame.ftype = frameResult →
      ∃ text confidence intentId, Transcript config.asr w.heard text ∧
        w.frame.payload = renderNlsml text confidence intentId ∧
        w.heard.map AudioChunk.pcm16 = audioSinceStart (c.arrived.take w.after)) ∧
    ∀ before f after, c.arrived = before ++ f :: after → OutOfOrder before f →
      after = [] ∧ c.phase = .closed ∧ ∃ w ∈ c.written, w.after = c.arrived.length ∧
        ∃ message, errorFrame? "UNEXPECTED_FRAME" message = some w.frame := by
  have hinv : Inv c :=
    runSteps_invariant (fun h hfresh hstep => h.step hasr hfresh hstep) (inv_connected input)
      hfresh hrun
  refine ⟨fun w hw => (hinv.results w hw).1, ?_⟩
  intro before f after hsplit hout
  rcases hinv.order with horder | ⟨before', f', harrived, horder, hrefused⟩
  · exact absurd hout (horder before f after hsplit)
  · rcases List.eq_nil_or_concat after with rfl | ⟨after', last, rfl⟩
    · exact ⟨rfl, hrefused⟩
    · rw [harrived, List.concat_eq_append, ← List.cons_append, ← List.append_assoc] at hsplit
      obtain ⟨rfl, _⟩ := List.append_inj' hsplit rfl
      exact absurd hout (horder before f after' rfl)

end Runs

end Connection

theorem scriptedAsr_exhausts (script : Nat → String) : (scriptedAsr script).Exhausts := by
  have hlistening : ∀ {s : (scriptedAsr script).State} {xs : List AudioChunk} {ended : Bool}
      {ys : List PartialTranscript}, (scriptedAsr script).Reaches s xs ended ys → ended = false →
      ∃ n, s = .listening n := by
    intro s xs ended ys h
    induction h with
    | start => exact fun _ => ⟨0, rfl⟩
    | emit h hnext ih =>
      intro hended
      obtain ⟨n, rfl⟩ := ih hended
      cases hnext
    | pull h hnext x ih =>
      intro _
      obtain ⟨n, rfl⟩ := ih rfl
      cases hnext
      exact ⟨n + 1, rfl⟩
    | finish h hnext ih =>
      intro hended
      cases hended
  intro s xs ys h hstop
  obtain ⟨n, rfl⟩ := hlistening h rfl
  cases hstop

/-- The transcript is the number of chunks. -/
def countingConfig : BridgeConfig :=
  scriptedConfig fun n => String.ofList (decimal n)

def startFields : Dict String CborScalar :=
  (Dict.empty.set "channel_id" (.str "c1")).set "sample_rate" (.int 16000)

def startFrame : Frame :=
  ⟨frameStart, (cborEncodeMap startFields).toOption.getD []⟩

/-- START, audio, START again, audio, EOS. -/
def restartedInput : Bytes :=
  [startFrame, ⟨frameAudio, [1, 0]⟩, startFrame, ⟨frameAudio, [2, 0]⟩,
    ⟨frameEos, []⟩].flatMap Frame.wire

/-- The first task waits at the queue before the second one does. -/
def restartedSchedule : List Connection.Label :=
  [.read, .read, .asr 0, .read, .read, .asr 0, .read, .asr 1, .asr 1, .asr 1]

/-- What the handler finds when its wait is over. -/
structure HandlerView where
  phase : HandlerPhase
  task : Option (AsrStatus × String × List AudioChunk)
  audio : List Bytes
  answers : Nat
deriving DecidableEq

def handlerView (c : Connection countingConfig) : HandlerView :=
  { phase := c.phase
    task := c.tasks.getLast?.map fun task => (task.status, task.finalText, task.received)
    audio := audioSinceStart c.arrived
    answers := c.written.length }

theorem restarted_view :
    (runSteps Connection.step (connected countingConfig restartedInput) restartedSchedule).map
      handlerView = some ⟨.awaitingAsr, some (.returned, "0", []), [[2, 0]], 0⟩ := by
  decide +kernel

/-- One utterance. -/
def plainInput : Bytes :=
  [startFrame, ⟨frameAudio, [1, 0]⟩, ⟨frameEos, []⟩].flatMap Frame.wire

def plainSchedule : List Connection.Label :=
  [.read, .read, .read, .asr 0, .asr 0, .asr 0, .asr 0]

theorem plain_view :
    (runSteps Connection.step (connected countingConfig plainInput) plainSchedule).map
      handlerView = some ⟨.awaitingAsr, some (.returned, "1", [⟨[1, 0], 0⟩]), [[1, 0]], 0⟩ := by
  decide +kernel

/-- From there the RESULT follows. -/
theorem result_of_view {input : Bytes} {labels : List Connection.Label} {text : String}
    {received : List AudioChunk} {audio : List Bytes}
    (hview : (runSteps Connection.step (connected countingConfig input) labels).map handlerView =
      some ⟨.awaitingAsr, some (.returned, text, received), audio, 0⟩)
    (hshort : (utf8 (xmlEscape text)).length ≤ 1000) :
    ∃ c w, runSteps Connection.step (connected countingConfig input) (labels ++ [.finish]) =
        some c ∧
      c.written = [w] ∧ w.frame.ftype = frameResult ∧ w.heard = received ∧
      audioSinceStart (c.arrived.take w.after) = audio := by
  obtain ⟨c, hrun, hc⟩ := Option.map_eq_some_iff.mp hview
  simp only [handlerView, HandlerView.mk.injEq, Prod.mk.injEq, Option.map_eq_some_iff] at hc
  obtain ⟨hphase, ⟨task, hlast, hstatus, htext, hreceived⟩, haudio, hwritten⟩ := hc
  rw [← htext] at hshort
  obtain ⟨c', hfinish, harrived, hwritten'⟩ := finish_scripted hphase hlast hstatus hshort
  rw [List.length_eq_zero_iff.mp hwritten, List.nil_append] at hwritten'
  refine ⟨c', _, ?_, hwritten', rfl, hreceived, ?_⟩
  · rw [runSteps_append, hrun]
    exact hfinish
  · rw [harrived]
    change audioSinceStart (c.arrived.take c.arrived.length) = audio
    rw [List.take_length]
    exact haudio

/-- The task of the first START takes the audio after the second one: the RESULT is
about no audio at all. -/
theorem restarted_audio_lost :
    ∃ c, runSteps Connection.step (connected countingConfig restartedInput)
        (restartedSchedule ++ [.finish]) = some c ∧
      ∃ w ∈ c.written, w.frame.ftype = frameResult ∧ w.heard = [] ∧
        audioSinceStart (c.arrived.take w.after) = [[2, 0]] ∧
        w.heard.map AudioChunk.pcm16 ≠ audioSinceStart (c.arrived.take w.after) := by
  obtain ⟨c, w, hrun, hwritten, hftype, hheard, haudio⟩ :=
    result_of_view restarted_view (by decide +kernel)
  refine ⟨c, hrun, w, (by rw [hwritten]; exact List.mem_singleton_self w), hftype, hheard,
    haudio, ?_⟩
  rw [hheard, haudio]
  intro hnil
  cases hnil

/-- The condition, as a check. -/
def startsFresh? (c : Connection countingConfig) (label : Connection.Label) : Bool :=
  label ≠ .read || match readFrame c.input with
    | .frame f _ =>
        f.ftype ≠ frameStart || c.channel.eosSeen ||
          (c.channel.audioQueue.isEmpty && c.tasks.all fun t => t.status ≠ .running)
    | _ => true

theorem startsFresh_of_check (c : Connection countingConfig) (label : Connection.Label)
    (h : startsFresh? c label = true) : c.StartsFresh label := by
  rintro rfl f rest hread hstart
  rw [startsFresh?, hread] at h
  simpa [hstart, Connection.Fresh] using h

theorem results_of_latest_start_plain :
    AlongRun Connection.step Connection.StartsFresh (connected countingConfig plainInput)
      (plainSchedule ++ [.finish]) ∧
    ∃ c, runSteps Connection.step (connected countingConfig plainInput)
        (plainSchedule ++ [.finish]) = some c ∧
      (∃ w, c.written = [w] ∧ w.frame.ftype = frameResult) ∧
      ∀ w ∈ c.written, w.frame.ftype = frameResult →
        ∃ text confidence intentId, Transcript countingConfig.asr w.heard text ∧
          w.frame.payload = renderNlsml text confidence intentId ∧
          w.heard.map AudioChunk.pcm16 = audioSinceStart (c.arrived.take w.after) := by
  have hfresh : AlongRun Connection.step Connection.StartsFresh
      (connected countingConfig plainInput) (plainSchedule ++ [.finish]) :=
    alongRun_of_checkRun startsFresh_of_check (by decide +kernel)
  obtain ⟨c, w, hrun, hwritten, hftype, _⟩ := result_of_view plain_view (by decide +kernel)
  have hasr : countingConfig.asr.Exhausts := scriptedAsr_exhausts _
  exact ⟨hfresh, c, hrun, ⟨w, hwritten, hftype⟩,
    (Connection.results_of_latest_start hasr plainInput _ c hfresh hrun).1⟩

end Mrcp
end Sandroid
