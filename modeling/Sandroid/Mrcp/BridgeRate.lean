import Sandroid.Mrcp.BridgeStarts
import Sandroid.Mrcp.BridgeTurn
import Mathlib.Algebra.Order.Floor.Div
import Mathlib.Data.Nat.Dist

/-!
# The sample rate of a START

A START names the sample rate of the audio that follows, and both consumers of that audio
take it for 16 kHz.  `_handle_start` stores the rate and nothing reads it: the ASR stream
and the orchestrator get the bytes of the AUDIO frames as they are.

`audio_rate_iff`: for which rates and how much audio that is right.
-/

namespace Sandroid
namespace Mrcp

open Lib Api

/-- So many samples at 16 kHz last as long as `samples` at the rate, up to rounding. -/
def IsAt16kHz (rate samples converted : Nat) : Prop :=
  converted = samples * 16000 / rate ∨ converted = (samples * 16000) ⌈/⌉ rate

/-- PCM16 at 16 kHz for `samples` samples at the rate. -/
def At16kHz (rate samples : Nat) (pcm : Bytes) : Prop :=
  ∃ converted, pcm.length = 2 * converted ∧ IsAt16kHz rate samples converted

/-- Whether the rate is taken for 16 kHz makes less than one sample of difference. -/
def RateNegligible (rate samples : Nat) : Prop :=
  samples = 0 ∨ samples * Nat.dist rate 16000 < rate

theorem isAt16kHz_self_iff (rate samples : Nat) :
    IsAt16kHz rate samples samples ↔ RateNegligible rate samples := by
  rw [IsAt16kHz, RateNegligible, Nat.ceilDiv_eq_add_pred_div]
  rcases Nat.eq_zero_or_pos rate with rfl | hpos
  · simp
  · have hdist : samples * Nat.dist rate 16000 =
        (samples * rate - samples * 16000) + (samples * 16000 - samples * rate) := by
      rw [Nat.dist, Nat.mul_add, Nat.mul_sub, Nat.mul_sub]
    have hfloor : samples = samples * 16000 / rate ↔
        samples * rate ≤ samples * 16000 ∧ samples * 16000 < samples * rate + rate := by
      rw [eq_comm, Nat.div_eq_iff hpos]
      omega
    have hceil : samples = (samples * 16000 + rate - 1) / rate ↔
        samples * rate ≤ samples * 16000 + rate - 1 ∧
          samples * 16000 + rate - 1 < samples * rate + rate := by
      rw [eq_comm, Nat.div_eq_iff hpos]
      omega
    rw [hfloor, hceil, hdist]
    rcases Nat.eq_zero_or_pos samples with rfl | hsome
    · simp
      omega
    · omega

theorem at16kHz_iff {rate samples : Nat} {pcm : Bytes} (h : pcm.length = 2 * samples) :
    At16kHz rate samples pcm ↔ RateNegligible rate samples := by
  rw [← isAt16kHz_self_iff]
  constructor
  · rintro ⟨converted, hlength, hconverted⟩
    have hsame : converted = samples := by omega
    rw [hsame] at hconverted
    exact hconverted
  · intro hsamples
    exact ⟨samples, h, hsamples⟩

/-- At the native rate it never matters. -/
theorem rateNegligible_native (samples : Nat) : RateNegligible 16000 samples := by
  refine Or.inr ?_
  rw [Nat.dist_self]
  omega

/-- At half the rate it matters for any audio. -/
theorem rateNegligible_half {samples : Nat} : RateNegligible 8000 samples ↔ samples = 0 := by
  have hdist : Nat.dist 8000 16000 = 8000 := rfl
  rw [RateNegligible, hdist]
  omega

/-- The AUDIO payloads up to the first EOS. -/
def spokenAudio (frames : List Frame) : List Bytes :=
  ((frames.takeWhile fun f => f.ftype ≠ frameEos).filter fun f => f.ftype = frameAudio).map
    Frame.payload

def startsOf (frames : List Frame) : List Frame :=
  frames.filter fun f => f.ftype = frameStart

theorem startsOf_append_start {frames : List Frame} {f : Frame} (h : f.ftype = frameStart) :
    startsOf (frames ++ [f]) = startsOf frames ++ [f] := by
  rw [startsOf, List.filter_append, List.filter_singleton, decide_eq_true h]
  rfl

theorem startsOf_append_other {frames : List Frame} {f : Frame} (h : f.ftype ≠ frameStart) :
    startsOf (frames ++ [f]) = startsOf frames := by
  rw [startsOf, List.filter_append, List.filter_singleton, decide_eq_false h]
  simp [startsOf]

/-- After EOS nothing counts. -/
theorem spokenAudio_append_ended {frames : List Frame} (h : ∃ g ∈ frames, g.ftype = frameEos)
    (f : Frame) : spokenAudio (frames ++ [f]) = spokenAudio frames := by
  obtain ⟨g, hg, heos⟩ := h
  have hcut : (frames.takeWhile fun f => f.ftype ≠ frameEos).length ≠ frames.length := by
    intro hlength
    have hall := (List.takeWhile_prefix _).eq_of_length hlength
    exact of_decide_eq_true (List.takeWhile_eq_self_iff.mp hall g hg) heos
  rw [spokenAudio, spokenAudio, List.takeWhile_append, if_neg hcut]

theorem spokenAudio_append_open {frames : List Frame} (h : ∀ g ∈ frames, g.ftype ≠ frameEos)
    (f : Frame) : spokenAudio (frames ++ [f]) =
      spokenAudio frames ++ if f.ftype = frameAudio then [f.payload] else [] := by
  have hall : ∀ g ∈ frames, decide (g.ftype ≠ frameEos) = true := by
    intro g hg
    exact decide_eq_true (h g hg)
  rw [spokenAudio, List.takeWhile_append_of_pos hall, spokenAudio,
    List.takeWhile_eq_self_iff.mpr hall, List.filter_append, List.map_append]
  congr 1
  by_cases haudio : f.ftype = frameAudio
  · have hnot : frameAudio ≠ frameEos := by decide
    simp [haudio, hnot]
  · rw [if_neg haudio]
    by_cases heos : f.ftype = frameEos
    · simp [heos]
    · simp [heos, haudio]

/-- The audio before EOS is what the stream has received and what waits for it in the
queue. -/
inductive Supply {asr : Asr} (ch : BridgeChannel) (task : RunAsr asr) (audio : List Bytes) : Prop
  | flowing {pending : List Bytes} (eosSeen : ch.eosSeen = false)
      (unended : task.exhausted = false) (queue : ch.audioQueue = pending.map some)
      (audio : task.received.map AudioChunk.pcm16 ++ pending = audio)
  | ending {pending : List Bytes} {later : List (Option Bytes)} (eosSeen : ch.eosSeen = true)
      (unended : task.exhausted = false) (queue : ch.audioQueue = pending.map some ++ none :: later)
      (audio : task.received.map AudioChunk.pcm16 ++ pending = audio)
  | drained (eosSeen : ch.eosSeen = true) (exhausted : task.exhausted = true)
      (audio : task.received.map AudioChunk.pcm16 = audio)

section Supply

variable {asr : Asr} {ch : BridgeChannel} {task task' : RunAsr asr} {audio : List Bytes}

/-- The stream has a part of the audio from its beginning, and all of it when it has been
told of the end. -/
theorem Supply.received (h : Supply ch task audio) :
    task.received.map AudioChunk.pcm16 <+: audio ∧
      (task.exhausted = true → task.received.map AudioChunk.pcm16 = audio) := by
  cases h with
  | flowing eosSeen unended queue haudio =>
      refine ⟨⟨_, haudio⟩, ?_⟩
      rw [unended]
      exact fun h => absurd h Bool.false_ne_true
  | ending eosSeen unended queue haudio =>
      refine ⟨⟨_, haudio⟩, ?_⟩
      rw [unended]
      exact fun h => absurd h Bool.false_ne_true
  | drained eosSeen exhausted haudio =>
      rw [haudio]
      exact ⟨List.prefix_rfl, fun _ => rfl⟩

/-- It depends on nothing else of the task. -/
theorem Supply.congr (h : Supply ch task audio) (hreceived : task'.received = task.received)
    (hexhausted : task'.exhausted = task.exhausted) : Supply ch task' audio := by
  cases h with
  | flowing eosSeen unended queue haudio =>
      exact .flowing eosSeen (hexhausted.trans unended) queue (by rw [hreceived]; exact haudio)
  | ending eosSeen unended queue haudio =>
      exact .ending eosSeen (hexhausted.trans unended) queue (by rw [hreceived]; exact haudio)
  | drained eosSeen exhausted haudio =>
      exact .drained eosSeen (hexhausted.trans exhausted) (by rw [hreceived]; exact haudio)

/-- A step of the task takes from the head of the queue, up to the end mark. -/
theorem Supply.moves {queue : List (Option Bytes)} (h : Supply ch task audio)
    (hmove : task.Moves ch.audioQueue task' queue) :
    Supply { ch with audioQueue := queue } task' audio := by
  generalize hitems : ch.audioQueue = items at hmove
  have hkept : Supply { ch with audioQueue := items } task audio := by
    rw [← hitems]
    exact h
  cases hmove with
  | emit hnext => exact hkept.congr rfl rfl
  | stop hnext => exact hkept.congr rfl rfl
  | fail hnext => exact hkept.congr rfl rfl
  | again hnext hexhausted => exact hkept.congr rfl rfl
  | finish hnext hexhausted =>
      cases h with
      | @flowing pending eosSeen unended hqueue haudio =>
          rw [hitems] at hqueue
          cases pending with
          | nil => cases hqueue
          | cons pcm pending => cases hqueue
      | @ending pending later eosSeen unended hqueue haudio =>
          rw [hitems] at hqueue
          cases pending with
          | nil =>
              rw [List.append_nil] at haudio
              exact .drained eosSeen rfl haudio
          | cons pcm pending => cases hqueue
      | drained eosSeen exhausted haudio =>
          exact absurd (hexhausted.symm.trans exhausted) Bool.false_ne_true
  | @pull pcm _ _ hnext hexhausted =>
      cases h with
      | @flowing pending eosSeen unended hqueue haudio =>
          rw [hitems] at hqueue
          cases pending with
          | nil => cases hqueue
          | cons pcm' pending =>
              cases hqueue
              refine @Supply.flowing _ _ _ _ pending eosSeen unended rfl ?_
              rw [← haudio, List.map_append, List.append_assoc]
              rfl
      | @ending pending later eosSeen unended hqueue haudio =>
          rw [hitems] at hqueue
          cases pending with
          | nil => cases hqueue
          | cons pcm' pending =>
              cases hqueue
              refine @Supply.ending _ _ _ _ pending later eosSeen unended rfl ?_
              rw [← haudio, List.map_append, List.append_assoc]
              rfl
      | drained eosSeen exhausted haudio =>
          exact absurd (hexhausted.symm.trans exhausted) Bool.false_ne_true

end Supply

@[simp] theorem accumulate_sampleRate (ch : BridgeChannel) (payload : Bytes) :
    (accumulate ch payload).sampleRate = ch.sampleRate := by
  simp only [accumulate]
  split_ifs <;> rfl

theorem spokenAudio_append_other {frames : List Frame} {f : Frame} (h : f.ftype ≠ frameAudio) :
    spokenAudio (frames ++ [f]) = spokenAudio frames := by
  by_cases heos : ∃ g ∈ frames, g.ftype = frameEos
  · exact spokenAudio_append_ended heos f
  · push Not at heos
    rw [spokenAudio_append_open heos, if_neg h, List.append_nil]

/-- The rate of a START that the bridge accepts. -/
def acceptedRate (config : BridgeConfig) (start : Frame) : Option Nat :=
  match cborDecode (config.spareCalls + 2) start.payload with
  | .ok (.map fields, _) => some (Connection.sampleRateField fields)
  | _ => none

namespace Connection

variable {config : BridgeConfig} {c c' : Connection config} {task : RunAsr config.asr}
  {f : Frame} {rest : Bytes}

/-- A connection that has accepted one START: what its ASR task and the orchestrator have
been given is the audio before EOS. -/
structure Fed (c : Connection config) (task : RunAsr config.asr) : Prop where
  rate : (startsOf c.arrived).map (acceptedRate config) = [some c.channel.sampleRate]
  started : c.channel.started = true
  eosSeen : c.channel.eosSeen = true ↔ ∃ g ∈ c.arrived, g.ftype = frameEos
  tasks : c.tasks = [task]
  supply : Supply c.channel task (spokenAudio c.arrived)
  awaiting : c.phase = .awaitingAsr → c.channel.eosSeen = true
  accumulated : c.phase = .awaitingAsr ∨ c.channel.eosSeen = false →
    Accumulated c.channel (spokenAudio c.arrived)
  unasked : c.channel.eosSeen = false → c.requests = []
  asked : ∀ request ∈ c.requests, ∀ pcm, request.audio = some pcm →
    pcm = (spokenAudio c.arrived).flatten

theorem Fed.open (h : Fed c task) (heos : c.channel.eosSeen = false) :
    ∀ g ∈ c.arrived, g.ftype ≠ frameEos := by
  intro g hg hftype
  rw [h.eosSeen.mpr ⟨g, hg, hftype⟩] at heos
  cases heos

/-- Closing marks the task at most as cancelled. -/
theorem Fed.close (h : Fed c task) : ∃ task', Fed c.close task' := by
  refine ⟨if task.status = .running then { task with status := .cancelled } else task, ?_⟩
  refine ⟨h.rate, h.started, h.eosSeen, ?_, ?_, ?_, ?_, h.unasked, h.asked⟩
  · simp only [Connection.close, h.tasks]
    rfl
  · split_ifs
    · exact h.supply.congr rfl rfl
    · exact h.supply
  · intro hphase
    cases hphase
  · intro hphase
    have hclosed : ¬ HandlerPhase.closed = .awaitingAsr := by decide
    exact h.accumulated (Or.inr (hphase.resolve_left hclosed))

theorem Fed.refuse (h : Fed c task) (code message : String) :
    ∃ task', Fed (c.refuse code message) task' := by
  rw [Connection.refuse]
  split
  next => exact h.close
  next frame _ =>
    have hwritten : Fed (c.write frame []) task :=
      ⟨h.rate, h.started, h.eosSeen, h.tasks, h.supply, h.awaiting, h.accumulated, h.unasked,
        h.asked⟩
    exact hwritten.close

/-- A frame that brings no audio. -/
theorem Fed.taken (h : Fed c task) (hstart : f.ftype ≠ frameStart)
    (haudio : spokenAudio (c.arrived ++ [f]) = spokenAudio c.arrived)
    (heos : (∃ g ∈ c.arrived ++ [f], g.ftype = frameEos) ↔ ∃ g ∈ c.arrived, g.ftype = frameEos) :
    Fed (c.taken f rest) task := by
  refine ⟨?_, h.started, h.eosSeen.trans heos.symm, h.tasks, ?_, h.awaiting, ?_, h.unasked, ?_⟩
  · rw [Connection.taken, startsOf_append_other hstart]
    exact h.rate
  · rw [Connection.taken, haudio]
    exact h.supply
  · rw [Connection.taken, haudio]
    exact h.accumulated
  · rw [Connection.taken, haudio]
    exact h.asked

theorem Fed.handleAudio (h : Fed c task) (hphase : c.phase = .reading)
    (hf : f.ftype = frameAudio) : Fed ((c.taken f rest).handleAudio f.payload) task := by
  have hnot : f.ftype ≠ frameEos ∧ f.ftype ≠ frameStart := by
    rw [hf]
    decide
  rw [handleAudio_of_started (show (c.taken f rest).channel.started = true from h.started)]
  have heos : (accumulate c.channel f.payload).eosSeen = true ↔
      ∃ g ∈ c.arrived ++ [f], g.ftype = frameEos := by
    rw [accumulate_eosSeen, exists_ftype_append_of_ne hnot.1]
    exact h.eosSeen
  refine ⟨?_, ?_, heos, h.tasks, ?_, ?_, ?_, ?_, ?_⟩
  · simp only [Connection.taken, startsOf_append_other hnot.2, accumulate_sampleRate]
    exact h.rate
  · exact (accumulate_started _ _).trans h.started
  · simp only [Connection.taken, accumulate_audioQueue]
    cases h.supply with
    | @flowing pending eosSeen unended queue audio =>
        refine @Supply.flowing _ _ _ _ (pending ++ [f.payload]) ?_ unended ?_ ?_
        · exact (accumulate_eosSeen _ _).trans eosSeen
        · simp only [queue, List.map_append]
          rfl
        · rw [spokenAudio_append_open (h.open eosSeen), if_pos hf, ← List.append_assoc, audio]
    | @ending pending later eosSeen unended queue audio =>
        refine @Supply.ending _ _ _ _ pending (later ++ [some f.payload]) ?_ unended ?_ ?_
        · exact (accumulate_eosSeen _ _).trans eosSeen
        · simp only [queue, List.append_assoc, List.cons_append]
        · rw [spokenAudio_append_ended (h.eosSeen.mp eosSeen), audio]
    | drained eosSeen exhausted audio =>
        refine .drained ?_ exhausted ?_
        · exact (accumulate_eosSeen _ _).trans eosSeen
        · rw [spokenAudio_append_ended (h.eosSeen.mp eosSeen), audio]
  · intro hawaiting
    exact absurd (hphase.symm.trans hawaiting) (by decide)
  · intro hwhen
    have hopen : c.channel.eosSeen = false := by
      rcases hwhen with hawaiting | hopen
      · exact absurd (hphase.symm.trans hawaiting) (by decide)
      · exact (accumulate_eosSeen _ _).symm.trans hopen
    have hspoken : spokenAudio (c.arrived ++ [f]) = spokenAudio c.arrived ++ [f.payload] := by
      rw [spokenAudio_append_open (h.open hopen), if_pos hf]
    simp only [Connection.taken, hspoken]
    exact (h.accumulated (Or.inr hopen)).accumulate f.payload
  · intro hopen
    exact h.unasked ((accumulate_eosSeen _ _).symm.trans hopen)
  · cases hseen : c.channel.eosSeen with
    | false =>
        simp only [Connection.taken, h.unasked hseen]
        exact fun _ hmem => absurd hmem List.not_mem_nil
    | true =>
        simp only [Connection.taken, spokenAudio_append_ended (h.eosSeen.mp hseen)]
        exact h.asked

theorem Fed.handleEos (h : Fed c task) (hf : f.ftype = frameEos) :
    ∃ task', Fed (c.taken f rest).handleEos task' := by
  have hnot : f.ftype ≠ frameAudio ∧ f.ftype ≠ frameStart := by
    rw [hf]
    decide
  have hspoken : spokenAudio (c.arrived ++ [f]) = spokenAudio c.arrived :=
    spokenAudio_append_other hnot.1
  have heos : ∃ g ∈ c.arrived ++ [f], g.ftype = frameEos := ⟨f, by simp, hf⟩
  cases hseen : c.channel.eosSeen with
  | true =>
      rw [handleEos_refused (Or.inr (show (c.taken f rest).channel.eosSeen = true from hseen))]
      have htaken : Fed (c.taken f rest) task :=
        h.taken hnot.2 hspoken ⟨fun _ => h.eosSeen.mp hseen, fun _ => heos⟩
      exact htaken.refuse _ _
  | false =>
      have htasks : (c.taken f rest).tasks ≠ [] := by
        change c.tasks ≠ []
        rw [h.tasks]
        simp
      have hopen : ¬ (c.taken f rest).channel.eosSeen = true := by
        change ¬ c.channel.eosSeen = true
        rw [hseen]
        exact Bool.false_ne_true
      rw [handleEos_of_started (c := c.taken f rest) h.started hopen htasks]
      refine ⟨task, ?_, h.started, ⟨fun _ => heos, fun _ => rfl⟩, h.tasks, ?_, fun _ => rfl, ?_, ?_,
        ?_⟩
      · simp only [Connection.taken, startsOf_append_other hnot.2]
        exact h.rate
      · simp only [Connection.taken, hspoken]
        cases h.supply with
        | @flowing pending eosSeen unended queue audio =>
            refine @Supply.ending _ _ _ _ pending [] rfl unended ?_ audio
            simp only [queue]
        | ending eosSeen =>
            rw [hseen] at eosSeen
            cases eosSeen
        | drained eosSeen =>
            rw [hseen] at eosSeen
            cases eosSeen
      · intro _
        simp only [Connection.taken, hspoken]
        exact h.accumulated (Or.inr hseen)
      · exact fun _ => h.unasked hseen
      · simp only [Connection.taken, h.unasked hseen]
        exact fun _ hmem => absurd hmem List.not_mem_nil

theorem Fed.asrStep (h : Fed c task) {i : Nat} (hstep : c.asrStep i = some c') :
    ∃ task', Fed c' task' := by
  obtain ⟨t, t', queue, ht, -, hmoves, rfl⟩ := asrStep_eq_some hstep
  rw [h.tasks, List.getElem?_singleton] at ht
  split_ifs at ht with hzero
  cases ht
  refine ⟨t', h.rate, h.started, h.eosSeen, ?_, h.supply.moves hmoves, h.awaiting, h.accumulated,
    h.unasked, h.asked⟩
  rw [h.tasks, hzero]
  rfl

/-- The request has the audio before EOS, or none. -/
theorem Fed.sendResult (h : Fed c task) (hphase : c.phase = .awaitingAsr) :
    ∃ task', Fed (c.sendResult task) task' := by
  have hseen := h.awaiting hphase
  have hasked : ∀ request ∈ c.requests ++ (c.request? task.finalText).toList, ∀ pcm,
      request.audio = some pcm → pcm = (spokenAudio c.arrived).flatten := by
    intro request hrequest pcm haudio
    rcases List.mem_append.mp hrequest with hold | hnew
    · exact h.asked request hold pcm haudio
    · rw [Option.mem_toList, Connection.request?] at hnew
      split at hnew
      next =>
        cases hnew
        change pathBAudio c.channel = some pcm at haudio
        rw [(h.accumulated (Or.inl hphase)).pathBAudio] at haudio
        split_ifs at haudio
        exact (Option.some.inj haudio).symm
      next => cases hnew
  have hunasked : c.channel.eosSeen = false →
      c.requests ++ (c.request? task.finalText).toList = [] := by
    rw [hseen]
    exact fun hopen => absurd hopen.symm Bool.false_ne_true
  by_cases hlong : 2 ^ 32 ≤ (c.nlsmlFor task.finalText).length + 1
  · rw [sendResult_of_long hlong]
    have hmore : Fed { c with requests := c.requests ++ (c.request? task.finalText).toList } task :=
      ⟨h.rate, h.started, h.eosSeen, h.tasks, h.supply, h.awaiting, h.accumulated, hunasked,
        hasked⟩
    exact hmore.close
  · rw [sendResult_of_short (not_le.mp hlong)]
    refine ⟨task, h.rate, h.started, h.eosSeen, h.tasks, h.supply, fun _ => hseen, ?_, hunasked,
      hasked⟩
    intro _
    exact h.accumulated (Or.inl hphase)

theorem Fed.finishEos (h : Fed c task) (hstep : c.finishEos = some c') :
    ∃ task', Fed c' task' := by
  rw [Connection.finishEos] at hstep
  split at hstep
  next t hphase hlast =>
    rw [h.tasks, List.getLast?_singleton] at hlast
    cases hlast
    split at hstep
    next =>
      rw [← Option.some.inj hstep]
      exact h.sendResult hphase
    next =>
      rw [← Option.some.inj hstep]
      exact h.refuse _ _
    next => cases hstep
  next => cases hstep

theorem Fed.timeout (h : Fed c task) (hstep : c.timeout = some c') : ∃ task', Fed c' task' := by
  rw [Connection.timeout] at hstep
  split at hstep
  next =>
    split_ifs at hstep
    rw [← Option.some.inj hstep]
    exact h.refuse _ _
  next => cases hstep

/-- A connection before its START, after a bad one, after one START, or after more. -/
inductive Feed (c : Connection config) : Prop
  | unopened (phase : c.phase = .reading) (channel : c.channel = {}) (tasks : c.tasks = [])
      (requests : c.requests = []) (starts : startsOf c.arrived = [])
      (eos : ∀ g ∈ c.arrived, g.ftype ≠ frameEos) (audio : spokenAudio c.arrived = [])
  | shut (phase : c.phase = .closed) (tasks : c.tasks = []) (requests : c.requests = [])
      (starts : ∀ start ∈ startsOf c.arrived, acceptedRate config start = none)
  | opened {task : RunAsr config.asr} (fed : Fed c task)
  | restarted (starts : 1 < (startsOf c.arrived).length)

theorem Feed.of_fed (h : ∃ task, Fed c task) : Feed c := by
  obtain ⟨_, fed⟩ := h
  exact .opened fed

theorem feed_connected (input : Bytes) : Feed (connected config input) := by
  refine .unopened rfl rfl rfl rfl rfl ?_ rfl
  exact fun _ hmem => absurd hmem List.not_mem_nil

/-- What the handler reads is kept. -/
theorem Feed.of_restarted {more : List Frame} (h : 1 < (startsOf c.arrived).length)
    (harrived : c'.arrived = c.arrived ++ more) : Feed c' := by
  refine .restarted ?_
  rw [harrived, startsOf, List.filter_append, List.length_append]
  exact Nat.lt_add_right _ h

/-- A connection that is closed before any START has been accepted. -/
theorem Feed.shut_refuse (htasks : c.tasks = []) (hrequests : c.requests = [])
    (hstarts : ∀ start ∈ startsOf c.arrived, acceptedRate config start = none)
    (code message : String) : Feed (c.refuse code message) := by
  rw [Connection.refuse]
  split
  next =>
    refine .shut rfl ?_ hrequests hstarts
    rw [Connection.close, htasks]
    rfl
  next =>
    refine .shut rfl ?_ hrequests hstarts
    simp only [Connection.close, Connection.write, htasks]
    rfl

theorem Feed.shut_close (htasks : c.tasks = []) (hrequests : c.requests = [])
    (hstarts : ∀ start ∈ startsOf c.arrived, acceptedRate config start = none) :
    Feed c.close := by
  refine .shut rfl ?_ hrequests hstarts
  rw [Connection.close, htasks]
  rfl

/-- A START on a new connection. -/
theorem fed_openChannel {fields : List (CborKey × CborItem)} {n : Nat}
    (hphase : c.phase = .reading) (hchannel : c.channel = {}) (htasks : c.tasks = [])
    (hrequests : c.requests = []) (hstarts : startsOf c.arrived = [])
    (heos : ∀ g ∈ c.arrived, g.ftype ≠ frameEos) (haudio : spokenAudio c.arrived = [])
    (hf : f.ftype = frameStart)
    (hdecode : cborDecode (config.spareCalls + 2) f.payload = .ok (.map fields, n)) :
    Fed ((c.taken f rest).openChannel fields) {} := by
  have hnot : f.ftype ≠ frameAudio ∧ f.ftype ≠ frameEos := by
    rw [hf]
    decide
  have hspoken : spokenAudio (c.arrived ++ [f]) = [] := by
    rw [spokenAudio_append_other hnot.1, haudio]
  refine ⟨?_, rfl, ?_, ?_, ?_, ?_, ?_, ?_, ?_⟩
  · simp only [openChannel, taken, startsOf_append_start hf, hstarts, List.nil_append,
      List.map_cons, List.map_nil, acceptedRate, hdecode]
  · simp only [openChannel, taken, exists_ftype_append_of_ne hnot.2, hchannel,
      Bool.false_eq_true, false_iff]
    rintro ⟨g, hg, hftype⟩
    exact heos g hg hftype
  · simp only [openChannel, taken, htasks, List.nil_append]
  · refine @Supply.flowing _ _ _ _ [] ?_ rfl ?_ ?_
    · rw [openChannel, taken, hchannel]
    · rw [openChannel, taken, hchannel]
      rfl
    · exact hspoken.symm
  · intro hawaiting
    exact absurd (hphase.symm.trans hawaiting) (by decide)
  · intro _
    simp only [openChannel, taken, hspoken]
    refine accumulated_nil ?_ ?_
    · rw [hchannel]
    · rw [hchannel]
  · exact fun _ => hrequests
  · rw [openChannel, taken, hrequests]
    exact fun _ hmem => absurd hmem List.not_mem_nil

theorem Feed.handleStart (hphase : c.phase = .reading) (hchannel : c.channel = {})
    (htasks : c.tasks = []) (hrequests : c.requests = []) (hstarts : startsOf c.arrived = [])
    (heos : ∀ g ∈ c.arrived, g.ftype ≠ frameEos) (haudio : spokenAudio c.arrived = [])
    (hf : f.ftype = frameStart) : Feed ((c.taken f rest).handleStart f.payload) := by
  have hone : startsOf (c.arrived ++ [f]) = [f] := by
    rw [startsOf_append_start hf, hstarts, List.nil_append]
  have hnone (h : acceptedRate config f = none) :
      ∀ start ∈ startsOf (c.arrived ++ [f]), acceptedRate config start = none := by
    rw [hone]
    intro start hmem
    rw [List.mem_singleton.mp hmem]
    exact h
  cases hdecode : cborDecode (config.spareCalls + 2) f.payload with
  | error e =>
      have hrefused : acceptedRate config f = none := by
        rw [acceptedRate, hdecode]
      simp only [Connection.handleStart, hdecode]
      split
      next => exact .shut_refuse (c := c.taken f rest) htasks hrequests (hnone hrefused) _ _
      next => exact .shut_close (c := c.taken f rest) htasks hrequests (hnone hrefused)
  | ok r =>
      obtain ⟨item, n⟩ := r
      cases item with
      | uint m =>
          have hrefused : acceptedRate config f = none := by
            rw [acceptedRate, hdecode]
          simp only [Connection.handleStart, hdecode]
          exact .shut_refuse (c := c.taken f rest) htasks hrequests (hnone hrefused) _ _
      | tstr text =>
          have hrefused : acceptedRate config f = none := by
            rw [acceptedRate, hdecode]
          simp only [Connection.handleStart, hdecode]
          exact .shut_refuse (c := c.taken f rest) htasks hrequests (hnone hrefused) _ _
      | map fields =>
          rw [handleStart_of_map hdecode]
          refine @Feed.opened _ _ {} ?_
          exact fed_openChannel hphase hchannel htasks hrequests hstarts heos haudio hf hdecode

theorem arrived_readNext : ∃ more, c.readNext.arrived = c.arrived ++ more := by
  cases hread : readFrame c.input with
  | incomplete => exact ⟨[], by rw [readNext, hread, List.append_nil]; rfl⟩
  | invalidSize total => exact ⟨[], by rw [readNext, hread, List.append_nil]; rfl⟩
  | frame f rest =>
      rw [readNext_of_frame hread]
      exact ⟨[f], (sameInput_dispatch f).2⟩

theorem Feed.readNext (h : Feed c) (hphase : c.phase = .reading) : Feed c.readNext := by
  cases h with
  | shut hclosed => exact absurd (hphase.symm.trans hclosed) (by decide)
  | restarted starts =>
      obtain ⟨more, harrived⟩ := arrived_readNext (c := c)
      exact .of_restarted starts harrived
  | unopened phase channel tasks requests starts eos audio =>
      have hnone : ∀ start ∈ startsOf c.arrived, acceptedRate config start = none := by
        rw [starts]
        exact fun _ hmem => absurd hmem List.not_mem_nil
      cases hread : readFrame c.input with
      | incomplete =>
          rw [Connection.readNext, hread]
          exact .shut_close tasks requests hnone
      | invalidSize total =>
          rw [Connection.readNext, hread]
          exact .shut_close tasks requests hnone
      | frame f rest =>
          rw [readNext_of_frame hread]
          by_cases hstart : f.ftype = frameStart
          · rw [dispatch_start hstart]
            exact .handleStart phase channel tasks requests starts eos audio hstart
          have hstarts : startsOf (c.taken f rest).arrived = [] :=
            (startsOf_append_other hstart).trans starts
          have hnone' : ∀ start ∈ startsOf (c.taken f rest).arrived,
              acceptedRate config start = none := by
            rw [hstarts]
            exact fun _ hmem => absurd hmem List.not_mem_nil
          have hclosed : ¬ (c.taken f rest).channel.started = true := by
            change ¬ c.channel.started = true
            rw [channel]
            exact Bool.false_ne_true
          by_cases haudio : f.ftype = frameAudio
          · rw [dispatch_audio haudio, handleAudio_refused hclosed]
            exact .shut_refuse (c := c.taken f rest) tasks requests hnone' _ _
          by_cases heos : f.ftype = frameEos
          · rw [dispatch_eos heos, handleEos_refused (Or.inl hclosed)]
            exact .shut_refuse (c := c.taken f rest) tasks requests hnone' _ _
          by_cases hstop : f.ftype = frameStop
          · rw [dispatch_stop hstop]
            exact .shut_close (c := c.taken f rest) tasks requests hnone'
          · rw [dispatch_unknown hstart haudio heos hstop]
            refine .unopened phase channel tasks requests hstarts ?_ ?_
            · intro g hg
              rcases List.mem_append.mp hg with hg | hg
              · exact eos g hg
              · rw [List.mem_singleton.mp hg]
                exact heos
            · exact (spokenAudio_append_other haudio).trans audio
  | opened fed =>
      cases hread : readFrame c.input with
      | incomplete =>
          rw [Connection.readNext, hread]
          exact .of_fed fed.close
      | invalidSize total =>
          rw [Connection.readNext, hread]
          exact .of_fed fed.close
      | frame f rest =>
          rw [readNext_of_frame hread]
          by_cases hstart : f.ftype = frameStart
          · have hone := congrArg List.length fed.rate
            rw [List.length_map, List.length_singleton] at hone
            refine .restarted ?_
            rw [(sameInput_dispatch f).2, taken, startsOf_append_start hstart,
              List.length_append, hone]
            exact Nat.lt_succ_self 1
          by_cases haudio : f.ftype = frameAudio
          · rw [dispatch_audio haudio]
            exact .opened (fed.handleAudio hphase haudio)
          by_cases heos : f.ftype = frameEos
          · rw [dispatch_eos heos]
            exact .of_fed (fed.handleEos heos)
          have htaken : Fed (c.taken f rest) _ :=
            fed.taken hstart (spokenAudio_append_other haudio) (exists_ftype_append_of_ne heos)
          by_cases hstop : f.ftype = frameStop
          · rw [dispatch_stop hstop]
            exact .of_fed htaken.close
          · rw [dispatch_unknown hstart haudio heos hstop]
            exact .opened htaken

/-- Without a task only the handler moves. -/
theorem step_of_no_tasks {label : Label} (h : c.tasks = []) (hlabel : label ≠ .read) :
    c.step label = none := by
  cases label with
  | read => exact absurd rfl hlabel
  | asr i => simp [step, asrStep, h]
  | finish => simp [step, finishEos, h]
  | timeout => simp [step, timeout, h]

theorem Feed.step {label : Label} (h : Feed c) (hstep : c.step label = some c') : Feed c' := by
  by_cases hlabel : label = .read
  · rw [hlabel, Connection.step] at hstep
    split_ifs at hstep with hphase
    rw [← Option.some.inj hstep]
    exact h.readNext hphase
  cases h with
  | unopened phase channel tasks =>
      rw [step_of_no_tasks tasks hlabel] at hstep
      cases hstep
  | shut phase tasks =>
      rw [step_of_no_tasks tasks hlabel] at hstep
      cases hstep
  | opened fed =>
      cases label with
      | read => exact absurd rfl hlabel
      | asr i => exact .of_fed (fed.asrStep hstep)
      | finish => exact .of_fed (fed.finishEos hstep)
      | timeout => exact .of_fed (fed.timeout hstep)
  | restarted starts =>
      have harrived : c'.arrived = c.arrived ++ [] := by
        rw [List.append_nil]
        cases label with
        | read => exact absurd rfl hlabel
        | asr i =>
            obtain ⟨_, _, _, -, -, -, rfl⟩ := asrStep_eq_some hstep
            rfl
        | finish => exact (sameInput_finishEos hstep).2
        | timeout => exact (sameInput_timeout hstep).2
      exact .of_restarted starts harrived

end Connection

/-- In every run with one START: what the ASR stream has been given of the audio, and what
the orchestrator has been given, lasts at 16 kHz as long as it did at the rate of the
START, if and only if that rate is 16 kHz or the difference is less than one sample. -/
theorem audio_rate_iff {config : BridgeConfig} {input : Bytes} {labels : List Connection.Label}
    {c : Connection config} {start : Frame} {rate : Nat}
    (hrun : runSteps Connection.step (connected config input) labels = some c)
    (hstart : startsOf c.arrived = [start]) (hrate : acceptedRate config start = some rate) :
    c.channel.sampleRate = rate ∧
      (∀ task ∈ c.tasks,
        (task.exhausted = true → task.received.length = (spokenAudio c.arrived).length) ∧
        ∀ samples,
          ((spokenAudio c.arrived).take task.received.length).flatten.length = 2 * samples →
          (At16kHz rate samples (task.received.flatMap AudioChunk.pcm16) ↔
            RateNegligible rate samples)) ∧
      ∀ request ∈ c.requests, ∀ pcm, request.audio = some pcm →
        ∀ samples, (spokenAudio c.arrived).flatten.length = 2 * samples →
          (At16kHz rate samples pcm ↔ RateNegligible rate samples) := by
  have hany : AlongRun Connection.step (fun _ _ => True) (connected config input) labels :=
    alongRun_of_forall (fun _ _ => trivial) _ _
  have hfeed : Connection.Feed c :=
    runSteps_invariant (fun h _ hstep => h.step hstep) (Connection.feed_connected input) hany hrun
  cases hfeed with
  | unopened phase channel tasks requests starts =>
      rw [starts] at hstart
      cases hstart
  | shut phase tasks requests starts =>
      have hnone := starts start (by rw [hstart]; exact List.mem_singleton_self start)
      rw [hnone] at hrate
      cases hrate
  | restarted starts =>
      rw [hstart] at starts
      exact absurd starts (lt_irrefl 1)
  | @opened task fed =>
      have hsame := fed.rate
      rw [hstart, List.map_singleton, hrate] at hsame
      obtain ⟨hpart, hall⟩ := fed.supply.received
      refine ⟨(Option.some.inj (List.singleton_inj.mp hsame)).symm, ?_, ?_⟩
      · intro task' hmem
        rw [fed.tasks, List.mem_singleton] at hmem
        rw [hmem]
        refine ⟨?_, ?_⟩
        · intro hexhausted
          rw [← hall hexhausted, List.length_map]
        · intro samples hsamples
          refine at16kHz_iff ?_
          have hheard := List.prefix_iff_eq_take.mp hpart
          rw [List.length_map] at hheard
          rw [← hheard, ← List.flatMap_def] at hsamples
          exact hsamples
      · intro request hrequest pcm haudio samples hsamples
        refine at16kHz_iff ?_
        rw [fed.asked request hrequest pcm haudio]
        exact hsamples

section Examples

/-- A server that asks an orchestrator. -/
def askingConfig : BridgeConfig :=
  { scriptedConfig (fun _ => "ok") with
    orchestrator := some fun _ => .ok none
    defaultScene := some "scene" }

def rateFields (rate : Nat) : Dict String CborScalar :=
  (Dict.empty.set "channel_id" (.str "c1")).set "sample_rate" (.int rate)

/-- START with a rate, two samples, EOS. -/
def twoSamples (rate : Nat) : Bytes :=
  [⟨frameStart, (cborEncodeMap (rateFields rate)).toOption.getD []⟩,
    ⟨frameAudio, [1, 0, 2, 0]⟩, ⟨frameEos, []⟩].flatMap Frame.wire

def askingSchedule : List Connection.Label :=
  [.read, .read, .read, .asr 0, .asr 0, .asr 0, .asr 0, .finish]

/-- What the consumers have been given. -/
structure RateView where
  rates : List (Option Nat)
  audio : List Bytes
  heard : List (Bool × List AudioChunk)
  asked : List (Option Bytes)
deriving DecidableEq

def rateView (c : Connection askingConfig) : RateView :=
  { rates := (startsOf c.arrived).map (acceptedRate askingConfig)
    audio := spokenAudio c.arrived
    heard := c.tasks.map fun task => (task.exhausted, task.received)
    asked := c.requests.map BridgeRequest.audio }

theorem half_view :
    (runSteps Connection.step (connected askingConfig (twoSamples 8000)) askingSchedule).map
      rateView =
        some ⟨[some 8000], [[1, 0, 2, 0]], [(true, [⟨[1, 0, 2, 0], 0⟩])], [some [1, 0, 2, 0]]⟩ := by
  decide +kernel

theorem native_view :
    (runSteps Connection.step (connected askingConfig (twoSamples 16000)) askingSchedule).map
      rateView =
        some ⟨[some 16000], [[1, 0, 2, 0]], [(true, [⟨[1, 0, 2, 0], 0⟩])],
          [some [1, 0, 2, 0]]⟩ := by
  decide +kernel

/-- A run whose START has this rate, with its two samples at both consumers. -/
theorem exists_of_view {input : Bytes} {labels : List Connection.Label} {rate : Nat}
    (hview : (runSteps Connection.step (connected askingConfig input) labels).map rateView =
      some ⟨[some rate], [[1, 0, 2, 0]], [(true, [⟨[1, 0, 2, 0], 0⟩])], [some [1, 0, 2, 0]]⟩) :
    ∃ c start task request,
      runSteps Connection.step (connected askingConfig input) labels = some c ∧
      startsOf c.arrived = [start] ∧ acceptedRate askingConfig start = some rate ∧
      spokenAudio c.arrived = [[1, 0, 2, 0]] ∧ c.tasks = [task] ∧ task.exhausted = true ∧
      task.received = [⟨[1, 0, 2, 0], 0⟩] ∧ c.requests = [request] ∧
      request.audio = some [1, 0, 2, 0] := by
  obtain ⟨c, hrun, hc⟩ := Option.map_eq_some_iff.mp hview
  simp only [rateView, RateView.mk.injEq, List.map_eq_singleton_iff, Prod.mk.injEq] at hc
  obtain ⟨⟨start, hstart, hrate⟩, haudio, ⟨task, htask, hended, hreceived⟩, request, hrequest,
    hasked⟩ :=
    hc
  exact ⟨c, start, task, request, hrun, hstart, hrate, haudio, htask, hended, hreceived, hrequest,
    hasked⟩

theorem audio_rate_native :
    ∃ (c : Connection askingConfig) (task : RunAsr askingConfig.asr),
      runSteps Connection.step (connected askingConfig (twoSamples 16000)) askingSchedule =
        some c ∧
      c.tasks = [task] ∧ At16kHz 16000 2 (task.received.flatMap AudioChunk.pcm16) := by
  obtain ⟨c, start, task, _, hrun, hstart, hrate, haudio, htask, _, hreceived, _⟩ :=
    exists_of_view native_view
  obtain ⟨_, hheard, _⟩ := audio_rate_iff hrun hstart hrate
  have htasks : task ∈ c.tasks := by
    rw [htask]
    exact List.mem_singleton_self task
  have hsamples : ((spokenAudio c.arrived).take task.received.length).flatten.length = 2 * 2 := by
    rw [haudio, hreceived]
    rfl
  exact ⟨c, task, hrun, htask, ((hheard task htasks).2 2 hsamples).mpr (rateNegligible_native 2)⟩

/-- Two samples at 8 kHz are a quarter of a millisecond, and the consumers are given half as
much. -/
theorem audio_rate_ignored :
    ∃ (c : Connection askingConfig) (start : Frame) (task : RunAsr askingConfig.asr)
      (request : BridgeRequest) (pcm : Bytes),
      runSteps Connection.step (connected askingConfig (twoSamples 8000)) askingSchedule = some c ∧
      startsOf c.arrived = [start] ∧ acceptedRate askingConfig start = some 8000 ∧
      (spokenAudio c.arrived).flatten.length = 2 * 2 ∧
      c.tasks = [task] ∧ task.exhausted = true ∧
      ¬ At16kHz 8000 2 (task.received.flatMap AudioChunk.pcm16) ∧
      c.requests = [request] ∧ request.audio = some pcm ∧ ¬ At16kHz 8000 2 pcm := by
  obtain ⟨c, start, task, request, hrun, hstart, hrate, haudio, htask, hended, hreceived, hrequest,
    hasked⟩ := exists_of_view half_view
  have hnot {pcm : Bytes} (h : pcm.length = 2 * 2) : ¬ At16kHz 8000 2 pcm := by
    rw [at16kHz_iff h, rateNegligible_half]
    exact Nat.succ_ne_zero 1
  refine ⟨c, start, task, request, _, hrun, hstart, hrate, ?_, htask, hended, ?_, hrequest, hasked,
    hnot rfl⟩
  · rw [haudio]
    rfl
  · rw [hreceived]
    exact hnot rfl

end Examples

end Mrcp
end Sandroid
