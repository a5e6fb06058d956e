import Sandroid.Api.FrameOrder
import Sandroid.Lib.Windows
import Sandroid.Models.Paraformer

/-!
# Pseudo-streaming

`ParaformerASR.stream` of `models/asr/paraformer.py` as a generator over the chunks: it
collects the audio, decodes all of it again whenever enough is new, and once more at the
end.

`StreamAt` is the invariant of its states.  `stream_by_audio`: the run over even chunks, and
that its end depends on their concatenation only.  `drains_segmentChunks` is the run over the
slices that a turn makes of a segment.
-/

namespace Sandroid
namespace Models

open Lib Api Vad

/-- `len(accumulated) // 2 * 1000 // _SAMPLE_RATE`. -/
def bufferedMs (accumulated : Pcm) : Nat :=
  accumulated.length / 2 * 1000 / sampleRate

/-- Where the generator stands, with its local variables. -/
inductive StreamState where
  /-- at the head of the loop -/
  | awaiting (accumulated : Pcm) (emittedMs : Nat) (lastText : String)
  /-- about to decode for a partial -/
  | decoding (accumulated : Pcm) (bufferedMs : Nat)
  /-- behind the loop -/
  | ending (accumulated : Pcm) (lastText : String)
  | returned

/-- The body of the loop up to the decoder. -/
def receiveChunk (partialEmitMs : Nat) (accumulated : Pcm) (emittedMs : Nat) (lastText : String)
    (chunk : AudioChunk) : StreamState :=
  if chunk.pcm16 = [] then
    .awaiting accumulated emittedMs lastText
  else
    let accumulated := accumulated ++ chunk.pcm16
    let buffered := bufferedMs accumulated
    if (buffered : Int) - emittedMs < partialEmitMs then
      .awaiting accumulated emittedMs lastText
    else
      .decoding accumulated buffered

namespace ParaformerASR

/-- `_decode_pcm_buffer`. -/
def decodePcmBuffer (asr : ParaformerASR) (pcm16 : Pcm) : Except String String :=
  if pcm16 = [] then
    .ok ""
  else if pcm16.length % 2 = 1 then
    .error "buffer size must be a multiple of element size"
  else
    let feats := asr.features (toSamples pcm16)
    if feats = [] then .ok "" else asr.runAndDecode feats

def stream (asr : ParaformerASR) (partialEmitMs : Nat) : Asr where
  State := StreamState
  start := .awaiting [] 0 ""
  next
    | .awaiting accumulated emittedMs lastText =>
        .pull fun
          | some chunk => receiveChunk partialEmitMs accumulated emittedMs lastText chunk
          | none => .ending accumulated lastText
    | .decoding accumulated bufferedMs =>
        match asr.decodePcmBuffer accumulated with
        | .error message => .fail message
        | .ok text => .emit ⟨text, false, 0, bufferedMs⟩ (.awaiting accumulated bufferedMs text)
    | .ending accumulated lastText =>
        match if accumulated ≠ [] then asr.decodePcmBuffer accumulated else .ok lastText with
        | .error message => .fail message
        | .ok text => .emit ⟨text, true, 0, bufferedMs accumulated⟩ .returned
    | .returned => .stop

end ParaformerASR

/-- The audio of chunks. -/
def audioOf (chunks : List AudioChunk) : Pcm :=
  chunks.flatMap (·.pcm16)

def EvenChunks (chunks : List AudioChunk) : Prop :=
  ∀ chunk ∈ chunks, chunk.pcm16.length % 2 = 0

instance (chunks : List AudioChunk) : Decidable (EvenChunks chunks) :=
  inferInstanceAs (Decidable (∀ chunk ∈ chunks, chunk.pcm16.length % 2 = 0))

/-- The decoder is the function `decode` of whole samples. -/
def Decodes (asr : ParaformerASR) (decode : Pcm → String) : Prop :=
  ∀ pcm16, pcm16.length % 2 = 0 → asr.decodePcmBuffer pcm16 = .ok (decode pcm16)

/-- Partials whose times are apart. -/
structure Paced (partialEmitMs : Nat) (partials : List PartialTranscript) : Prop where
  notFinal : ∀ p ∈ partials, p.isFinal = false
  increasing : (partials.map (·.endMs)).Pairwise (· < ·)
  late : ∀ p ∈ partials, partialEmitMs ≤ p.endMs
  apart : (partials.map (·.endMs)).Pairwise fun a b => a + partialEmitMs ≤ b

/-- The final over some audio. -/
def finalOf (decode : Pcm → String) (audio : Pcm) : PartialTranscript :=
  ⟨decode audio, true, 0, bufferedMs audio⟩

/-- The run over `chunks` ends, with paced partials and then one final over all of the
audio; every item is the decoding of the audio so far, and the final is the same for any
other chunks of the same audio. -/
structure ByAudio (g : Asr) (partialEmitMs : Nat) (decode : Pcm → String)
    (chunks : List AudioChunk) : Prop where
  ends : ∃ k ys, g.Drains k g.start chunks ys
  oneFinal : ∀ k ys, g.Drains k g.start chunks ys →
    ∃ partials, Paced partialEmitMs partials ∧
      ys = partials ++ [finalOf decode (audioOf chunks)]
  soFar : ∀ s s' heard ended sent p, g.Reaches s heard ended sent → g.next s = .emit p s' →
    p.text = decode (audioOf heard) ∧ p.endMs = bufferedMs (audioOf heard)
  sameEnd : ∀ chunks', audioOf chunks' = audioOf chunks → ∀ k k' ys ys',
    g.Drains k g.start chunks ys → g.Drains k' g.start chunks' ys' → ys.getLast? = ys'.getLast?

/-- The partials so far, up to the time of the last one. -/
structure PacedUpTo (partialEmitMs emittedMs : Nat) (partials : List PartialTranscript) :
    Prop where
  notFinal : ∀ p ∈ partials, p.isFinal = false
  late : ∀ p ∈ partials, partialEmitMs ≤ p.endMs
  apart : (partials.map (·.endMs)).Pairwise fun a b => a + partialEmitMs ≤ b
  upTo : ∀ p ∈ partials, p.endMs ≤ emittedMs

section Paced

variable {partialEmitMs emittedMs : Nat} {partials : List PartialTranscript}

theorem PacedUpTo.nil : PacedUpTo partialEmitMs 0 [] where
  notFinal := List.forall_mem_nil _
  late := List.forall_mem_nil _
  apart := List.Pairwise.nil
  upTo := List.forall_mem_nil _

/-- One more partial, late enough. -/
theorem PacedUpTo.snoc (h : PacedUpTo partialEmitMs emittedMs partials) {endMs : Nat}
    (hlate : emittedMs + partialEmitMs ≤ endMs) (text : String) :
    PacedUpTo partialEmitMs endMs (partials ++ [⟨text, false, 0, endMs⟩]) where
  notFinal p hp := by
    rcases List.mem_append.mp hp with hp | hp
    · exact h.notFinal p hp
    · rw [List.mem_singleton.mp hp]
  late p hp := by
    rcases List.mem_append.mp hp with hp | hp
    · exact h.late p hp
    · rw [List.mem_singleton.mp hp]
      exact (Nat.le_add_left _ _).trans hlate
  apart := by
    rw [List.map_append, List.pairwise_append]
    refine ⟨h.apart, List.pairwise_singleton _ _, ?_⟩
    intro a ha b hb
    obtain ⟨p, hp, rfl⟩ := List.mem_map.mp ha
    rw [List.map_singleton, List.mem_singleton] at hb
    rw [hb]
    exact (Nat.add_le_add_right (h.upTo p hp) _).trans hlate
  upTo p hp := by
    rcases List.mem_append.mp hp with hp | hp
    · exact (h.upTo p hp).trans ((Nat.le_add_right _ _).trans hlate)
    · rw [List.mem_singleton.mp hp]

theorem PacedUpTo.paced (hemit : 1 ≤ partialEmitMs)
    (h : PacedUpTo partialEmitMs emittedMs partials) : Paced partialEmitMs partials where
  notFinal := h.notFinal
  increasing := h.apart.imp fun hab => (Nat.lt_add_of_pos_right hemit).trans_le hab
  late := h.late
  apart := h.apart

end Paced

section Stream

variable {asr : ParaformerASR} {partialEmitMs : Nat}

/-- Where the generator is once it has received `heard` and has yielded `sent`: what it
holds is the audio so far. -/
inductive StreamAt (asr : ParaformerASR) (partialEmitMs : Nat) :
    StreamState → List AudioChunk → Bool → List PartialTranscript → Prop
  | awaiting {heard : List AudioChunk} {sent : List PartialTranscript} {emittedMs : Nat}
      {lastText : String} (hlast : audioOf heard = [] → lastText = "")
      (hsent : PacedUpTo partialEmitMs emittedMs sent) :
      StreamAt asr partialEmitMs (.awaiting (audioOf heard) emittedMs lastText) heard false sent
  | decoding {heard : List AudioChunk} {sent : List PartialTranscript} {emittedMs : Nat}
      (haudio : audioOf heard ≠ [])
      (hlate : emittedMs + partialEmitMs ≤ bufferedMs (audioOf heard))
      (hsent : PacedUpTo partialEmitMs emittedMs sent) :
      StreamAt asr partialEmitMs (.decoding (audioOf heard) (bufferedMs (audioOf heard))) heard
        false sent
  | ending {heard : List AudioChunk} {sent : List PartialTranscript} {emittedMs : Nat}
      {lastText : String} (hlast : audioOf heard = [] → lastText = "")
      (hsent : PacedUpTo partialEmitMs emittedMs sent) :
      StreamAt asr partialEmitMs (.ending (audioOf heard) lastText) heard true sent
  | returned {heard : List AudioChunk} {sent : List PartialTranscript} {emittedMs : Nat}
      {text : String} (hsent : PacedUpTo partialEmitMs emittedMs sent)
      (htext : asr.decodePcmBuffer (audioOf heard) = .ok text) :
      StreamAt asr partialEmitMs .returned heard true
        (sent ++ [⟨text, true, 0, bufferedMs (audioOf heard)⟩])

theorem audioOf_append (xs ys : List AudioChunk) : audioOf (xs ++ ys) = audioOf xs ++ audioOf ys :=
  List.flatMap_append

theorem audioOf_snoc (heard : List AudioChunk) (chunk : AudioChunk) :
    audioOf (heard ++ [chunk]) = audioOf heard ++ chunk.pcm16 := by
  rw [audioOf_append, audioOf, audioOf, List.flatMap_singleton]

theorem decodePcmBuffer_nil : asr.decodePcmBuffer [] = .ok "" :=
  if_pos rfl

/-- What the decoder accepts has whole samples. -/
theorem even_of_decodePcmBuffer {pcm16 : Pcm} {text : String}
    (h : asr.decodePcmBuffer pcm16 = .ok text) : pcm16.length % 2 = 0 := by
  rw [ParaformerASR.decodePcmBuffer] at h
  split_ifs at h with hempty hodd
  · rw [hempty]
    rfl
  · omega

/-- The decision of the loop about one more chunk. -/
theorem StreamAt.receive {heard : List AudioChunk} {sent : List PartialTranscript}
    {emittedMs : Nat} {lastText : String} (hlast : audioOf heard = [] → lastText = "")
    (hsent : PacedUpTo partialEmitMs emittedMs sent) (chunk : AudioChunk) :
    StreamAt asr partialEmitMs
      (receiveChunk partialEmitMs (audioOf heard) emittedMs lastText chunk) (heard ++ [chunk])
      false sent := by
  rw [receiveChunk]
  split_ifs with hempty
  · have haudio : audioOf (heard ++ [chunk]) = audioOf heard := by
      rw [audioOf_snoc, hempty, List.append_nil]
    rw [← haudio] at hlast ⊢
    exact .awaiting hlast hsent
  · have haudio : audioOf (heard ++ [chunk]) ≠ [] := by
      rw [audioOf_snoc]
      exact List.append_ne_nil_of_right_ne_nil _ hempty
    simp only
    rw [← audioOf_snoc]
    split_ifs with hsoon
    · exact .awaiting (fun h => absurd h haudio) hsent
    · exact .decoding haudio (by omega) hsent

/-- An item is the decoding of the audio so far. -/
theorem StreamAt.emit {s s' : StreamState} {heard : List AudioChunk} {ended : Bool}
    {sent : List PartialTranscript} {p : PartialTranscript}
    (h : StreamAt asr partialEmitMs s heard ended sent)
    (hnext : (asr.stream partialEmitMs).next s = .emit p s') :
    asr.decodePcmBuffer (audioOf heard) = .ok p.text ∧ p.endMs = bufferedMs (audioOf heard) ∧
      StreamAt asr partialEmitMs s' heard ended (sent ++ [p]) := by
  cases h with
  | awaiting hlast hsent => cases hnext
  | decoding haudio hlate hsent =>
      simp only [ParaformerASR.stream] at hnext
      cases htext : asr.decodePcmBuffer (audioOf heard) with
      | error message =>
          rw [htext] at hnext
          cases hnext
      | ok text =>
          rw [htext] at hnext
          cases hnext
          exact ⟨rfl, rfl, .awaiting (fun h => absurd h haudio) (hsent.snoc hlate text)⟩
  | @ending _ _ _ lastText hlast hsent =>
      have hfinal : (if audioOf heard ≠ [] then asr.decodePcmBuffer (audioOf heard)
          else .ok lastText) = asr.decodePcmBuffer (audioOf heard) := by
        split_ifs with haudio
        · rfl
        · rw [not_not.mp haudio, decodePcmBuffer_nil, hlast (not_not.mp haudio)]
      simp only [ParaformerASR.stream, hfinal] at hnext
      cases htext : asr.decodePcmBuffer (audioOf heard) with
      | error message =>
          rw [htext] at hnext
          cases hnext
      | ok text =>
          rw [htext] at hnext
          cases hnext
          exact ⟨rfl, rfl, .returned hsent htext⟩
  | returned hsent htext => cases hnext

/-- Only the loop asks for chunks. -/
theorem awaiting_of_pull {s : (asr.stream partialEmitMs).State}
    {resume : Option AudioChunk → (asr.stream partialEmitMs).State}
    (hnext : (asr.stream partialEmitMs).next s = .pull resume) :
    ∃ accumulated emittedMs lastText, s = .awaiting accumulated emittedMs lastText ∧
      resume none = .ending accumulated lastText ∧ ∀ chunk, resume (some chunk) =
        receiveChunk partialEmitMs accumulated emittedMs lastText chunk := by
  cases s with
  | awaiting accumulated emittedMs lastText =>
      cases hnext
      exact ⟨accumulated, emittedMs, lastText, rfl, rfl, fun chunk => rfl⟩
  | decoding accumulated bufferedMs =>
      simp only [ParaformerASR.stream] at hnext
      split at hnext
      · cases hnext
      · cases hnext
  | ending accumulated lastText =>
      simp only [ParaformerASR.stream] at hnext
      split at hnext
      · cases hnext
      · cases hnext
  | returned => cases hnext

/-- Every state on the way. -/
theorem streamAt_of_reaches {s : (asr.stream partialEmitMs).State} {heard : List AudioChunk}
    {ended : Bool} {sent : List PartialTranscript}
    (h : (asr.stream partialEmitMs).Reaches s heard ended sent) :
    StreamAt asr partialEmitMs s heard ended sent := by
  induction h with
  | start => exact @StreamAt.awaiting asr partialEmitMs [] [] 0 "" (fun _ => rfl) .nil
  | emit _ hnext ih => exact (ih.emit hnext).2.2
  | pull _ hnext chunk ih =>
      obtain ⟨accumulated, emittedMs, lastText, rfl, -, hsome⟩ := awaiting_of_pull hnext
      rw [hsome]
      cases ih with
      | awaiting hlast hsent => exact .receive hlast hsent chunk
  | finish _ hnext ih =>
      obtain ⟨accumulated, emittedMs, lastText, rfl, hnone, -⟩ := awaiting_of_pull hnext
      rw [hnone]
      cases ih with
      | awaiting hlast hsent => exact .ending hlast hsent

/-- A generator that has returned has yielded partials and one final. -/
theorem StreamAt.of_stop {s : (asr.stream partialEmitMs).State} {heard : List AudioChunk}
    {ended : Bool} {sent : List PartialTranscript}
    (h : StreamAt asr partialEmitMs s heard ended sent)
    (hstop : (asr.stream partialEmitMs).next s = .stop) :
    ended = true ∧ ∃ partials emittedMs text, PacedUpTo partialEmitMs emittedMs partials ∧
      asr.decodePcmBuffer (audioOf heard) = .ok text ∧
      sent = partials ++ [⟨text, true, 0, bufferedMs (audioOf heard)⟩] := by
  cases h with
  | awaiting hlast hsent => cases hstop
  | decoding haudio hlate hsent =>
      simp only [ParaformerASR.stream] at hstop
      split at hstop
      · cases hstop
      · cases hstop
  | ending hlast hsent =>
      simp only [ParaformerASR.stream] at hstop
      split at hstop
      · cases hstop
      · cases hstop
  | returned hsent htext => exact ⟨rfl, _, _, _, hsent, htext, rfl⟩

/-- The backend takes its source to the end, as the bridge relies on. -/
theorem stream_exhausts : (asr.stream partialEmitMs).Exhausts := by
  intro s heard sent hreaches hstop
  have hended := ((streamAt_of_reaches hreaches).of_stop hstop).1
  cases hended

/-- Its final comes last, as the frames of a turn rely on. -/
theorem stream_finalLast : Asr.FinalLast (asr.stream partialEmitMs) := by
  intro s heard ended sent hreaches p hp
  cases streamAt_of_reaches hreaches with
  | awaiting _ hsent => exact hsent.notFinal p (List.mem_of_mem_dropLast hp)
  | decoding _ _ hsent => exact hsent.notFinal p (List.mem_of_mem_dropLast hp)
  | ending _ hsent => exact hsent.notFinal p (List.mem_of_mem_dropLast hp)
  | returned hsent _ =>
      rw [List.dropLast_concat] at hp
      exact hsent.notFinal p hp

theorem next_decoding {accumulated : Pcm} {text : String} (bufferedMs : Nat)
    (h : asr.decodePcmBuffer accumulated = .ok text) :
    (asr.stream partialEmitMs).next (.decoding accumulated bufferedMs) =
      .emit ⟨text, false, 0, bufferedMs⟩ (.awaiting accumulated bufferedMs text) := by
  simp only [ParaformerASR.stream, h]

theorem next_ending {accumulated : Pcm} {lastText text : String}
    (h : (if accumulated ≠ [] then asr.decodePcmBuffer accumulated else .ok lastText) =
      .ok text) :
    (asr.stream partialEmitMs).next (.ending accumulated lastText) =
      .emit ⟨text, true, 0, bufferedMs accumulated⟩ .returned := by
  simp only [ParaformerASR.stream, h]

/-- The end of a run, behind the loop. -/
theorem drained_of_ending {decode : Pcm → String} (hdecode : Decodes asr decode)
    {accumulated : Pcm} (heven : accumulated.length % 2 = 0) (lastText : String) :
    ∃ ys, (asr.stream partialEmitMs).Drained 2 (.ending accumulated lastText) ys := by
  have hreturned : (asr.stream partialEmitMs).Drained 1 StreamState.returned [] := .stop rfl
  by_cases hempty : accumulated = []
  · have hnext := @next_ending asr partialEmitMs accumulated lastText lastText
      (if_neg (not_not.mpr hempty))
    exact ⟨_, .emit hnext hreturned⟩
  · have hnext := @next_ending asr partialEmitMs accumulated lastText (decode accumulated)
      ((if_pos hempty).trans (hdecode accumulated heven))
    exact ⟨_, .emit hnext hreturned⟩

/-- With a decoder that returns, the loop comes to its end on even chunks. -/
theorem drains_of_awaiting {decode : Pcm → String} (hdecode : Decodes asr decode)
    {chunks : List AudioChunk} (hchunks : EvenChunks chunks) :
    ∀ {accumulated : Pcm}, accumulated.length % 2 = 0 → ∀ (emittedMs : Nat) (lastText : String),
      ∃ k ys, (asr.stream partialEmitMs).Drains k (.awaiting accumulated emittedMs lastText)
        chunks ys := by
  induction chunks with
  | nil =>
      intro accumulated heven emittedMs lastText
      obtain ⟨ys, hrest⟩ := drained_of_ending hdecode heven lastText
      exact ⟨_, ys, .finish rfl hrest⟩
  | cons chunk chunks ih =>
      intro accumulated heven emittedMs lastText
      have ih := @ih fun c hc => hchunks c (List.mem_cons_of_mem _ hc)
      have hgrown : (accumulated ++ chunk.pcm16).length % 2 = 0 := by
        have hchunk := hchunks chunk List.mem_cons_self
        rw [List.length_append]
        omega
      have hreceive : ∃ k ys, (asr.stream partialEmitMs).Drains k
          (receiveChunk partialEmitMs accumulated emittedMs lastText chunk) chunks ys := by
        rw [receiveChunk]
        split_ifs with hempty
        · exact ih heven emittedMs lastText
        · simp only
          split_ifs with hsoon
          · exact ih hgrown emittedMs lastText
          · obtain ⟨k, ys, hrest⟩ := ih hgrown (bufferedMs (accumulated ++ chunk.pcm16))
              (decode (accumulated ++ chunk.pcm16))
            exact ⟨k + 1, _ :: ys, .emit (next_decoding _ (hdecode _ hgrown)) hrest⟩
      obtain ⟨k, ys, hrest⟩ := hreceive
      exact ⟨k + 1, ys, .pull rfl hrest⟩

/-- What a run that yields `ys` has yielded. -/
theorem run_of_drains {decode : Pcm → String} (hemit : 1 ≤ partialEmitMs)
    (hdecode : Decodes asr decode) {k : Nat} {chunks : List AudioChunk}
    {ys : List PartialTranscript}
    (h : (asr.stream partialEmitMs).Drains k (asr.stream partialEmitMs).start chunks ys) :
    ∃ partials, Paced partialEmitMs partials ∧
      ys = partials ++ [finalOf decode (audioOf chunks)] := by
  obtain ⟨s, hreaches, hstop⟩ := h.reaches .start
  obtain ⟨-, partials, emittedMs, text, hpaced, htext, hys⟩ :=
    (streamAt_of_reaches hreaches).of_stop hstop
  rw [List.nil_append, hdecode _ (even_of_decodePcmBuffer htext)] at htext
  refine ⟨partials, hpaced.paced hemit, ?_⟩
  rw [List.nil_append, List.nil_append] at hys
  rw [hys, finalOf, Except.ok.inj htext]

/-- **The stream goes by the audio, however it is cut into even chunks.** -/
theorem stream_by_audio {decode : Pcm → String} (hemit : 1 ≤ partialEmitMs)
    (hdecode : Decodes asr decode) {chunks : List AudioChunk} (hchunks : EvenChunks chunks) :
    ByAudio (asr.stream partialEmitMs) partialEmitMs decode chunks where
  ends := drains_of_awaiting hdecode hchunks rfl 0 ""
  oneFinal k ys h := run_of_drains hemit hdecode h
  soFar s s' heard ended sent p hreaches hnext := by
    obtain ⟨htext, hend, -⟩ := (streamAt_of_reaches hreaches).emit hnext
    rw [hdecode _ (even_of_decodePcmBuffer htext)] at htext
    exact ⟨(Except.ok.inj htext).symm, hend⟩
  sameEnd chunks' haudio k k' ys ys' h h' := by
    obtain ⟨partials, -, rfl⟩ := run_of_drains hemit hdecode h
    obtain ⟨partials', -, rfl⟩ := run_of_drains hemit hdecode h'
    rw [List.getLast?_concat, List.getLast?_concat, haudio]

/-- The slices that a turn gives to the stream are the segment. -/
theorem audioOf_segmentChunks (seg : SegmentResult) : audioOf (segmentChunks seg) = seg.pcm16 := by
  obtain ⟨n, hn⟩ : ∃ n, n = max 2 (seg.sampleRate / 5 * 2) := ⟨_, rfl⟩
  have hpos : 0 < n := by omega
  have hcover : seg.pcm16.length ≤ (seg.pcm16.length + n - 1) / n * n := by
    have hdiv := Nat.div_add_mod (seg.pcm16.length + n - 1) n
    have hmod := Nat.mod_lt (seg.pcm16.length + n - 1) hpos
    rw [Nat.mul_comm] at hdiv
    omega
  rw [audioOf, segmentChunks, ← hn]
  simp only [List.flatMap_def, List.map_map]
  refine (flatten_pieces n seg.pcm16 ((seg.pcm16.length + n - 1) / n)).trans ?_
  exact List.take_of_length_le hcover

theorem evenChunks_segmentChunks {seg : SegmentResult} (heven : seg.pcm16.length % 2 = 0) :
    EvenChunks (segmentChunks seg) := by
  intro chunk hchunk
  obtain ⟨n, hn⟩ : ∃ n, 2 * n = max 2 (seg.sampleRate / 5 * 2) :=
    ⟨max 1 (seg.sampleRate / 5), by omega⟩
  rw [segmentChunks, ← hn] at hchunk
  obtain ⟨i, -, rfl⟩ := List.mem_map.mp hchunk
  have hstart : i * (2 * n) = 2 * (i * n) := Nat.mul_left_comm i 2 n
  rw [List.length_take, List.length_drop, hstart]
  omega

/-- A turn's stream over a segment ends with the decoding of the whole segment. -/
theorem drains_segmentChunks {decode : Pcm → String} (hemit : 1 ≤ partialEmitMs)
    (hdecode : Decodes asr decode) {seg : SegmentResult} (heven : seg.pcm16.length % 2 = 0) :
    ∃ k partials, Paced partialEmitMs partials ∧
      (asr.stream partialEmitMs).Drains k (asr.stream partialEmitMs).start (segmentChunks seg)
        (partials ++ [finalOf decode seg.pcm16]) := by
  obtain ⟨k, ys, hrun⟩ := @drains_of_awaiting asr partialEmitMs decode hdecode _
    (evenChunks_segmentChunks heven) [] rfl 0 ""
  obtain ⟨partials, hpaced, rfl⟩ := run_of_drains hemit hdecode hrun
  rw [audioOf_segmentChunks] at hrun
  exact ⟨k, partials, hpaced, hrun⟩

end Stream

/-- A network that counts the samples. -/
def countingAsr : ParaformerASR :=
  { features := fun pcm => pcm.map fun x => [x]
    runAndDecode := fun feats => .ok (String.ofList (decimal feats.length)) }

def countedText (pcm16 : Pcm) : String :=
  if pcm16 = [] then "" else String.ofList (decimal (pcm16.length / 2))

theorem countingAsr_decodes : Decodes countingAsr countedText := by
  intro pcm16 heven
  rw [ParaformerASR.decodePcmBuffer, countedText]
  split_ifs with hempty hodd
  · rfl
  · omega
  · have hlength : (countingAsr.features (toSamples pcm16)).length = pcm16.length / 2 := by
      rw [← length_toSamples]
      exact List.length_map _
    have hfeats : countingAsr.features (toSamples pcm16) ≠ [] := by
      have hpos := List.length_pos_iff.mpr hempty
      rw [← List.length_pos_iff, hlength]
      omega
    simp only [if_neg hfeats]
    rw [← hlength]
    rfl

/-- A millisecond, nothing, and another one. -/
def twoMilliseconds : List AudioChunk :=
  [⟨List.replicate 32 0, 0⟩, ⟨[], 1⟩, ⟨List.replicate 32 1, 2⟩]

theorem stream_by_audio_counted :
    ByAudio (countingAsr.stream 1) 1 countedText twoMilliseconds :=
  stream_by_audio le_rfl countingAsr_decodes (by decide)

end Models
end Sandroid
