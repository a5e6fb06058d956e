import Sandroid.Mrcp.LossyRtp
import Sandroid.Mrcp.RecognizeExchange

/-!
# What a call brings

The result of `recognize_once` against the server.

`exchange_lossy` is what the client has once it returns, whatever the network has done to
the datagrams; `exchange_exact` is the text of its own audio, when they have all been heard in
order.
-/

namespace Sandroid
namespace Mrcp

open Lib Api Sandroid.Core Models

/-- No audio has been recognized. -/
def noInputResult : RecognizeResult where
  startOfInputSeen := false
  complete := (recognitionComplete 1 "" 0).view
  rawEvents := [(recognitionComplete 1 "" 0).view]

def spokenResult (text : String) (confidence : ℚ) : RecognizeResult where
  startOfInputSeen := true
  complete := (recognitionComplete 1 text confidence).view
  rawEvents := [(startOfInput 1).view, (recognitionComplete 1 text confidence).view]

namespace Exchange

variable {asr : Asr} {call : RecognizeCall} {x : Exchange asr} {r : RecognizeResult}

theorem of_pair {α : Type} {a b reply last : α} {more after : List α}
    (h : [a, b] = reply :: (more ++ last :: after)) : more = [] ∧ last = b := by
  cases more with
  | nil =>
      cases h
      exact ⟨rfl, rfl⟩
  | cons m more => simp at h

theorem of_triple {α : Type} {a b c reply last : α} {more after : List α}
    (h : [a, b, c] = reply :: (more ++ last :: after)) :
    (more = [] ∧ last = b) ∨ (more = [b] ∧ last = c) := by
  cases more with
  | nil =>
      cases h
      exact Or.inl ⟨rfl, rfl⟩
  | cons m more =>
      simp only [List.cons_append, List.cons.injEq] at h
      obtain ⟨-, rfl, htail⟩ := h
      cases more with
      | nil =>
          cases htail
          exact Or.inr ⟨rfl, rfl⟩
      | cons m' more => simp at htail

/-- A result is one of the two that the script of the server allows. -/
theorem Inv.result (h : x.Inv call) (hclient : x.client = .returned r) :
    r = noInputResult ∨ ∃ audio text confidence, Collected x.turn.heard audio ∧ audio ≠ [] ∧
      Answers asr (sliceChunks audio) (text, confidence) ∧ r = spokenResult text confidence := by
  obtain ⟨before, after, hsent, -, -, hknows⟩ := h.seen
  rw [hclient] at hknows
  obtain ⟨reply, more, last, rfl, hname, hseen, hcomplete, hraw⟩ := hknows
  rw [List.cons_append, List.append_assoc, List.singleton_append] at hsent
  have hid : x.turn.requestId = 1 := h.identified (by rw [hsent]; exact List.cons_ne_nil _ _)
  have hscript := h.turn.phase.script
  rw [hid, hsent] at hscript
  have hstartName : (startOfInput 1).asEvent.eventName ≠ "RECOGNITION-COMPLETE" :=
    (by decide : "START-OF-INPUT" ≠ "RECOGNITION-COMPLETE")
  generalize hlist : reply :: (more ++ last :: after) = sent at hscript
  cases hscript with
  | nothing => cases hlist
  | refused => simp at hlist
  | accepted => simp at hlist
  | noInput =>
      obtain ⟨rfl, rfl⟩ := of_pair hlist.symm
      have hfalse : r.startOfInputSeen = false := by
        refine Bool.eq_false_iff.mpr fun htrue => ?_
        obtain ⟨m, hm, -⟩ := hseen.mp htrue
        cases hm
      left
      obtain ⟨seen, complete, rawEvents⟩ := r
      simp only [List.nil_append, List.map_cons, List.map_nil] at hfalse hcomplete hraw
      rw [hfalse, hcomplete, hraw, noInputResult]
  | started hcollected haudio =>
      obtain ⟨rfl, rfl⟩ := of_pair hlist.symm
      exact absurd hname hstartName
  | @completed audio text confidence hcollected haudio hanswers =>
      rcases of_triple hlist.symm with ⟨rfl, rfl⟩ | ⟨rfl, rfl⟩
      · exact absurd hname hstartName
      · have htrue : r.startOfInputSeen = true := hseen.mpr ⟨_, List.mem_singleton_self _, rfl⟩
        refine Or.inr ⟨audio, text, confidence, hcollected, haudio, hanswers, ?_⟩
        obtain ⟨seen, complete, rawEvents⟩ := r
        simp only [List.cons_append, List.nil_append, List.map_cons, List.map_nil]
          at htrue hcomplete hraw
        rw [htrue, hcomplete, hraw, spokenResult]

end Exchange

/-- `drain_rtp` has not ended, so the buffer has been flushed. -/
theorem collectRtp_of_collected {heard : List Bytes} {audio : Bytes}
    (hdraining : (drained 8 heard).2.2 = true) (h : Collected heard audio) :
    collectRtp 8 heard = some audio := by
  cases h with
  | ended hdrain =>
      rw [drained, hdrain] at hdraining
      cases hdraining
  | @flushed jitter pcm _ draining hdrain hflush =>
      rw [drained, hdrain] at hdraining
      have hdraining : draining = true := hdraining
      rw [collectRtp, hdrain, hdraining]
      simp only [hflush]

theorem sendRtp_even {pcm16Le : Bytes} {ssrc : Int} {packetMs : Nat} {datagrams : List Bytes}
    (h : sendRtp pcm16Le ssrc packetMs = .ok datagrams) :
    pcm16Le.length % 2 = 0 ∧ 1 ≤ packetMs := by
  simp only [sendRtp] at h
  split_ifs at h with hodd hzero
  omega

theorem not_collected_nil {audio : Bytes} (h : Collected [] audio) : audio = [] := by
  cases h with
  | ended hdrain => cases hdrain
  | flushed hdrain hflush =>
      cases hdrain
      cases hflush
      rfl

/-- **A call over an unreliable network.**  However the bytes of the control channel arrive and
whatever becomes of the datagrams: a result that the client returns has either no text, after
no START-OF-INPUT, or what the ASR stream has said about chunks of the client's own PCM, each
at most once and in order. -/
theorem exchange_lossy (asr : Asr) (hfit : AnswersFit asr) (call : RecognizeCall)
    (hms : call.packetMs ≤ 127) (hshort : sentCount call.pcm16Le call.packetMs < 2 ^ 15)
    (labels : List ExchangeLabel) (x : Exchange asr) (hrun : Exchange.run call {} labels = some x)
    (r : RecognizeResult) (hreturned : x.client = .returned r) :
    r = noInputResult ∨ ∃ kept : List Nat, kept.Pairwise (· < ·) ∧
      (∀ i ∈ kept, i < sentCount call.pcm16Le call.packetMs) ∧ ∃ audio text confidence,
        audio = (kept.map (sentChunk call.pcm16Le call.packetMs)).flatten ∧ audio ≠ [] ∧
          Answers asr (sliceChunks audio) (text, confidence) ∧
            r = spokenResult text confidence := by
  have h := Exchange.Inv.run hfit hrun
  refine (h.result hreturned).imp_right ?_
  rintro ⟨audio, text, confidence, hcollected, haudio, hanswers, hr⟩
  rcases h.rtp with hnothing | hsend
  · have hheard : x.turn.heard = [] := by
      rw [List.eq_nil_iff_forall_not_mem]
      intro d hd
      have hmem := h.heard d hd
      rw [hnothing] at hmem
      cases hmem
    rw [hheard] at hcollected
    exact absurd (not_collected_nil hcollected) haudio
  · obtain ⟨heven, hpositive⟩ := sendRtp_even hsend
    have hdatagrams := hsend
    rw [sendRtp_eq heven hpositive] at hdatagrams
    have hheard := h.heard
    rw [← Except.ok.inj hdatagrams] at hheard
    obtain ⟨arrived, -, harrived⟩ := exists_arrived hheard
    obtain ⟨kept, hsorted, hkept, hlossy⟩ := lossy_audio call.pcm16Le heven call.ssrc call.packetMs
      ⟨hpositive, hms⟩ hshort x.datagrams hsend 8 x.turn.heard h.heard
    have hdraining : (drained 8 x.turn.heard).2.2 = true := by
      rw [harrived]
      exact drained_sent heven hms 8 arrived
    rw [collectRtp_of_collected hdraining hcollected, Option.some.injEq] at hlossy
    refine ⟨kept, hsorted, ?_, audio, text, confidence, hlossy, haudio, hanswers, hr⟩
    intro i hi
    have hlt := hkept i hi
    rw [← Except.ok.inj hdatagrams, List.length_map, List.length_range] at hlt
    exact hlt

section Text

variable {asr : Asr} {decode : Bytes → String}

/-- The stream returns after the end of the chunks, and its last final is the text of their
audio. -/
def TextOf (asr : Asr) (decode : Bytes → String) : Prop :=
  ∀ state heard ended items, asr.Reaches state heard ended items → asr.next state = .stop →
    ended = true ∧ ∃ final : PartialTranscript, items.foldl keepFinal none = some final ∧
      final.text = decode (audioOf heard)

/-- The finals of a stream that yields one, at its end. -/
theorem foldl_keepFinal {partials : List PartialTranscript} {final : PartialTranscript}
    (hpartials : ∀ p ∈ partials, p.isFinal = false) (hfinal : final.isFinal = true) :
    (partials ++ [final]).foldl keepFinal none = some final := by
  have hnone : partials.foldl keepFinal none = none := by
    induction partials with
    | nil => rfl
    | cons p partials ih =>
        have hp := hpartials p List.mem_cons_self
        rw [List.foldl_cons, keepFinal, hp]
        exact ih fun p hp => hpartials p (List.mem_cons_of_mem _ hp)
  rw [List.foldl_append, hnone, List.foldl_cons, List.foldl_nil, keepFinal, if_pos hfinal]

theorem textOf_stub (stub : StubASR) : TextOf stub.stream stub.finalText := by
  intro state heard ended items hreaches hstop
  obtain ⟨hended, partials, final, rfl, -, hpartials, hfinal, htext⟩ :=
    stub_returned hreaches hstop
  exact ⟨hended, final, foldl_keepFinal hpartials hfinal, htext⟩

theorem textOf_paraformer (paraformer : ParaformerASR) (partialEmitMs : Nat)
    (hdecode : Decodes paraformer decode) : TextOf (paraformer.stream partialEmitMs) decode := by
  intro state heard ended items hreaches hstop
  cases streamAt_of_reaches hreaches with
  | awaiting hlast hsent => cases hstop
  | decoding haudio hlate hsent =>
      simp only [ParaformerASR.stream] at hstop
      split at hstop
      · cases hstop
      · cases hstop
  | ending hlast hsent =>
      simp only [ParaformerASR.stream] at hstop
      split at hstop
      · cases hstop
      · cases hstop
  | returned hsent htext =>
      have hsame := hdecode _ (even_of_decodePcmBuffer htext)
      rw [htext] at hsame
      exact ⟨rfl, _, foldl_keepFinal hsent.notFinal rfl, Except.ok.inj hsame⟩

/-- The slices are the audio. -/
theorem audioOf_sliceChunks (pcm16 : Bytes) : audioOf (sliceChunks pcm16) = pcm16 := by
  have hall : pcm16.length ≤ (pcm16.length + 6400 - 1) / 6400 * 6400 := by
    have hdiv := Nat.lt_div_mul_add (a := pcm16.length + 6400 - 1) (by decide : 0 < 6400)
    omega
  rw [audioOf, sliceChunks, List.flatMap_map, List.flatMap_def]
  exact (flatten_pieces 6400 pcm16 _).trans (List.take_of_length_le hall)

theorem Answers.text (htext : TextOf asr decode) {chunks : List AudioChunk} {text : String}
    {confidence : ℚ} (h : Answers asr chunks (text, confidence)) :
    text = decode (audioOf chunks) ∧ confidence = 1 := by
  obtain ⟨state, fed, rest, ended, items, hchunks, hended, hreaches, hstop, hresult⟩ := h
  obtain ⟨hdone, final, hfinal, hfinalText⟩ := htext _ _ _ _ hreaches hstop
  rw [hended hdone, List.append_nil] at hchunks
  rw [hfinal] at hresult
  cases hresult
  exact ⟨hchunks ▸ hfinalText, rfl⟩

theorem body_withContentLength (ev : MrcpEvent) : ev.withContentLength.body = ev.body := by
  rw [MrcpEvent.withContentLength]
  split_ifs <;> rfl

theorem body_recognitionComplete (requestId : Int) (text : String) (confidence : ℚ) :
    (recognitionComplete requestId text confidence).view.body =
      nlsmlTranscript text confidence := by
  rw [MrcpMessage.view, body_withContentLength, recognitionComplete, MrcpMessage.asEvent]

/-- **A call whose audio has been heard.**  When the server has heard the client's datagrams,
all and in order, and the client has seen the start of the input, the result is the text of the
client's PCM. -/
theorem exchange_exact (asr : Asr) (hfit : AnswersFit asr) (decode : Bytes → String)
    (htext : TextOf asr decode) (call : RecognizeCall) (hms : call.packetMs ≤ 127)
    (labels : List ExchangeLabel) (x : Exchange asr) (hrun : Exchange.run call {} labels = some x)
    (r : RecognizeResult) (hreturned : x.client = .returned r)
    (hall : sendRtp call.pcm16Le call.ssrc call.packetMs = .ok x.turn.heard)
    (hseen : r.startOfInputSeen = true) :
    readNlsmlTranscript r.complete.body = some (decode call.pcm16Le) := by
  have h := Exchange.Inv.run hfit hrun
  obtain ⟨heven, hpositive⟩ := sendRtp_even hall
  rcases h.result hreturned with rfl | ⟨audio, text, confidence, hcollected, -, hanswers, rfl⟩
  · cases hseen
  · obtain ⟨datagrams, hsend, hcollect⟩ :=
      collectRtp_sendRtp call.pcm16Le heven call.ssrc call.packetMs ⟨hpositive, hms⟩ 8
    have hdraining : (drained 8 x.turn.heard).2.2 = true := by
      have hdatagrams := @sendRtp_eq _ call.ssrc _ heven hpositive
      rw [hall] at hdatagrams
      rw [Except.ok.inj hdatagrams]
      exact drained_sent heven hms 8 _
    rw [hall] at hsend
    rw [← Except.ok.inj hsend, collectRtp_of_collected hdraining hcollected] at hcollect
    obtain ⟨rfl, -⟩ := hanswers.text htext
    rw [audioOf_sliceChunks, Option.some.inj hcollect]
    simp only [spokenResult]
    rw [body_recognitionComplete, readNlsmlTranscript_nlsmlTranscript]

/-- `textOf_stub` for a script. -/
theorem textOf_stubAsr {text : String} (hne : text ≠ "") :
    TextOf (stubAsr text) fun _ => text := by
  have hscript : StubASR.finalText { scripted := some text, sha1 := fun _ => "" } =
      fun _ => text := by
    funext accumulated
    rw [StubASR.finalText]
    exact if_pos hne
  have htext := textOf_stub { scripted := some text, sha1 := fun _ => "" }
  rw [hscript] at htext
  exact htext

theorem answersFit_hello : AnswersFit (stubAsr "hello") := by
  intro audio text confidence hanswers
  obtain ⟨rfl, rfl⟩ := hanswers.text (textOf_stubAsr (by decide))
  have hsize : (recognitionComplete 1 "hello" 1).wire.length < 2 ^ 63 := by
    decide +kernel
  exact hsize

/-- Two packets. -/
def sampleCall : RecognizeCall where
  pcm16Le := (List.range 40).map UInt8.ofNat
  packetMs := 1

/-- Up to the RTP socket, and from the end of the input to the result. -/
def openingLabels : List ExchangeLabel :=
  [.client, .toServer 50, .toServer 500, .server .readRequest, .toClient 10,
    .server (.bindSocket true), .toClient 500, .client]

def closingLabels : List ExchangeLabel :=
  [.toServer 1, .server .sentinel, .server .resume, .server .asr, .server .asr, .server .asr,
    .server .asr, .server .asr, .toClient 500, .client, .client]

/-- The result of a run, if the client has returned. -/
def Exchange.result? {asr : Asr} (x : Exchange asr) : Option RecognizeResult :=
  match x.client with
  | .returned r => some r
  | _ => none

theorem Exchange.of_result? {asr : Asr} {x : Exchange asr} {r : RecognizeResult}
    (h : x.result? = some r) : x.client = .returned r := by
  rw [Exchange.result?] at h
  split at h
  · rename_i hclient
    cases h
    exact hclient
  · cases h

/-- The second packet comes first, and twice. -/
theorem exchange_lossy_swapped : ∃ (x : Exchange (stubAsr "hello")) (r : RecognizeResult),
    Exchange.run sampleCall {}
      (openingLabels ++ [.datagram 1, .datagram 0, .datagram 1] ++ closingLabels) = some x ∧
    x.client = .returned r ∧ (r = noInputResult ∨ ∃ kept : List Nat, kept.Pairwise (· < ·) ∧
      (∀ i ∈ kept, i < sentCount sampleCall.pcm16Le sampleCall.packetMs) ∧
        ∃ audio text confidence,
          audio = (kept.map (sentChunk sampleCall.pcm16Le sampleCall.packetMs)).flatten ∧
            audio ≠ [] ∧ Answers (stubAsr "hello") (sliceChunks audio) (text, confidence) ∧
              r = spokenResult text confidence) := by
  have hview : ((Exchange.run sampleCall ({} : Exchange (stubAsr "hello"))
      (openingLabels ++ [.datagram 1, .datagram 0, .datagram 1] ++ closingLabels)).bind
        fun x => x.result?.map (·.startOfInputSeen)) = some true := by
    decide +kernel
  obtain ⟨x, hrun, hresult⟩ := Option.bind_eq_some_iff.mp hview
  obtain ⟨r, hr, -⟩ := Option.map_eq_some_iff.mp hresult
  have hreturned := Exchange.of_result? hr
  exact ⟨x, r, hrun, hreturned, exchange_lossy (stubAsr "hello") answersFit_hello sampleCall
    (by decide) (by decide) _ x hrun r hreturned⟩

/-- A backend that tells the client's audio from any other. -/
def tellingAsr : StubASR :=
  { scripted := none, sha1 := fun pcm => if pcm = sampleCall.pcm16Le then "sent" else "other" }

theorem answersFit_telling : AnswersFit tellingAsr.stream := by
  intro audio text confidence hanswers
  obtain ⟨rfl, rfl⟩ := hanswers.text (textOf_stub tellingAsr)
  have hsent : (recognitionComplete 1 "stub:sent" 1).wire.length < 2 ^ 63 := by
    decide +kernel
  have hother : (recognitionComplete 1 "stub:other" 1).wire.length < 2 ^ 63 := by
    decide +kernel
  simp only [StubASR.finalText, tellingAsr]
  split_ifs
  · exact hsent
  · exact hother

theorem exchange_exact_telling : ∃ (x : Exchange tellingAsr.stream) (r : RecognizeResult),
    Exchange.run sampleCall {} (openingLabels ++ [.datagram 0, .datagram 1] ++ closingLabels) =
      some x ∧ x.client = .returned r ∧
    readNlsmlTranscript r.complete.body = some "stub:sent" := by
  have hview : ((Exchange.run sampleCall ({} : Exchange tellingAsr.stream)
      (openingLabels ++ [.datagram 0, .datagram 1] ++ closingLabels)).bind
        fun x => x.result?.map fun r => (r.startOfInputSeen,
          decide (sendRtp sampleCall.pcm16Le sampleCall.ssrc sampleCall.packetMs =
            .ok x.turn.heard))) = some (true, true) := by
    decide +kernel
  obtain ⟨x, hrun, hresult⟩ := Option.bind_eq_some_iff.mp hview
  obtain ⟨r, hr, hfacts⟩ := Option.map_eq_some_iff.mp hresult
  obtain ⟨hseen, hall⟩ := Prod.mk.inj hfacts
  have hreturned := Exchange.of_result? hr
  have hexact := exchange_exact tellingAsr.stream answersFit_telling tellingAsr.finalText
    (textOf_stub tellingAsr) sampleCall (by decide) _ x hrun r hreturned (of_decide_eq_true hall)
    hseen
  have htext : tellingAsr.finalText sampleCall.pcm16Le = "stub:sent" := by
    decide +kernel
  rw [htext] at hexact
  exact ⟨x, r, hrun, hreturned, hexact⟩

end Text

end Mrcp
end Sandroid
