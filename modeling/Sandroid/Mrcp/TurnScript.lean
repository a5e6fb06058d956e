import Sandroid.Models.StubAsr
import Sandroid.Mrcp.RecognizeTurn

/-!
# What one connection answers

The messages of `handle_connection` over any run of a turn.

`TurnScript` lists what a turn may have sent, with the audio behind a transcript.  `Inv` is
the invariant of the steps, and `Progress` says what a step may change.  `turn_script` is the
result for a server that anybody may talk to.
-/

namespace Sandroid
namespace Mrcp

open Lib Api Sandroid.Core Models

/-- What `_collect_rtp_until_sentinel` returns, if nothing interrupts it. -/
inductive Collected (heard : List Bytes) : Bytes → Prop
  | ended {jitter : JitterBuffer} {pcm : Bytes}
      (hdrain : drainRtp { capacity := 8 } [] heard = (jitter, pcm, false)) : Collected heard pcm
  | flushed {jitter : JitterBuffer} {pcm audio : Bytes} {draining : Bool}
      (hdrain : drainRtp { capacity := 8 } [] heard = (jitter, pcm, draining))
      (hflush : extendPcm pcm jitter.flush.1 = (audio, true)) : Collected heard audio

/-- What `_run_asr` returns for chunks; the stream may return before it has taken all. -/
def Answers (asr : Asr) (chunks : List AudioChunk) (result : String × ℚ) : Prop :=
  ∃ state fed rest ended items, fed ++ rest = chunks ∧ (ended = true → rest = []) ∧
    asr.Reaches state fed ended items ∧ asr.next state = .stop ∧
      result = asrResult (items.foldl keepFinal none)

/-- How far a turn has come with its messages. -/
inductive TurnScript (asr : Asr) (requestId : Int) (heard : List Bytes) : List MrcpMessage → Prop
  | nothing : TurnScript asr requestId heard []
  | refused : TurnScript asr requestId heard [notAllowed requestId]
  | accepted : TurnScript asr requestId heard [inProgress requestId]
  | noInput : TurnScript asr requestId heard
      [inProgress requestId, recognitionComplete requestId "" 0]
  | started {audio : Bytes} (hcollected : Collected heard audio) (haudio : audio ≠ []) :
      TurnScript asr requestId heard [inProgress requestId, startOfInput requestId]
  | completed {audio : Bytes} {text : String} {confidence : ℚ} (hcollected : Collected heard audio)
      (haudio : audio ≠ []) (hanswers : Answers asr (sliceChunks audio) (text, confidence)) :
      TurnScript asr requestId heard [inProgress requestId, startOfInput requestId,
        recognitionComplete requestId text confidence]

/-- The messages of the server. -/
inductive ServerMessage (requestId : Int) : MrcpMessage → Prop
  | notAllowed : ServerMessage requestId (notAllowed requestId)
  | inProgress : ServerMessage requestId (inProgress requestId)
  | startOfInput : ServerMessage requestId (startOfInput requestId)
  | complete (text : String) (confidence : ℚ) :
      ServerMessage requestId (recognitionComplete requestId text confidence)

/-- A message as an event: the client reads a status code as the name of one. -/
def MrcpMessage.asEvent : MrcpMessage → MrcpEvent
  | .response resp =>
      { eventName := String.ofList (decimal resp.statusCode.natAbs)
        requestId := resp.requestId
        requestState := resp.requestState
        headers := resp.headers
        body := resp.body }
  | .event ev => ev

/-- The bytes of a message that can be serialized. -/
def MrcpMessage.wire (message : MrcpMessage) : Bytes :=
  message.serialize.toOption.getD []

namespace ServerMessage

variable {requestId : Int} {m : MrcpMessage}

theorem intText_status {n : Nat} (hn : n < 10 ^ 3) :
    intText n = .ok (String.ofList (decimal n)) := by
  have hdigits : (decimal n).length ≤ 3 := (length_decimal_le_iff (by decide)).mpr hn
  rw [intText, pyStr, Int.natAbs_natCast, if_neg (not_lt.mpr (hdigits.trans (by decide))),
    if_neg (by omega)]

theorem serialize_response {status : Nat} (hstatus : status < 10 ^ 3) (requestId : Int)
    (requestState : String) (headers : Dict String String) (body : Bytes) :
    (MrcpMessage.response ⟨status, requestId, requestState, headers, body⟩).serialize =
      serializeEvent 3
        (MrcpMessage.response ⟨status, requestId, requestState, headers, body⟩).asEvent := by
  rw [MrcpMessage.serialize, serializeResponse, intText_status hstatus]
  rfl

theorem serialize_eq (h : ServerMessage requestId m) :
    m.serialize = serializeEvent 3 m.asEvent := by
  cases h with
  | notAllowed => exact @serialize_response 405 (by decide) _ _ _ _
  | inProgress => exact @serialize_response 200 (by decide) _ _ _ _
  | startOfInput => rfl
  | complete text confidence => rfl

theorem requestId_eq (h : ServerMessage requestId m) : m.asEvent.requestId = requestId := by
  cases h <;> rfl

theorem tokenOk_inProgress : TokenOk "IN-PROGRESS" :=
  ⟨by decide, forall_of_all (by decide), by decide⟩

theorem tokenOk_405 : TokenOk (String.ofList (decimal 405)) :=
  ⟨by decide, forall_of_all (by decide), by decide⟩

theorem tokenOk_200 : TokenOk (String.ofList (decimal 200)) :=
  ⟨by decide, forall_of_all (by decide), by decide⟩

theorem tokenOk_startOfInput : TokenOk "START-OF-INPUT" :=
  ⟨by decide, forall_of_all (by decide), by decide⟩

theorem tokenOk_recognitionComplete : TokenOk "RECOGNITION-COMPLETE" :=
  ⟨by decide, forall_of_all (by decide), by decide⟩

theorem headers_complete (text : String) : ∀ entry ∈ ((Dict.empty.set "Completion-Cause"
    (if text = "" then "001 no-input-timeout" else "000 success")).set
      "Content-Type" "application/nlsml+xml").entries, HeaderOk entry := by
  have hcause : HeaderOk ("Completion-Cause",
      if text = "" then "001 no-input-timeout" else "000 success") := by
    split_ifs
    · exact ⟨by decide, rfl, by decide, by decide, rfl, by decide⟩
    · exact ⟨by decide, rfl, by decide, by decide, rfl, by decide⟩
  have htype : HeaderOk ("Content-Type", "application/nlsml+xml") :=
    ⟨by decide, rfl, by decide, by decide, rfl, by decide⟩
  intro entry hentry
  rcases List.mem_cons.mp hentry with rfl | hentry
  · exact hcause
  · rw [List.mem_singleton.mp hentry]
    exact htype

theorem wellFormed (h : ServerMessage requestId m) : m.asEvent.WellFormed := by
  cases h with
  | notAllowed => exact ⟨tokenOk_405, tokenOk_complete, nofun, rfl⟩
  | inProgress => exact ⟨tokenOk_200, tokenOk_inProgress, nofun, rfl⟩
  | startOfInput => exact ⟨tokenOk_startOfInput, tokenOk_inProgress, nofun, rfl⟩
  | complete text confidence =>
      exact ⟨tokenOk_recognitionComplete, tokenOk_complete, headers_complete text, rfl⟩

/-- Every message can be serialized, whatever the request id. -/
theorem serialize_wire (h : ServerMessage requestId m)
    (hdigits : (decimal requestId.natAbs).length ≤ maxStrDigits) : m.serialize = .ok m.wire := by
  obtain ⟨id, hid⟩ := intText_of_digits hdigits
  have hwf := h.wellFormed
  obtain ⟨n, -, hserialize⟩ := serializeEvent_eq_ok hwf.name.no_percent hwf.state.no_percent
    (h.requestId_eq ▸ hid)
  rw [MrcpMessage.wire, h.serialize_eq, hserialize 0]
  rfl

theorem length_utf8_intText {n : Int} {text : String} (h : intText n = .ok text) :
    (utf8 text).length ≤ maxStrDigits + 1 := by
  have hstr := intText_eq_ok h
  have hascii : ∀ c ∈ text.toList, c.toNat < 128 := by
    intro c hc
    rcases mem_pyStr hstr hc with hdigit | rfl
    · exact (toNat_of_isDigit hdigit).2.trans_lt (by decide)
    · decide
  have hlength : (utf8 text).length = text.toList.length := by
    rw [← String.ofList_toList (s := text), utf8_ofList_ascii hascii, List.length_map,
      String.toList_ofList]
  rw [pyStr] at hstr
  split_ifs at hstr with hlong hneg
  · rw [hlength, ← Option.some.inj hstr, List.length_cons]
    omega
  · rw [hlength, ← Option.some.inj hstr]
    omega

theorem length_names (h : ServerMessage requestId m) :
    (utf8 m.asEvent.eventName).length ≤ 20 ∧ (utf8 m.asEvent.requestState).length ≤ 20 := by
  cases h with
  | notAllowed =>
      have hlengths : (utf8 (String.ofList (decimal 405))).length ≤ 20 ∧
        (utf8 "COMPLETE").length ≤ 20 := by decide
      exact hlengths
  | inProgress =>
      have hlengths : (utf8 (String.ofList (decimal 200))).length ≤ 20 ∧
        (utf8 "IN-PROGRESS").length ≤ 20 := by decide
      exact hlengths
  | startOfInput =>
      have hlengths : (utf8 "START-OF-INPUT").length ≤ 20 ∧
        (utf8 "IN-PROGRESS").length ≤ 20 := by decide
      exact hlengths
  | complete text confidence =>
      have hlengths : (utf8 "RECOGNITION-COMPLETE").length ≤ 20 ∧
        (utf8 "COMPLETE").length ≤ 20 := by decide
      exact hlengths

/-- A message at the head of a stream is what the client reads next. -/
theorem readEvent_wire (h : ServerMessage requestId m)
    (hdigits : (decimal requestId.natAbs).length ≤ maxStrDigits) (hsize : m.wire.length < 2 ^ 63)
    (rest : Bytes) : readEvent (m.wire ++ rest) = .ok (m.asEvent.withContentLength, rest) := by
  obtain ⟨id, hid⟩ := intText_of_digits hdigits
  have hid : intText m.asEvent.requestId = .ok id := h.requestId_eq ▸ hid
  have hwf := h.wellFormed
  obtain ⟨n, hlength, hserialize⟩ :=
    serializeEvent_eq_ok hwf.name.no_percent hwf.state.no_percent hid
  have hwire : m.wire = eventMessage m.asEvent id n := by
    have hok := h.serialize_wire hdigits
    rw [h.serialize_eq, hserialize 0] at hok
    exact (Except.ok.inj hok).symm
  have hfew : (decimal n).length ≤ 19 := by
    rw [hwire, hlength] at hsize
    exact (length_decimal_le_iff (by decide)).mpr (hsize.trans (by decide))
  have hline : (utf8 (startLine m.asEvent id n)).length ≤ streamLimit := by
    have hnames := h.length_names
    have hidLength := length_utf8_intText hid
    have hfixed : (utf8 "MRCP/2.0").length = 8 ∧ (utf8 " ").length = 1 := by decide
    simp only [startLine, utf8_append, List.length_append, length_utf8_decimal, hfixed.1, hfixed.2,
      streamLimit]
    simp only [maxStrDigits] at hidLength
    omega
  rw [hwire]
  exact readEvent_eventMessage hwf hid hlength (hfew.trans (by decide)) hline rest

end ServerMessage

theorem length_requestId {raw : Bytes} {request : MrcpRequest}
    (h : parseRequest raw = .ok request) :
    (decimal request.requestId.natAbs).length ≤ maxStrDigits := by
  rw [parseRequest, except_bind_eq_ok_iff] at h
  obtain ⟨⟨startLine, headers, body⟩, -, h⟩ := h
  simp only at h
  split at h
  · split_ifs at h
    split at h
    · cases h
    · rename_i requestId hid
      cases h
      rw [intOfText] at hid
      split at hid
      · cases hid
      · rename_i n hint
        cases hid
        exact length_decimal_pyInt readsDecimal_decimalValue hint
  · cases h

theorem parseRequest_of_readRequest {data rest : Bytes} {request : MrcpRequest}
    (h : readRequest data = .ok (request, rest)) : ∃ raw, parseRequest raw = .ok request := by
  rw [readRequest, except_bind_eq_ok_iff] at h
  obtain ⟨⟨startLine, afterLine⟩, -, h⟩ := h
  simp only at h
  split at h
  · split_ifs at h
    rw [except_bind_eq_ok_iff] at h
    obtain ⟨messageLength, -, h⟩ := h
    rw [except_bind_eq_ok_iff] at h
    obtain ⟨⟨tail, rest'⟩, -, h⟩ := h
    rw [except_bind_eq_ok_iff] at h
    obtain ⟨request', hparse, h⟩ := h
    cases h
    exact ⟨_, hparse⟩
  · cases h

/-- The request has been answered to its end. -/
def Concluded (sent : List MrcpMessage) : Prop :=
  ∃ m ∈ sent, m.asEvent.requestState = "COMPLETE"

theorem not_concluded_nil : ¬ Concluded [] := nofun

theorem not_concluded_accepted (requestId : Int) : ¬ Concluded [inProgress requestId] := by
  rintro ⟨m, hm, hstate⟩
  rw [List.mem_singleton.mp hm] at hstate
  exact absurd hstate (by decide : "IN-PROGRESS" ≠ "COMPLETE")

theorem not_concluded_started (requestId : Int) :
    ¬ Concluded [inProgress requestId, startOfInput requestId] := by
  rintro ⟨m, hm, hstate⟩
  rcases List.mem_pair.mp hm with rfl | rfl
  · exact absurd hstate (by decide : "IN-PROGRESS" ≠ "COMPLETE")
  · exact absurd hstate (by decide : "IN-PROGRESS" ≠ "COMPLETE")

/-- What arrives with a step on the control channel. -/
def TurnLabel.arrived : TurnLabel → Bytes
  | .arrive data => data
  | _ => []

/-- The bytes of messages one after another. -/
def wiresOf (messages : List MrcpMessage) : Bytes :=
  messages.flatMap MrcpMessage.wire

namespace RecognizeTurn

variable {asr : Asr} {t t' : RecognizeTurn asr}

/-- What has been sent and heard in each phase. -/
def PhaseOk (requestId : Int) (heard : List Bytes) (sent : List MrcpMessage) :
    TurnPhase asr → Prop
  | .reading => sent = [] ∧ heard = []
  | .acknowledged => sent = [inProgress requestId] ∧ heard = []
  | .collecting jitter pcm draining _ =>
      sent = [inProgress requestId] ∧
        drainRtp { capacity := 8 } [] heard = (jitter, pcm, draining)
  | .recognizing state chunks final =>
      sent = [inProgress requestId, startOfInput requestId] ∧
        ∃ audio, Collected heard audio ∧ audio ≠ [] ∧ ∃ fed ended items,
          fed ++ chunks = sliceChunks audio ∧ (ended = true → chunks = []) ∧
            asr.Reaches state fed ended items ∧ final = items.foldl keepFinal none
  | .closed => TurnScript asr requestId heard sent ∧ (sent ≠ [] → Concluded sent)
  | .raised => TurnScript asr requestId heard sent ∧ ¬ Concluded sent

/-- The invariant of a turn. -/
structure Inv (t : RecognizeTurn asr) : Prop where
  phase : PhaseOk t.requestId t.heard t.sent t.phase
  digits : (decimal t.requestId.natAbs).length ≤ maxStrDigits
  messages : ∀ m ∈ t.sent, ServerMessage t.requestId m
  written : t.written = wiresOf t.sent

theorem PhaseOk.script {requestId : Int} {heard : List Bytes} {sent : List MrcpMessage}
    {phase : TurnPhase asr} (h : PhaseOk requestId heard sent phase) :
    TurnScript asr requestId heard sent := by
  cases phase with
  | reading =>
      rw [h.1]
      exact .nothing
  | acknowledged =>
      rw [h.1]
      exact .accepted
  | collecting jitter pcm draining sentinel =>
      rw [h.1]
      exact .accepted
  | recognizing state chunks final =>
      obtain ⟨hsent, audio, hcollected, haudio, -⟩ := h
      rw [hsent]
      exact .started hcollected haudio
  | closed => exact h.1
  | raised => exact h.1

theorem PhaseOk.not_concluded {requestId : Int} {heard : List Bytes} {sent : List MrcpMessage}
    {phase : TurnPhase asr} (h : PhaseOk requestId heard sent phase) (hopen : phase ≠ .closed) :
    ¬ Concluded sent := by
  cases phase with
  | reading =>
      rw [h.1]
      exact not_concluded_nil
  | acknowledged =>
      rw [h.1]
      exact not_concluded_accepted requestId
  | collecting jitter pcm draining sentinel =>
      rw [h.1]
      exact not_concluded_accepted requestId
  | recognizing state chunks final =>
      rw [h.1]
      exact not_concluded_started requestId
  | closed => exact absurd rfl hopen
  | raised => exact h.2

theorem Inv.raised (h : t.Inv) (hopen : t.phase ≠ .closed) :
    ({ t with phase := .raised } : RecognizeTurn asr).Inv where
  phase := ⟨h.phase.script, h.phase.not_concluded hopen⟩
  digits := h.digits
  messages := h.messages
  written := h.written

/-- The handler closes the connection before it has sent anything. -/
theorem Inv.closed (h : t.Inv) (hsent : t.sent = []) :
    ({ t with phase := .closed } : RecognizeTurn asr).Inv where
  phase := ⟨h.phase.script, fun hne => absurd hsent hne⟩
  digits := h.digits
  messages := h.messages
  written := h.written

/-- Sending, or the end of the handler. -/
theorem Inv.send (h : t.Inv) (hopen : t.phase ≠ .closed) {m : MrcpMessage}
    (hm : ServerMessage t.requestId m) {next : TurnPhase asr}
    (hnext : PhaseOk t.requestId t.heard (t.sent ++ [m]) next) : (t.send m next).Inv := by
  rw [RecognizeTurn.send, hm.serialize_wire h.digits]
  simp only
  split_ifs
  · exact h.raised hopen
  · exact
      { phase := hnext
        digits := h.digits
        messages := by
          intro m' hm'
          rcases List.mem_append.mp hm' with hm' | hm'
          · exact h.messages m' hm'
          · rw [List.mem_singleton.mp hm']
            exact hm
        written := by
          rw [h.written, wiresOf, wiresOf, List.flatMap_append, List.flatMap_singleton] }

/-- The request id is set before anything is sent. -/
theorem Inv.accept (h : t.Inv) (hphase : t.phase = .reading) {raw : Bytes} {request : MrcpRequest}
    (hparse : parseRequest raw = .ok request) : (t.accept request).Inv := by
  have hreading := h.phase
  rw [hphase] at hreading
  obtain ⟨hsent, hheard⟩ := hreading
  have hset : ({ t with requestId := request.requestId } : RecognizeTurn asr).Inv :=
    { phase := by
        rw [hphase]
        exact ⟨hsent, hheard⟩
      digits := length_requestId hparse
      messages := by
        rw [hsent]
        nofun
      written := h.written }
  have hopen : t.phase ≠ .closed := by
    rw [hphase]
    nofun
  rw [RecognizeTurn.accept]
  split_ifs
  · refine hset.send hopen .notAllowed ?_
    simp only [hsent, List.nil_append]
    exact ⟨.refused, fun _ => ⟨_, List.mem_singleton_self _, rfl⟩⟩
  · refine hset.send hopen .inProgress ?_
    simp only [hsent, List.nil_append]
    exact ⟨rfl, hheard⟩

/-- After the collection: with audio the stream starts, without it the turn is over. -/
theorem Inv.collected (h : t.Inv) (hopen : t.phase ≠ .closed)
    (hsent : t.sent = [inProgress t.requestId]) {pcm : Bytes}
    (hpcm : pcm ≠ [] → Collected t.heard pcm) : (t.collected pcm).Inv := by
  rw [RecognizeTurn.collected]
  split_ifs with hempty
  · refine h.send hopen (.complete "" 0) ?_
    simp only [hsent, List.cons_append, List.nil_append]
    exact ⟨.noInput, fun _ => ⟨_, List.mem_cons_of_mem _ List.mem_cons_self, rfl⟩⟩
  · refine h.send hopen .startOfInput ?_
    simp only [hsent, List.cons_append, List.nil_append]
    exact ⟨rfl, pcm, hpcm hempty, hempty, [], false, [], rfl, nofun, .start, rfl⟩

/-- A step of the ASR stream, in the case of each thing that it may do next. -/
theorem Inv.stepAsr (h : t.Inv) {state : asr.State} {chunks : List AudioChunk}
    {final : Option PartialTranscript} (hphase : t.phase = .recognizing state chunks final) :
    (t.stepAsr state chunks final).Inv := by
  have hrecognizing := h.phase
  rw [hphase] at hrecognizing
  obtain ⟨hsent, audio, hcollected, haudio, fed, ended, items, hchunks, hended, hreaches, hfinal⟩ :=
    hrecognizing
  have hopen : t.phase ≠ .closed := by
    rw [hphase]
    nofun
  rw [RecognizeTurn.stepAsr]
  split
  next p state' hnext =>
    refine ⟨⟨hsent, audio, hcollected, haudio, fed, ended, items ++ [p], hchunks, hended,
      hreaches.emit hnext, ?_⟩, h.digits, h.messages, h.written⟩
    rw [hfinal, List.foldl_append]
    rfl
  next resume hnext =>
    cases chunks with
    | nil =>
        exact ⟨⟨hsent, audio, hcollected, haudio, fed, true, items, hchunks, fun _ => rfl,
          hreaches.finish hnext, hfinal⟩, h.digits, h.messages, h.written⟩
    | cons chunk chunks =>
        cases ended with
        | true => cases hended rfl
        | false =>
            refine ⟨⟨hsent, audio, hcollected, haudio, fed ++ [chunk], false, items, ?_, nofun,
              hreaches.pull hnext chunk, hfinal⟩, h.digits, h.messages, h.written⟩
            rw [List.append_assoc]
            exact hchunks
  next hnext =>
    refine h.send hopen (.complete _ _) ?_
    rw [hsent]
    refine ⟨.completed hcollected haudio ⟨state, fed, chunks, ended, items, hchunks, hended,
      hreaches, hnext, by rw [hfinal]⟩, fun _ => ?_⟩
    exact ⟨_, List.mem_cons_of_mem _ (List.mem_cons_of_mem _ List.mem_cons_self), rfl⟩
  next => exact h.raised hopen

/-- One datagram more. -/
theorem Inv.datagram (h : t.Inv) {jitter : JitterBuffer} {pcm : Bytes} {sentinel : SentinelTask}
    (hphase : t.phase = .collecting jitter pcm true sentinel) (data : Bytes) :
    ({ t with
      phase := .collecting (drainRtp jitter pcm [data]).1 (drainRtp jitter pcm [data]).2.1
        (drainRtp jitter pcm [data]).2.2 sentinel
      heard := t.heard ++ [data] } : RecognizeTurn asr).Inv := by
  have hcollecting := h.phase
  rw [hphase] at hcollecting
  obtain ⟨hsent, hdrain⟩ := hcollecting
  refine ⟨⟨hsent, ?_⟩, h.digits, h.messages, h.written⟩
  rw [drainRtp_append, hdrain]
  rfl

theorem Inv.finishCollecting (h : t.Inv) {jitter : JitterBuffer} {pcm : Bytes} {draining : Bool}
    {sentinel : SentinelTask} (hphase : t.phase = .collecting jitter pcm draining sentinel)
    (hdone : ¬ (draining = true ∧ sentinel = .pending)) :
    (t.finishCollecting jitter pcm sentinel).Inv := by
  have hcollecting := h.phase
  rw [hphase] at hcollecting
  obtain ⟨hsent, hdrain⟩ := hcollecting
  have hopen : t.phase ≠ .closed := by
    rw [hphase]
    nofun
  cases sentinel with
  | pending =>
      have hended : draining = false := by
        cases draining with
        | false => rfl
        | true => exact absurd ⟨rfl, rfl⟩ hdone
      rw [hended] at hdrain
      exact h.collected hopen hsent fun _ => .ended hdrain
  | raised => exact h.raised hopen
  | byte b =>
      rw [RecognizeTurn.finishCollecting]
      split
      next audio hflush => exact h.collected hopen hsent fun _ => .flushed hdrain hflush
      next => exact h.raised hopen

/-- The step lemma. -/
theorem Inv.step (h : t.Inv) {label : TurnLabel} (hstep : t.step label = some t') : t'.Inv := by
  have hphaseOk := h.phase
  cases moves_of_step hstep with
  | arrive data => exact ⟨h.phase, h.digits, h.messages, h.written⟩
  | hangUp => exact ⟨h.phase, h.digits, h.messages, h.written⟩
  | breakDown => exact ⟨h.phase, h.digits, h.messages, h.written⟩
  | lost data => exact h
  | hear hphase data => exact h.datagram hphase data
  | turnDown hphase =>
      rw [hphase] at hphaseOk
      exact h.closed hphaseOk.1
  | failRead hphase => exact h.raised (by rw [hphase]; nofun)
  | @accept hphase request rest hread =>
      obtain ⟨raw, hparse⟩ := parseRequest_of_readRequest hread
      have hstream : ({ t with stream := rest } : RecognizeTurn asr).Inv :=
        ⟨h.phase, h.digits, h.messages, h.written⟩
      exact hstream.accept hphase hparse
  | bindSocket hphase =>
      rw [hphase] at hphaseOk
      refine ⟨⟨hphaseOk.1, ?_⟩, h.digits, h.messages, h.written⟩
      rw [hphaseOk.2]
      rfl
  | failBind hphase => exact h.raised (by rw [hphase]; nofun)
  | sentinel hphase sentinel rest =>
      rw [hphase] at hphaseOk
      exact ⟨hphaseOk, h.digits, h.messages, h.written⟩
  | resume hphase hdone => exact h.finishCollecting hphase hdone
  | timeout hphase =>
      rw [hphase] at hphaseOk
      exact h.collected (by rw [hphase]; nofun) hphaseOk.1 fun hempty => absurd rfl hempty
  | asr hphase => exact h.stepAsr hphase

/-- What a step may change: messages are added, a datagram is heard, the request id is that of
the request read, and what is to be read of the request only grows. -/
structure Progress (t : RecognizeTurn asr) (label : TurnLabel) (t' : RecognizeTurn asr) :
    Prop where
  sent : ∃ more, t'.sent = t.sent ++ more
  heard : t'.heard = t.heard ∨ ∃ data, label = .datagram data ∧ t'.heard = t.heard ++ [data]
  request : (t'.requestId = t.requestId ∧ (t.sent = [] → t'.sent = [])) ∨
    ∃ request rest, t.phase = .reading ∧ Mrcp.readRequest t.stream = .ok (request, rest) ∧
      t'.requestId = request.requestId
  reading : t'.phase = .reading → t.phase = .reading ∧ t'.stream = t.stream ++ label.arrived

section Progress

variable {label : TurnLabel}

/-- The turn goes on to another phase, and sends nothing. -/
theorem Progress.quiet (hsent : t'.sent = t.sent) (hheard : t'.heard = t.heard)
    (hrequest : t'.requestId = t.requestId) (hphase : t'.phase ≠ .reading) :
    Progress t label t' where
  sent := ⟨[], by rw [hsent, List.append_nil]⟩
  heard := Or.inl hheard
  request := Or.inl ⟨hrequest, fun hnil => hsent.trans hnil⟩
  reading hreading := absurd hreading hphase

theorem send_sent (t : RecognizeTurn asr) (m : MrcpMessage) (next : TurnPhase asr) :
    (t.send m next).heard = t.heard ∧ (t.send m next).requestId = t.requestId ∧
      (∃ more, (t.send m next).sent = t.sent ++ more) ∧
        ((t.send m next).phase = .raised ∨ (t.send m next).phase = next) := by
  rw [RecognizeTurn.send]
  split
  · exact ⟨rfl, rfl, ⟨[], (List.append_nil _).symm⟩, Or.inl rfl⟩
  · split_ifs
    · exact ⟨rfl, rfl, ⟨[], (List.append_nil _).symm⟩, Or.inl rfl⟩
    · exact ⟨rfl, rfl, ⟨[m], rfl⟩, Or.inr rfl⟩

theorem Progress.send (hsent : t.sent ≠ []) (m : MrcpMessage) {next : TurnPhase asr}
    (hnext : next ≠ .reading) : Progress t label (t.send m next) := by
  obtain ⟨hheard, hrequest, hmore, hphase⟩ := t.send_sent m next
  refine ⟨hmore, Or.inl hheard, Or.inl ⟨hrequest, fun hnil => absurd hnil hsent⟩, ?_⟩
  intro hreading
  rcases hphase with hraised | hsame
  · rw [hraised] at hreading
    cases hreading
  · exact absurd (hsame.symm.trans hreading) hnext

theorem Progress.collected (hsent : t.sent ≠ []) (pcm : Bytes) :
    Progress t label (t.collected pcm) := by
  rw [RecognizeTurn.collected]
  split_ifs
  · exact .send hsent _ nofun
  · exact .send hsent _ nofun

theorem Progress.accept (hphase : t.phase = .reading) {request : MrcpRequest} {rest : Bytes}
    (hread : Mrcp.readRequest t.stream = .ok (request, rest)) :
    Progress t label (accept { t with stream := rest } request) := by
  have hsend : ∀ m next, next ≠ .reading →
      Progress t label (RecognizeTurn.send
        { t with stream := rest, requestId := request.requestId } m next) := by
    intro m next hnext
    obtain ⟨hheard, hrequest, hmore, hgoes⟩ := RecognizeTurn.send_sent
      { t with stream := rest, requestId := request.requestId } m next
    refine ⟨hmore, Or.inl hheard, Or.inr ⟨request, rest, hphase, hread, hrequest⟩, ?_⟩
    intro hreading
    rcases hgoes with hraised | hsame
    · rw [hraised] at hreading
      cases hreading
    · exact absurd (hsame.symm.trans hreading) hnext
  rw [RecognizeTurn.accept]
  split_ifs
  · exact hsend _ _ nofun
  · exact hsend _ _ nofun

/-- More has arrived, or a datagram is lost. -/
theorem Progress.input (hsent : t'.sent = t.sent) (hheard : t'.heard = t.heard)
    (hrequest : t'.requestId = t.requestId) (hphase : t'.phase = t.phase)
    (hstream : t'.stream = t.stream ++ label.arrived) : Progress t label t' where
  sent := ⟨[], by rw [hsent, List.append_nil]⟩
  heard := Or.inl hheard
  request := Or.inl ⟨hrequest, fun hnil => hsent.trans hnil⟩
  reading hreading := ⟨hphase.symm.trans hreading, hstream⟩

theorem Inv.progress (h : t.Inv) (hstep : t.step label = some t') : Progress t label t' := by
  have hphaseOk := h.phase
  cases moves_of_step hstep with
  | arrive data => exact .input rfl rfl rfl rfl rfl
  | hangUp => exact .input rfl rfl rfl rfl (List.append_nil _).symm
  | breakDown => exact .input rfl rfl rfl rfl (List.append_nil _).symm
  | lost data => exact .input rfl rfl rfl rfl (List.append_nil _).symm
  | hear hphase data =>
      exact ⟨⟨[], (List.append_nil _).symm⟩, Or.inr ⟨data, rfl, rfl⟩, Or.inl ⟨rfl, id⟩, nofun⟩
  | turnDown hphase => exact .quiet rfl rfl rfl nofun
  | failRead hphase => exact .quiet rfl rfl rfl nofun
  | accept hphase hread => exact .accept hphase hread
  | bindSocket hphase => exact .quiet rfl rfl rfl nofun
  | failBind hphase => exact .quiet rfl rfl rfl nofun
  | sentinel hphase sentinel rest => exact .quiet rfl rfl rfl nofun
  | @resume jitter pcm draining sentinel hphase hdone =>
      rw [hphase] at hphaseOk
      have hsent : t.sent ≠ [] := by
        rw [hphaseOk.1]
        exact List.cons_ne_nil _ _
      cases sentinel with
      | pending => exact .collected hsent pcm
      | raised => exact .quiet rfl rfl rfl nofun
      | byte b =>
          rw [RecognizeTurn.finishCollecting]
          split
          · exact .collected hsent _
          · exact .quiet rfl rfl rfl nofun
  | timeout hphase =>
      rw [hphase] at hphaseOk
      exact .collected (by rw [hphaseOk.1]; exact List.cons_ne_nil _ _) []
  | asr hphase =>
      rw [hphase] at hphaseOk
      rw [RecognizeTurn.stepAsr]
      split
      · exact .quiet rfl rfl rfl nofun
      · exact .quiet rfl rfl rfl nofun
      · exact .send (by rw [hphaseOk.1]; exact List.cons_ne_nil _ _) _ nofun
      · exact .quiet rfl rfl rfl nofun

end Progress

theorem Inv.start : ({} : RecognizeTurn asr).Inv where
  phase := ⟨rfl, rfl⟩
  digits := (by decide : (decimal 0).length ≤ maxStrDigits)
  messages := nofun
  written := rfl

theorem Inv.run {labels : List TurnLabel} (hrun : RecognizeTurn.run {} labels = some t) : t.Inv :=
  runSteps_invariant (P := fun _ _ => True) (fun h _ hstep => h.step hstep) .start
    (alongRun_of_forall (fun _ _ => trivial) _ labels) hrun

end RecognizeTurn

/-- The messages of a turn, as far as they have been written, are what the client reads. -/
theorem readEvents_wiresOf {requestId : Int} {messages : List MrcpMessage}
    (hmessages : ∀ m ∈ messages, ServerMessage requestId m)
    (hdigits : (decimal requestId.natAbs).length ≤ maxStrDigits)
    (hsizes : ∀ m ∈ messages, m.wire.length < 2 ^ 63) (rest : Bytes) :
    readEvents messages.length (wiresOf messages ++ rest) =
      .ok (messages.map fun m => m.asEvent.withContentLength, rest) := by
  induction messages with
  | nil => rfl
  | cons m messages ih =>
      have hread := (hmessages m List.mem_cons_self).readEvent_wire hdigits
        (hsizes m List.mem_cons_self) (wiresOf messages ++ rest)
      have hmore := ih (fun m' hm' => hmessages m' (List.mem_cons_of_mem m hm'))
        fun m' hm' => hsizes m' (List.mem_cons_of_mem m hm')
      rw [wiresOf, List.flatMap_cons, List.append_assoc, List.length_cons, readEvents]
      rw [wiresOf] at hread hmore
      rw [hread]
      simp only [bind, Except.bind, hmore, pure, Except.pure, List.map_cons]

/-- **What one connection answers.**  Whatever arrives on the control channel and on the RTP
socket, in whatever order the tasks take their steps: the messages follow the script of a
turn for one request id, all of them can be read back from the bytes written, and the handler
closes the connection by itself only before its first message or after one that completes
the request. -/
theorem turn_script (asr : Asr) (labels : List TurnLabel) (t : RecognizeTurn asr)
    (hrun : RecognizeTurn.run {} labels = some t) :
    TurnScript asr t.requestId t.heard t.sent ∧
      (Concluded t.sent ↔ t.phase = .closed ∧ t.sent ≠ []) ∧
        ((∀ m ∈ t.sent, m.wire.length < 2 ^ 63) → ∀ rest,
          readEvents t.sent.length (t.written ++ rest) =
            .ok (t.sent.map fun m => m.asEvent.withContentLength, rest)) := by
  have hinv := RecognizeTurn.Inv.run hrun
  refine ⟨hinv.phase.script, ⟨fun hconcluded => ⟨?_, ?_⟩, fun ⟨hclosed, hne⟩ => ?_⟩,
    fun hsizes rest => ?_⟩
  · by_contra hopen
    exact hinv.phase.not_concluded hopen hconcluded
  · intro hnil
    rw [hnil] at hconcluded
    exact not_concluded_nil hconcluded
  · have hphase := hinv.phase
    rw [hclosed] at hphase
    exact hphase.2 hne
  · rw [hinv.written]
    exact readEvents_wiresOf hinv.messages hinv.digits hsizes rest

/-- The stub with a script. -/
def stubAsr (text : String) : Asr :=
  StubASR.stream { scripted := some text, sha1 := fun _ => "" }

/-- A turn with one packet, up to the return of the stream. -/
def spokenLabels : List TurnLabel :=
  [.arrive (utf8 "MRCP/2.0 27 RECOGNIZE 7\r\n\r\n"), .readRequest, .bindSocket true,
    .datagram (rtpDatagram 0 0 7 [1, 2]), .arrive (utf8 "Q"), .sentinel, .resume,
    .asr, .asr, .asr, .asr, .asr]

theorem turn_script_spoken : ∃ t : RecognizeTurn (stubAsr "hello"),
    RecognizeTurn.run {} spokenLabels = some t ∧ t.sent.length = 3 ∧
      TurnScript (stubAsr "hello") t.requestId t.heard t.sent ∧
        (Concluded t.sent ↔ t.phase = .closed ∧ t.sent ≠ []) ∧
          ((∀ m ∈ t.sent, m.wire.length < 2 ^ 63) → ∀ rest,
            readEvents t.sent.length (t.written ++ rest) =
              .ok (t.sent.map fun m => m.asEvent.withContentLength, rest)) := by
  have hview : (RecognizeTurn.run ({} : RecognizeTurn (stubAsr "hello")) spokenLabels).map
      (fun t => t.sent.length) = some 3 := by
    decide +kernel
  obtain ⟨t, hrun, hsent⟩ := Option.map_eq_some_iff.mp hview
  exact ⟨t, hrun, hsent, turn_script (stubAsr "hello") spokenLabels t hrun⟩

end Mrcp
end Sandroid
