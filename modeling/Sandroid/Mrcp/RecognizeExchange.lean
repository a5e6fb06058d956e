import Sandroid.Mrcp.TurnScript

/-!
# The client simulator and the server together

`recognize_once` of `adapters/mrcp/client_sim.py` at one end of a control channel and of an
RTP socket, and the handler of the server at the other.

What either side has written arrives in pieces, and its reader waits until there is enough:
what has been read is not changed by what comes behind it.  `Inv` is the invariant of both
ends.
-/

namespace Sandroid
namespace Mrcp

open Lib Api Sandroid.Core Models

structure RecognizeResult where
  startOfInputSeen : Bool
  complete : MrcpEvent
  rawEvents : List MrcpEvent
deriving DecidableEq

/-- The arguments of `recognize_once` beside the addresses. -/
structure RecognizeCall where
  pcm16Le : Bytes
  ssrc : Int := 0x5A5A5A5A
  packetMs : Nat := 20

/-- Where `recognize_once` stands. -/
inductive ClientPhase where
  | connected
  | awaitingReply
  /-- in the loop over the events; if START-OF-INPUT has been seen -/
  | reading (events : List MrcpEvent) (startSeen : Bool)
  | returned (result : RecognizeResult)
  | raised
deriving DecidableEq

def clientRequest : MrcpRequest where
  method := "RECOGNIZE"
  requestId := 1
  headers := ((Dict.empty.set "Channel-Identifier" "sandroid-sim@speechrecog").set
    "Content-Type" "text/uri-list").set "Content-Length" "23"
  body := utf8 "builtin:dictation\r\n"

/-- The reply is read off the stream, and nothing in it is looked at. -/
def skipMessage (data : Bytes) : Except MrcpError Bytes := do
  let (line, rest) ← readUntilCrlf data
  let (_, rest) ← drainMessageTail line rest
  return rest

/-- The body of the loop, after one more event. -/
def afterEvent (events : List MrcpEvent) (startSeen : Bool) (event : MrcpEvent) : ClientPhase :=
  if event.eventName = "START-OF-INPUT" then
    .reading (events ++ [event]) true
  else if event.eventName = "RECOGNITION-COMPLETE" then
    .returned ⟨startSeen, event, events ++ [event]⟩
  else
    .reading (events ++ [event]) startSeen

structure Exchange (asr : Asr) where
  turn : RecognizeTurn asr := {}
  client : ClientPhase := .connected
  /-- written by the client and still on its way -/
  toServer : Bytes := []
  /-- how many of the bytes that the server has written have arrived -/
  delivered : Nat := 0
  /-- arrived at the client and not read -/
  unread : Bytes := []
  /-- what `_send_rtp` has sent -/
  datagrams : List Bytes := []

/-- The steps of the server that are its own. -/
inductive ServerStep where
  | breakDown
  | readRequest
  | bindSocket (binds : Bool)
  | sentinel
  | resume
  | timeout
  | asr
deriving DecidableEq

def ServerStep.label : ServerStep → TurnLabel
  | .breakDown => .breakDown
  | .readRequest => .readRequest
  | .bindSocket binds => .bindSocket binds
  | .sentinel => .sentinel
  | .resume => .resume
  | .timeout => .timeout
  | .asr => .asr

inductive ExchangeLabel where
  /-- the client goes on -/
  | client
  /-- the client finds the connection lost -/
  | clientBreaks
  | toServer (n : Nat)
  | toClient (n : Nat)
  /-- datagram `i` comes to the server, once more or for the first time -/
  | datagram (i : Nat)
  | hangUp
  | server (step : ServerStep)
deriving DecidableEq

namespace Exchange

variable {asr : Asr}

/-- A read of the client has failed; it waits as long as more may come. -/
def failedRead (x : Exchange asr) (e : MrcpError) : Option (Exchange asr) :=
  let ended : Bool := match x.turn.phase with
    | .closed => x.turn.written.length ≤ x.delivered
    | .raised => x.turn.written.length ≤ x.delivered
    | _ => false
  if e = .incompleteRead ∧ ended = false then none else some { x with client := .raised }

/-- `recognize_once` up to its next wait. -/
def clientStep (call : RecognizeCall) (x : Exchange asr) : Option (Exchange asr) :=
  match x.client with
  | .connected =>
      match serializeRequest 3 clientRequest with
      | .ok request =>
          some { x with client := .awaitingReply, toServer := x.toServer ++ request }
      | .error _ => some { x with client := .raised }
  | .awaitingReply =>
      match skipMessage x.unread with
      | .ok rest =>
          match sendRtp call.pcm16Le call.ssrc call.packetMs with
          | .ok datagrams =>
              some { x with
                client := .reading [] false
                unread := rest
                datagrams := datagrams
                toServer := x.toServer ++ utf8 "Q" }
          | .error _ => some { x with client := .raised }
      | .error e => x.failedRead e
  | .reading events startSeen =>
      match readEvent x.unread with
      | .ok (event, rest) =>
          some { x with client := afterEvent events startSeen event, unread := rest }
      | .error e => x.failedRead e
  | .returned _ => none
  | .raised => none

def step (call : RecognizeCall) (x : Exchange asr) : ExchangeLabel → Option (Exchange asr)
  | .client => x.clientStep call
  | .clientBreaks =>
      match x.client with
      | .returned _ => none
      | _ => some { x with client := .raised }
  | .toServer n =>
      (x.turn.step (.arrive (x.toServer.take n))).map fun turn =>
        { x with turn := turn, toServer := x.toServer.drop n }
  | .toClient n =>
      let data := (x.turn.written.drop x.delivered).take n
      some { x with unread := x.unread ++ data, delivered := x.delivered + data.length }
  | .datagram i =>
      match x.datagrams[i]? with
      | none => none
      | some data => (x.turn.step (.datagram data)).map fun turn => { x with turn := turn }
  | .hangUp =>
      match x.client, x.toServer with
      | .returned _, [] => (x.turn.step .hangUp).map fun turn => { x with turn := turn }
      | .raised, [] => (x.turn.step .hangUp).map fun turn => { x with turn := turn }
      | _, _ => none
  | .server s => (x.turn.step s.label).map fun turn => { x with turn := turn }

def run (call : RecognizeCall) (x : Exchange asr) (labels : List ExchangeLabel) :
    Option (Exchange asr) :=
  runSteps (step call) x labels

end Exchange

section Prefix

variable {data more rest : Bytes}

theorem readUntilCrlf_append {line : Bytes} (h : readUntilCrlf data = .ok (line, rest))
    (more : Bytes) : readUntilCrlf (data ++ more) = .ok (line, rest ++ more) := by
  rw [readUntilCrlf] at h ⊢
  split at h
  next line' rest' hcut =>
    split_ifs at h with hlong
    cases h
    rw [cutAt_append hcut]
    simp only
    rw [if_neg hlong]
  next => split_ifs at h

theorem readExactly_append {n : Int} {taken : Bytes} (h : readExactly n data = .ok (taken, rest))
    (more : Bytes) : readExactly n (data ++ more) = .ok (taken, rest ++ more) := by
  rw [readExactly] at h ⊢
  split_ifs at h with hneg hshort
  cases h
  have hlength : n.toNat ≤ data.length := not_lt.mp hshort
  rw [if_neg hneg, if_neg (by rw [List.length_append]; omega),
    List.take_append_of_le_length hlength, List.drop_append_of_le_length hlength]

theorem drainMessageTail_append {line tail : Bytes}
    (h : drainMessageTail line data = .ok (tail, rest)) (more : Bytes) :
    drainMessageTail line (data ++ more) = .ok (tail, rest ++ more) := by
  rw [drainMessageTail] at h ⊢
  split at h
  next version length words hwords =>
    rw [except_bind_eq_ok_iff] at h
    obtain ⟨n, hint, hread⟩ := h
    exact except_bind_eq_ok_iff.mpr ⟨n, hint, readExactly_append hread more⟩
  next => cases h

/-- An event that can be read is not changed by what arrives behind it. -/
theorem readEvent_append {event : MrcpEvent} (h : readEvent data = .ok (event, rest))
    (more : Bytes) : readEvent (data ++ more) = .ok (event, rest ++ more) := by
  rw [readEvent, except_bind_eq_ok_iff] at h
  obtain ⟨⟨line, afterLine⟩, hline, h⟩ := h
  rw [except_bind_eq_ok_iff] at h
  obtain ⟨⟨tail, afterTail⟩, htail, h⟩ := h
  rw [except_bind_eq_ok_iff] at h
  obtain ⟨event', hparse, h⟩ := h
  cases h
  rw [readEvent, readUntilCrlf_append hline more]
  simp only [bind, Except.bind, drainMessageTail_append htail more, hparse, pure, Except.pure]

theorem skipMessage_append (h : skipMessage data = .ok rest) (more : Bytes) :
    skipMessage (data ++ more) = .ok (rest ++ more) := by
  rw [skipMessage, except_bind_eq_ok_iff] at h
  obtain ⟨⟨line, afterLine⟩, hline, h⟩ := h
  rw [except_bind_eq_ok_iff] at h
  obtain ⟨⟨tail, afterTail⟩, htail, h⟩ := h
  cases h
  rw [skipMessage, readUntilCrlf_append hline more]
  simp only [bind, Except.bind, drainMessageTail_append htail more, pure, Except.pure]

/-- What is read as an event is skipped as a message. -/
theorem skipMessage_of_readEvent {event : MrcpEvent} (h : readEvent data = .ok (event, rest)) :
    skipMessage data = .ok rest := by
  rw [readEvent, except_bind_eq_ok_iff] at h
  obtain ⟨⟨line, afterLine⟩, hline, h⟩ := h
  rw [except_bind_eq_ok_iff] at h
  obtain ⟨⟨tail, afterTail⟩, htail, h⟩ := h
  rw [except_bind_eq_ok_iff] at h
  obtain ⟨event', -, h⟩ := h
  cases h
  rw [skipMessage, hline]
  simp only [bind, Except.bind, htail, pure, Except.pure]

/-- A request that can be read is not changed by what arrives behind it. -/
theorem readRequest_append {request : MrcpRequest} (h : readRequest data = .ok (request, rest))
    (more : Bytes) : readRequest (data ++ more) = .ok (request, rest ++ more) := by
  rw [readRequest, except_bind_eq_ok_iff] at h
  obtain ⟨⟨line, afterLine⟩, hline, h⟩ := h
  rw [readRequest, readUntilCrlf_append hline more]
  simp only [bind, Except.bind] at h ⊢
  split at h
  next version length words hwords =>
    split_ifs at h with hversion
    cases hint : intOfBytes length with
    | error e =>
        rw [hint] at h
        cases h
    | ok messageLength =>
        rw [hint] at h
        simp only at h ⊢
        cases hread : readExactly (messageLength - line.length) afterLine with
        | error e =>
            rw [hread] at h
            cases h
        | ok taken =>
            obtain ⟨tail, afterTail⟩ := taken
            rw [hread] at h
            rw [if_neg hversion, readExactly_append hread more]
            simp only at h ⊢
            cases hparse : parseRequest (line ++ tail) with
            | error e =>
                rw [hparse] at h
                cases h
            | ok parsed =>
                rw [hparse] at h
                cases h
                rfl
  next => cases h

end Prefix

/-- A message as the client has it. -/
def MrcpMessage.view (m : MrcpMessage) : MrcpEvent :=
  m.asEvent.withContentLength

theorem eventName_view (m : MrcpMessage) : m.view.eventName = m.asEvent.eventName := by
  rw [MrcpMessage.view, MrcpEvent.withContentLength]
  split_ifs <;> rfl

/-- What the client knows of the messages `seen` that it has read. -/
def Knows (seen : List MrcpMessage) : ClientPhase → Prop
  | .connected => seen = []
  | .awaitingReply => seen = []
  | .reading events startSeen => ∃ reply more, seen = reply :: more ∧
      events = more.map MrcpMessage.view ∧
        (startSeen = true ↔ ∃ m ∈ more, m.asEvent.eventName = "START-OF-INPUT")
  | .returned result => ∃ reply more last, seen = reply :: (more ++ [last]) ∧
      last.asEvent.eventName = "RECOGNITION-COMPLETE" ∧
        (result.startOfInputSeen = true ↔ ∃ m ∈ more, m.asEvent.eventName = "START-OF-INPUT") ∧
          result.complete = last.view ∧ result.rawEvents = (more ++ [last]).map MrcpMessage.view
  | .raised => True

/-- The body of the client's loop. -/
theorem Knows.event {before : List MrcpMessage} {events : List MrcpEvent} {startSeen : Bool}
    (h : Knows before (.reading events startSeen)) (m : MrcpMessage) :
    Knows (before ++ [m]) (afterEvent events startSeen m.view) := by
  obtain ⟨reply, more, rfl, rfl, hseen⟩ := h
  have hevents : more.map MrcpMessage.view ++ [m.view] = (more ++ [m]).map MrcpMessage.view := by
    rw [List.map_append, List.map_singleton]
  rw [afterEvent, eventName_view, hevents]
  split_ifs with hstart hcomplete
  · exact ⟨reply, more ++ [m], rfl, rfl, iff_of_true rfl ⟨m, by simp, hstart⟩⟩
  · exact ⟨reply, more, m, rfl, hcomplete, hseen, rfl, rfl⟩
  · refine ⟨reply, more ++ [m], rfl, rfl, hseen.trans ?_⟩
    constructor
    · rintro ⟨m', hm', hname⟩
      exact ⟨m', List.mem_append_left _ hm', hname⟩
    · rintro ⟨m', hm', hname⟩
      rcases List.mem_append.mp hm' with hm' | hm'
      · exact ⟨m', hm', hname⟩
      · rw [List.mem_singleton.mp hm'] at hname
        exact absurd hname hstart

theorem afterEvent_phase (events : List MrcpEvent) (startSeen : Bool) (event : MrcpEvent) :
    afterEvent events startSeen event ≠ .connected ∧
      afterEvent events startSeen event ≠ .awaitingReply := by
  rw [afterEvent]
  split_ifs
  · exact ⟨nofun, nofun⟩
  · exact ⟨nofun, nofun⟩
  · exact ⟨nofun, nofun⟩

theorem ok_of_toOption {α : Type} {x : Except MrcpError α} {a : α} (h : x.toOption = some a) :
    x = .ok a := by
  cases x with
  | error e => cases h
  | ok b =>
      cases h
      rfl

theorem clientRequest_wire : ∃ wire request, serializeRequest 3 clientRequest = .ok wire ∧
    readRequest wire = .ok (request, []) ∧ request.requestId = 1 := by
  have hview : ((serializeRequest 3 clientRequest).toOption.bind fun wire =>
      (readRequest wire).toOption.map fun r => (r.1.requestId, r.2)) = some (1, []) := by
    decide +kernel
  obtain ⟨wire, hwire, hread⟩ := Option.bind_eq_some_iff.mp hview
  obtain ⟨⟨request, rest⟩, hrequest, hid⟩ := Option.map_eq_some_iff.mp hread
  obtain ⟨hid, rfl⟩ := Prod.mk.inj hid
  exact ⟨wire, request, ok_of_toOption hwire, ok_of_toOption hrequest, hid⟩

theorem readRequest_nil (r : MrcpRequest × Bytes) : readRequest [] ≠ .ok r := by
  nofun

theorem readEvent_nil (r : MrcpEvent × Bytes) : readEvent [] ≠ .ok r := by
  nofun

theorem skipMessage_nil (rest : Bytes) : skipMessage [] ≠ .ok rest := by
  nofun

/-- No answer of the stream makes a message that is longer than a byte string can be. -/
def AnswersFit (asr : Asr) : Prop :=
  ∀ audio text confidence, Answers asr (sliceChunks audio) (text, confidence) →
    (recognitionComplete 1 text confidence).wire.length < 2 ^ 63

theorem TurnScript.size_lt {asr : Asr} {heard : List Bytes} {sent : List MrcpMessage}
    (h : TurnScript asr 1 heard sent) (hfit : AnswersFit asr) :
    ∀ m ∈ sent, m.wire.length < 2 ^ 63 := by
  have hfixed : (notAllowed 1).wire.length < 2 ^ 63 ∧ (inProgress 1).wire.length < 2 ^ 63 ∧
      (startOfInput 1).wire.length < 2 ^ 63 ∧
        (recognitionComplete 1 "" 0).wire.length < 2 ^ 63 := by
    decide +kernel
  obtain ⟨hrefused, haccepted, hstarted, hempty⟩ := hfixed
  cases h with
  | nothing => nofun
  | refused => simpa using hrefused
  | accepted => simpa using haccepted
  | noInput => simpa using ⟨haccepted, hempty⟩
  | started hcollected haudio => simpa using ⟨haccepted, hstarted⟩
  | completed hcollected haudio hanswers =>
      simpa using ⟨haccepted, hstarted, hfit _ _ _ hanswers⟩

namespace Exchange

variable {asr : Asr} {call : RecognizeCall} {x x' : Exchange asr}

/-- The invariant of both ends. -/
structure Inv (call : RecognizeCall) (x : Exchange asr) : Prop where
  turn : x.turn.Inv
  identified : x.turn.sent ≠ [] → x.turn.requestId = 1
  fresh : x.client = .connected → x.turn.phase = .reading → x.turn.stream ++ x.toServer = []
  request : x.turn.phase = .reading → x.turn.stream ++ x.toServer = [] ∨
    serializeRequest 3 clientRequest = .ok (x.turn.stream ++ x.toServer)
  heard : ∀ d ∈ x.turn.heard, d ∈ x.datagrams
  unsent : x.client = .connected ∨ x.client = .awaitingReply → x.datagrams = []
  rtp : x.datagrams = [] ∨ sendRtp call.pcm16Le call.ssrc call.packetMs = .ok x.datagrams
  seen : ∃ before after, x.turn.sent = before ++ after ∧
    x.unread ++ x.turn.written.drop x.delivered = wiresOf after ∧
      x.delivered ≤ x.turn.written.length ∧ Knows before x.client

theorem Inv.start : ({} : Exchange asr).Inv call where
  turn := .start
  identified hne := absurd rfl hne
  fresh _ _ := rfl
  request _ := Or.inl rfl
  heard := nofun
  unsent _ := rfl
  rtp := Or.inl rfl
  seen := ⟨[], [], rfl, rfl, le_rfl, rfl⟩

theorem Inv.fits (h : x.Inv call) (hfit : AnswersFit asr) {m : MrcpMessage}
    (hm : m ∈ x.turn.sent) : ServerMessage 1 m ∧ m.wire.length < 2 ^ 63 := by
  have hid := h.identified (List.ne_nil_of_mem hm)
  have hscript := h.turn.phase.script
  have hmessage := h.turn.messages m hm
  rw [hid] at hscript hmessage
  exact ⟨hmessage, hscript.size_lt hfit m hm⟩

/-- A step of the server. -/
theorem Inv.server (h : x.Inv call) {label : TurnLabel} {turn : RecognizeTurn asr}
    (hstep : x.turn.step label = some turn)
    (hdata : ∀ data, label = .datagram data → data ∈ x.datagrams) {toServer : Bytes}
    (harrived : x.toServer = label.arrived ++ toServer) :
    ({ x with turn := turn, toServer := toServer } : Exchange asr).Inv call := by
  have hprogress := h.turn.progress hstep
  have hturn := h.turn.step hstep
  obtain ⟨more, hmore⟩ := hprogress.sent
  have hstream : turn.phase = .reading →
      x.turn.phase = .reading ∧ turn.stream ++ toServer = x.turn.stream ++ x.toServer := by
    intro hreading
    obtain ⟨hphase, hsame⟩ := hprogress.reading hreading
    exact ⟨hphase, by rw [hsame, harrived, List.append_assoc]⟩
  exact
    { turn := hturn
      identified := by
        intro hne
        rcases hprogress.request with ⟨hid, hnil⟩ | ⟨request, rest, hphase, hread, hid⟩
        · exact hid.trans (h.identified fun hempty => hne (hnil hempty))
        · have hlater := readRequest_append hread x.toServer
          rcases h.request hphase with hempty | hwire
          · rw [hempty] at hlater
            exact absurd hlater (readRequest_nil _)
          · obtain ⟨wire, request', hserialize, hparsed, hone⟩ := clientRequest_wire
            rw [hserialize] at hwire
            rw [← Except.ok.inj hwire, hparsed] at hlater
            have hsame : request' = request := (Prod.mk.inj (Except.ok.inj hlater)).1
            rw [hid, ← hsame, hone]
      fresh := by
        intro hclient hreading
        obtain ⟨hphase, hsame⟩ := hstream hreading
        exact hsame.trans (h.fresh hclient hphase)
      request := by
        intro hreading
        obtain ⟨hphase, hsame⟩ := hstream hreading
        simp only [hsame]
        exact h.request hphase
      heard := by
        intro d hd
        rcases hprogress.heard with hsame | ⟨data, hlabel, hheard⟩
        · exact h.heard d (hsame ▸ hd)
        · simp only [hheard] at hd
          rcases List.mem_append.mp hd with hd | hd
          · exact h.heard d hd
          · rw [List.mem_singleton.mp hd]
            exact hdata data hlabel
      unsent := h.unsent
      rtp := h.rtp
      seen := by
        obtain ⟨before, after, hsent, hunread, hdelivered, hknows⟩ := h.seen
        have hwritten : turn.written = x.turn.written ++ wiresOf more := by
          rw [hturn.written, hmore, h.turn.written, wiresOf, List.flatMap_append]
          rfl
        refine ⟨before, after ++ more, ?_, ?_, ?_, hknows⟩
        · simp only [hmore, hsent, List.append_assoc]
        · simp only [hwritten]
          rw [List.drop_append_of_le_length hdelivered, ← List.append_assoc, hunread, wiresOf,
            wiresOf, wiresOf, List.flatMap_append]
        · simp only [hwritten, List.length_append]
          exact hdelivered.trans (Nat.le_add_right _ _) }

/-- The client gives up. -/
theorem Inv.raised (h : x.Inv call) : ({ x with client := .raised } : Exchange asr).Inv call where
  turn := h.turn
  identified := h.identified
  fresh := nofun
  request := h.request
  heard := h.heard
  unsent := by
    rintro (hclient | hclient)
    · cases hclient
    · cases hclient
  rtp := h.rtp
  seen := by
    obtain ⟨before, after, hsent, hunread, hdelivered, -⟩ := h.seen
    exact ⟨before, after, hsent, hunread, hdelivered, trivial⟩

theorem Inv.failedRead (h : x.Inv call) {e : MrcpError} (hstep : x.failedRead e = some x') :
    x'.Inv call := by
  rw [Exchange.failedRead] at hstep
  split_ifs at hstep
  cases hstep
  exact h.raised

/-- What the client reads next is the next message of the server. -/
theorem Inv.next (h : x.Inv call) (hfit : AnswersFit asr) (hnonempty : x.unread ≠ [])
    {before after : List MrcpMessage} (hsent : x.turn.sent = before ++ after)
    (hunread : x.unread ++ x.turn.written.drop x.delivered = wiresOf after) :
    ∃ m more, after = m :: more ∧
      readEvent (x.unread ++ x.turn.written.drop x.delivered) = .ok (m.view, wiresOf more) := by
  cases after with
  | nil =>
      rw [wiresOf, List.flatMap_nil] at hunread
      exact absurd (List.append_eq_nil_iff.mp hunread).1 hnonempty
  | cons m more =>
      have hm : m ∈ x.turn.sent := by
        rw [hsent]
        exact List.mem_append_right before List.mem_cons_self
      obtain ⟨hmessage, hsize⟩ := h.fits hfit hm
      refine ⟨m, more, rfl, ?_⟩
      rw [hunread, wiresOf, List.flatMap_cons]
      exact hmessage.readEvent_wire (by decide) hsize _

/-- The client sends its request. -/
theorem Inv.requested (h : x.Inv call) (hclient : x.client = .connected) {request : Bytes}
    (hserialize : serializeRequest 3 clientRequest = .ok request) :
    ({ x with client := .awaitingReply, toServer := x.toServer ++ request } :
      Exchange asr).Inv call := by
  obtain ⟨before, after, hsent, hunread, hdelivered, hknows⟩ := h.seen
  rw [hclient] at hknows
  exact
    { turn := h.turn
      identified := h.identified
      fresh := nofun
      request := by
        intro hreading
        have hempty := h.fresh hclient hreading
        refine Or.inr ?_
        simp only
        rw [← List.append_assoc, hempty, List.nil_append, hserialize]
      heard := h.heard
      unsent := fun _ => h.unsent (Or.inl hclient)
      rtp := h.rtp
      seen := ⟨before, after, hsent, hunread, hdelivered, hknows⟩ }

/-- The client skips the response, and sends its datagrams and the sentinel. -/
theorem Inv.replied (h : x.Inv call) (hfit : AnswersFit asr)
    (hclient : x.client = .awaitingReply) {rest : Bytes} {datagrams : List Bytes}
    (hskip : skipMessage x.unread = .ok rest)
    (hsend : sendRtp call.pcm16Le call.ssrc call.packetMs = .ok datagrams) :
    ({ x with
      client := .reading [] false
      unread := rest
      datagrams := datagrams
      toServer := x.toServer ++ utf8 "Q" } : Exchange asr).Inv call := by
  obtain ⟨before, after, hsent, hunread, hdelivered, hknows⟩ := h.seen
  rw [hclient] at hknows
  have hnonempty : x.unread ≠ [] := by
    intro hnil
    rw [hnil] at hskip
    exact skipMessage_nil _ hskip
  obtain ⟨m, more, rfl, hread⟩ := h.next hfit hnonempty hsent hunread
  have hrest : rest ++ x.turn.written.drop x.delivered = wiresOf more := by
    have hlater := skipMessage_append hskip (x.turn.written.drop x.delivered)
    rw [skipMessage_of_readEvent hread] at hlater
    exact (Except.ok.inj hlater).symm
  have hnothing := h.unsent (Or.inr hclient)
  have hheard : x.turn.heard = [] := by
    rw [List.eq_nil_iff_forall_not_mem]
    intro d hd
    have hmem := h.heard d hd
    rw [hnothing] at hmem
    cases hmem
  exact
    { turn := h.turn
      identified := h.identified
      fresh := nofun
      request := by
        intro hreading
        have hphase := h.turn.phase
        rw [hreading] at hphase
        rw [hphase.1] at hsent
        exact absurd hsent.symm (List.append_ne_nil_of_right_ne_nil _ (List.cons_ne_nil _ _))
      heard := by
        simp only [hheard]
        nofun
      unsent := by
        rintro (hphase | hphase)
        · cases hphase
        · cases hphase
      rtp := Or.inr hsend
      seen := by
        refine ⟨[m], more, ?_, hrest, hdelivered, m, [], rfl, rfl, by simp⟩
        have hbefore : before = [] := hknows
        simp only [hsent, hbefore, List.nil_append, List.singleton_append] }

/-- The client reads an event. -/
theorem Inv.informed (h : x.Inv call) (hfit : AnswersFit asr) {events : List MrcpEvent}
    {startSeen : Bool} (hclient : x.client = .reading events startSeen) {event : MrcpEvent}
    {rest : Bytes} (hevent : readEvent x.unread = .ok (event, rest)) :
    ({ x with client := afterEvent events startSeen event, unread := rest } :
      Exchange asr).Inv call := by
  obtain ⟨before, after, hsent, hunread, hdelivered, hknows⟩ := h.seen
  rw [hclient] at hknows
  have hnonempty : x.unread ≠ [] := by
    intro hnil
    rw [hnil] at hevent
    exact readEvent_nil _ hevent
  obtain ⟨m, more, rfl, hread⟩ := h.next hfit hnonempty hsent hunread
  have hlater := readEvent_append hevent (x.turn.written.drop x.delivered)
  rw [hread] at hlater
  obtain ⟨hm, hrest⟩ := Prod.mk.inj (Except.ok.inj hlater)
  obtain ⟨hconnected, hawaiting⟩ := afterEvent_phase events startSeen event
  exact
    { turn := h.turn
      identified := h.identified
      fresh := fun hphase => absurd hphase hconnected
      request := h.request
      heard := h.heard
      unsent := fun hphase => hphase.elim (absurd · hconnected) (absurd · hawaiting)
      rtp := h.rtp
      seen := by
        refine ⟨before ++ [m], more, ?_, hrest.symm, hdelivered, ?_⟩
        · simp only [hsent, List.append_assoc, List.singleton_append]
        · rw [← hm]
          exact hknows.event m }

/-- A step of the client, in the case of each of its phases. -/
theorem Inv.clientStep (h : x.Inv call) (hfit : AnswersFit asr)
    (hstep : x.clientStep call = some x') : x'.Inv call := by
  rw [Exchange.clientStep] at hstep
  split at hstep
  next hclient =>
    split at hstep
    next request hserialize =>
      cases hstep
      exact h.requested hclient hserialize
    next =>
      cases hstep
      exact h.raised
  next hclient =>
    split at hstep
    next rest hskip =>
      split at hstep
      next datagrams hsend =>
        cases hstep
        exact h.replied hfit hclient hskip hsend
      next =>
        cases hstep
        exact h.raised
    next => exact h.failedRead hstep
  next events startSeen hclient =>
    split at hstep
    next event rest hevent =>
      cases hstep
      exact h.informed hfit hclient hevent
    next => exact h.failedRead hstep
  next => cases hstep
  next => cases hstep

/-- More of what the server has written arrives. -/
theorem Inv.toClient (h : x.Inv call) (n : Nat) :
    ({ x with
      unread := x.unread ++ (x.turn.written.drop x.delivered).take n
      delivered := x.delivered + ((x.turn.written.drop x.delivered).take n).length } :
        Exchange asr).Inv call where
  turn := h.turn
  identified := h.identified
  fresh := h.fresh
  request := h.request
  heard := h.heard
  unsent := h.unsent
  rtp := h.rtp
  seen := by
    obtain ⟨before, after, hsent, hunread, hdelivered, hknows⟩ := h.seen
    refine ⟨before, after, hsent, ?_, ?_, hknows⟩
    · simp only [← List.drop_drop, List.length_take]
      rw [List.append_assoc, ← hunread]
      congr 1
      rcases Nat.le_total n (x.turn.written.drop x.delivered).length with hle | hle
      · rw [Nat.min_eq_left hle, List.take_append_drop]
      · rw [Nat.min_eq_right hle, List.take_of_length_le hle, List.drop_length, List.append_nil]
    · simp only [List.length_take, List.length_drop]
      omega

/-- The step lemma. -/
theorem Inv.step (h : x.Inv call) (hfit : AnswersFit asr) {label : ExchangeLabel}
    (hstep : x.step call label = some x') : x'.Inv call := by
  cases label with
  | client => exact h.clientStep hfit hstep
  | clientBreaks =>
      simp only [Exchange.step] at hstep
      split at hstep
      · cases hstep
      · cases hstep
        exact h.raised
  | toServer n =>
      obtain ⟨turn, hturn, rfl⟩ := Option.map_eq_some_iff.mp hstep
      exact h.server hturn nofun (List.take_append_drop n x.toServer).symm
  | toClient n =>
      cases hstep
      exact h.toClient n
  | datagram i =>
      simp only [Exchange.step] at hstep
      split at hstep
      next => cases hstep
      next data hdata =>
        obtain ⟨turn, hturn, rfl⟩ := Option.map_eq_some_iff.mp hstep
        refine h.server hturn ?_ rfl
        intro data' hlabel
        cases hlabel
        exact List.mem_of_getElem? hdata
  | hangUp =>
      simp only [Exchange.step] at hstep
      split at hstep
      · obtain ⟨turn, hturn, rfl⟩ := Option.map_eq_some_iff.mp hstep
        exact h.server hturn nofun rfl
      · obtain ⟨turn, hturn, rfl⟩ := Option.map_eq_some_iff.mp hstep
        exact h.server hturn nofun rfl
      · cases hstep
  | server s =>
      obtain ⟨turn, hturn, rfl⟩ := Option.map_eq_some_iff.mp hstep
      refine h.server hturn ?_ ?_
      · cases s <;> nofun
      · cases s <;> rfl

theorem Inv.run (hfit : AnswersFit asr) {labels : List ExchangeLabel}
    (hrun : Exchange.run call {} labels = some x) : x.Inv call :=
  runSteps_invariant (P := fun _ _ => True) (fun h _ hstep => h.step hfit hstep) .start
    (alongRun_of_forall (fun _ _ => trivial) _ labels) hrun

end Exchange

end Mrcp
end Sandroid
