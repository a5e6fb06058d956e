import Sandroid.Core.Matcher
import Sandroid.Lib.Dict
import Sandroid.Lib.ExceptLoop
import Sandroid.Lib.PyText
import Sandroid.Lib.Utf8
import Sandroid.Mrcp.BridgeFrames

/-!
# MRCPv2 messages

The codec of `adapters/mrcp/messages.py`, the reading side of the server and the
client simulator's own serializer and parser (`adapters/mrcp/client_sim.py`).

A message declares its own length, so both serializers build it again and again
until the declared length is the length.  That loop is given a number of passes
here; `MrcpError.running` means that it has not ended within them.

A stream is the bytes up to the end of the connection.  `readuntil` gives up on a
line that is longer than the limit of an `asyncio.StreamReader`.  Text that is
formatted from an integer, and an integer read from text, is subject to the
interpreter's limit on digits; the lengths of byte strings are far below it.
-/

namespace Sandroid
namespace Mrcp

open Lib Sandroid.Core

def crlf : Bytes := [13, 10]

inductive MrcpError where
  /-- `MrcpParseError` -/
  | parse
  /-- `ValueError` of `int()` or `str()`, or of a negative `readexactly` -/
  | value
  | unicodeDecode
  /-- `TypeError` or `ValueError` of the `%` operator -/
  | format
  /-- `LimitOverrunError` -/
  | limitOverrun
  /-- `IncompleteReadError` -/
  | incompleteRead
  /-- the loop of a serializer goes on -/
  | running
deriving DecidableEq, Repr

structure MrcpRequest where
  method : String
  requestId : Int
  headers : Dict String String
  body : Bytes
deriving DecidableEq

structure MrcpResponse where
  statusCode : Int
  requestId : Int
  requestState : String
  headers : Dict String String
  body : Bytes
deriving DecidableEq

structure MrcpEvent where
  eventName : String
  requestId : Int
  requestState : String
  headers : Dict String String
  body : Bytes
deriving DecidableEq

/-- `template % n` for a template whose first directive is `%d`: a second one has no
argument left, and no other directive is without an argument. -/
def percentFill (digits : Bytes) : Bool → Bytes → Except MrcpError Bytes
  | used, [] => if used then .ok [] else .error .format
  | used, [b] => if b = 37 ∨ ¬ used then .error .format else .ok [b]
  | used, b :: c :: rest =>
      if b = 37 then
        if c = 37 then do
          let more ← percentFill digits used rest
          return 37 :: more
        else if c = 100 ∧ ¬ used then do
          let more ← percentFill digits true rest
          return digits ++ more
        else
          .error .format
      else do
        let more ← percentFill digits used (c :: rest)
        return b :: more

/-- The whole message with the length `n` in its start line. -/
def assemble (template headerBlock body : Bytes) (n : Nat) : Except MrcpError Bytes := do
  let line ← percentFill (utf8 (String.ofList (decimal n))) false template
  return line ++ crlf ++ headerBlock ++ crlf ++ body

/-- The `while True` loop. -/
def lengthLoop (build : Nat → Except MrcpError Bytes) : Nat → Nat → Except MrcpError Bytes
  | 0, _ => .error .running
  | passes + 1, total => do
      let candidate ← build total
      if candidate.length = total then
        .ok candidate
      else
        lengthLoop build passes candidate.length

/-- From the provisional message to the final one. -/
def fillLength (passes : Nat) (template headerBlock body : Bytes) : Except MrcpError Bytes := do
  let provisional ← assemble template headerBlock body 0
  lengthLoop (assemble template headerBlock body) passes provisional.length

def headerLine (name value : String) : Bytes :=
  utf8 (name ++ ": " ++ value)

def headerBlock (headers : Dict String String) : Bytes :=
  headers.entries.flatMap fun entry => headerLine entry.1 entry.2 ++ crlf

/-- `str(n)`. -/
def intText (n : Int) : Except MrcpError String :=
  match pyStr n with
  | none => .error .value
  | some text => .ok (String.ofList text)

/-- `merged_headers` of `_serialize`. -/
def mergedHeaders (headers : Dict String String) (body : Bytes) : Dict String String :=
  if body ≠ [] ∧ headers.get? "Content-Length" = none then
    headers.set "Content-Length" (String.ofList (decimal body.length))
  else
    headers

/-- `_serialize`. -/
def serialize (passes : Nat) (thirdToken fourthToken : String) (headers : Dict String String)
    (body : Bytes) : Except MrcpError Bytes :=
  fillLength passes (utf8 "MRCP/2.0 %d " ++ utf8 thirdToken ++ utf8 " " ++ utf8 fourthToken)
    (headerBlock (mergedHeaders headers body)) body

def serializeResponse (passes : Nat) (resp : MrcpResponse) : Except MrcpError Bytes := do
  let status ← intText resp.statusCode
  let requestId ← intText resp.requestId
  serialize passes status (requestId ++ " " ++ resp.requestState) resp.headers resp.body

def serializeEvent (passes : Nat) (ev : MrcpEvent) : Except MrcpError Bytes := do
  let requestId ← intText ev.requestId
  serialize passes ev.eventName (requestId ++ " " ++ ev.requestState) ev.headers ev.body

/-- `_serialize_request` of the client simulator; its template already ends the start
line. -/
def serializeRequest (passes : Nat) (req : MrcpRequest) : Except MrcpError Bytes := do
  let requestId ← intText req.requestId
  fillLength passes
    (utf8 "MRCP/2.0 %d " ++ utf8 req.method ++ utf8 " " ++ utf8 requestId ++ crlf)
    (headerBlock req.headers) req.body

/-- The default limit of a `StreamReader`. -/
def streamLimit : Nat := 2 ^ 16

/-- `readuntil(b"\r\n")`: the line with its end, and the rest of the stream. -/
def readUntilCrlf (data : Bytes) : Except MrcpError (Bytes × Bytes) :=
  match cutAt crlf data with
  | some (line, rest) =>
      if streamLimit < line.length then .error .limitOverrun else .ok (line ++ crlf, rest)
  | none =>
      if streamLimit + 1 < data.length then .error .limitOverrun else .error .incompleteRead

/-- `readexactly(n)`. -/
def readExactly (n : Int) (data : Bytes) : Except MrcpError (Bytes × Bytes) :=
  if n < 0 then
    .error .value
  else if data.length < n.toNat then
    .error .incompleteRead
  else
    .ok (data.take n.toNat, data.drop n.toNat)

/-- White space of byte strings. -/
def isByteSpace (b : UInt8) : Bool :=
  (9 ≤ b && b ≤ 13) || b == 32

def isAsciiSpace (c : Char) : Bool :=
  (9 ≤ c.toNat && c.toNat ≤ 13) || c.toNat == 32

/-- `int(token)` of a byte string. -/
def intOfBytes (token : Bytes) : Except MrcpError Int :=
  match pyInt isAsciiSpace asciiDigit (token.map fun b => Char.ofNat b.toNat) with
  | none => .error .value
  | some n => .ok n

/-- `int(token)` of a string. -/
def intOfText (token : List Char) : Except MrcpError Int :=
  match pyInt isPySpace decimalValue token with
  | none => .error .value
  | some n => .ok n

/-- One header line; only the server insists on the colon. -/
def parseHeaderLine (strict : Bool) (line : List Char) : Except MrcpError (String × String) :=
  let name := line.takeWhile (· ≠ ':')
  if strict ∧ ':' ∉ line then
    .error .parse
  else
    .ok (String.ofList (strip name), String.ofList (strip (line.drop (name.length + 1))))

/-- The loop over the header lines. -/
def parseHeaders (strict : Bool) :
    List (List Char) → Dict String String → Except MrcpError (Dict String String)
  | [], headers => .ok headers
  | line :: lines, headers =>
      if line = [] then
        parseHeaders strict lines headers
      else do
        let entry ← parseHeaderLine strict line
        parseHeaders strict lines (headers.set entry.1 entry.2)

/-- The lines of the head and the body. -/
def splitHead (raw : Bytes) : Except MrcpError (List (List Char) × Bytes) :=
  match cutAt (crlf ++ crlf) raw with
  | none => .error .parse
  | some (head, body) =>
      match utf8Decode? head with
      | none => .error .unicodeDecode
      | some head => .ok (splitPair '\r' '\n' head.toList, body)

/-- `_split_message`. -/
def splitMessage (raw : Bytes) :
    Except MrcpError (List Char × Dict String String × Bytes) := do
  let (lines, body) ← splitHead raw
  let headers ← parseHeaders true lines.tail Dict.empty
  return (lines.headD [], headers, body)

def parseRequest (raw : Bytes) : Except MrcpError MrcpRequest := do
  let (startLine, headers, body) ← splitMessage raw
  match words isPySpace startLine with
  | [version, _, method, reqId] =>
      if version ≠ "MRCP/2.0".toList then
        .error .parse
      else
        match intOfText reqId with
        | .error _ => .error .parse
        | .ok requestId => .ok ⟨String.ofList method, requestId, headers, body⟩
  | _ => .error .parse

/-- `_parse_event_frame` of the client simulator. -/
def parseEventFrame (raw : Bytes) : Except MrcpError MrcpEvent := do
  let (lines, body) ← splitHead raw
  match words isPySpace (lines.headD []) with
  | [_, _, eventName, reqId, requestState] => do
      let headers ← parseHeaders false lines.tail Dict.empty
      let requestId ← intOfText reqId
      return ⟨String.ofList eventName, requestId, String.ofList requestState, headers, body⟩
  | _ => .error .parse

/-- `_read_request` of the server: the request and the rest of the stream. -/
def readRequest (data : Bytes) : Except MrcpError (MrcpRequest × Bytes) := do
  let (startLine, rest) ← readUntilCrlf data
  match words isByteSpace (stripBy isByteSpace startLine) with
  | version :: length :: _ =>
      if version ≠ utf8 "MRCP/2.0" then
        .error .parse
      else do
        let messageLength ← intOfBytes length
        let (tail, rest) ← readExactly (messageLength - startLine.length) rest
        let request ← parseRequest (startLine ++ tail)
        return (request, rest)
  | _ => .error .parse

/-- `_drain_message_tail`. -/
def drainMessageTail (startLine data : Bytes) : Except MrcpError (Bytes × Bytes) :=
  match words isByteSpace (stripBy isByteSpace startLine) with
  | _ :: length :: _ => do
      let messageLength ← intOfBytes length
      readExactly (messageLength - startLine.length) data
  | _ => .error .parse

/-- One turn of the client's read loop. -/
def readEvent (data : Bytes) : Except MrcpError (MrcpEvent × Bytes) := do
  let (line, rest) ← readUntilCrlf data
  let (tail, rest) ← drainMessageTail line rest
  let event ← parseEventFrame (line ++ tail)
  return (event, rest)

/-- Turns of the read loop. -/
def readEvents : Nat → Bytes → Except MrcpError (List MrcpEvent × Bytes)
  | 0, data => .ok ([], data)
  | count + 1, data => do
      let (event, rest) ← readEvent data
      let (events, rest) ← readEvents count rest
      return (event :: events, rest)

section Fill

variable {digits : Bytes}

theorem percentFill_cons_of_ne {used : Bool} {b : UInt8} (hb : b ≠ 37) {rest : Bytes}
    (hrest : rest ≠ []) :
    percentFill digits used (b :: rest) =
      (percentFill digits used rest >>= fun more => return b :: more) := by
  cases rest with
  | nil => exact absurd rfl hrest
  | cons c rest => rw [percentFill, if_neg hb]

/-- Text without directives stays as it is, once the number has been placed. -/
theorem percentFill_plain {text : Bytes} (h : 37 ∉ text) :
    percentFill digits true text = .ok text := by
  induction text with
  | nil => rfl
  | cons b text ih =>
    rw [List.mem_cons, not_or] at h
    by_cases hnil : text = []
    · subst hnil
      rw [percentFill, if_neg]
      rintro (hb | hused)
      · exact h.1 hb.symm
      · exact hused rfl
    · rw [percentFill_cons_of_ne (Ne.symm h.1) hnil, ih h.2]
      rfl

/-- The number is placed, the rest stays. -/
theorem percentFill_number {before after : Bytes} (hbefore : 37 ∉ before) (hafter : 37 ∉ after) :
    percentFill digits false (before ++ 37 :: 100 :: after) = .ok (before ++ digits ++ after) := by
  induction before with
  | nil =>
    rw [List.nil_append, percentFill, if_pos rfl, if_neg (by decide), if_pos ⟨rfl, by decide⟩,
      percentFill_plain hafter]
    rfl
  | cons b before ih =>
    rw [List.mem_cons, not_or] at hbefore
    rw [List.cons_append, percentFill_cons_of_ne (Ne.symm hbefore.1) (by simp), ih hbefore.2]
    rfl

end Fill

section Bytes

/-- No carriage return in the encoding of text without one. -/
theorem cr_not_mem_utf8 {s : String} (h : '\r' ∉ s.toList) : 13 ∉ utf8 s := by
  rw [mem_utf8_iff (by decide)]
  rintro ⟨c, hc, hcr⟩
  have hcr : c = '\r' := Char.toNat_inj.mp hcr
  exact h (hcr ▸ hc)

theorem cr_not_mem_decimal (n : Nat) : '\r' ∉ decimal n := by
  intro h
  exact absurd (isDigit_of_mem_decimal h) (by decide)

theorem intText_eq_ok {n : Int} {text : String} (h : intText n = .ok text) :
    pyStr n = some text.toList := by
  rw [intText] at h
  split at h
  next => cases h
  next text' heq =>
    rw [heq, ← Except.ok.inj h, String.toList_ofList]

/-- The digits of an integer, and a sign. -/
theorem mem_pyStr {n : Int} {text : List Char} (h : pyStr n = some text) {c : Char}
    (hc : c ∈ text) : c.isDigit = true ∨ c = '-' := by
  rw [pyStr] at h
  split_ifs at h with hlong hneg
  · rw [← Option.some.inj h, List.mem_cons] at hc
    exact hc.symm.imp_left isDigit_of_mem_decimal
  · rw [← Option.some.inj h] at hc
    exact Or.inl (isDigit_of_mem_decimal hc)

theorem pyStr_ne_nil {n : Int} {text : List Char} (h : pyStr n = some text) : text ≠ [] := by
  rw [pyStr] at h
  split_ifs at h with hlong hneg
  · rw [← Option.some.inj h]
    exact List.cons_ne_nil _ _
  · rw [← Option.some.inj h]
    exact List.ne_nil_of_length_pos (length_decimal_pos _)

theorem cr_not_mem_intText {n : Int} {text : String} (h : intText n = .ok text) :
    13 ∉ utf8 text := by
  apply cr_not_mem_utf8
  intro hc
  rcases mem_pyStr (intText_eq_ok h) hc with hdigit | hminus
  · exact absurd hdigit (by decide)
  · exact absurd hminus (by decide)

end Bytes

section Loop

theorem lengthLoop_eq_ok {build : Nat → Except MrcpError Bytes} {passes total : Nat}
    {wire : Bytes} (h : lengthLoop build passes total = .ok wire) :
    build wire.length = .ok wire := by
  induction passes generalizing total with
  | zero => cases h
  | succ passes ih =>
    rw [lengthLoop, except_bind_eq_ok_iff] at h
    obtain ⟨candidate, hbuild, h⟩ := h
    split_ifs at h with hlen
    · rw [← Except.ok.inj h, hlen]
      exact hbuild
    · exact ih h

theorem fillLength_eq_ok {passes : Nat} {template block body wire : Bytes}
    (h : fillLength passes template block body = .ok wire) :
    assemble template block body wire.length = .ok wire := by
  rw [fillLength, except_bind_eq_ok_iff] at h
  obtain ⟨provisional, _, h⟩ := h
  exact lengthLoop_eq_ok h

/-- Three passes are enough when the length of the message is that of its digits and
of a fixed rest. -/
theorem lengthLoop_settles {build : Nat → Except MrcpError Bytes} {message : Nat → Bytes}
    {base : Nat} (hbuild : ∀ n, build n = .ok (message n))
    (hlength : ∀ n, (message n).length = lengthWith base n) :
    ∃ n, (message n).length = n ∧
      ∀ passes, lengthLoop build (passes + 3) (lengthWith base 0) = .ok (message n) := by
  have hstep : ∀ passes total, lengthLoop build (passes + 1) total =
      if lengthWith base total = total then .ok (message total)
      else lengthLoop build passes (lengthWith base total) := by
    intro passes total
    rw [lengthLoop, hbuild total]
    simp only [bind, Except.bind, hlength]
  have hstable := lengthWith_stable base
  generalize lengthWith base 0 = t₀ at hstable ⊢
  by_cases h₀ : lengthWith base t₀ = t₀
  · exact ⟨t₀, by rw [hlength, h₀], fun passes => by rw [hstep, if_pos h₀]⟩
  by_cases h₁ : lengthWith base (lengthWith base t₀) = lengthWith base t₀
  · exact ⟨_, by rw [hlength, h₁],
      fun passes => by rw [hstep, if_neg h₀, hstep, if_pos h₁]⟩
  · exact ⟨_, by rw [hlength, hstable],
      fun passes => by rw [hstep, if_neg h₀, hstep, if_neg h₁, hstep, if_pos hstable]⟩

end Loop

end Mrcp
end Sandroid
