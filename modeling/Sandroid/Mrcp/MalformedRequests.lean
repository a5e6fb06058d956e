import Sandroid.Mrcp.RequestCodec

/-!
# Malformed requests

`handle_connection` closes the connection with a log entry if reading the request raises
`MrcpParseError` or `ConnectionError`.  `parse_request` turns most that can be wrong with a
message into `MrcpParseError`, but what `_read_request` does before it does not: a stream that
ends early, an over-long line, and a message length that is no number or too small raise
exceptions of their own, and so does a head that is not UTF-8.

`read_request_graceful_iff`: the streams on which none of that happens.
-/

namespace Sandroid
namespace Mrcp

open Lib

/-- What `handle_connection` catches.  A stream that comes to its end raises no
`ConnectionError`, and none of the other errors is one. -/
def MrcpError.caught : MrcpError → Bool
  | .parse => true
  | _ => false

/-- The call returns, or its error is caught. -/
def Graceful {α : Type} (result : Except MrcpError α) : Prop :=
  ∀ e, result = .error e → e.caught = true

/-- The head of the message, as far as it has one, is UTF-8. -/
def TextHead (raw : Bytes) : Prop :=
  ∀ head body, cutAt (crlf ++ crlf) raw = some (head, body) → utf8Decode? head ≠ none

/-- The stream begins with a line of bearable length, and if that is the start line of a
message, then the message is there as far as the line says, with a head in UTF-8. -/
inductive TidyStream (data : Bytes) : Prop
  | badStartLine {line rest : Bytes} (hcut : cutAt crlf data = some (line, rest))
      (hshort : line.length ≤ streamLimit)
      (hbad : ∀ length more, words isByteSpace line ≠ utf8 "MRCP/2.0" :: length :: more)
  | message {line rest length : Bytes} {more : List Bytes} {n : Int}
      (hcut : cutAt crlf data = some (line, rest)) (hshort : line.length ≤ streamLimit)
      (hwords : words isByteSpace line = utf8 "MRCP/2.0" :: length :: more)
      (hlength : intOfBytes length = .ok n) (hstart : line.length + 2 ≤ n)
      (hwhole : n ≤ data.length) (htext : TextHead (data.take n.toNat))

section Parsing

theorem graceful_ok {α : Type} (a : α) : Graceful (.ok a) := by
  intro e h
  cases h

theorem graceful_parse {α : Type} : Graceful (.error .parse : Except MrcpError α) := by
  intro e h
  cases h
  rfl

theorem not_graceful {α : Type} {e : MrcpError} (h : e.caught = false) :
    ¬ Graceful (.error e : Except MrcpError α) := by
  intro hgraceful
  have hcaught := hgraceful e rfl
  rw [h] at hcaught
  cases hcaught

theorem parseHeaders_error {e : MrcpError} :
    ∀ {lines : List (List Char)} {headers : Dict String String},
      parseHeaders true lines headers = .error e → e = .parse
  | [], headers, h => by cases h
  | line :: lines, headers, h => by
      rw [parseHeaders] at h
      split_ifs at h with hempty
      · exact parseHeaders_error h
      · rw [except_bind_eq_error_iff] at h
        rcases h with hline | ⟨entry, _, h⟩
        · rw [parseHeaderLine] at hline
          split_ifs at hline
          cases hline
          rfl
        · exact parseHeaders_error h

theorem splitHead_error {raw : Bytes} {e : MrcpError} (htext : TextHead raw)
    (h : splitHead raw = .error e) : e = .parse := by
  rw [splitHead] at h
  cases hcut : cutAt (crlf ++ crlf) raw with
  | none =>
      rw [hcut] at h
      cases h
      rfl
  | some cut =>
      obtain ⟨head, body⟩ := cut
      rw [hcut] at h
      cases hdecode : utf8Decode? head with
      | none => exact absurd hdecode (htext head body hcut)
      | some text =>
          simp only [hdecode] at h
          cases h

/-- All that is wrong with a message whose head is UTF-8 is a parse error. -/
theorem parseRequest_graceful {raw : Bytes} (htext : TextHead raw) :
    Graceful (parseRequest raw) := by
  intro e h
  rw [parseRequest, except_bind_eq_error_iff] at h
  rcases h with hsplit | ⟨⟨startLine, headers, body⟩, _, h⟩
  · rw [splitMessage, except_bind_eq_error_iff] at hsplit
    rcases hsplit with hhead | ⟨⟨lines, body⟩, _, hsplit⟩
    · rw [splitHead_error htext hhead]
      rfl
    · rw [except_bind_eq_error_iff] at hsplit
      rcases hsplit with hheaders | ⟨headers, _, hsplit⟩
      · rw [parseHeaders_error hheaders]
        rfl
      · cases hsplit
  · simp only at h
    split at h
    · split_ifs at h
      · cases h
        rfl
      · split at h
        · cases h
          rfl
        · cases h
    · cases h
      rfl

theorem parseRequest_not_text {raw : Bytes} (htext : ¬ TextHead raw) :
    parseRequest raw = .error .unicodeDecode := by
  simp only [TextHead, not_forall, not_not] at htext
  obtain ⟨head, body, hcut, hdecode⟩ := htext
  simp only [parseRequest, splitMessage, splitHead, hcut, hdecode, bind, Except.bind]

end Parsing

section Reading

variable {data line rest : Bytes}

theorem isByteSpace_crlf : ∀ c ∈ crlf, isByteSpace c = true := by
  intro c hc
  rcases List.mem_cons.mp hc with rfl | hc
  · rfl
  · rw [List.mem_singleton.mp hc]
    rfl

theorem words_startLine (line : Bytes) :
    words isByteSpace (stripBy isByteSpace (line ++ crlf)) = words isByteSpace line := by
  rw [words_stripBy, words_append_space _ isByteSpace_crlf]

/-- A first line of bearable length is looked at. -/
theorem readRequest_of_line (hcut : cutAt crlf data = some (line, rest))
    (hshort : line.length ≤ streamLimit) :
    readRequest data =
      match words isByteSpace line with
      | version :: length :: _ =>
          if version ≠ utf8 "MRCP/2.0" then
            .error .parse
          else do
            let messageLength ← intOfBytes length
            let (tail, rest) ← readExactly (messageLength - (line ++ crlf).length) rest
            let request ← parseRequest (line ++ crlf ++ tail)
            return (request, rest)
      | _ => .error .parse := by
  have hline : readUntilCrlf data = .ok (line ++ crlf, rest) := by
    rw [readUntilCrlf, hcut]
    exact if_neg (not_lt.mpr hshort)
  rw [← words_startLine line, readRequest, hline]
  rfl

/-- Without a line of bearable length the error is not caught. -/
theorem readRequest_without_line
    (h : ∀ line rest, cutAt crlf data = some (line, rest) → streamLimit < line.length) :
    ¬ Graceful (readRequest data) := by
  have herror : readUntilCrlf data = .error .limitOverrun ∨
      readUntilCrlf data = .error .incompleteRead := by
    rw [readUntilCrlf]
    cases hcut : cutAt crlf data with
    | none =>
        simp only
        split_ifs
        · exact Or.inl rfl
        · exact Or.inr rfl
    | some cut => exact Or.inl (if_pos (h cut.1 cut.2 hcut))
  rw [readRequest]
  rcases herror with herror | herror
  · rw [herror]
    exact not_graceful rfl
  · rw [herror]
    exact not_graceful rfl

/-- The bytes that are read for a message are the first ones of the stream. -/
theorem message_bytes (hcut : cutAt crlf data = some (line, rest)) {n : Int}
    (hstart : line.length + 2 ≤ n) :
    line ++ crlf ++ rest.take (n - (line ++ crlf).length).toNat = data.take n.toNat := by
  have hlength : (line ++ crlf).length = line.length + 2 := List.length_append
  have hn : n.toNat = (line ++ crlf).length + (n - (line ++ crlf).length).toNat := by
    rw [hlength]
    omega
  rw [cutAt_eq_some hcut, hn, List.take_length_add_append]

theorem length_data (hcut : cutAt crlf data = some (line, rest)) :
    data.length = line.length + 2 + rest.length := by
  rw [cutAt_eq_some hcut, List.length_append, List.length_append]
  rfl

/-- A start line with a length: when what follows is dealt with gracefully. -/
theorem readRequest_message_iff {length : Bytes} {more : List Bytes}
    (hcut : cutAt crlf data = some (line, rest)) (hshort : line.length ≤ streamLimit)
    (hwords : words isByteSpace line = utf8 "MRCP/2.0" :: length :: more) :
    Graceful (readRequest data) ↔
      ∃ n, intOfBytes length = .ok n ∧ line.length + 2 ≤ n ∧ n ≤ data.length ∧
        TextHead (data.take n.toNat) := by
  have hlen : (line ++ crlf).length = line.length + 2 := List.length_append
  have hdata := length_data hcut
  rw [readRequest_of_line hcut hshort, hwords]
  simp only [ne_eq, not_true_eq_false, if_false]
  cases hint : intOfBytes length with
  | error e =>
      have hvalue : e = .value := by
        rw [intOfBytes] at hint
        split at hint
        · cases hint
          rfl
        · cases hint
      subst hvalue
      refine iff_of_false (not_graceful rfl) ?_
      rintro ⟨n, hn, -⟩
      cases hn
  | ok n =>
      simp only [bind, Except.bind]
      by_cases hneg : n - (line ++ crlf).length < 0
      · rw [readExactly, if_pos hneg]
        refine iff_of_false (not_graceful rfl) ?_
        rintro ⟨m, hm, hstart, -⟩
        cases hm
        omega
      by_cases hcutoff : rest.length < (n - (line ++ crlf).length).toNat
      · rw [readExactly, if_neg hneg, if_pos hcutoff]
        refine iff_of_false (not_graceful rfl) ?_
        rintro ⟨m, hm, hstart, hwhole, -⟩
        cases hm
        omega
      have hstart : line.length + 2 ≤ n := by omega
      rw [readExactly, if_neg hneg, if_neg hcutoff]
      simp only [message_bytes hcut hstart]
      by_cases htext : TextHead (data.take n.toNat)
      · refine iff_of_true ?_ ⟨n, rfl, hstart, by omega, htext⟩
        have hparse := parseRequest_graceful htext
        cases hresult : parseRequest (data.take n.toNat) with
        | error e =>
            rw [hresult] at hparse
            intro e' h
            cases h
            exact hparse e rfl
        | ok request => exact graceful_ok _
      · rw [parseRequest_not_text htext]
        refine iff_of_false (not_graceful rfl) ?_
        rintro ⟨m, hm, -, -, htext'⟩
        cases hm
        exact htext htext'

/-- **Which streams get a request or a logged close.** -/
theorem read_request_graceful_iff (data : Bytes) :
    Graceful (readRequest data) ↔ TidyStream data := by
  by_cases hline : ∃ line rest, cutAt crlf data = some (line, rest) ∧ line.length ≤ streamLimit
  · obtain ⟨line, rest, hcut, hshort⟩ := hline
    by_cases hbad : ∀ length more, words isByteSpace line ≠ utf8 "MRCP/2.0" :: length :: more
    · refine iff_of_true ?_ (.badStartLine hcut hshort hbad)
      rw [readRequest_of_line hcut hshort]
      split
      · rename_i version length more hwords
        have hversion : version ≠ utf8 "MRCP/2.0" := fun h => hbad length more (h ▸ hwords)
        rw [if_pos hversion]
        exact graceful_parse
      · exact graceful_parse
    · simp only [not_forall, not_not] at hbad
      obtain ⟨length, more, hwords⟩ := hbad
      rw [readRequest_message_iff hcut hshort hwords]
      constructor
      · rintro ⟨n, hint, hstart, hwhole, htext⟩
        exact .message hcut hshort hwords hint hstart hwhole htext
      · intro htidy
        cases htidy with
        | badStartLine hcut' _ hbad =>
            cases hcut.symm.trans hcut'
            exact absurd hwords (hbad length more)
        | message hcut' _ hwords' hint hstart hwhole htext =>
            cases hcut.symm.trans hcut'
            cases hwords.symm.trans hwords'
            exact ⟨_, hint, hstart, hwhole, htext⟩
  · refine iff_of_false (readRequest_without_line ?_) ?_
    · intro line rest hcut
      by_contra hshort
      exact hline ⟨line, rest, hcut, not_lt.mp hshort⟩
    · intro htidy
      cases htidy with
      | badStartLine hcut hshort _ => exact hline ⟨_, _, hcut, hshort⟩
      | message hcut hshort _ _ _ _ _ => exact hline ⟨_, _, hcut, hshort⟩

end Reading

/-- A message whose head is a byte that is not UTF-8. -/
def rawHeadMessage : Bytes :=
  utf8 "MRCP/2.0 31 RECOGNIZE 1\r\n" ++ [0xFF, 0x3A] ++ crlf ++ crlf

/-- A line without an end, just over the limit. -/
def endlessLine : Bytes := List.replicate (streamLimit + 2) 65

theorem readRequest_endlessLine : readRequest endlessLine = .error .limitOverrun := by
  have hcut : cutAt crlf endlessLine = none := by
    have hfree : (13 : UInt8) ∉ endlessLine :=
      fun h => absurd (List.eq_of_mem_replicate h) (by decide)
    have hpass := cutAt_append_of_not_mem hfree [10] []
    rw [List.append_nil] at hpass
    exact hpass
  have hlong : streamLimit + 1 < endlessLine.length := by
    rw [endlessLine, List.length_replicate]
    exact Nat.lt_succ_self _
  rw [readRequest, readUntilCrlf, hcut]
  simp only [if_pos hlong]
  rfl

/-- Requests whose errors `handle_connection` does not catch: the message length is no number
or too small, the stream ends within the message or before its line does, the head is not
UTF-8, the line is too long. -/
theorem malformed_requests_escape :
    readRequest (utf8 "MRCP/2.0 abc RECOGNIZE 1\r\n") = .error .value ∧
    readRequest (utf8 "MRCP/2.0 3 RECOGNIZE 1\r\n") = .error .value ∧
    readRequest (utf8 "MRCP/2.0 99 RECOGNIZE 1\r\n") = .error .incompleteRead ∧
    readRequest (utf8 "MRCP/2.0") = .error .incompleteRead ∧
    readRequest rawHeadMessage = .error .unicodeDecode ∧
    readRequest endlessLine = .error .limitOverrun ∧
    ¬ ∀ data, Graceful (readRequest data) := by
  have hvalue : readRequest (utf8 "MRCP/2.0 abc RECOGNIZE 1\r\n") = .error .value := by
    decide +kernel
  refine ⟨hvalue, by decide +kernel, by decide +kernel, by decide +kernel, by decide +kernel,
    readRequest_endlessLine, ?_⟩
  intro hall
  have hcaught := hall _ _ hvalue
  cases hcaught

end Mrcp
end Sandroid
