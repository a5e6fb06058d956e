import Sandroid.Mrcp.Messages
import Mathlib.Tactic

/-!
# Event streams from the server to the client simulator

The client's read loop over the concatenation of serialized events.  The start
line ends at the first CRLF, its second word is the length of the message, and the
head ends at the first empty line: names and values have no line ends of their
own, and no header line is empty, so that nothing in the body matters.
-/

namespace Sandroid
namespace Mrcp

open Lib Sandroid.Core

/-- A header that survives the line format. -/
structure HeaderOk (entry : String × String) : Prop where
  name_ne : entry.1 ≠ ""
  name_trimmed : Trimmed isPySpace entry.1.toList
  name_line : '\r' ∉ entry.1.toList ∧ '\n' ∉ entry.1.toList
  name_colon : ':' ∉ entry.1.toList
  value_trimmed : Trimmed isPySpace entry.2.toList
  value_line : '\r' ∉ entry.2.toList ∧ '\n' ∉ entry.2.toList

/-- A word of the start line. -/
structure TokenOk (token : String) : Prop where
  ne : token ≠ ""
  no_space : ∀ c ∈ token.toList, isPySpace c = false
  no_percent : '%' ∉ token.toList

/-- Names and states are words, headers are lines, and Content-Length is left to the
serializer. -/
structure MrcpEvent.WellFormed (ev : MrcpEvent) : Prop where
  name : TokenOk ev.eventName
  state : TokenOk ev.requestState
  headers : ∀ entry ∈ ev.headers.entries, HeaderOk entry
  no_length : ev.headers.get? "Content-Length" = none

/-- The start line with a length in it. -/
def startLine (ev : MrcpEvent) (requestId : String) (n : Nat) : String :=
  "MRCP/2.0" ++ " " ++ String.ofList (decimal n) ++ " " ++ ev.eventName ++ " " ++
    (requestId ++ " " ++ ev.requestState)

/-- The message with a length in its start line. -/
def eventMessage (ev : MrcpEvent) (requestId : String) (n : Nat) : Bytes :=
  utf8 (startLine ev requestId n) ++ crlf ++
    headerBlock (mergedHeaders ev.headers ev.body) ++ crlf ++ ev.body

section Serializing

variable {ev : MrcpEvent} {requestId : String}

theorem percent_not_mem_utf8 {s : String} (h : '%' ∉ s.toList) : 37 ∉ utf8 s := by
  rw [mem_utf8_iff (by decide)]
  rintro ⟨c, hc, hp⟩
  have hp : c = '%' := Char.toNat_inj.mp hp
  exact h (hp ▸ hc)

theorem percent_not_mem_intText {n : Int} (h : intText n = .ok requestId) :
    37 ∉ utf8 requestId := by
  apply percent_not_mem_utf8
  intro hc
  rcases mem_pyStr (intText_eq_ok h) hc with hdigit | hminus
  · exact absurd hdigit (by decide)
  · exact absurd hminus (by decide)

theorem toNat_lt_of_mem_decimal {n : Nat} {c : Char} (h : c ∈ decimal n) : c.toNat < 128 := by
  have := toNat_of_isDigit (isDigit_of_mem_decimal h)
  omega

theorem length_utf8_decimal (n : Nat) :
    (utf8 (String.ofList (decimal n))).length = (decimal n).length := by
  rw [utf8_ofList_ascii (fun c hc => toNat_lt_of_mem_decimal hc), List.length_map]

/-- One assembly of the message. -/
theorem assemble_event (hname : '%' ∉ ev.eventName.toList) (hstate : '%' ∉ ev.requestState.toList)
    (hid : intText ev.requestId = .ok requestId) (n : Nat) :
    assemble (utf8 "MRCP/2.0 %d " ++ utf8 ev.eventName ++ utf8 " " ++
        utf8 (requestId ++ " " ++ ev.requestState))
      (headerBlock (mergedHeaders ev.headers ev.body)) ev.body n =
      .ok (eventMessage ev requestId n) := by
  have htemplate : utf8 "MRCP/2.0 %d " ++ utf8 ev.eventName ++ utf8 " " ++
      utf8 (requestId ++ " " ++ ev.requestState) =
      utf8 "MRCP/2.0 " ++ 37 :: 100 :: (utf8 " " ++ utf8 ev.eventName ++ utf8 " " ++
        utf8 (requestId ++ " " ++ ev.requestState)) := by
    have hhead : utf8 "MRCP/2.0 %d " = utf8 "MRCP/2.0 " ++ 37 :: 100 :: utf8 " " := by
      decide
    rw [hhead]
    simp only [List.append_assoc, List.cons_append]
  have hspace : 37 ∉ utf8 " " := by decide
  have hafter : 37 ∉ utf8 " " ++ utf8 ev.eventName ++ utf8 " " ++
      utf8 (requestId ++ " " ++ ev.requestState) := by
    simp only [utf8_append, List.mem_append, not_or]
    exact ⟨⟨⟨hspace, percent_not_mem_utf8 hname⟩, hspace⟩,
      ⟨percent_not_mem_intText hid, hspace⟩, percent_not_mem_utf8 hstate⟩
  rw [assemble, htemplate, percentFill_number (by decide) hafter]
  have hstart : utf8 "MRCP/2.0 " = utf8 "MRCP/2.0" ++ utf8 " " := by decide
  simp only [bind, Except.bind, pure, Except.pure, eventMessage, startLine, utf8_append, hstart,
    List.append_assoc]

/-- The digits are the only part of the message that depends on the length. -/
theorem length_eventMessage (ev : MrcpEvent) (requestId : String) :
    ∃ base, ∀ n, (eventMessage ev requestId n).length = lengthWith base n := by
  refine ⟨(eventMessage ev requestId 0).length - 1, fun n => ?_⟩
  have hzero : (decimal 0).length = 1 := rfl
  simp only [eventMessage, startLine, utf8_append, List.length_append, length_utf8_decimal,
    lengthWith, hzero]
  omega

/-- The loop ends after three passes at most, and the message declares its length. -/
theorem serializeEvent_eq_ok (hname : '%' ∉ ev.eventName.toList)
    (hstate : '%' ∉ ev.requestState.toList) (hid : intText ev.requestId = .ok requestId) :
    ∃ n, (eventMessage ev requestId n).length = n ∧
      ∀ passes, serializeEvent (passes + 3) ev = .ok (eventMessage ev requestId n) := by
  obtain ⟨base, hbase⟩ := length_eventMessage ev requestId
  obtain ⟨n, hn, hloop⟩ := lengthLoop_settles (assemble_event hname hstate hid) hbase
  refine ⟨n, hn, fun passes => ?_⟩
  rw [serializeEvent, hid]
  change serialize (passes + 3) ev.eventName (requestId ++ " " ++ ev.requestState)
    ev.headers ev.body = _
  rw [serialize, fillLength, assemble_event hname hstate hid 0]
  have hlen := hloop passes
  rw [← hbase 0] at hlen
  exact hlen

end Serializing

section Head

/-- A line end before a line is not an empty line. -/
theorem cutAt_crlf_cons {b : UInt8} (hb : b ≠ 13) (rest : Bytes) :
    cutAt (crlf ++ crlf) (crlf ++ b :: rest) =
      (cutAt (crlf ++ crlf) (b :: rest)).map (prepend crlf) := by
  have hfirst : List.isPrefixOf (crlf ++ crlf) (13 :: 10 :: b :: rest) = false := by
    simp [crlf, List.isPrefixOf, Ne.symm hb]
  change cutAt (crlf ++ crlf) (13 :: 10 :: b :: rest) = _
  rw [cutAt, hfirst, if_neg (by decide)]
  have hsecond : cutAt (crlf ++ crlf) (10 :: b :: rest) =
      (cutAt (crlf ++ crlf) (b :: rest)).map (prepend [10]) :=
    cutAt_cons_of_ne (by decide)
  rw [hsecond]
  cases cutAt (crlf ++ crlf) (b :: rest) with
  | none => rfl
  | some p => rfl

/-- The head ends at the empty line after the header lines. -/
theorem cutAt_head (body : Bytes) : ∀ {line : Bytes} {lines : List Bytes}, 13 ∉ line →
    (∀ l ∈ lines, l ≠ [] ∧ 13 ∉ l) →
    cutAt (crlf ++ crlf) (line ++ crlf ++ lines.flatMap (· ++ crlf) ++ crlf ++ body) =
      some (joinLines crlf (line :: lines), body)
  | line, [], hline, _ => by
      have hsep := cutAt_sep (crlf ++ crlf) body (by decide)
      have hpass := cutAt_append_of_not_mem hline [10, 13, 10] (crlf ++ crlf ++ body)
      simp only [List.flatMap_nil, List.append_nil, List.append_assoc] at hpass hsep ⊢
      refine hpass.trans ?_
      rw [show cutAt [13, 10, 13, 10] (crlf ++ (crlf ++ body)) = _ from hsep]
      simp [prepend, joinLines]
  | line, l :: lines, hline, hlines => by
      obtain ⟨hne, hcr⟩ := hlines l (by simp)
      obtain ⟨b, l', rfl⟩ := List.exists_cons_of_ne_nil hne
      have hb : b ≠ 13 := by
        rintro rfl
        exact hcr (by simp)
      have hmore : ∀ l ∈ lines, l ≠ [] ∧ 13 ∉ l := fun l hl => hlines l (by simp [hl])
      have ih := cutAt_head body hcr hmore
      have hpass := cutAt_append_of_not_mem hline [10, 13, 10]
        (crlf ++ (b :: l' ++ crlf ++ lines.flatMap (· ++ crlf) ++ crlf ++ body))
      have hlineend := cutAt_crlf_cons hb (l' ++ crlf ++ lines.flatMap (· ++ crlf) ++ crlf ++ body)
      simp only [List.flatMap_cons, List.append_assoc, List.cons_append] at ih hpass hlineend ⊢
      refine hpass.trans ?_
      rw [show cutAt [13, 10, 13, 10] (crlf ++ _) = _ from hlineend, ih]
      simp [prepend, joinLines]

/-- Joining commutes with the encoding. -/
theorem joinLines_utf8 : ∀ lines : List String,
    joinLines crlf (lines.map utf8) =
      utf8 (String.ofList (joinLines ['\r', '\n'] (lines.map String.toList)))
  | [] => rfl
  | [line] => by
      rw [List.map_singleton, List.map_singleton, joinLines, joinLines, String.ofList_toList]
  | line :: line' :: lines => by
      have ih := joinLines_utf8 (line' :: lines)
      have hcrlf : crlf = ['\r', '\n'].flatMap String.utf8EncodeChar := by decide
      simp only [List.map_cons] at ih ⊢
      rw [joinLines_cons_cons, joinLines_cons_cons, ih, utf8_ofList, utf8_ofList,
        List.flatMap_append, List.flatMap_append, ← hcrlf]
      rfl

/-- The lines of the head are those of the message. -/
theorem splitHead_message {line : String} {lines : List String} {body : Bytes}
    (hline : '\r' ∉ line.toList) (hlines : ∀ l ∈ lines, l ≠ "" ∧ '\r' ∉ l.toList) :
    splitHead (utf8 line ++ crlf ++ (lines.map utf8).flatMap (· ++ crlf) ++ crlf ++ body) =
      .ok (line.toList :: lines.map String.toList, body) := by
  have hbytes : ∀ l ∈ lines.map utf8, l ≠ [] ∧ 13 ∉ l := by
    intro l hl
    obtain ⟨s, hs, rfl⟩ := List.mem_map.mp hl
    refine ⟨?_, cr_not_mem_utf8 (hlines s hs).2⟩
    intro hnil
    exact (hlines s hs).1 (utf8_injective (hnil.trans rfl))
  rw [splitHead, cutAt_head body (cr_not_mem_utf8 hline) hbytes]
  have hjoin := joinLines_utf8 (line :: lines)
  rw [List.map_cons] at hjoin
  simp only
  rw [hjoin, utf8Decode?_utf8]
  simp only [String.toList_ofList]
  rw [List.map_cons, splitPair_joinLines (by simp)]
  intro l hl
  rcases List.mem_cons.mp hl with rfl | hl
  · exact hline
  · obtain ⟨s, hs, rfl⟩ := List.mem_map.mp hl
    exact (hlines s hs).2

end Head

section Headers

/-- The line of a header, as text. -/
def headerText (entry : String × String) : String :=
  entry.1 ++ ": " ++ entry.2

theorem parseHeaderLine_headerText (strict : Bool) {entry : String × String} (h : HeaderOk entry) :
    parseHeaderLine strict (headerText entry).toList = .ok entry := by
  have htext : (headerText entry).toList = entry.1.toList ++ ':' :: ' ' :: entry.2.toList := by
    simp [headerText]
  have hname : (headerText entry).toList.takeWhile (· ≠ ':') = entry.1.toList := by
    rw [htext, List.takeWhile_append_of_pos]
    · simp
    · intro c hc
      have hne : c ≠ ':' := by
        rintro rfl
        exact h.name_colon hc
      simpa using hne
  have hvalue : strip (' ' :: entry.2.toList) = entry.2.toList := by
    have hspace : isPySpace ' ' = true := by decide
    rw [strip, List.dropWhile_cons, if_pos hspace]
    exact h.value_trimmed
  have hdrop : (headerText entry).toList.drop (entry.1.toList.length + 1) =
      ' ' :: entry.2.toList := by
    rw [htext, ← List.drop_drop, List.drop_left]
    rfl
  rw [parseHeaderLine, hname, if_neg, hdrop, hvalue]
  · rw [show strip entry.1.toList = entry.1.toList from h.name_trimmed]
    simp
  · rintro ⟨_, hcolon⟩
    exact hcolon (by rw [htext]; simp)

/-- The loop over header lines restores the headers. -/
theorem parseHeaders_lines (strict : Bool) {entries : List (String × String)}
    (hok : ∀ entry ∈ entries, HeaderOk entry) {headers : Dict String String}
    (hnew : (headers.entries.map Prod.fst ++ entries.map Prod.fst).Nodup) :
    ∃ headers', parseHeaders strict (entries.map fun e => (headerText e).toList) headers =
        .ok headers' ∧ headers'.entries = headers.entries ++ entries := by
  induction entries generalizing headers with
  | nil => exact ⟨headers, rfl, (List.append_nil _).symm⟩
  | cons entry entries ih =>
    have hfresh : entry.1 ∉ headers.entries.map Prod.fst := by
      intro hmem
      exact (List.disjoint_of_nodup_append hnew) hmem (by simp)
    have hset : (headers.set entry.1 entry.2).entries = headers.entries ++ [entry] :=
      Dict.entries_set_of_not_mem headers hfresh entry.2
    have hnew' : ((headers.set entry.1 entry.2).entries.map Prod.fst ++
        entries.map Prod.fst).Nodup := by
      rw [hset]
      simpa using hnew
    obtain ⟨headers', hparse, hentries⟩ := ih (fun e he => hok e (by simp [he])) hnew'
    have hne : (headerText entry).toList ≠ [] := by
      simp [headerText]
    refine ⟨headers', ?_, ?_⟩
    · rw [List.map_cons, parseHeaders, if_neg hne,
        parseHeaderLine_headerText strict (hok entry (by simp))]
      exact hparse
    · rw [hentries, hset, List.append_assoc]
      rfl

theorem isPySpace_of_isDigit {c : Char} (h : c.isDigit = true) : isPySpace c = false := by
  have hrange := toNat_of_isDigit h
  simp only [isPySpace, Bool.or_eq_false_iff, Bool.and_eq_false_iff, decide_eq_false_iff_not,
    beq_eq_false_iff_ne]
  omega

/-- The header that the serializer adds. -/
theorem headerOk_contentLength (n : Nat) :
    HeaderOk ("Content-Length", String.ofList (decimal n)) := by
  have hdigit : ∀ c ∈ (String.ofList (decimal n)).toList, c.isDigit = true := by
    intro c hc
    rw [String.toList_ofList] at hc
    exact isDigit_of_mem_decimal hc
  have hspace : ∀ c ∈ "Content-Length".toList, isPySpace c = false :=
    forall_of_all (by decide)
  have hline : '\r' ∉ "Content-Length".toList ∧ '\n' ∉ "Content-Length".toList := by decide
  have hcolon : ':' ∉ "Content-Length".toList := by decide
  have hname : "Content-Length" ≠ "" := by decide
  refine ⟨hname, trimmed_of_forall hspace, hline, hcolon, ?_, ?_, ?_⟩
  · exact trimmed_of_forall fun c hc => isPySpace_of_isDigit (hdigit c hc)
  · intro hc
    exact absurd (hdigit _ hc) (by decide)
  · intro hc
    exact absurd (hdigit _ hc) (by decide)

/-- The headers of the message are lines too. -/
theorem MrcpEvent.WellFormed.mergedHeaders_ok {ev : MrcpEvent} (h : ev.WellFormed) :
    ∀ entry ∈ (mergedHeaders ev.headers ev.body).entries, HeaderOk entry := by
  rw [mergedHeaders]
  split_ifs with hbody
  · have hfresh : "Content-Length" ∉ ev.headers.keys :=
      (Dict.get?_eq_none_iff _ _).mp h.no_length
    rw [Dict.entries_set_of_not_mem _ hfresh]
    intro entry hentry
    rcases List.mem_append.mp hentry with hold | hnew
    · exact h.headers entry hold
    · rw [List.mem_singleton.mp hnew]
      exact headerOk_contentLength ev.body.length
  · exact h.headers

theorem headerBlock_eq (headers : Dict String String) :
    headerBlock headers = ((headers.entries.map headerText).map utf8).flatMap (· ++ crlf) := by
  rw [headerBlock, List.map_map, List.flatMap_map]
  rfl

/-- The head of a message and its body. -/
theorem splitHead_event {ev : MrcpEvent} {line : String} (h : ev.WellFormed)
    (hline : '\r' ∉ line.toList) :
    splitHead (utf8 line ++ crlf ++ headerBlock (mergedHeaders ev.headers ev.body) ++ crlf ++
        ev.body) =
      .ok (line.toList :: (mergedHeaders ev.headers ev.body).entries.map
        (fun entry => (headerText entry).toList), ev.body) := by
  rw [headerBlock_eq, splitHead_message hline]
  · rw [List.map_map]
    rfl
  · intro l hl
    obtain ⟨entry, hentry, rfl⟩ := List.mem_map.mp hl
    have hok := h.mergedHeaders_ok entry hentry
    refine ⟨?_, ?_⟩
    · intro hnil
      have hlen : (headerText entry).toList = [] := by rw [hnil]; rfl
      simp [headerText] at hlen
    · simp [headerText, hok.name_line.1, hok.value_line.1]

theorem parseHeaders_event {ev : MrcpEvent} (h : ev.WellFormed) :
    parseHeaders false ((mergedHeaders ev.headers ev.body).entries.map
        fun entry => (headerText entry).toList) Dict.empty =
      .ok (mergedHeaders ev.headers ev.body) := by
  have hnew : ((Dict.empty : Dict String String).entries.map Prod.fst ++
      (mergedHeaders ev.headers ev.body).entries.map Prod.fst).Nodup :=
    (mergedHeaders ev.headers ev.body).nodupKeys
  obtain ⟨headers, hparse, hentries⟩ := parseHeaders_lines false h.mergedHeaders_ok hnew
  have heq : headers = mergedHeaders ev.headers ev.body := by
    cases hmerged : mergedHeaders ev.headers ev.body with
    | mk entries nodupKeys =>
      rw [hmerged] at hentries
      cases headers
      cases hentries
      rfl
  rw [hparse, heq]

end Headers

section Tokens

variable {ev : MrcpEvent} {requestId : String}

theorem isByteSpace_iff {b : UInt8} : isByteSpace b = true ↔
    (9 ≤ b.toNat ∧ b.toNat ≤ 13) ∨ b.toNat = 32 := by
  simp only [isByteSpace, Bool.or_eq_true, Bool.and_eq_true, decide_eq_true_eq, beq_iff_eq,
    UInt8.le_iff_toNat_le, ← UInt8.toNat_inj]
  rfl

/-- Digits have no white space in their encoding. -/
theorem isByteSpace_of_mem_decimal {n : Nat} {b : UInt8}
    (h : b ∈ utf8 (String.ofList (decimal n))) : isByteSpace b = false := by
  rw [utf8_ofList_ascii (fun c hc => toNat_lt_of_mem_decimal hc)] at h
  obtain ⟨c, hc, rfl⟩ := List.mem_map.mp h
  have hrange := toNat_of_isDigit (isDigit_of_mem_decimal hc)
  rw [← Bool.not_eq_true, isByteSpace_iff, UInt8.toNat_ofNat']
  omega

/-- The declared length is read back. -/
theorem intOfBytes_decimal {n : Nat} (h : (decimal n).length ≤ maxStrDigits) :
    intOfBytes (utf8 (String.ofList (decimal n))) = .ok (n : Int) := by
  have hbytes : (utf8 (String.ofList (decimal n))).map (fun b => Char.ofNat b.toNat) =
      decimal n := by
    rw [utf8_ofList_ascii (fun c hc => toNat_lt_of_mem_decimal hc), List.map_map]
    refine (List.map_congr_left fun c hc => ?_).trans (List.map_id _)
    exact ofNat_toNat_ascii (toNat_lt_of_mem_decimal hc)
  have htrim : Trimmed isAsciiSpace (decimal n) := by
    apply trimmed_of_forall
    intro c hc
    have hrange := toNat_of_isDigit (isDigit_of_mem_decimal hc)
    simp only [isAsciiSpace, Bool.or_eq_false_iff, Bool.and_eq_false_iff,
      decide_eq_false_iff_not, beq_eq_false_iff_ne]
    omega
  rw [intOfBytes, hbytes, pyInt_of_isDigit htrim (fun c hc => isDigit_of_mem_decimal hc),
    readNat_decimal readsAscii_asciiDigit h]
  rfl

/-- The second word of the start line is the declared length. -/
theorem words_startLine_bytes (ev : MrcpEvent) (requestId : String) (n : Nat) :
    ∃ more, words isByteSpace (stripBy isByteSpace (utf8 (startLine ev requestId n) ++ crlf)) =
      utf8 "MRCP/2.0" :: utf8 (String.ofList (decimal n)) :: more := by
  have hline : utf8 (startLine ev requestId n) = utf8 "MRCP/2.0" ++ 32 ::
      (utf8 (String.ofList (decimal n)) ++ 32 :: utf8 (ev.eventName ++ " " ++
        (requestId ++ " " ++ ev.requestState))) := by
    have hspace : utf8 " " = [32] := by decide
    simp only [startLine, utf8_append, hspace, List.append_assoc, List.cons_append,
      List.nil_append]
  have hdigits : utf8 (String.ofList (decimal n)) ≠ [] := by
    intro hnil
    have hlen := length_utf8_decimal n
    rw [hnil, List.length_nil] at hlen
    exact absurd hlen (length_decimal_pos n).ne
  refine ⟨words isByteSpace (utf8 (ev.eventName ++ " " ++
    (requestId ++ " " ++ ev.requestState))), ?_⟩
  rw [words_stripBy, words_append_space _ (forall_of_all (by decide)), hline,
    words_append_cons _ _ (by decide), words_append_cons _ _ (by decide),
    words_word (by decide) (forall_of_all (by decide)),
    words_word hdigits (fun b hb => isByteSpace_of_mem_decimal hb)]
  rfl

/-- The five words of the start line. -/
theorem words_startLine_text (h : ev.WellFormed) (hid : intText ev.requestId = .ok requestId)
    (n : Nat) :
    words isPySpace (startLine ev requestId n).toList =
      ["MRCP/2.0".toList, decimal n, ev.eventName.toList, requestId.toList,
        ev.requestState.toList] := by
  have hline : (startLine ev requestId n).toList = "MRCP/2.0".toList ++ ' ' ::
      (decimal n ++ ' ' :: (ev.eventName.toList ++ ' ' :: (requestId.toList ++ ' ' ::
        ev.requestState.toList))) := by
    simp [startLine]
  have hidText := intText_eq_ok hid
  have hidNe : requestId.toList ≠ [] := pyStr_ne_nil hidText
  have hidSpace : ∀ c ∈ requestId.toList, isPySpace c = false := by
    intro c hc
    rcases mem_pyStr hidText hc with hdigit | rfl
    · exact isPySpace_of_isDigit hdigit
    · decide
  have hdigits : decimal n ≠ [] := List.ne_nil_of_length_pos (length_decimal_pos n)
  have hspace : isPySpace ' ' = true := by decide
  have hne : ∀ {token : String}, token ≠ "" → token.toList ≠ [] := by
    intro token htoken
    simpa using htoken
  rw [hline, words_append_cons _ _ hspace, words_append_cons _ _ hspace,
    words_append_cons _ _ hspace, words_append_cons _ _ hspace,
    words_word (by decide) (forall_of_all (by decide)),
    words_word hdigits (fun c hc => isPySpace_of_isDigit (isDigit_of_mem_decimal hc)),
    words_word (hne h.name.ne) h.name.no_space, words_word hidNe hidSpace,
    words_word (hne h.state.ne) h.state.no_space]
  rfl

/-- No line end in the start line. -/
theorem cr_not_mem_startLine (h : ev.WellFormed) (hid : intText ev.requestId = .ok requestId)
    (n : Nat) : '\r' ∉ (startLine ev requestId n).toList := by
  have hcr : ∀ {token : String}, (∀ c ∈ token.toList, isPySpace c = false) →
      '\r' ∉ token.toList := by
    intro token htoken hmem
    exact absurd (htoken _ hmem) (by decide)
  have hidCr : '\r' ∉ requestId.toList := by
    intro hmem
    rcases mem_pyStr (intText_eq_ok hid) hmem with hdigit | hminus
    · exact absurd hdigit (by decide)
    · exact absurd hminus (by decide)
  have hnum := cr_not_mem_decimal n
  simp [startLine, hcr h.name.no_space, hcr h.state.no_space, hidCr, hnum]

end Tokens

section Reading

variable {ev : MrcpEvent} {requestId : String} {n : Nat}

/-- The event as the client sees it: the length of a body is among the headers. -/
def MrcpEvent.withContentLength (ev : MrcpEvent) : MrcpEvent :=
  if ev.body = [] then
    ev
  else
    { ev with
      headers := ev.headers.set "Content-Length" (String.ofList (decimal ev.body.length)) }

theorem MrcpEvent.WellFormed.withContentLength_eq (h : ev.WellFormed) :
    ev.withContentLength = { ev with headers := mergedHeaders ev.headers ev.body } := by
  rw [MrcpEvent.withContentLength, mergedHeaders]
  by_cases hbody : ev.body = []
  · rw [if_pos hbody, if_neg (fun hand => hand.1 hbody)]
  · rw [if_neg hbody, if_pos ⟨hbody, h.no_length⟩]

/-- The bytes after the start line. -/
def afterStartLine (ev : MrcpEvent) : Bytes :=
  headerBlock (mergedHeaders ev.headers ev.body) ++ crlf ++ ev.body

theorem eventMessage_eq (ev : MrcpEvent) (requestId : String) (n : Nat) :
    eventMessage ev requestId n =
      utf8 (startLine ev requestId n) ++ (crlf ++ afterStartLine ev) := by
  simp only [eventMessage, afterStartLine, List.append_assoc]

/-- The first line of the message is its start line. -/
theorem cutAt_eventMessage (h : ev.WellFormed) (hid : intText ev.requestId = .ok requestId)
    (rest : Bytes) :
    cutAt crlf (eventMessage ev requestId n ++ rest) =
      some (utf8 (startLine ev requestId n), afterStartLine ev ++ rest) := by
  have hcr := cr_not_mem_utf8 (cr_not_mem_startLine h hid n)
  have hpass := cutAt_append_of_not_mem hcr [10] (crlf ++ (afterStartLine ev ++ rest))
  have hsep : cutAt [13, 10] (crlf ++ (afterStartLine ev ++ rest)) =
      some ([], afterStartLine ev ++ rest) :=
    cutAt_sep crlf _ (by decide)
  rw [eventMessage_eq, List.append_assoc, List.append_assoc]
  refine hpass.trans ?_
  rw [hsep, Option.map_some, prepend, List.append_nil]

theorem drainMessageTail_event (hlen : (eventMessage ev requestId n).length = n)
    (hdigits : (decimal n).length ≤ maxStrDigits) (rest : Bytes) :
    drainMessageTail (utf8 (startLine ev requestId n) ++ crlf) (afterStartLine ev ++ rest) =
      .ok (afterStartLine ev, rest) := by
  obtain ⟨more, hwords⟩ := words_startLine_bytes ev requestId n
  have hn : n = (utf8 (startLine ev requestId n) ++ crlf).length +
      (afterStartLine ev).length := by
    rw [eventMessage_eq, ← List.append_assoc, List.length_append] at hlen
    exact hlen.symm
  have hcount : (n : Int) - ((utf8 (startLine ev requestId n) ++ crlf).length : Nat) =
      ((afterStartLine ev).length : Nat) := by
    omega
  rw [drainMessageTail, hwords]
  simp only [intOfBytes_decimal hdigits, bind, Except.bind]
  rw [hcount, readExactly, if_neg (by omega), Int.toNat_natCast, if_neg (by simp)]
  simp

theorem parseEventFrame_event (h : ev.WellFormed) (hid : intText ev.requestId = .ok requestId) :
    parseEventFrame (utf8 (startLine ev requestId n) ++ crlf ++ afterStartLine ev) =
      .ok ev.withContentLength := by
  have hsplit := splitHead_event h (cr_not_mem_startLine h hid n)
  have hraw : utf8 (startLine ev requestId n) ++ crlf ++ afterStartLine ev =
      utf8 (startLine ev requestId n) ++ crlf ++
        headerBlock (mergedHeaders ev.headers ev.body) ++ crlf ++ ev.body := by
    simp only [afterStartLine, List.append_assoc]
  have hint : intOfText requestId.toList = .ok ev.requestId := by
    rw [intOfText, pyInt_pyStr readsAscii_decimalValue (fun c => isPySpace_of_isDigit) (by decide)
      (intText_eq_ok hid)]
  rw [parseEventFrame, hraw, hsplit]
  simp only [bind, Except.bind, List.headD_cons, List.tail_cons, words_startLine_text h hid,
    parseHeaders_event h, hint, pure, Except.pure, String.ofList_toList]
  rw [h.withContentLength_eq]

/-- One turn of the read loop takes one message off the stream. -/
theorem readEvent_eventMessage (h : ev.WellFormed) (hid : intText ev.requestId = .ok requestId)
    (hlen : (eventMessage ev requestId n).length = n)
    (hdigits : (decimal n).length ≤ maxStrDigits)
    (hline : (utf8 (startLine ev requestId n)).length ≤ streamLimit) (rest : Bytes) :
    readEvent (eventMessage ev requestId n ++ rest) = .ok (ev.withContentLength, rest) := by
  have hread : readUntilCrlf (eventMessage ev requestId n ++ rest) =
      .ok (utf8 (startLine ev requestId n) ++ crlf, afterStartLine ev ++ rest) := by
    rw [readUntilCrlf, cutAt_eventMessage h hid]
    simp only
    rw [if_neg (not_lt.mpr hline)]
  rw [readEvent, hread]
  simp only [bind, Except.bind, drainMessageTail_event hlen hdigits, parseEventFrame_event h hid,
    pure, Except.pure]

end Reading

section Streams

theorem intText_of_digits {n : Int} (h : (decimal n.natAbs).length ≤ maxStrDigits) :
    ∃ text, intText n = .ok text := by
  rw [intText, pyStr, if_neg (not_lt.mpr h)]
  exact ⟨_, rfl⟩

theorem tokenOk_complete : TokenOk "COMPLETE" :=
  ⟨by decide, forall_of_all (by decide), by decide⟩

end Streams

end Mrcp
end Sandroid
