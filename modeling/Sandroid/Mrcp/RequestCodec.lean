import Sandroid.Mrcp.Messages
import Mathlib.Tactic

/-!
# Requests from the client simulator to the server

`_serialize_request` ends the start line twice, in its template and again when it
assembles the message.  The server takes the second line end for the end of the
head: headers and body of the request all arrive as the body.
-/

namespace Sandroid
namespace Mrcp

open Lib Sandroid.Core

/-- The server reads back the request that the client serialized, and nothing is left. -/
def RoundTrips (passes : Nat) (req : MrcpRequest) : Prop :=
  ∃ wire, serializeRequest passes req = .ok wire ∧ readRequest wire = .ok (req, [])

section Fill

variable {digits : Bytes}

/-- Without a directive the number is left over. -/
theorem percentFill_unused {text : Bytes} (h : 37 ∉ text) :
    percentFill digits false text = .error .format := by
  induction text with
  | nil => rfl
  | cons b text ih =>
    rw [List.mem_cons, not_or] at h
    by_cases hnil : text = []
    · subst hnil
      rw [percentFill, if_pos (Or.inr (by decide))]
    · rw [percentFill_cons_of_ne (Ne.symm h.1) hnil, ih h.2]
      rfl

/-- A part filled in before what has been filled already. -/
theorem append_filled {suffix text text' front more r : Bytes} (hr : front ++ more = r)
    (hfront : ∀ b ∈ front, b ∈ text' ∨ b ∈ digits) (hsub : text ⊆ text')
    (hmore : ∃ r', more = r' ++ suffix ∧ ∀ b ∈ r', b ∈ text ∨ b ∈ digits) :
    ∃ r', r = r' ++ suffix ∧ ∀ b ∈ r', b ∈ text' ∨ b ∈ digits := by
  obtain ⟨r', rfl, hr'⟩ := hmore
  refine ⟨front ++ r', by rw [← hr, List.append_assoc], ?_⟩
  intro b hb
  rcases List.mem_append.mp hb with hb | hb
  · exact hfront b hb
  · exact (hr' b hb).imp_left fun hmem => hsub hmem

/-- The end of a template stays at the end if it cannot continue a directive. -/
theorem percentFill_suffix {suffix : Bytes} (hplain : 37 ∉ suffix)
    (hhead : suffix.head? ≠ some 100) (hne : suffix ≠ []) :
    ∀ {used : Bool} {text r : Bytes}, percentFill digits used (text ++ suffix) = .ok r →
      ∃ r', r = r' ++ suffix ∧ ∀ b ∈ r', b ∈ text ∨ b ∈ digits
  | true, [], r, h => by
      rw [List.nil_append, percentFill_plain hplain] at h
      exact ⟨[], (Except.ok.inj h).symm, by simp⟩
  | false, [], r, h => by
      rw [List.nil_append, percentFill_unused hplain] at h
      cases h
  | used, [b], r, h => by
      obtain ⟨c, rest, rfl⟩ := List.exists_cons_of_ne_nil hne
      rw [List.cons_append, List.nil_append, percentFill] at h
      by_cases hb : b = 37
      · have hc : c ≠ 37 := by
          rintro rfl
          exact hplain (by simp)
        have hd : ¬ (c = 100 ∧ ¬ used = true) := by
          rintro ⟨rfl, _⟩
          exact hhead rfl
        rw [if_pos hb, if_neg hc, if_neg hd] at h
        cases h
      · rw [if_neg hb, except_bind_eq_ok_iff] at h
        obtain ⟨more, hmore, hr⟩ := h
        rw [← List.nil_append (c :: rest)] at hmore
        have hr : [b] ++ more = r := Except.ok.inj hr
        have hhere : ∀ b' ∈ [b], b' ∈ [b] ∨ b' ∈ digits := fun _ hb' => Or.inl hb'
        exact append_filled hr hhere (List.nil_subset _)
          (percentFill_suffix hplain hhead hne hmore)
  | used, b :: c :: text, r, h => by
      have hsub : text ⊆ b :: c :: text :=
        List.subset_cons_of_subset b (List.subset_cons_self c text)
      rw [List.cons_append, List.cons_append, percentFill] at h
      split_ifs at h with hb hc hd
      · rw [except_bind_eq_ok_iff] at h
        obtain ⟨more, hmore, hr⟩ := h
        have hr : [37] ++ more = r := Except.ok.inj hr
        have hhere : ∀ b' ∈ [37], b' ∈ b :: c :: text ∨ b' ∈ digits := by simp [hb]
        exact append_filled hr hhere hsub
          (percentFill_suffix hplain hhead hne hmore)
      · rw [except_bind_eq_ok_iff] at h
        obtain ⟨more, hmore, hr⟩ := h
        exact append_filled (Except.ok.inj hr) (fun _ hb' => Or.inr hb') hsub
          (percentFill_suffix hplain hhead hne hmore)
      · rw [except_bind_eq_ok_iff] at h
        obtain ⟨more, hmore, hr⟩ := h
        rw [← List.cons_append] at hmore
        have hr : [b] ++ more = r := Except.ok.inj hr
        have hhere : ∀ b' ∈ [b], b' ∈ b :: c :: text ∨ b' ∈ digits := by simp
        exact append_filled hr hhere (List.subset_cons_self b (c :: text))
          (percentFill_suffix hplain hhead hne hmore)

end Fill

section Messages

/-- What the client sends: the start line, an empty line, and all the rest after it. -/
theorem serializeRequest_eq_ok {passes : Nat} {req : MrcpRequest} {wire : Bytes}
    (htoken : '\r' ∉ req.method.toList) (h : serializeRequest passes req = .ok wire) :
    ∃ line, 13 ∉ line ∧
      wire = line ++ crlf ++ crlf ++ (headerBlock req.headers ++ crlf ++ req.body) := by
  rw [serializeRequest, except_bind_eq_ok_iff] at h
  obtain ⟨requestId, hid, h⟩ := h
  have h := fillLength_eq_ok h
  rw [assemble, except_bind_eq_ok_iff] at h
  obtain ⟨filled, hfill, hwire⟩ := h
  obtain ⟨line, rfl, hline⟩ := percentFill_suffix (by decide) (by decide) (by decide) hfill
  refine ⟨line, ?_, ?_⟩
  · intro hcr
    have hdigits : 13 ∉ utf8 (String.ofList (decimal wire.length)) := by
      apply cr_not_mem_utf8
      rw [String.toList_ofList]
      exact cr_not_mem_decimal _
    rcases hline 13 hcr with hmem | hmem
    · simp only [List.mem_append] at hmem
      rcases hmem with ((hmem | hmem) | hmem) | hmem
      · exact absurd hmem (by decide)
      · exact cr_not_mem_utf8 htoken hmem
      · exact absurd hmem (by decide)
      · exact cr_not_mem_intText hid hmem
    · exact hdigits hmem
  · rw [← Except.ok.inj hwire]
    simp only [List.append_assoc]

end Messages

section Reading

theorem readUntilCrlf_eq_ok {data line rest : Bytes} (h : readUntilCrlf data = .ok (line, rest)) :
    data = line ++ rest := by
  rw [readUntilCrlf] at h
  split at h
  next line' rest' hcut =>
    split_ifs at h
    have h := Except.ok.inj h
    rw [Prod.mk.injEq] at h
    rw [cutAt_eq_some hcut, ← h.1, ← h.2]
  next =>
    split_ifs at h

theorem readExactly_eq_ok {n : Int} {data taken rest : Bytes}
    (h : readExactly n data = .ok (taken, rest)) : data = taken ++ rest := by
  rw [readExactly] at h
  split_ifs at h
  have h := Except.ok.inj h
  rw [Prod.mk.injEq] at h
  rw [← h.1, ← h.2, List.take_append_drop]

/-- A request that used up the stream was parsed from all of it. -/
theorem readRequest_eq_ok {data : Bytes} {req : MrcpRequest}
    (h : readRequest data = .ok (req, [])) : parseRequest data = .ok req := by
  rw [readRequest, except_bind_eq_ok_iff] at h
  obtain ⟨⟨startLine, rest⟩, hline, h⟩ := h
  simp only at h
  split at h
  next version length more hwords =>
    split_ifs at h with hversion
    rw [except_bind_eq_ok_iff] at h
    obtain ⟨messageLength, _, h⟩ := h
    rw [except_bind_eq_ok_iff] at h
    obtain ⟨⟨tail, rest'⟩, hread, h⟩ := h
    rw [except_bind_eq_ok_iff] at h
    obtain ⟨request, hparse, h⟩ := h
    have h := Except.ok.inj h
    rw [Prod.mk.injEq] at h
    obtain ⟨rfl, hrest⟩ := h
    have hall := readExactly_eq_ok hread
    simp only at hrest
    rw [hrest, List.append_nil] at hall
    rw [readUntilCrlf_eq_ok hline, hall]
    exact hparse
  next => cases h

/-- The body of a parsed request is what follows the first empty line. -/
theorem parseRequest_body {raw head body : Bytes} {req : MrcpRequest}
    (hcut : cutAt (crlf ++ crlf) raw = some (head, body)) (h : parseRequest raw = .ok req) :
    req.body = body := by
  rw [parseRequest, except_bind_eq_ok_iff] at h
  obtain ⟨⟨startLine, headers, body'⟩, hsplit, h⟩ := h
  have hbody : body' = body := by
    rw [splitMessage, except_bind_eq_ok_iff] at hsplit
    obtain ⟨⟨lines, body''⟩, hhead, hsplit⟩ := hsplit
    rw [splitHead, hcut] at hhead
    simp only at hhead hsplit
    split at hhead
    next => cases hhead
    next =>
      rw [except_bind_eq_ok_iff] at hsplit
      obtain ⟨headers', _, hsplit⟩ := hsplit
      have hsplit := Except.ok.inj hsplit
      have hhead := Except.ok.inj hhead
      simp only [Prod.mk.injEq] at hsplit hhead
      rw [← hsplit.2.2, ← hhead.2]
  simp only at h
  split at h
  next =>
    split_ifs at h with hversion
    split at h
    next => cases h
    next =>
      rw [← Except.ok.inj h]
      exact hbody
  next => cases h

/-- The first empty line of a message with no carriage return in its start line. -/
theorem cutAt_startLine {line rest : Bytes} (hline : 13 ∉ line) :
    cutAt (crlf ++ crlf) (line ++ crlf ++ crlf ++ rest) = some (line, rest) := by
  have hsep := cutAt_sep (crlf ++ crlf) rest (by decide)
  have hpass := cutAt_append_of_not_mem hline [10, 13, 10] (crlf ++ crlf ++ rest)
  rw [List.append_assoc, List.append_assoc, ← List.append_assoc crlf crlf rest]
  refine hpass.trans ?_
  rw [show cutAt [13, 10, 13, 10] (crlf ++ crlf ++ rest) = _ from hsep]
  simp [prepend]

end Reading

/-- The header block and a line end are in front of the body that arrives. -/
theorem not_roundTrips_of_cr {passes : Nat} {req : MrcpRequest}
    (hcr : '\r' ∉ req.method.toList) : ¬ RoundTrips passes req := by
  rintro ⟨wire, hserialize, hread⟩
  obtain ⟨line, hline, rfl⟩ := serializeRequest_eq_ok hcr hserialize
  have hbody := parseRequest_body (cutAt_startLine hline) (readRequest_eq_ok hread)
  have hlength := congrArg List.length hbody
  simp only [List.length_append, crlf, List.length_cons, List.length_nil] at hlength
  omega

/-- **No request arrives as it was sent.** -/
theorem request_never_roundTrips (passes : Nat) (req : MrcpRequest)
    (htoken : ∀ c ∈ req.method.toList, isPySpace c = false) : ¬ RoundTrips passes req := by
  apply not_roundTrips_of_cr
  intro hmem
  exact absurd (htoken _ hmem) (by decide)

/-- A RECOGNIZE request with one header. -/
def recognizeRequest : MrcpRequest :=
  { method := "RECOGNIZE"
    requestId := 1
    headers := Dict.empty.set "Content-Type" "text/uri-list"
    body := utf8 "x" }

theorem request_never_roundTrips_recognize : ¬ RoundTrips 3 recognizeRequest :=
  request_never_roundTrips 3 recognizeRequest (forall_of_all (by decide))

/-- Its message, and where the server ends the head. -/
theorem recognizeRequest_garbled :
    serializeRequest 3 recognizeRequest = .ok (utf8
      "MRCP/2.0 59 RECOGNIZE 1\r\n\r\nContent-Type: text/uri-list\r\n\r\nx") ∧
    cutAt (crlf ++ crlf) (utf8
      "MRCP/2.0 59 RECOGNIZE 1\r\n\r\nContent-Type: text/uri-list\r\n\r\nx") =
      some (utf8 "MRCP/2.0 59 RECOGNIZE 1",
        utf8 "Content-Type: text/uri-list\r\n\r\nx") ∧
    ¬ RoundTrips 3 recognizeRequest := by
  refine ⟨by decide +kernel, by decide +kernel, not_roundTrips_of_cr (by decide)⟩

end Mrcp
end Sandroid
