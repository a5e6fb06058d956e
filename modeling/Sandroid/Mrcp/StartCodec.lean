import Sandroid.Mrcp.BridgeCbor
import Sandroid.Mrcp.BridgeClient
import Mathlib.Tactic

/-!
# START from the plugin to the bridge

The C encoder of `bridge_client.c` against the Python decoder.  The C writer has a
buffer of 512 bytes, and `cbor_write_head` reports a failed put of a longer head
with 1, which its callers do not test.  After such a failure fewer than five bytes
are free, and every text string that follows needs more: its put fails with -1.
-/

namespace Sandroid
namespace Mrcp

open Lib

/-- Bytes that are still free. -/
def CborWriter.free (w : CborWriter) : Nat :=
  w.cap - w.buf.length

/-- The writer with `bytes` appended. -/
def CborWriter.add (w : CborWriter) (bytes : Bytes) : CborWriter :=
  { w with buf := w.buf ++ bytes }

/-- The buffer holds no more than its capacity. -/
def CborWriter.Ok (w : CborWriter) : Prop :=
  w.buf.length ≤ w.cap

section Writer

variable {w : CborWriter} {bytes : Bytes}

theorem CborWriter.Ok.add (hw : w.Ok) (hfits : bytes.length ≤ w.free) : (w.add bytes).Ok := by
  unfold CborWriter.Ok CborWriter.free at *
  simp only [CborWriter.add, List.length_append]
  omega

theorem CborWriter.free_add (w : CborWriter) (bytes : Bytes) :
    (w.add bytes).free = w.free - bytes.length := by
  simp only [CborWriter.add, CborWriter.free, List.length_append]
  omega

theorem cborPut_of_fits (hw : w.Ok) (hfits : bytes.length ≤ w.free) :
    cborPut w bytes = (0, w.add bytes) := by
  unfold CborWriter.Ok CborWriter.free at *
  rw [cborPut, if_neg (by omega)]
  rfl

theorem cborPut_of_not_fits (hw : w.Ok) (hfits : w.free < bytes.length) :
    cborPut w bytes = (-1, w) := by
  unfold CborWriter.Ok CborWriter.free at *
  rw [cborPut, if_pos (by omega)]

/-- A failed put of a head: reported as -1, or as 1 with the buffer nearly full. -/
def Jammed (r : Int × CborWriter) : Prop :=
  r.1 < 0 ∨ (r.2.Ok ∧ r.2.free < 5)

theorem cborPut2_of_fits {first second : Bytes} (hw : w.Ok)
    (hfits : (first ++ second).length ≤ w.free) :
    cborPut2 w first second = (0, w.add (first ++ second)) := by
  rw [List.length_append] at hfits
  have hfirst : first.length ≤ w.free := by omega
  have hsecond : second.length ≤ (w.add first).free := by
    rw [CborWriter.free_add]
    omega
  rw [cborPut2, cborPut_of_fits hw hfirst]
  simp only [ne_eq, not_true_eq_false, if_false]
  rw [cborPut_of_fits (hw.add hfirst) hsecond]
  simp [CborWriter.add]

theorem cborPut2_of_not_fits {first second : Bytes} (hw : w.Ok) (hone : first.length = 1)
    (hfour : second.length ≤ 4) (hfits : w.free < (first ++ second).length) :
    Jammed (cborPut2 w first second) := by
  rw [List.length_append] at hfits
  rw [cborPut2]
  by_cases hfirst : first.length ≤ w.free
  · have hsecond : (w.add first).free < second.length := by
      rw [CborWriter.free_add]
      omega
    rw [cborPut_of_fits hw hfirst]
    simp only [ne_eq, not_true_eq_false, if_false]
    rw [cborPut_of_not_fits (hw.add hfirst) hsecond]
    exact Or.inr ⟨hw.add hfirst, hsecond.trans_le (hfour.trans (by decide))⟩
  · have hfree : w.free < 5 := by omega
    rw [cborPut_of_not_fits hw (by omega)]
    exact Or.inr ⟨hw, hfree⟩

theorem cborWriteHead_of_fits {major val : Nat} (hw : w.Ok)
    (hval : val ≤ 0xFFFFFFFF) (hfits : (cborEncodeHead major val).length ≤ w.free) :
    cborWriteHead w major val = (0, w.add (cborEncodeHead major val)) := by
  rw [cborEncodeHead] at hfits ⊢
  rw [cborWriteHead]
  split_ifs at hfits ⊢ with h₁ h₂ h₃
  · exact cborPut_of_fits hw hfits
  · exact cborPut2_of_fits hw hfits
  · exact cborPut2_of_fits hw hfits
  · exact cborPut2_of_fits hw hfits

theorem cborWriteHead_of_not_fits {major val : Nat} (hw : w.Ok)
    (hfits : w.free < (cborEncodeHead major val).length) :
    Jammed (cborWriteHead w major val) := by
  rw [cborEncodeHead] at hfits
  rw [cborWriteHead]
  split_ifs at hfits ⊢ with h₁ h₂ h₃ h₄
  · rw [cborPut_of_not_fits hw hfits]
    exact Or.inl neg_one_lt_zero
  · exact cborPut2_of_not_fits hw rfl (by simp) hfits
  · exact cborPut2_of_not_fits hw rfl (by simp) hfits
  · exact cborPut2_of_not_fits hw rfl (by simp [packU32]) hfits
  · exact Or.inl neg_one_lt_zero

end Writer

/-- The bytes of a text string given by its encoding. -/
def tstrBytes (s : Bytes) : Bytes :=
  cborEncodeHead 3 s.length ++ s

section Tstr

variable {w : CborWriter} {s : Bytes}

theorem cborTstr_of_fits (hw : w.Ok) (hsmall : w.cap ≤ 512)
    (hfits : (tstrBytes s).length ≤ w.free) :
    cborTstr w s = (0, w.add (tstrBytes s)) := by
  rw [tstrBytes, List.length_append] at hfits
  have hfree : w.free ≤ 512 := by
    unfold CborWriter.free
    omega
  rw [cborTstr, cborWriteHead_of_fits hw (by omega) (by omega)]
  simp only [lt_self_iff_false, if_false]
  have hput : s.length ≤ (w.add (cborEncodeHead 3 s.length)).free := by
    rw [CborWriter.free_add]
    omega
  rw [cborPut_of_fits (hw.add (by omega)) hput]
  simp [CborWriter.add, tstrBytes]

/-- A string that does not fit is refused, also after a head that failed with 1. -/
theorem cborTstr_of_not_fits (hw : w.Ok) (hsmall : w.cap ≤ 512)
    (hfits : w.free < (tstrBytes s).length) : (cborTstr w s).1 = -1 := by
  rw [tstrBytes, List.length_append] at hfits
  have hfree : w.free ≤ 512 := by
    unfold CborWriter.free
    omega
  rw [cborTstr]
  by_cases hhead : (cborEncodeHead 3 s.length).length ≤ w.free
  · by_cases hval : s.length ≤ 0xFFFFFFFF
    · rw [cborWriteHead_of_fits hw hval hhead]
      simp only [lt_self_iff_false, if_false]
      rw [cborPut_of_not_fits (hw.add hhead)]
      rw [CborWriter.free_add]
      omega
    · have hrefused : cborWriteHead w 3 s.length = (-1, w) := by
        rw [cborWriteHead, if_neg (by omega), if_neg (by omega), if_neg (by omega), if_neg hval]
      rw [hrefused]
      rfl
  · rcases cborWriteHead_of_not_fits hw (not_le.mp hhead) with hneg | ⟨hok, hjam⟩
    · simp only [hneg, if_true]
    · split_ifs with hneg
      · rfl
      · have hlong : 5 ≤ s.length := by
          by_contra hshort
          apply hneg
          rw [cborEncodeHead, if_pos (by omega)] at hhead
          rw [cborWriteHead, if_pos (by omega), cborPut_of_not_fits hw (not_le.mp hhead)]
          exact neg_one_lt_zero
        rw [cborPut_of_not_fits hok (by omega)]

end Tstr

/-- The rest of the encoding phase appends exactly `e`, or fails if that does not fit. -/
def Emits (rest : CborWriter → Option Bytes) (e : Bytes) : Prop :=
  ∀ w : CborWriter, w.Ok → w.cap = 512 →
    rest w = if e.length ≤ w.free then some (w.buf ++ e) else none

section Emits

variable {rest : CborWriter → Option Bytes} {e : Bytes}

theorem emits_done : Emits (fun w => some w.buf) [] := by
  intro w _ _
  rw [List.length_nil, if_pos (Nat.zero_le _), List.append_nil]

/-- A step that appends `bytes` and returns 0, or fails for good. -/
theorem Emits.step (h : Emits rest e) {bytes : Bytes}
    {put : CborWriter → Int × CborWriter}
    (hput : ∀ w : CborWriter, w.Ok → w.cap = 512 → bytes.length ≤ w.free →
      put w = (0, w.add bytes))
    (hfail : ∀ w : CborWriter, w.Ok → w.cap = 512 → w.free < bytes.length →
      (checked (put w) >>= rest) = none) :
    Emits (fun w => checked (put w) >>= rest) (bytes ++ e) := by
  intro w hw hcap
  rw [List.length_append]
  by_cases hfits : bytes.length ≤ w.free
  · have hchecked : checked (put w) = some (w.add bytes) := by
      rw [hput w hw hcap hfits]
      rfl
    simp only [hchecked, Option.bind_eq_bind, Option.bind_some]
    rw [h _ (hw.add hfits) hcap, CborWriter.free_add]
    by_cases hrest : e.length ≤ w.free - bytes.length
    · rw [if_pos hrest, if_pos (by omega), ← List.append_assoc]
      rfl
    · rw [if_neg hrest, if_neg (by omega)]
  · rw [if_neg (by omega)]
    exact hfail w hw hcap (by omega)

theorem Emits.tstr (h : Emits rest e) (s : Bytes) :
    Emits (fun w => checked (cborTstr w s) >>= rest) (tstrBytes s ++ e) := by
  refine h.step (fun w hw hcap hfits => cborTstr_of_fits hw hcap.le hfits) ?_
  intro w hw hcap hfits
  rw [checked, cborTstr_of_not_fits hw hcap.le hfits, if_pos neg_one_lt_zero]
  rfl

/-- A head may fail with 1, but then what follows does not fit. -/
theorem Emits.head (h : Emits rest e) (hlong : 5 ≤ e.length) (major : Nat) {val : Nat}
    (hval : val ≤ 0xFFFFFFFF) :
    Emits (fun w => checked (cborWriteHead w major val) >>= rest)
      (cborEncodeHead major val ++ e) := by
  refine h.step (fun w hw _ hfits => cborWriteHead_of_fits hw hval hfits) ?_
  intro w hw hcap hfits
  have hcap' : (cborWriteHead w major val).2.cap = 512 := by
    rw [← hcap]
    simp only [cborWriteHead, cborPut2, cborPut]
    split_ifs <;> rfl
  rcases cborWriteHead_of_not_fits hw hfits with hneg | ⟨hok, hjam⟩
  · rw [checked, if_pos hneg]
    rfl
  · rw [checked]
    split_ifs with hneg
    · rfl
    · exact (h _ hok hcap').trans (if_neg (by omega))

end Emits

/-- The four entries of START, as bytes. -/
def startBytes (channelId sessionId : Bytes) (sampleRate : Nat) (codec : Bytes) : Bytes :=
  cborEncodeHead 5 4 ++ (tstrBytes (utf8 "channel_id") ++ (tstrBytes channelId ++
    (tstrBytes (utf8 "session_id") ++ (tstrBytes sessionId ++
      (tstrBytes (utf8 "sample_rate") ++ (cborEncodeHead 0 sampleRate ++
        (tstrBytes (utf8 "codec") ++ (tstrBytes codec ++ []))))))))

/-- A text string of five bytes or more in front. -/
theorem five_le_length_tstr {s : Bytes} (hs : 4 ≤ s.length) (e : Bytes) :
    5 ≤ (tstrBytes s ++ e).length := by
  have hhead : 0 < (cborEncodeHead 3 s.length).length := by
    rw [cborEncodeHead]
    split_ifs <;> simp
  rw [tstrBytes, List.length_append, List.length_append]
  omega

/-- The encoding phase yields the whole payload if it fits, and fails otherwise. -/
theorem encodeStart_eq (channelId sessionId : Option CString) (sampleRate : UInt32)
    (codec : Option CString) :
    encodeStart channelId sessionId sampleRate codec =
      if (startBytes (orDefault channelId "") (orDefault sessionId "") sampleRate.toNat
          (orDefault codec "LPCM")).length ≤ 512 then
        some (startBytes (orDefault channelId "") (orDefault sessionId "") sampleRate.toNat
          (orDefault codec "LPCM"))
      else
        none := by
  have hrate : sampleRate.toNat ≤ 0xFFFFFFFF := by
    have := sampleRate.toNat_lt
    omega
  have hcodec := (emits_done.tstr (orDefault codec "LPCM")).tstr (utf8 "codec")
  have hsample := (hcodec.head (five_le_length_tstr (by decide) _) 0 hrate).tstr
    (utf8 "sample_rate")
  have hsession := (hsample.tstr (orDefault sessionId "")).tstr (utf8 "session_id")
  have hchannel := (hsession.tstr (orDefault channelId "")).tstr (utf8 "channel_id")
  have hall := hchannel.head (five_le_length_tstr (by decide) _) 5 (show 4 ≤ 0xFFFFFFFF by decide)
  exact hall { cap := 512, buf := [] } (Nat.zero_le _) rfl

/-- A string that C can hold and Python can decode. -/
abbrev CText := {s : String // Char.ofNat 0 ∉ s.toList}

/-- Its bytes before the terminating NUL. -/
def CText.toCString (s : CText) : CString :=
  ⟨utf8 s.val, by
    rw [mem_utf8_iff (by decide)]
    rintro ⟨c, hc, hzero⟩
    have hnul : c = Char.ofNat 0 := Char.toNat_inj.mp hzero
    exact s.property (hnul ▸ hc)⟩

/-- The argument as the decoder is to see it. -/
def textOr (s : Option CText) (default : String) : String :=
  match s with
  | none => default
  | some s => s.val

theorem orDefault_toCString (s : Option CText) {default : String}
    (hascii : ascii default = utf8 default) :
    orDefault (s.map CText.toCString) default = utf8 (textOr s default) := by
  cases s with
  | none => exact hascii
  | some s => rfl

/-- The map that START carries. -/
def startMap (channelId sessionId : String) (sampleRate : Nat) (codec : String) :
    Dict String CborScalar :=
  { entries := [("channel_id", .str channelId), ("session_id", .str sessionId),
      ("sample_rate", .int sampleRate), ("codec", .str codec)]
    nodupKeys := (by decide : ["channel_id", "session_id", "sample_rate", "codec"].Nodup) }

theorem cborEncodeStr?_of_lt {s : String} (hs : (utf8 s).length < 2 ^ 64) :
    cborEncodeStr? s = .ok (cborEncodeStr s) := by
  rw [cborEncodeStr?, cborEncodeHead?, if_neg (by omega), if_neg (by omega)]
  rfl

/-- The Python encoder gives the same bytes for that map. -/
theorem cborEncodeMap_startMap {channelId sessionId codec : String} {sampleRate : Nat}
    (hchannel : (utf8 channelId).length < 2 ^ 64) (hsession : (utf8 sessionId).length < 2 ^ 64)
    (hrate : sampleRate < 2 ^ 64) (hcodec : (utf8 codec).length < 2 ^ 64) :
    cborEncodeMap (startMap channelId sessionId sampleRate codec) =
      .ok (startBytes (utf8 channelId) (utf8 sessionId) sampleRate (utf8 codec)) := by
  have hkey : ∀ s ∈ ["channel_id", "session_id", "sample_rate", "codec"],
      cborEncodeStr? s = .ok (cborEncodeStr s) := by
    intro s hs
    apply cborEncodeStr?_of_lt
    simp only [List.mem_cons, List.not_mem_nil, or_false] at hs
    rcases hs with rfl | rfl | rfl | rfl <;> decide
  have hint : cborEncodeHead? 0 (sampleRate : Int) = .ok (cborEncodeHead 0 sampleRate) := by
    rw [cborEncodeHead?, if_neg (by omega), if_neg (by omega), Int.toNat_natCast]
  rw [cborEncodeMap, if_pos (by simp [startMap])]
  simp only [startMap, cborEncodeEntries?, cborEncodeValue?, hkey "channel_id" (by simp),
    hkey "session_id" (by simp), hkey "sample_rate" (by simp), hkey "codec" (by simp),
    cborEncodeStr?_of_lt hchannel, cborEncodeStr?_of_lt hsession, cborEncodeStr?_of_lt hcodec,
    hint]
  simp only [bind, Except.bind, pure, Except.pure, startBytes, tstrBytes, cborEncodeStr,
    List.append_assoc]
  rfl

theorem length_lt_of_startBytes {channelId sessionId codec : Bytes} {sampleRate : Nat}
    (h : (startBytes channelId sessionId sampleRate codec).length ≤ 512) :
    channelId.length ≤ 512 ∧ sessionId.length ≤ 512 ∧ codec.length ≤ 512 := by
  simp only [startBytes, tstrBytes, List.length_append] at h
  omega

theorem encodeStart_text (channelId sessionId codec : Option CText) (sampleRate : UInt32) :
    encodeStart (channelId.map CText.toCString) (sessionId.map CText.toCString) sampleRate
        (codec.map CText.toCString) =
      if (startBytes (utf8 (textOr channelId "")) (utf8 (textOr sessionId "")) sampleRate.toNat
          (utf8 (textOr codec "LPCM"))).length ≤ 512 then
        some (startBytes (utf8 (textOr channelId "")) (utf8 (textOr sessionId ""))
          sampleRate.toNat (utf8 (textOr codec "LPCM")))
      else none := by
  have hencode := encodeStart_eq (channelId.map CText.toCString)
    (sessionId.map CText.toCString) sampleRate (codec.map CText.toCString)
  rwa [orDefault_toCString channelId rfl, orDefault_toCString sessionId rfl,
    orDefault_toCString codec (by decide)] at hencode

/-- What leaves the plugin is decoded to its four entries. -/
theorem cborDecode_encodeStart (limit : Nat) {channelId sessionId codec : Option CText}
    {sampleRate : UInt32} {payload : Bytes}
    (h : encodeStart (channelId.map CText.toCString) (sessionId.map CText.toCString) sampleRate
      (codec.map CText.toCString) = some payload) :
    cborDecode (limit + 2) payload =
      .ok (.map [(.tstr "channel_id", .tstr (textOr channelId "")),
        (.tstr "session_id", .tstr (textOr sessionId "")),
        (.tstr "sample_rate", .uint sampleRate.toNat),
        (.tstr "codec", .tstr (textOr codec "LPCM"))], payload.length) := by
  rw [encodeStart_text] at h
  split_ifs at h with hfits
  obtain ⟨hchannel, hsession, hcodec⟩ := length_lt_of_startBytes hfits
  have hcap : 512 < 2 ^ 64 := by decide
  have hrate : sampleRate.toNat < 2 ^ 64 := sampleRate.toNat_lt.trans (by decide)
  have hmap := cborEncodeMap_startMap (hchannel.trans_lt hcap) (hsession.trans_lt hcap) hrate
    (hcodec.trans_lt hcap)
  have hdecode := cborDecode_encodeMap limit hmap []
  rw [List.append_nil] at hdecode
  rw [← Option.some.inj h]
  exact hdecode

/-- **A START that leaves the plugin is decoded to its four entries; one that does not
fit the buffer is refused before anything is written.** -/
theorem start_codecs_agree (limit : Nat) (channelId sessionId codec : Option CText)
    (sampleRate : UInt32) (script : List SockAnswer) :
    (∀ payload,
      encodeStart (channelId.map CText.toCString) (sessionId.map CText.toCString) sampleRate
          (codec.map CText.toCString) = some payload →
      cborDecode (limit + 2) payload =
        .ok (.map [(.tstr "channel_id", .tstr (textOr channelId "")),
          (.tstr "session_id", .tstr (textOr sessionId "")),
          (.tstr "sample_rate", .uint sampleRate.toNat),
          (.tstr "codec", .tstr (textOr codec "LPCM"))], payload.length)) ∧
    (512 < (startBytes (utf8 (textOr channelId "")) (utf8 (textOr sessionId ""))
        sampleRate.toNat (utf8 (textOr codec "LPCM"))).length →
      sbrSendStart (channelId.map CText.toCString) (sessionId.map CText.toCString) sampleRate
        (codec.map CText.toCString) script = IoResult.done (-1) script) := by
  refine ⟨fun payload hpayload => cborDecode_encodeStart limit hpayload, fun hlong => ?_⟩
  rw [sbrSendStart, encodeStart_text, if_neg (by omega)]

/-- A channel id with a letter of two bytes, no session id and no codec. -/
def shortChannelId : CText :=
  ⟨"ch-é", by decide⟩

theorem start_codecs_agree_short :
    ∃ payload, encodeStart (some shortChannelId.toCString) none 8000 none = some payload ∧
      cborDecode 2 payload =
        .ok (.map [(.tstr "channel_id", .tstr "ch-é"), (.tstr "session_id", .tstr ""),
          (.tstr "sample_rate", .uint 8000), (.tstr "codec", .tstr "LPCM")],
          payload.length) := by
  have hfits : (startBytes (utf8 "ch-é") (ascii "") 8000 (ascii "LPCM")).length ≤ 512 := by
    decide
  have hencode := encodeStart_eq (some shortChannelId.toCString) none 8000 none
  refine ⟨_, hencode.trans (if_pos hfits), ?_⟩
  exact (start_codecs_agree 0 (some shortChannelId) none none 8000 []).1 _
    (hencode.trans (if_pos hfits))

end Mrcp
end Sandroid
