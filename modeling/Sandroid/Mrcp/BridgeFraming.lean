import Sandroid.Mrcp.BridgeClient

/-!
# Framing under back-pressure

What the Python side reads off the bytes a plugin connection has accepted.
Header and payload of an AUDIO frame are written by two loops that give up on
`EAGAIN` wherever they are, and `sbr_send_stop` ignores a failed write, so bytes
of an unfinished frame can stay in the stream while later frames follow.

`framing_integrity`: if the socket runs full in an AUDIO call only before its
first byte, and nothing follows a STOP that failed, then the accepted bytes are
at all times a prefix of the kept frames in call order, and `read_frame` decodes
exactly these.
-/

namespace Sandroid
namespace Mrcp

open IoResult

section Writes

/-- A blocking write puts out a prefix, and all bytes when it returns zero. -/
theorem writeAllTimeout_spec :
    ∀ (script : List SockAnswer) (buf : Bytes),
      (writeAllTimeout script buf).written <+: buf ∧
      (writeAllTimeout script buf).dropped = 0 ∧
      ((writeAllTimeout script buf).outcome = .blocked ∨
        (writeAllTimeout script buf).outcome = .ret 0 ∧
          (writeAllTimeout script buf).written = buf ∨
        (writeAllTimeout script buf).outcome = .ret (-1) ∧
          (.eagain false ∈ (writeAllTimeout script buf).used ∨
            .fatal ∈ (writeAllTimeout script buf).used))
  | [], buf => by
      unfold writeAllTimeout
      split_ifs with hbuf
      · subst hbuf
        simp [done]
      · simp
  | answer :: script, buf => by
      unfold writeAllTimeout
      split_ifs with hbuf
      · subst hbuf
        simp [done]
      · cases answer with
        | accept more =>
            obtain ⟨hpre, hdrop, hout⟩ := writeAllTimeout_spec script (buf.drop (more + 1))
            refine ⟨?_, hdrop, ?_⟩
            · have hcat := List.prefix_append_right_inj (buf.take (more + 1)) |>.mpr hpre
              rwa [List.take_append_drop] at hcat
            · rcases hout with h | ⟨h, hall⟩ | ⟨h, hwhy⟩
              · exact Or.inl h
              · refine Or.inr (Or.inl ⟨h, ?_⟩)
                simp [after, hall]
              · refine Or.inr (Or.inr ⟨h, ?_⟩)
                simpa [after] using hwhy
        | eagain ready =>
            cases ready with
            | true =>
                obtain ⟨hpre, hdrop, hout⟩ := writeAllTimeout_spec script buf
                refine ⟨hpre, hdrop, ?_⟩
                rcases hout with h | ⟨h, hall⟩ | ⟨h, hwhy⟩
                · exact Or.inl h
                · exact Or.inr (Or.inl ⟨h, hall⟩)
                · refine Or.inr (Or.inr ⟨h, ?_⟩)
                  simpa [after] using hwhy
            | false => simp [done, after]
        | eintr =>
            obtain ⟨hpre, hdrop, hout⟩ := writeAllTimeout_spec script buf
            refine ⟨hpre, hdrop, ?_⟩
            rcases hout with h | ⟨h, hall⟩ | ⟨h, hwhy⟩
            · exact Or.inl h
            · exact Or.inr (Or.inl ⟨h, hall⟩)
            · refine Or.inr (Or.inr ⟨h, ?_⟩)
              simpa [after] using hwhy
        | fatal => simp [done, after]

/-- A dropping write puts out a prefix; it puts out nothing when it drops before
any answer that accepts bytes. -/
theorem writeNonblockOrDrop_spec :
    ∀ (script : List SockAnswer) (buf : Bytes),
      (writeNonblockOrDrop script buf).written <+: buf ∧
      (writeNonblockOrDrop script buf).dropped = 0 ∧
      ((writeNonblockOrDrop script buf).outcome = .blocked ∨
        (writeNonblockOrDrop script buf).outcome = .ret 0 ∧
          (writeNonblockOrDrop script buf).written = buf ∧
          (buf ≠ [] → ∃ more, .accept more ∈ (writeNonblockOrDrop script buf).used) ∨
        (writeNonblockOrDrop script buf).outcome = .ret 1 ∧
          (∃ pre ready, (writeNonblockOrDrop script buf).used = pre ++ [.eagain ready] ∧
            ((writeNonblockOrDrop script buf).written ≠ [] → ∃ more, .accept more ∈ pre)) ∨
        (writeNonblockOrDrop script buf).outcome = .ret (-1))
  | [], buf => by
      unfold writeNonblockOrDrop
      split_ifs with hbuf
      · subst hbuf
        simp [done]
      · simp
  | answer :: script, buf => by
      unfold writeNonblockOrDrop
      split_ifs with hbuf
      · subst hbuf
        simp [done]
      · cases answer with
        | accept more =>
            obtain ⟨hpre, hdrop, hout⟩ := writeNonblockOrDrop_spec script (buf.drop (more + 1))
            refine ⟨?_, hdrop, ?_⟩
            · have hcat := List.prefix_append_right_inj (buf.take (more + 1)) |>.mpr hpre
              rwa [List.take_append_drop] at hcat
            · rcases hout with h | ⟨h, hall, _⟩ | ⟨h, pre, ready, hused, _⟩ | h
              · exact Or.inl h
              · refine Or.inr (Or.inl ⟨h, ?_, fun _ => ⟨more, ?_⟩⟩)
                · simp [after, hall]
                · simp [after]
              · refine Or.inr (Or.inr (Or.inl ⟨h, .accept more :: pre, ready, ?_, ?_⟩))
                · simp [after, hused]
                · exact fun _ => ⟨more, List.mem_cons_self⟩
              · exact Or.inr (Or.inr (Or.inr h))
        | eagain ready =>
            refine ⟨List.nil_prefix, rfl, Or.inr (Or.inr (Or.inl ⟨rfl, [], ready, rfl, ?_⟩))⟩
            exact fun h => absurd rfl h
        | eintr =>
            obtain ⟨hpre, hdrop, hout⟩ := writeNonblockOrDrop_spec script buf
            refine ⟨hpre, hdrop, ?_⟩
            rcases hout with h | ⟨h, hall, hacc⟩ | ⟨h, pre, ready, hused, hacc⟩ | h
            · exact Or.inl h
            · refine Or.inr (Or.inl ⟨h, hall, ?_⟩)
              intro hne
              obtain ⟨more, hmore⟩ := hacc hne
              exact ⟨more, List.mem_cons_of_mem _ hmore⟩
            · refine Or.inr (Or.inr (Or.inl ⟨h, .eintr :: pre, ready, ?_, ?_⟩))
              · simp [after, hused]
              · intro hne
                obtain ⟨more, hmore⟩ := hacc hne
                exact ⟨more, List.mem_cons_of_mem _ hmore⟩
            · exact Or.inr (Or.inr (Or.inr h))
        | fatal => simp [done, after]

theorem andThen_blocked {r : IoResult} (h : r.outcome = .blocked)
    (next : Int → List SockAnswer → IoResult) : r.andThen next = r := by
  simp [andThen, h]

theorem andThen_ret {r : IoResult} {rc : Int} (h : r.outcome = .ret rc)
    (next : Int → List SockAnswer → IoResult) :
    r.andThen next =
      { next rc r.rest with
        written := r.written ++ (next rc r.rest).written
        used := r.used ++ (next rc r.rest).used
        dropped := r.dropped + (next rc r.rest).dropped } := by
  simp [andThen, h]

end Writes

section Headers

theorem frameHeader_append {payload : Bytes} (h : payload.length + 1 < 2 ^ 32) (ftype : UInt8) :
    frameHeader payload.length ftype ++ payload = Frame.wire ⟨ftype, payload⟩ := by
  have hlt : payload.length < 2 ^ 32 := by omega
  simp only [frameHeader, Frame.wire, Nat.mod_eq_of_lt hlt, Nat.mod_eq_of_lt h,
    List.append_assoc, List.cons_append, List.nil_append]

theorem cborPut_length {w w' : CborWriter} {src : Bytes} {rc : Int}
    (h : cborPut w src = (rc, w')) (hw : w.buf.length ≤ w.cap) :
    w'.buf.length ≤ w'.cap ∧ w'.cap = w.cap := by
  unfold cborPut at h
  split_ifs at h with hfull
  · cases h
    exact ⟨hw, rfl⟩
  · cases h
    refine ⟨?_, rfl⟩
    simp only [List.length_append]
    omega

theorem cborPut2_length {w w' : CborWriter} {first second : Bytes} {rc : Int}
    (h : cborPut2 w first second = (rc, w')) (hw : w.buf.length ≤ w.cap) :
    w'.buf.length ≤ w'.cap ∧ w'.cap = w.cap := by
  simp only [cborPut2] at h
  obtain ⟨h₁, hcap₁⟩ := cborPut_length (Prod.eta (cborPut w first)).symm hw
  obtain ⟨h₂, hcap₂⟩ := cborPut_length (Prod.eta (cborPut (cborPut w first).2 second)).symm h₁
  split_ifs at h with hrc
  · cases h
    exact ⟨h₁, hcap₁⟩
  · cases h
    exact ⟨h₂, hcap₂.trans hcap₁⟩
  · cases h
    exact ⟨h₂, hcap₂.trans hcap₁⟩

theorem cborWriteHead_length {w w' : CborWriter} {major val : Nat} {rc : Int}
    (h : cborWriteHead w major val = (rc, w')) (hw : w.buf.length ≤ w.cap) :
    w'.buf.length ≤ w'.cap ∧ w'.cap = w.cap := by
  unfold cborWriteHead at h
  split_ifs at h
  · exact cborPut_length h hw
  · exact cborPut2_length h hw
  · exact cborPut2_length h hw
  · exact cborPut2_length h hw
  · cases h
    exact ⟨hw, rfl⟩

theorem cborTstr_length {w w' : CborWriter} {s : Bytes} {rc : Int}
    (h : cborTstr w s = (rc, w')) (hw : w.buf.length ≤ w.cap) :
    w'.buf.length ≤ w'.cap ∧ w'.cap = w.cap := by
  simp only [cborTstr] at h
  obtain ⟨h₁, hcap₁⟩ := cborWriteHead_length (Prod.eta (cborWriteHead w 3 s.length)).symm hw
  split_ifs at h
  · cases h
    exact ⟨h₁, hcap₁⟩
  · obtain ⟨h₂, hcap₂⟩ := cborPut_length h h₁
    exact ⟨h₂, hcap₂.trans hcap₁⟩

/-- The writer never runs over its buffer. -/
structure Bounded (w : CborWriter) : Prop where
  length : w.buf.length ≤ w.cap
  cap : w.cap = 512

theorem bounded_head {w w' : CborWriter} {major val : Nat}
    (hw : Bounded w) (h : checked (cborWriteHead w major val) = some w') : Bounded w' := by
  obtain ⟨hlen, hcap⟩ :=
    cborWriteHead_length (Prod.eta (cborWriteHead w major val)).symm hw.length
  unfold checked at h
  split_ifs at h
  cases h
  exact ⟨hlen, hcap.trans hw.cap⟩

theorem bounded_tstr {w w' : CborWriter} {s : Bytes}
    (hw : Bounded w) (h : checked (cborTstr w s) = some w') : Bounded w' := by
  obtain ⟨hlen, hcap⟩ := cborTstr_length (Prod.eta (cborTstr w s)).symm hw.length
  unfold checked at h
  split_ifs at h
  cases h
  exact ⟨hlen, hcap.trans hw.cap⟩

theorem encodeStart_length {channelId sessionId codec : Option CString} {sampleRate : UInt32}
    {payload : Bytes} (h : encodeStart channelId sessionId sampleRate codec = some payload) :
    payload.length ≤ 512 := by
  simp only [encodeStart, Option.bind_eq_bind, Option.bind_eq_some_iff, Option.some.injEq] at h
  obtain ⟨w₁, h₁, w₂, h₂, w₃, h₃, w₄, h₄, w₅, h₅, w₆, h₆, w₇, h₇, w₈, h₈, w₉, h₉, rfl⟩ := h
  have b₀ : Bounded { cap := 512, buf := [] } := ⟨Nat.zero_le _, rfl⟩
  have b₅ := bounded_tstr (bounded_tstr (bounded_tstr (bounded_tstr (bounded_head b₀ h₁) h₂) h₃)
    h₄) h₅
  have b₉ := bounded_tstr (bounded_tstr (bounded_head (bounded_tstr b₅ h₆) h₇) h₈) h₉
  have hlen := b₉.length
  rw [b₉.cap] at hlen
  exact hlen

/-- Every frame a call sends fits both sides' limit. -/
theorem frame_fits {call : Call} {f : Frame} (h : call.frame = some f) : f.Fits := by
  unfold Frame.Fits
  cases call with
  | start channelId sessionId sampleRate codec =>
      simp only [Call.frame, Option.map_eq_some_iff] at h
      obtain ⟨payload, hpayload, rfl⟩ := h
      have hlen := encodeStart_length hpayload
      simp only [maxFrameSize]
      omega
  | audio pcm =>
      simp only [Call.frame] at h
      split_ifs at h with hsize
      cases h
      simp only
      omega
  | eos =>
      cases h
      exact Nat.zero_le _
  | stop =>
      cases h
      exact Nat.zero_le _

end Headers

section Calls

/-- After an answer that accepts bytes there is no `EAGAIN`. -/
def EagainOnlyFirst : List SockAnswer → Prop
  | [] => True
  | .accept _ :: used => ∀ ready, .eagain ready ∉ used
  | .eagain _ :: used => EagainOnlyFirst used
  | .eintr :: used => EagainOnlyFirst used
  | .fatal :: used => EagainOnlyFirst used

instance decidableEagainOnlyFirst : DecidablePred EagainOnlyFirst
  | [] => inferInstanceAs (Decidable True)
  | .accept _ :: used => inferInstanceAs (Decidable (∀ ready, .eagain ready ∉ used))
  | .eagain _ :: used => decidableEagainOnlyFirst used
  | .eintr :: used => decidableEagainOnlyFirst used
  | .fatal :: used => decidableEagainOnlyFirst used

theorem eagainOnlyFirst_accept {ready : Bool} {post : List SockAnswer} {more : Nat} :
    ∀ {pre : List SockAnswer}, EagainOnlyFirst (pre ++ .eagain ready :: post) →
      .accept more ∉ pre
  | [], _ => List.not_mem_nil
  | answer :: pre, h => by
      intro hmem
      have hin : .eagain ready ∈ pre ++ .eagain ready :: post :=
        List.mem_append_right _ List.mem_cons_self
      cases answer with
      | accept more' => exact h ready hin
      | eagain ready' =>
          have hrest : EagainOnlyFirst (pre ++ .eagain ready :: post) := h
          exact eagainOnlyFirst_accept hrest (by simpa using hmem)
      | eintr =>
          have hrest : EagainOnlyFirst (pre ++ .eagain ready :: post) := h
          exact eagainOnlyFirst_accept hrest (by simpa using hmem)
      | fatal =>
          have hrest : EagainOnlyFirst (pre ++ .eagain ready :: post) := h
          exact eagainOnlyFirst_accept hrest (by simpa using hmem)

/-- A write failed on the way: a poll timed out or the socket broke. -/
def WriteFailed (used : List SockAnswer) : Prop :=
  .eagain false ∈ used ∨ .fatal ∈ used

/-- What a call leaves on the wire of the frame it is to send. -/
inductive SendSpec (call : Call) (f : Frame) (r : IoResult) : Prop
  | unfinished :
      (r.outcome = .blocked ∨ r.outcome = .ret (-1)) → r.dropped = 0 →
      r.written <+: f.wire → SendSpec call f r
  | complete :
      r.outcome = .ret 0 → r.dropped = 0 → r.written = f.wire → SendSpec call f r
  | stopFailed :
      call = .stop → r.outcome = .ret 0 → r.dropped = 0 → WriteFailed r.used →
      r.written <+: f.wire → SendSpec call f r
  | dropped {pcm : Bytes} :
      call = .audio pcm → r.outcome = .ret 0 → r.dropped = 1 →
      (EagainOnlyFirst r.used → r.written = []) → SendSpec call f r

theorem sendStart_spec {channelId sessionId codec : Option CString} {sampleRate : UInt32}
    {payload : Bytes} (h : encodeStart channelId sessionId sampleRate codec = some payload)
    (script : List SockAnswer) :
    SendSpec (.start channelId sessionId sampleRate codec) ⟨frameStart, payload⟩
      (sbrSendStart channelId sessionId sampleRate codec script) := by
  have hlen := encodeStart_length h
  have hwire : frameHeader payload.length frameStart ++ payload =
      Frame.wire ⟨frameStart, payload⟩ := frameHeader_append (by omega) frameStart
  simp only [sbrSendStart, h]
  obtain ⟨hpre, hdrop, hout⟩ :=
    writeAllTimeout_spec script (frameHeader payload.length frameStart)
  generalize writeAllTimeout script (frameHeader payload.length frameStart) = header at *
  have hheader : header.written <+: Frame.wire ⟨frameStart, payload⟩ := by
    rw [← hwire]
    exact hpre.trans (List.prefix_append _ _)
  rcases hout with hb | ⟨hok, hall⟩ | ⟨hfail, _⟩
  · rw [andThen_blocked hb]
    exact .unfinished (Or.inl hb) hdrop hheader
  · rw [andThen_ret hok]
    obtain ⟨hpre', hdrop', hout'⟩ := writeAllTimeout_spec header.rest payload
    generalize writeAllTimeout header.rest payload = body at *
    have hbody : header.written ++ body.written <+: Frame.wire ⟨frameStart, payload⟩ := by
      rw [← hwire, hall]
      exact (List.prefix_append_right_inj _).mpr hpre'
    rcases hout' with hb' | ⟨hok', hall'⟩ | ⟨hfail', _⟩
    · refine .unfinished (Or.inl ?_) ?_ ?_
      · simp [andThen_blocked hb', hb']
      · simp [andThen_blocked hb', hdrop, hdrop']
      · simpa [andThen_blocked hb'] using hbody
    · refine .complete ?_ ?_ ?_
      · simp [andThen_ret hok', done]
      · simp [andThen_ret hok', done, hdrop, hdrop']
      · simp [andThen_ret hok', done, hall, hall', hwire]
    · refine .unfinished (Or.inr ?_) ?_ ?_
      · simp [andThen_ret hfail', done]
      · simp [andThen_ret hfail', done, hdrop, hdrop']
      · simpa [andThen_ret hfail', done] using hbody
  · rw [andThen_ret hfail]
    refine .unfinished (Or.inr ?_) ?_ ?_
    · simp [done]
    · simp [done, hdrop]
    · simpa [done] using hheader

theorem sendAudio_spec {pcm : Bytes} (hpos : pcm.length ≠ 0)
    (hsize : ¬ pcm.length > maxFrameSize - 1) (script : List SockAnswer) :
    SendSpec (.audio pcm) ⟨frameAudio, pcm⟩ (sbrSendAudio pcm script) := by
  have hlen : pcm.length + 1 < 2 ^ 32 := by
    simp only [maxFrameSize] at hsize
    omega
  have hwire : frameHeader pcm.length frameAudio ++ pcm = Frame.wire ⟨frameAudio, pcm⟩ :=
    frameHeader_append hlen frameAudio
  simp only [sbrSendAudio, if_neg hpos, if_neg hsize]
  obtain ⟨hpre, hdrop, hout⟩ :=
    writeNonblockOrDrop_spec script (frameHeader pcm.length frameAudio)
  generalize writeNonblockOrDrop script (frameHeader pcm.length frameAudio) = header at *
  have hheader : header.written <+: Frame.wire ⟨frameAudio, pcm⟩ := by
    rw [← hwire]
    exact hpre.trans (List.prefix_append _ _)
  rcases hout with hb | ⟨hok, hall, hacc⟩ | ⟨hone, pre, ready, hused, hacc⟩ | hfail
  · rw [andThen_blocked hb]
    exact .unfinished (Or.inl hb) hdrop hheader
  · obtain ⟨more, hmore⟩ := hacc (by simp [frameHeader, packU32])
    rw [andThen_ret hok]
    obtain ⟨hpre', hdrop', hout'⟩ := writeNonblockOrDrop_spec header.rest pcm
    generalize writeNonblockOrDrop header.rest pcm = body at *
    have hbody : header.written ++ body.written <+: Frame.wire ⟨frameAudio, pcm⟩ := by
      rw [← hwire, hall]
      exact (List.prefix_append_right_inj _).mpr hpre'
    rcases hout' with hb' | ⟨hok', hall', _⟩ | ⟨hone', pre', ready', hused', _⟩ | hfail'
    · refine .unfinished (Or.inl ?_) ?_ ?_
      · simp [andThen_blocked hb', hb']
      · simp [andThen_blocked hb', hdrop, hdrop']
      · simpa [andThen_blocked hb'] using hbody
    · refine .complete ?_ ?_ ?_
      · simp [andThen_ret hok', done]
      · simp [andThen_ret hok', done, hdrop, hdrop']
      · simp [andThen_ret hok', done, hall, hall', hwire]
    · refine .dropped rfl ?_ ?_ ?_
      · simp [andThen_ret hone', done]
      · simp [andThen_ret hone', done, hdrop, hdrop']
      · intro hfirst
        have hused : EagainOnlyFirst ((header.used ++ pre') ++ .eagain ready' :: []) := by
          simpa [andThen_ret hone', done, hused'] using hfirst
        exact absurd (List.mem_append_left _ hmore) (eagainOnlyFirst_accept hused)
    · refine .unfinished (Or.inr ?_) ?_ ?_
      · simp [andThen_ret hfail', done]
      · simp [andThen_ret hfail', done, hdrop, hdrop']
      · simpa [andThen_ret hfail', done] using hbody
  · rw [andThen_ret hone]
    refine .dropped rfl ?_ ?_ ?_
    · simp [done]
    · simp [done, hdrop]
    · intro hfirst
      by_contra hne
      have hwritten : header.written ≠ [] := by simpa [done] using hne
      obtain ⟨more, hmore⟩ := hacc hwritten
      have hfirst' : EagainOnlyFirst (pre ++ .eagain ready :: []) := by
        simpa [done, hused] using hfirst
      exact eagainOnlyFirst_accept hfirst' hmore
  · rw [andThen_ret hfail]
    refine .unfinished (Or.inr ?_) ?_ ?_
    · simp [done]
    · simp [done, hdrop]
    · simpa [done] using hheader

theorem sendEos_spec (script : List SockAnswer) :
    SendSpec .eos ⟨frameEos, []⟩ (sbrSendEos script) := by
  have hwire : frameHeader 0 frameEos = Frame.wire ⟨frameEos, []⟩ := rfl
  unfold sbrSendEos
  rw [hwire]
  obtain ⟨hpre, hdrop, hout⟩ := writeAllTimeout_spec script (Frame.wire ⟨frameEos, []⟩)
  rcases hout with hb | ⟨hok, hall⟩ | ⟨hfail, _⟩
  · exact .unfinished (Or.inl hb) hdrop hpre
  · exact .complete hok hdrop hall
  · exact .unfinished (Or.inr hfail) hdrop hpre

theorem sendStop_spec (script : List SockAnswer) :
    SendSpec .stop ⟨frameStop, []⟩ (sbrSendStop script) := by
  have hwire : frameHeader 0 frameStop = Frame.wire ⟨frameStop, []⟩ := rfl
  unfold sbrSendStop
  rw [hwire]
  obtain ⟨hpre, hdrop, hout⟩ := writeAllTimeout_spec script (Frame.wire ⟨frameStop, []⟩)
  generalize writeAllTimeout script (Frame.wire ⟨frameStop, []⟩) = header at *
  rcases hout with hb | ⟨hok, hall⟩ | ⟨hfail, hwhy⟩
  · rw [andThen_blocked hb]
    exact .unfinished (Or.inl hb) hdrop hpre
  · rw [andThen_ret hok]
    refine .complete ?_ ?_ ?_
    · simp [done]
    · simp [done, hdrop]
    · simp [done, hall]
  · rw [andThen_ret hfail]
    refine .stopFailed rfl ?_ ?_ ?_ ?_
    · simp [done]
    · simp [done, hdrop]
    · simpa [done, WriteFailed] using hwhy
    · simpa [done] using hpre

theorem send_spec {call : Call} {f : Frame} (h : call.frame = some f)
    (script : List SockAnswer) : SendSpec call f (call.send script) := by
  cases call with
  | start channelId sessionId sampleRate codec =>
      simp only [Call.frame, Option.map_eq_some_iff] at h
      obtain ⟨payload, hpayload, rfl⟩ := h
      exact sendStart_spec hpayload script
  | audio pcm =>
      simp only [Call.frame] at h
      split_ifs at h with hsize
      rw [not_or] at hsize
      cases h
      exact sendAudio_spec hsize.1 hsize.2 script
  | eos =>
      cases h
      exact sendEos_spec script
  | stop =>
      cases h
      exact sendStop_spec script

/-- A call with nothing to send, or nothing it may send, writes nothing. -/
theorem send_refused {call : Call} (h : call.frame = none) (script : List SockAnswer) :
    (call.send script).written = [] ∧ (call.send script).dropped = 0 := by
  cases call with
  | start channelId sessionId sampleRate codec =>
      simp only [Call.frame, Option.map_eq_none_iff] at h
      simp [Call.send, sbrSendStart, h, done]
  | audio pcm =>
      simp only [Call.frame] at h
      split_ifs at h with hsize
      simp only [Call.send, sbrSendAudio]
      split_ifs with hzero hbig
      · exact ⟨rfl, rfl⟩
      · exact ⟨rfl, rfl⟩
      · exact absurd hsize (not_or.mpr ⟨hzero, hbig⟩)
  | eos => cases h
  | stop => cases h

end Calls

section Runs

/-- The socket ran full in an AUDIO call only before the frame's first byte. -/
def CallRecord.NotCut (record : CallRecord) : Prop :=
  match record.call with
  | .audio _ => EagainOnlyFirst record.result.used
  | _ => True

/-- A STOP whose write failed. -/
def CallRecord.StopFailed (record : CallRecord) : Prop :=
  record.call = .stop ∧ WriteFailed record.result.used

/-- The socket behaviour under which framing survives: no AUDIO frame is cut,
and no call follows a STOP that failed. -/
def CleanRun : List CallRecord → Prop
  | [] => True
  | record :: records =>
      record.NotCut ∧ (record.StopFailed → records = []) ∧ CleanRun records

/-- The call has put its frame out, or counted it as dropped. -/
def CallRecord.Completed (record : CallRecord) : Prop :=
  record.result.outcome = .ret 0 ∧ ¬ record.StopFailed

/-- Whole frames and the beginning of a last one. -/
structure FramedAs (records : List CallRecord) (whole : List Frame) (cut : Bytes) : Prop where
  bytes : accepted records = whole.flatMap Frame.wire ++ cut
  kept : cut = [] ∧ keptFrames records = whole ∨
    ∃ f, f.Fits ∧ keptFrames records = whole ++ [f] ∧ cut <+: f.wire ∧ cut ≠ f.wire
  fits : ∀ f, f ∈ whole → f.Fits
  completed : (∀ record, record ∈ records → record.Completed) →
    cut = [] ∧ keptFrames records = whole

/-- A last call that may not have finished. -/
theorem framedAs_last {call : Call} {f : Frame} {r : IoResult} (hfits : f.Fits)
    (hkept : r.dropped = 0) (hframe : call.frame = some f) (hpre : r.written <+: f.wire)
    (hnot : ¬ CallRecord.Completed ⟨call, r⟩) :
    ∃ whole cut, FramedAs [⟨call, r⟩] whole cut := by
  by_cases hall : r.written = f.wire
  · refine ⟨[f], [], ?_, Or.inl ⟨rfl, ?_⟩, ?_, ?_⟩
    · simp [accepted, hall]
    · simp [keptFrames, hkept, hframe]
    · simpa using hfits
    · exact fun h => absurd (h _ (List.mem_singleton_self _)) hnot
  · refine ⟨[], r.written, ?_, Or.inr ⟨f, hfits, ?_, hpre, hall⟩, ?_, ?_⟩
    · simp [accepted]
    · simp [keptFrames, hkept, hframe]
    · simp
    · exact fun h => absurd (h _ (List.mem_singleton_self _)) hnot

/-- A call that put out exactly its kept frames, followed by framed calls. -/
theorem framedAs_cons {record : CallRecord} (frames : List Frame) {records : List CallRecord}
    {whole : List Frame} {cut : Bytes}
    (hwritten : record.result.written = frames.flatMap Frame.wire)
    (hframes : keptFrames [record] = frames) (hfits : ∀ f, f ∈ frames → f.Fits)
    (hrest : FramedAs records whole cut) :
    FramedAs (record :: records) (frames ++ whole) cut := by
  have hkept : keptFrames (record :: records) = frames ++ keptFrames records := by
    rw [← hframes]
    simp [keptFrames]
  refine ⟨?_, ?_, ?_, ?_⟩
  · have hbytes := hrest.bytes
    simp only [accepted] at hbytes
    simp [accepted, hwritten, hbytes]
  · rcases hrest.kept with ⟨hcut, hk⟩ | ⟨f, hf, hk, hpre, hne⟩
    · exact Or.inl ⟨hcut, by rw [hkept, hk]⟩
    · exact Or.inr ⟨f, hf, by rw [hkept, hk, List.append_assoc], hpre, hne⟩
  · intro f hf
    rcases List.mem_append.mp hf with hf | hf
    · exact hfits f hf
    · exact hrest.fits f hf
  · intro h
    obtain ⟨hcut, hk⟩ := hrest.completed (fun r hr => h r (List.mem_cons_of_mem _ hr))
    exact ⟨hcut, by rw [hkept, hk]⟩

theorem framedAs_nil : FramedAs [] [] [] :=
  ⟨rfl, Or.inl ⟨rfl, rfl⟩, nofun, fun _ => ⟨rfl, rfl⟩⟩

/-- A clean run leaves whole frames and at most one unfinished frame. -/
theorem framedAs_runCalls :
    ∀ (calls : List Call) (script : List SockAnswer), CleanRun (runCalls calls script) →
      ∃ whole cut, FramedAs (runCalls calls script) whole cut
  | [], _, _ => ⟨[], [], framedAs_nil⟩
  | call :: calls, script, hclean => by
      obtain ⟨hnotCut, hstop, hrest⟩ := hclean
      have hframed : ∃ whole cut, FramedAs
          (if (call.send script).outcome.goesOn then runCalls calls (call.send script).rest
            else []) whole cut := by
        split_ifs with hgoes
        · refine framedAs_runCalls calls (call.send script).rest ?_
          simpa only [hgoes, if_true] using hrest
        · exact ⟨[], [], framedAs_nil⟩
      cases hframe : call.frame with
      | none =>
          obtain ⟨hwritten, hdrop⟩ := send_refused hframe script
          obtain ⟨whole, cut, hframed⟩ := hframed
          refine ⟨[] ++ whole, cut, framedAs_cons [] ?_ ?_ nofun hframed⟩
          · simpa using hwritten
          · simp [keptFrames, hdrop, hframe]
      | some f =>
          have hfits := frame_fits hframe
          cases send_spec hframe script with
          | unfinished hout hdrop hpre =>
              have hgoes : (call.send script).outcome.goesOn = false := by
                rcases hout with h | h
                · rw [h]
                  rfl
                · rw [h]
                  rfl
              simp only [runCalls, hgoes]
              refine framedAs_last hfits hdrop hframe hpre ?_
              rintro ⟨hret, _⟩
              rcases hout with h | h
              · simp [h] at hret
              · simp [h] at hret
          | complete hout hdrop hall =>
              obtain ⟨whole, cut, hframed⟩ := hframed
              refine ⟨[f] ++ whole, cut, framedAs_cons [f] ?_ ?_ ?_ hframed⟩
              · simpa using hall
              · simp [keptFrames, hdrop, hframe]
              · simpa using hfits
          | stopFailed hcall hout hdrop hfailed hpre =>
              have hlast := hstop ⟨hcall, hfailed⟩
              simp only [runCalls, hlast]
              refine framedAs_last hfits hdrop hframe hpre ?_
              exact fun h => h.2 ⟨hcall, hfailed⟩
          | dropped hcall hout hdrop hempty =>
              obtain ⟨whole, cut, hframed⟩ := hframed
              refine ⟨[] ++ whole, cut, framedAs_cons [] ?_ ?_ nofun hframed⟩
              · subst hcall
                simpa using hempty hnotCut
              · simp [keptFrames, hdrop]

/-- **Framing integrity under back-pressure.** -/
theorem framing_integrity (calls : List Call) (script : List SockAnswer)
    (hclean : CleanRun (runCalls calls script)) :
    accepted (runCalls calls script) <+:
      (keptFrames (runCalls calls script)).flatMap Frame.wire ∧
    ∃ decoded cut,
      readFrames (accepted (runCalls calls script)) = (decoded, cut, none) ∧
      decoded <+: keptFrames (runCalls calls script) ∧
      ((∀ record, record ∈ runCalls calls script → record.Completed) →
        decoded = keptFrames (runCalls calls script) ∧ cut = []) := by
  obtain ⟨whole, cut, hframed⟩ := framedAs_runCalls calls script hclean
  have hread : readFrames (accepted (runCalls calls script)) = (whole, cut, none) := by
    rw [hframed.bytes]
    refine readFrames_wire hframed.fits ?_
    rcases hframed.kept with ⟨hcut, _⟩ | ⟨f, hf, _, hpre, hne⟩
    · exact Or.inl hcut
    · exact Or.inr ⟨f, hf, hpre, hne⟩
  refine ⟨?_, whole, cut, hread, ?_, ?_⟩
  · rw [hframed.bytes]
    rcases hframed.kept with ⟨hcut, hkept⟩ | ⟨f, _, hkept, hpre, _⟩
    · simp [hcut, hkept]
    · rw [hkept, List.flatMap_append]
      simpa using (List.prefix_append_right_inj (whole.flatMap Frame.wire)).mpr hpre
  · rcases hframed.kept with ⟨_, hkept⟩ | ⟨f, _, hkept, _, _⟩
    · simp [hkept]
    · rw [hkept]
      exact List.prefix_append _ _
  · intro hall
    obtain ⟨hcut, hkept⟩ := hframed.completed hall
    exact ⟨hkept.symm, hcut⟩

end Runs

/-- The first frame is dropped whole, the others go out in pieces. -/
theorem framing_integrity_pieces :
    accepted (runCalls [.audio [7, 8], .audio [9], .eos]
        [.eagain true, .accept 2, .eintr, .accept 1, .accept 0, .eagain true, .accept 4]) =
      [0, 0, 0, 2, 2, 9, 0, 0, 0, 1, 3] ∧
    ∃ decoded cut,
      readFrames (accepted (runCalls [.audio [7, 8], .audio [9], .eos]
        [.eagain true, .accept 2, .eintr, .accept 1, .accept 0, .eagain true, .accept 4])) =
        (decoded, cut, none) ∧
      decoded <+: keptFrames (runCalls [.audio [7, 8], .audio [9], .eos]
        [.eagain true, .accept 2, .eintr, .accept 1, .accept 0, .eagain true, .accept 4]) := by
  have hclean : CleanRun (runCalls [.audio [7, 8], .audio [9], .eos]
      [.eagain true, .accept 2, .eintr, .accept 1, .accept 0, .eagain true, .accept 4]) := by
    refine ⟨?_, nofun, ?_, nofun, trivial, nofun, trivial⟩
    · show EagainOnlyFirst _
      decide
    · show EagainOnlyFirst _
      decide
  obtain ⟨_, decoded, cut, hread, hpre, _⟩ := framing_integrity _ _ hclean
  exact ⟨by decide, decoded, cut, hread, hpre⟩

/-- The socket runs full after the header of an AUDIO frame: the frame is counted
as dropped, its header stays, and the peer takes the first bytes of EOS for its
payload. -/
theorem framing_broken_by_drop :
    (runCalls [.audio [7, 8], .eos] [.accept 4, .eagain true, .accept 4]).map
        (fun record => record.result.dropped) = [1, 0] ∧
    accepted (runCalls [.audio [7, 8], .eos] [.accept 4, .eagain true, .accept 4]) =
      [0, 0, 0, 3, 2, 0, 0, 0, 1, 3] ∧
    keptFrames (runCalls [.audio [7, 8], .eos] [.accept 4, .eagain true, .accept 4]) =
      [⟨frameEos, []⟩] ∧
    ¬ accepted (runCalls [.audio [7, 8], .eos] [.accept 4, .eagain true, .accept 4]) <+:
      (keptFrames (runCalls [.audio [7, 8], .eos]
        [.accept 4, .eagain true, .accept 4])).flatMap Frame.wire ∧
    readFrames (accepted (runCalls [.audio [7, 8], .eos] [.accept 4, .eagain true, .accept 4])) =
      ([⟨frameAudio, [0, 0]⟩], [0, 1, 3], none) := by
  decide

end Mrcp
end Sandroid
