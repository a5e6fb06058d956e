import Sandroid.Mrcp.RtpPath

/-!
# Malformed datagrams

`drain_rtp` skips a datagram that `parse_rtp` rejects.  Two kinds of malformed datagrams get
past that: an empty one ends the loop, as if the socket were closed, and an odd payload is
noticed by the byte swap only, after the jitter buffer has taken it, and outside the `try`.

`malformed_skipped_iff`: the malformed datagrams of a turn are skipped exactly when each of
them is rejected by `parse_rtp` or comes too late for the jitter buffer.
-/

namespace Sandroid
namespace Mrcp

open Lib

/-- What `sock_recv` returns of a datagram. -/
def received (datagram : Bytes) : Bytes := datagram.take 4096

/-- An RTP packet with an L16 payload. -/
def wellFormed (datagram : Bytes) : Bool :=
  match parseRtp (received datagram) with
  | .ok packet => packet.payload.length % 2 = 0
  | .error _ => false

def packetOf (datagram : Bytes) : Option RtpPacket :=
  (parseRtp (received datagram)).toOption

/-- The state of `drain_rtp` after the datagrams: the jitter buffer, the PCM, and if it
waits for more. -/
def drained (capacity : Nat) (datagrams : List Bytes) : JitterBuffer × Bytes × Bool :=
  drainRtp { capacity := capacity } [] datagrams

/-- The buffer after the well-formed ones among the datagrams. -/
def bufferAfter (capacity : Nat) (datagrams : List Bytes) : JitterBuffer :=
  (JitterBuffer.pushAll { capacity := capacity }
    ((datagrams.filter wellFormed).filterMap packetOf)).2

/-- The buffer has passed the number of the packet. -/
def Late (buffer : JitterBuffer) (packet : RtpPacket) : Prop :=
  ∃ next, buffer.nextSeq = some next ∧ seqLess packet.sequence next = true

/-- Malformed datagrams do nothing: the collection gets as far without them, each leaves the
buffer and the PCM as they are, and the PCM at the end is that of the others. -/
structure MalformedSkipped (capacity : Nat) (datagrams : List Bytes) : Prop where
  collected : ∃ pcm, collectRtp capacity datagrams = some pcm ∧
    collectRtp capacity (datagrams.filter wellFormed) = some pcm
  goesOn : (drained capacity datagrams).2.2 = true
  skipped : ∀ before datagram after, datagrams = before ++ datagram :: after →
    wellFormed datagram = false →
      drained capacity (before ++ [datagram]) = drained capacity before

/-- A datagram that is rejected by `parse_rtp`, or whose packet comes too late. -/
structure TurnedAway (buffer : JitterBuffer) (datagram : Bytes) : Prop where
  nonempty : received datagram ≠ []
  late : ∀ packet, parseRtp (received datagram) = .ok packet → Late buffer packet

/-- No payload that is held is odd. -/
def EvenHeld (buffered : Dict (BitVec 16) Bytes) : Prop :=
  ∀ s payload, buffered.get? s = some payload → payload.length % 2 = 0

section Parse

theorem parseRtp_nil (packet : RtpPacket) : parseRtp [] ≠ .ok packet :=
  fun h => by cases h

/-- A packet has as many bytes as its header says, and at least twelve. -/
theorem parseRtp_eq_ok {raw : Bytes} {packet : RtpPacket} (h : parseRtp raw = .ok packet) :
    ∃ byte0 rest, raw = byte0 :: rest ∧ byte0.toNat / 64 = 2 ∧
      12 + byte0.toNat % 16 * 4 ≤ raw.length ∧
      packet.payload = raw.drop (12 + byte0.toNat % 16 * 4) := by
  unfold parseRtp at h
  split at h
  · simp only at h
    split_ifs at h with hversion hcsrc
    cases h
    exact ⟨_, _, rfl, not_not.mp hversion, not_lt.mp hcsrc, rfl⟩
  · cases h

theorem parseRtp_ok {byte0 : UInt8} {rest : Bytes} (hversion : byte0.toNat / 64 = 2)
    (hcsrc : 12 + byte0.toNat % 16 * 4 ≤ (byte0 :: rest).length) :
    ∃ packet, parseRtp (byte0 :: rest) = .ok packet := by
  rcases rest with _ | ⟨b₁, _ | ⟨b₂, _ | ⟨b₃, _ | ⟨b₄, _ | ⟨b₅, rest⟩⟩⟩⟩⟩
  all_goals try (simp only [List.length_cons, List.length_nil] at hcsrc; omega)
  rcases rest with _ | ⟨b₆, _ | ⟨b₇, _ | ⟨b₈, _ | ⟨b₉, _ | ⟨b₁₀, _ | ⟨b₁₁, rest⟩⟩⟩⟩⟩⟩
  all_goals try (simp only [List.length_cons, List.length_nil] at hcsrc; omega)
  rw [parseRtp, if_neg (not_not.mpr hversion), if_neg (not_lt.mpr hcsrc)]
  exact ⟨_, rfl⟩

/-- Well formed is: version 2, a complete CSRC list and an even payload. -/
theorem wellFormed_iff (datagram : Bytes) :
    wellFormed datagram = true ↔
      ∃ byte0 rest, received datagram = byte0 :: rest ∧ byte0.toNat / 64 = 2 ∧
        12 + byte0.toNat % 16 * 4 ≤ (received datagram).length ∧
        (received datagram).length % 2 = 0 := by
  rw [wellFormed]
  constructor
  · intro h
    split at h
    · rename_i packet hparse
      obtain ⟨byte0, rest, hraw, hversion, hcsrc, hpayload⟩ := parseRtp_eq_ok hparse
      rw [decide_eq_true_eq, hpayload, List.length_drop] at h
      exact ⟨byte0, rest, hraw, hversion, hcsrc, by omega⟩
    · cases h
  · rintro ⟨byte0, rest, hraw, hversion, hcsrc, heven⟩
    rw [hraw] at hcsrc
    obtain ⟨packet, hparse⟩ := parseRtp_ok hversion hcsrc
    obtain ⟨byte0', rest', hraw', -, hcsrc', hpayload⟩ := parseRtp_eq_ok hparse
    rw [hraw] at heven ⊢
    simp only [hparse, decide_eq_true_eq, hpayload, List.length_drop]
    omega

theorem wellFormed_eq_true {datagram : Bytes} (h : wellFormed datagram = true) :
    ∃ packet, parseRtp (received datagram) = .ok packet ∧ packet.payload.length % 2 = 0 := by
  rw [wellFormed] at h
  split at h
  · rename_i packet hparse
    exact ⟨packet, hparse, of_decide_eq_true h⟩
  · cases h

theorem wellFormed_eq_false {datagram : Bytes} (h : wellFormed datagram = false)
    {packet : RtpPacket} (hparse : parseRtp (received datagram) = .ok packet) :
    packet.payload.length % 2 ≠ 0 := by
  simpa [wellFormed, hparse] using h

end Parse

section Buffer

namespace JitterBuffer

variable {fuel capacity : Nat} {next : BitVec 16} {d : Dict (BitVec 16) Bytes}

/-- What is drained has been held, and what is held afterwards too. -/
theorem drain_from (fuel : Nat) (next : BitVec 16) (d : Dict (BitVec 16) Bytes) :
    (∀ payload ∈ (drain fuel next d).emitted, ∃ s, d.get? s = some payload) ∧
      ∀ s payload, (drain fuel next d).buffered.get? s = some payload →
        d.get? s = some payload := by
  induction fuel generalizing next d with
  | zero => exact ⟨fun payload h => absurd h List.not_mem_nil, fun s payload h => h⟩
  | succ fuel ih =>
      cases hget : d.get? next with
      | none =>
          simp only [drain, hget]
          exact ⟨fun payload h => absurd h List.not_mem_nil, fun s payload h => h⟩
      | some first =>
          obtain ⟨hemitted, hheld⟩ := ih (next + 1) (d.erase next)
          have herase : ∀ {s payload}, (d.erase next).get? s = some payload →
              d.get? s = some payload := by
            intro s payload h
            rw [Dict.get?_erase] at h
            split_ifs at h
            exact h
          simp only [drain, hget, List.mem_cons]
          refine ⟨?_, fun s payload h => herase (hheld s payload h)⟩
          rintro payload (rfl | h)
          · exact ⟨next, hget⟩
          · obtain ⟨s, hs⟩ := hemitted payload h
            exact ⟨s, herase hs⟩

/-- Nothing is lost: what is held is drained or still held. -/
theorem drain_keeps {s : BitVec 16} {payload : Bytes} (h : d.get? s = some payload) :
    payload ∈ (drain fuel next d).emitted ∨
      (drain fuel next d).buffered.get? s = some payload := by
  induction fuel generalizing next d with
  | zero => exact Or.inr h
  | succ fuel ih =>
      cases hget : d.get? next with
      | none =>
          simp only [drain, hget]
          exact Or.inr h
      | some first =>
          simp only [drain, hget, List.mem_cons]
          by_cases hs : next = s
          · rw [hs, h] at hget
            exact Or.inl (Or.inl (Option.some.inj hget))
          · have herase : (d.erase next).get? s = some payload := by
              rw [Dict.get?_erase, if_neg hs, h]
            rcases @ih (next + 1) _ herase with hmem | hheld
            · exact Or.inl (Or.inr hmem)
            · exact Or.inr hheld

theorem skipGap_from (capacity : Nat) (next : BitVec 16) (d : Dict (BitVec 16) Bytes) :
    (∀ payload ∈ (skipGap capacity next d).emitted, ∃ s, d.get? s = some payload) ∧
      ∀ s payload, (skipGap capacity next d).buffered.get? s = some payload →
        d.get? s = some payload := by
  rw [skipGap]
  split_ifs
  · split
    · exact ⟨fun payload h => absurd h List.not_mem_nil, fun s payload h => h⟩
    · exact drain_from _ _ _
  · exact ⟨fun payload h => absurd h List.not_mem_nil, fun s payload h => h⟩

theorem skipGap_keeps {s : BitVec 16} {payload : Bytes} (h : d.get? s = some payload) :
    payload ∈ (skipGap capacity next d).emitted ∨
      (skipGap capacity next d).buffered.get? s = some payload := by
  rw [skipGap]
  split_ifs
  · split
    · exact Or.inr h
    · exact drain_keeps h
  · exact Or.inr h

variable {b : JitterBuffer} {packet : RtpPacket}

/-- A late packet is dropped without a trace. -/
theorem push_late (h : Late b packet) : b.push packet = ([], b) := by
  obtain ⟨next, hnext, hless⟩ := h
  simp only [push, hnext, Option.getD_some, if_pos hless]
  rw [← hnext]

/-- A packet that is in time is passed on or held. -/
theorem push_in_time (h : ¬ Late b packet) :
    packet.payload ∈ (b.push packet).1 ∨
      (b.push packet).2.buffered.get? packet.sequence = some packet.payload := by
  have hless : ¬ seqLess packet.sequence (b.nextSeq.getD packet.sequence) = true := by
    intro hless
    cases hnext : b.nextSeq with
    | none =>
        rw [hnext, Option.getD_none, seqLess, decide_eq_true_eq] at hless
        simp [seqDistance, distance] at hless
    | some next =>
        rw [hnext] at hless
        exact h ⟨next, hnext, hless⟩
  simp only [push, if_neg hless, List.mem_append]
  have hset := Dict.get?_set_self b.buffered packet.sequence packet.payload
  rcases @drain_keeps (b.buffered.set packet.sequence packet.payload).size
    (b.nextSeq.getD packet.sequence) _ _ _ hset with hmem | hheld
  · exact Or.inl (Or.inl hmem)
  · rcases @skipGap_keeps b.capacity _ _ _ _ hheld with hmem | hheld
    · exact Or.inl (Or.inr hmem)
    · exact Or.inr hheld

/-- Even payloads stay even. -/
theorem push_even (hheld : EvenHeld b.buffered) (heven : packet.payload.length % 2 = 0) :
    (∀ payload ∈ (b.push packet).1, payload.length % 2 = 0) ∧
      EvenHeld (b.push packet).2.buffered := by
  have hset : EvenHeld (b.buffered.set packet.sequence packet.payload) := by
    intro s payload h
    rw [Dict.get?_set] at h
    split_ifs at h
    · cases h
      exact heven
    · exact hheld s payload h
  rw [push]
  split_ifs
  · exact ⟨fun payload h => absurd h List.not_mem_nil, hheld⟩
  · simp only [List.mem_append]
    obtain ⟨hdrained, hleft⟩ := drain_from (b.buffered.set packet.sequence packet.payload).size
      (b.nextSeq.getD packet.sequence) (b.buffered.set packet.sequence packet.payload)
    obtain ⟨hskipped, hrest⟩ := skipGap_from b.capacity
      (drain (b.buffered.set packet.sequence packet.payload).size
        (b.nextSeq.getD packet.sequence) (b.buffered.set packet.sequence packet.payload)).next
      (drain (b.buffered.set packet.sequence packet.payload).size
        (b.nextSeq.getD packet.sequence) (b.buffered.set packet.sequence packet.payload)).buffered
    refine ⟨?_, fun s payload h => hset s payload (hleft s payload (hrest s payload h))⟩
    rintro payload (h | h)
    · obtain ⟨s, hs⟩ := hdrained payload h
      exact hset s payload hs
    · obtain ⟨s, hs⟩ := hskipped payload h
      exact hset s payload (hleft s payload hs)

theorem flush_even (hheld : EvenHeld b.buffered) :
    ∀ payload ∈ b.flush.1, payload.length % 2 = 0 := by
  rw [flush]
  split_ifs
  · exact fun payload h => absurd h List.not_mem_nil
  · intro payload h
    obtain ⟨s, -, hs⟩ := List.mem_filterMap.mp h
    exact hheld s payload hs

end JitterBuffer

end Buffer

section Run

variable {capacity : Nat} {datagrams : List Bytes} {datagram : Bytes}

theorem drainRtp_append (jitter : JitterBuffer) (pcm : Bytes) (xs ys : List Bytes) :
    drainRtp jitter pcm (xs ++ ys) =
      if (drainRtp jitter pcm xs).2.2 = true then
        drainRtp (drainRtp jitter pcm xs).1 (drainRtp jitter pcm xs).2.1 ys
      else
        drainRtp jitter pcm xs := by
  induction xs generalizing jitter pcm with
  | nil => rfl
  | cons x xs ih =>
      rw [List.cons_append]
      by_cases hempty : x.take 4096 = []
      · simp only [drainRtp, if_pos hempty, Bool.false_eq_true, if_false]
      · simp only [drainRtp, if_neg hempty]
        cases parseRtp (x.take 4096) with
        | error e => exact ih jitter pcm
        | ok packet =>
            simp only
            rcases extendPcm pcm (jitter.push packet).1 with ⟨pcm', _ | _⟩
            · simp only [Bool.false_eq_true, if_false]
            · exact ih (jitter.push packet).2 pcm'

theorem drained_append (capacity : Nat) (xs ys : List Bytes) :
    drained capacity (xs ++ ys) =
      if (drained capacity xs).2.2 = true then
        drainRtp (drained capacity xs).1 (drained capacity xs).2.1 ys
      else
        drained capacity xs :=
  drainRtp_append { capacity := capacity } [] xs ys

theorem pushAll_snoc (b : JitterBuffer) (packets : List RtpPacket) (packet : RtpPacket) :
    (b.pushAll (packets ++ [packet])).2 = ((b.pushAll packets).2.push packet).2 := by
  induction packets generalizing b with
  | nil => rfl
  | cons p packets ih => exact ih (b.push p).2

/-- The collection is where the well-formed datagrams take it, and waits for more. -/
structure OnCourse (capacity : Nat) (datagrams : List Bytes) (pcm : Bytes) : Prop where
  here : drained capacity datagrams = (bufferAfter capacity datagrams, pcm, true)
  there : drained capacity (datagrams.filter wellFormed) =
    (bufferAfter capacity datagrams, pcm, true)
  even : EvenHeld (bufferAfter capacity datagrams).buffered

theorem OnCourse.nil : OnCourse capacity [] [] where
  here := rfl
  there := rfl
  even := by
    intro s payload h
    cases h

theorem bufferAfter_snoc {packet : RtpPacket} (hwell : wellFormed datagram = true)
    (hparse : parseRtp (received datagram) = .ok packet) :
    bufferAfter capacity (datagrams ++ [datagram]) =
      ((bufferAfter capacity datagrams).push packet).2 := by
  have hpacket : packetOf datagram = some packet := by
    rw [packetOf, hparse]
    rfl
  rw [bufferAfter, List.filter_append, List.filter_cons_of_pos hwell, List.filter_nil,
    List.filterMap_append, List.filterMap_cons_some hpacket, List.filterMap_nil, pushAll_snoc]
  rfl

theorem bufferAfter_snoc_malformed (hmalformed : wellFormed datagram = false) :
    bufferAfter capacity (datagrams ++ [datagram]) = bufferAfter capacity datagrams := by
  have hnot : ¬ wellFormed datagram = true := by
    rw [hmalformed]
    exact Bool.false_ne_true
  rw [bufferAfter, List.filter_append, List.filter_cons_of_neg hnot, List.filter_nil,
    List.append_nil]
  rfl

/-- One packet with an even payload that arrives at a buffer with even payloads. -/
theorem drainRtp_even {b : JitterBuffer} {pcm : Bytes} {packet : RtpPacket}
    (hheld : EvenHeld b.buffered) (hparse : parseRtp (received datagram) = .ok packet)
    (heven : packet.payload.length % 2 = 0) :
    drainRtp b pcm [datagram] =
      ((b.push packet).2, pcm ++ ((b.push packet).1.map byteswap).flatten, true) := by
  have hne : received datagram ≠ [] := by
    intro hnil
    rw [hnil] at hparse
    exact parseRtp_nil packet hparse
  have hpcm := extendPcm_even pcm (JitterBuffer.push_even hheld heven).1
  rw [received] at hparse hne
  simp only [drainRtp, if_neg hne, hparse, hpcm]

/-- A well-formed datagram takes both collections one packet further. -/
theorem OnCourse.wellFormed {pcm : Bytes} (h : OnCourse capacity datagrams pcm)
    (hwell : wellFormed datagram = true) :
    ∃ pcm', OnCourse capacity (datagrams ++ [datagram]) pcm' := by
  obtain ⟨packet, hparse, heven⟩ := wellFormed_eq_true hwell
  have hstep := @drainRtp_even _ _ pcm _ h.even hparse heven
  have hbuffer := @bufferAfter_snoc capacity datagrams _ _ hwell hparse
  refine ⟨pcm ++ (((bufferAfter capacity datagrams).push packet).1.map byteswap).flatten,
    ?here, ?there, ?even⟩
  case here =>
    rw [drained_append, if_pos (by rw [h.here]), h.here, hbuffer]
    exact hstep
  case there =>
    rw [List.filter_append, List.filter_cons_of_pos hwell, List.filter_nil,
      drained_append, if_pos (by rw [h.there]), h.there, hbuffer]
    exact hstep
  case even =>
    rw [hbuffer]
    exact (JitterBuffer.push_even h.even heven).2

/-- A malformed datagram that changes nothing keeps the collection on course. -/
theorem OnCourse.malformed {pcm : Bytes} (h : OnCourse capacity datagrams pcm)
    (hmalformed : Mrcp.wellFormed datagram = false)
    (hsame : drained capacity (datagrams ++ [datagram]) = drained capacity datagrams) :
    OnCourse capacity (datagrams ++ [datagram]) pcm := by
  have hbuffer := @bufferAfter_snoc_malformed capacity datagrams _ hmalformed
  have hnot : ¬ Mrcp.wellFormed datagram = true := by
    rw [hmalformed]
    exact Bool.false_ne_true
  refine ⟨?here, ?there, ?even⟩
  case here => rw [hsame, hbuffer, h.here]
  case there =>
    rw [List.filter_append, List.filter_cons_of_neg hnot, List.filter_nil, List.append_nil,
      hbuffer, h.there]
  case even =>
    rw [hbuffer]
    exact h.even

/-- If all malformed datagrams change nothing, the collection is on course at the end. -/
theorem onCourse_of_skipped (hskipped : ∀ before datagram after,
      datagrams = before ++ datagram :: after → wellFormed datagram = false →
      ∀ pcm, OnCourse capacity before pcm →
        drained capacity (before ++ [datagram]) = drained capacity before) :
    ∃ pcm, OnCourse capacity datagrams pcm := by
  induction datagrams using List.reverseRecOn with
  | nil => exact ⟨[], .nil⟩
  | append_singleton datagrams datagram ih =>
      obtain ⟨pcm, hpcm⟩ := ih (by
        rintro before d after rfl
        exact hskipped before d (after ++ [datagram]) (by simp))
      cases hwell : wellFormed datagram with
      | true => exact hpcm.wellFormed hwell
      | false =>
          exact ⟨pcm, hpcm.malformed hwell (hskipped datagrams datagram [] rfl hwell pcm hpcm)⟩

/-- A datagram that is turned away changes nothing. -/
theorem OnCourse.skips {pcm : Bytes} (h : OnCourse capacity datagrams pcm)
    (haway : TurnedAway (bufferAfter capacity datagrams) datagram) :
    drained capacity (datagrams ++ [datagram]) = drained capacity datagrams := by
  rw [drained_append, if_pos (by rw [h.here]), h.here]
  have hne := haway.nonempty
  cases hparse : parseRtp (received datagram) with
  | error e =>
      rw [received] at hparse hne
      simp only [drainRtp, if_neg hne, hparse]
  | ok packet =>
      have hpush := JitterBuffer.push_late (haway.late packet hparse)
      rw [received] at hparse hne
      simp only [drainRtp, if_neg hne, hparse, hpush, extendPcm]

theorem extendPcm_odd {payloads : List Bytes} {payload : Bytes} (hmem : payload ∈ payloads)
    (hodd : payload.length % 2 ≠ 0) (pcm : Bytes) : (extendPcm pcm payloads).2 = false := by
  induction payloads generalizing pcm with
  | nil => cases hmem
  | cons first payloads ih =>
      rw [extendPcm, l16BeToPcm16Le]
      split_ifs with hfirst
      · rfl
      · rcases List.mem_cons.mp hmem with rfl | hmem
        · exact absurd hodd hfirst
        · exact ih hmem _

/-- A malformed datagram that changes nothing has been turned away. -/
theorem OnCourse.turnedAway {pcm : Bytes} (h : OnCourse capacity datagrams pcm)
    (hmalformed : Mrcp.wellFormed datagram = false)
    (hsame : drained capacity (datagrams ++ [datagram]) = drained capacity datagrams) :
    TurnedAway (bufferAfter capacity datagrams) datagram := by
  rw [drained_append, if_pos (by rw [h.here]), h.here] at hsame
  refine ⟨?nonempty, ?late⟩
  case nonempty =>
    intro hnil
    rw [received] at hnil
    simp only [drainRtp, if_pos hnil, Prod.mk.injEq, Bool.false_eq_true, and_false] at hsame
  case late =>
    intro packet hparse
    have hodd := wellFormed_eq_false hmalformed hparse
    have hne : received datagram ≠ [] := by
      intro hnil
      rw [hnil] at hparse
      exact parseRtp_nil packet hparse
    by_contra hnot
    rw [received] at hparse hne
    simp only [drainRtp, if_neg hne, hparse] at hsame
    rcases JitterBuffer.push_in_time hnot with hmem | hheld
    · have hended := extendPcm_odd hmem hodd pcm
      split at hsame
      · rename_i hextend
        rw [hextend] at hended
        cases hended
      · rw [Prod.mk.injEq, Prod.mk.injEq] at hsame
        cases hsame.2.2
    · have hbuffer : ((bufferAfter capacity datagrams).push packet).2 =
          bufferAfter capacity datagrams := by
        split at hsame
        · exact congrArg Prod.fst hsame
        · exact congrArg Prod.fst hsame
      rw [hbuffer] at hheld
      exact hodd (h.even _ _ hheld)

theorem OnCourse.collected {pcm : Bytes} (h : OnCourse capacity datagrams pcm) :
    ∃ pcm, collectRtp capacity datagrams = some pcm ∧
      collectRtp capacity (datagrams.filter Mrcp.wellFormed) = some pcm := by
  have hflush := extendPcm_even pcm (JitterBuffer.flush_even h.even)
  refine ⟨pcm ++ ((bufferAfter capacity datagrams).flush.1.map byteswap).flatten, ?_, ?_⟩
  · have hhere := h.here
    rw [drained] at hhere
    simp only [collectRtp, hhere, hflush]
  · have hthere := h.there
    rw [drained] at hthere
    simp only [collectRtp, hthere, hflush]

/-- **The malformed datagrams are skipped exactly when all of them are turned away**: none is
empty, and the packets that `parse_rtp` makes of the others come too late for the buffer. -/
theorem malformed_skipped_iff (capacity : Nat) (datagrams : List Bytes) :
    MalformedSkipped capacity datagrams ↔
      ∀ before datagram after, datagrams = before ++ datagram :: after →
        wellFormed datagram = false → TurnedAway (bufferAfter capacity before) datagram := by
  constructor
  · rintro ⟨-, -, hskipped⟩ before datagram after rfl hmalformed
    obtain ⟨pcm, hpcm⟩ : ∃ pcm, OnCourse capacity before pcm := by
      refine onCourse_of_skipped ?_
      rintro earlier d later rfl hd - -
      exact hskipped earlier d (later ++ datagram :: after) (by simp) hd
    exact hpcm.turnedAway hmalformed (hskipped before datagram after rfl hmalformed)
  · intro haway
    have hskips : ∀ before datagram after, datagrams = before ++ datagram :: after →
        wellFormed datagram = false → ∀ pcm, OnCourse capacity before pcm →
          drained capacity (before ++ [datagram]) = drained capacity before :=
      fun before datagram after hsplit hmalformed pcm hpcm =>
        hpcm.skips (haway before datagram after hsplit hmalformed)
    obtain ⟨pcm, hpcm⟩ := onCourse_of_skipped hskips
    refine ⟨hpcm.collected, by rw [hpcm.here], ?_⟩
    rintro before datagram after rfl hmalformed
    obtain ⟨pcm', hbefore⟩ : ∃ pcm, OnCourse capacity before pcm := by
      refine onCourse_of_skipped ?_
      rintro earlier d later rfl hd
      exact hskips earlier d (later ++ datagram :: after) (by simp) hd
    exact hskips before datagram after rfl hmalformed pcm' hbefore

end Run

/-- A packet with a sample of its own, one with half a sample, and an empty datagram. -/
def sampleDatagram (seq : Nat) : Bytes :=
  packHeader 0x80 96 seq 0 7 ++ [UInt8.ofNat seq, 1]

def oddDatagram (seq : Nat) : Bytes :=
  packHeader 0x80 96 seq 0 7 ++ [UInt8.ofNat seq]

/-- A datagram of two bytes between two packets is skipped. -/
theorem malformed_skipped_short :
    MalformedSkipped 8 [sampleDatagram 0, [0x80, 0x60], sampleDatagram 1] := by
  refine (malformed_skipped_iff 8 _).mpr ?_
  intro before datagram after hsplit hmalformed
  have hmem : datagram ∈ [sampleDatagram 0, [0x80, 0x60], sampleDatagram 1] := by
    rw [hsplit]
    exact List.mem_append_right before List.mem_cons_self
  have hshort : datagram = [0x80, 0x60] := by
    simp only [List.mem_cons, List.not_mem_nil, or_false] at hmem
    rcases hmem with rfl | rfl | rfl
    · exact absurd hmalformed (by decide)
    · rfl
    · exact absurd hmalformed (by decide)
  subst hshort
  refine ⟨by decide, ?_⟩
  intro packet hparse
  cases hparse

/-- An empty datagram and an odd payload end the collection, with a packet held back; an odd
payload that is held itself makes it fail. -/
theorem malformed_datagrams_not_skipped :
    collectRtp 8 [sampleDatagram 0, sampleDatagram 2, [], sampleDatagram 1] = some [1, 0] ∧
    collectRtp 8 [sampleDatagram 0, sampleDatagram 2, oddDatagram 1] = some [1, 0] ∧
    collectRtp 8 [sampleDatagram 0, oddDatagram 2] = none ∧
    collectRtp 8 [sampleDatagram 0, sampleDatagram 2, sampleDatagram 1] =
      some [1, 0, 1, 1, 1, 2] ∧
    ¬ MalformedSkipped 8 [sampleDatagram 0, sampleDatagram 2, [], sampleDatagram 1] ∧
    ¬ MalformedSkipped 8 [sampleDatagram 0, sampleDatagram 2, oddDatagram 1] ∧
    ¬ MalformedSkipped 8 [sampleDatagram 0, oddDatagram 2] := by
  refine ⟨by decide +kernel, by decide +kernel, by decide +kernel, by decide +kernel, ?_, ?_, ?_⟩
  · exact fun h => absurd h.goesOn (by decide +kernel)
  · exact fun h => absurd h.goesOn (by decide +kernel)
  · rintro ⟨⟨pcm, hnone, -⟩, -, -⟩
    rw [show collectRtp 8 [sampleDatagram 0, oddDatagram 2] = none by decide +kernel] at hnone
    cases hnone

end Mrcp
end Sandroid
