import Sandroid.Mrcp.DatagramSkipping
import Sandroid.Mrcp.RtpPath

/-!
# RTP over a network that loses, repeats and reorders

The datagrams of one `_send_rtp` as they come out of a network that gives no guarantee, and
what the server's jitter buffer makes of them.

`lossy_audio`: the PCM that is collected consists of chunks of the PCM that was sent, each
at most once and in order.
-/

namespace Sandroid
namespace Mrcp

open Lib

namespace Tracked

variable {x : Tracked} {stream : RtpStream} {n i capacity : Nat} {sent : List (Nat × Bytes)}

/-- What has been accepted are packets among the first `n` of the stream, each under its own
number. -/
def Honest (stream : RtpStream) (arrived : List Nat) (n : Nat) (x : Tracked) : Prop :=
  ∀ e ∈ x.accepted, e.1 < n ∧ e.1 ∈ arrived ∧ e.2 = (stream.packet e.1).payload

/-- The cursor is not beyond the stream. -/
theorem Honest.ext_le {arrived : List Nat} (h : x.Honest stream arrived n)
    (hinv : x.Inv capacity sent) (hused : x.buffer.nextSeq ≠ none) : x.ext ≤ n := by
  obtain ⟨next, hnext⟩ := Option.ne_none_iff_exists'.mp hused
  obtain ⟨-, m, payload, hext, hmem⟩ := hinv.cursor next hnext
  obtain ⟨held, -, -, hcontent, -⟩ := hinv.flush
  have hlatest := (hcontent m payload).mp (List.mem_append_left held hmem)
  have haccepted : m ∈ x.accepted.map Prod.fst := exists_latest_iff.mp ⟨payload, hlatest⟩
  obtain ⟨e, he, rfl⟩ := List.mem_map.mp haccepted
  rw [hext]
  exact (h e he).1

/-- Sequence numbers that do not wrap are compared as numbers. -/
theorem seqLess_of_lt {k : Nat} (hstart : stream.start = 0) (hki : i < k)
    (hk : k < 2 ^ 15) : seqLess (stream.packet i).sequence (BitVec.ofNat 16 k) = true := by
  have hsequence : (stream.packet i).sequence = BitVec.ofNat 16 i := by
    rw [stream.numbered, hstart, zero_add]
  have hwrap : BitVec.ofNat 16 i = BitVec.ofNat 16 (k + (2 ^ 16 - (k - i))) := by
    have hnumber : k + (2 ^ 16 - (k - i)) = i + 2 ^ 16 := by omega
    rw [hnumber, ofNat_wrap]
  rw [seqLess, hsequence, hwrap, seqDistance, distance_ofNat (by omega)]
  exact decide_eq_true (by omega)

theorem Honest.push {arrived : List Nat} (h : x.Honest stream arrived n)
    (hinv : x.Inv capacity sent) (hstart : stream.start = 0) (hn : n < 2 ^ 15) (hi : i < n)
    (harrived : i ∈ arrived) : (x.push (stream.packet i)).Honest stream arrived n := by
  have hsequence : (stream.packet i).sequence = BitVec.ofNat 16 i := by
    rw [stream.numbered, hstart, zero_add]
  have hmore : ∀ e ∈ x.accepted ++ [(i, (stream.packet i).payload)],
      e.1 < n ∧ e.1 ∈ arrived ∧ e.2 = (stream.packet e.1).payload := by
    intro e he
    rcases List.mem_append.mp he with he | he
    · exact h e he
    · rw [List.mem_singleton.mp he]
      exact ⟨hi, harrived, rfl⟩
  cases hnext : x.buffer.nextSeq with
  | none =>
      have hnumber : (stream.packet i).sequence.toNat +
          seqDistance (stream.packet i).sequence (stream.packet i).sequence = i := by
        rw [seqDistance, distance_self, Nat.add_zero, hsequence, BitVec.toNat_ofNat]
        exact Nat.mod_eq_of_lt (by omega)
      have hself : seqLess (stream.packet i).sequence (stream.packet i).sequence = false := by
        simp [seqLess]
      simp only [Honest, Tracked.push, hnext, Option.getD_none, if_true, hself, Bool.false_eq_true,
        if_false, hnumber]
      exact hmore
  | some next =>
      obtain ⟨rfl, -⟩ := hinv.cursor next hnext
      have hext := h.ext_le hinv (by simp [hnext])
      rcases Nat.lt_or_ge i x.ext with hlt | hge
      · have hlate := seqLess_of_lt hstart hlt (by omega)
        simp only [Honest, Tracked.push, hnext, Option.getD_some, reduceCtorEq, if_false, hlate,
          if_true]
        exact h
      · have hdistance : seqDistance (BitVec.ofNat 16 x.ext) (stream.packet i).sequence =
            i - x.ext := by
          have hahead : x.ext + (i - x.ext) = i := Nat.add_sub_cancel' hge
          rw [hsequence, ← hahead, seqDistance, distance_ofNat (by omega)]
          omega
        have hnear : seqLess (stream.packet i).sequence (BitVec.ofNat 16 x.ext) = false := by
          rw [seqLess, hdistance]
          exact decide_eq_false (by omega)
        have hnumber : x.ext + (i - x.ext) = i := Nat.add_sub_cancel' hge
        simp only [Honest, Tracked.push, hnext, Option.getD_some, reduceCtorEq, if_false, hnear,
          Bool.false_eq_true, hdistance, hnumber]
        exact hmore

theorem Honest.run {arrived : List Nat} (hstart : stream.start = 0) (hn : n < 2 ^ 15)
    (harrived : ∀ i ∈ arrived, i < n) (capacity : Nat) :
    (run capacity (arrived.map stream.packet)).Honest stream arrived n := by
  have hfold : ∀ (rest : List Nat) (x : Tracked) (sent : List (Nat × Bytes)),
      (∀ i ∈ rest, i ∈ arrived) → x.Inv capacity sent → x.Honest stream arrived n →
      ((rest.map stream.packet).foldl Tracked.push x).Honest stream arrived n := by
    intro rest
    induction rest with
    | nil => exact fun x sent _ _ h => h
    | cons i rest ih =>
        intro x sent hrest hinv h
        obtain ⟨more, hpush⟩ := hinv.push (stream.packet i)
        have hi := hrest i List.mem_cons_self
        exact ih _ _ (fun j hj => hrest j (List.mem_cons_of_mem i hj)) hpush
          (h.push hinv hstart hn (harrived i hi) hi)
  exact hfold arrived _ [] (fun i hi => hi) .new nofun

/-- What comes out of the buffer: payloads of packets that have arrived, each at most once
and in order. -/
theorem outputs_lossy {arrived : List Nat} (hstart : stream.start = 0) (hn : n < 2 ^ 15)
    (harrived : ∀ i ∈ arrived, i < n) (capacity : Nat) :
    ∃ kept : List Nat, kept.Pairwise (· < ·) ∧ (∀ i ∈ kept, i ∈ arrived) ∧
      JitterBuffer.outputs capacity (arrived.map stream.packet) =
        kept.map fun i => (stream.packet i).payload := by
  obtain ⟨items, houtputs, hsorted, hitems⟩ :=
    outputs_sorted capacity (arrived.map stream.packet)
  have hhonest : ∀ e ∈ items, e.1 ∈ arrived ∧ e.2 = (stream.packet e.1).payload := by
    intro e he
    have hlatest := (hitems e.1 e.2).mp he
    obtain ⟨before, after, hsplit, -⟩ := List.lookup_eq_some_iff.mp hlatest
    have hmem : (e.1, e.2) ∈ (Tracked.run capacity (arrived.map stream.packet)).accepted := by
      rw [← List.mem_reverse, hsplit]
      exact List.mem_append_right _ List.mem_cons_self
    exact (Honest.run hstart hn harrived capacity e hmem).2
  refine ⟨items.map Prod.fst, List.pairwise_map.mpr hsorted, ?_, ?_⟩
  · intro i hi
    obtain ⟨e, he, rfl⟩ := List.mem_map.mp hi
    exact (hhonest e he).1
  · rw [houtputs, List.map_map]
    exact List.map_congr_left fun e he => (hhonest e he).2

end Tracked

section Client

/-- `bytes_per_packet` of `_send_rtp`. -/
def bytesPerPacket (packetMs : Nat) : Nat := 16000 * packetMs / 1000 * 2

/-- Chunk `i` of the client's PCM. -/
def sentChunk (pcm16Le : Bytes) (packetMs i : Nat) : Bytes :=
  (pcm16Le.drop (i * bytesPerPacket packetMs)).take (bytesPerPacket packetMs)

/-- Datagram `i` of the client. -/
def sentDatagram (pcm16Le : Bytes) (ssrc : Int) (packetMs i : Nat) : Bytes :=
  rtpDatagram i (i * (16000 * packetMs / 1000)) ssrc (sentChunk pcm16Le packetMs i)

/-- The number of the datagrams. -/
def sentCount (pcm16Le : Bytes) (packetMs : Nat) : Nat :=
  (pcm16Le.length + bytesPerPacket packetMs - 1) / bytesPerPacket packetMs

variable {pcm16Le : Bytes} {ssrc : Int} {packetMs : Nat}

theorem sendRtp_eq (heven : pcm16Le.length % 2 = 0) (hms : 1 ≤ packetMs) :
    sendRtp pcm16Le ssrc packetMs = .ok ((List.range (sentCount pcm16Le packetMs)).map
      (sentDatagram pcm16Le ssrc packetMs)) := by
  rw [sendRtp, if_neg (by simp [heven]), if_neg (by omega)]
  rfl

theorem sentChunk_even (heven : pcm16Le.length % 2 = 0) (i : Nat) :
    (sentChunk pcm16Le packetMs i).length % 2 = 0 := by
  rw [sentChunk, bytesPerPacket, List.length_take, List.length_drop, ← Nat.mul_assoc]
  omega

/-- The packets behind the client's datagrams. -/
def sentStream (pcm16Le : Bytes) (ssrc : Int) (packetMs : Nat) : RtpStream where
  start := 0
  packet i :=
    { sequence := BitVec.ofNat 16 i
      timestamp := BitVec.ofNat 32 (i * (16000 * packetMs / 1000))
      ssrc := BitVec.ofInt 32 ssrc
      payloadType := 96
      marker := false
      payload := swapBytes (sentChunk pcm16Le packetMs i) }
  numbered _ := (zero_add _).symm

theorem parseRtp_sentDatagram (heven : pcm16Le.length % 2 = 0) (hms : packetMs ≤ 127) (i : Nat) :
    (sentDatagram pcm16Le ssrc packetMs i).length ≤ 4096 ∧
      parseRtp (sentDatagram pcm16Le ssrc packetMs i) =
        .ok ((sentStream pcm16Le ssrc packetMs).packet i) := by
  refine ⟨?_, parseRtp_rtpDatagram _ _ _ _⟩
  rw [sentDatagram, length_rtpDatagram _ _ _ (sentChunk_even heven i), sentChunk, List.length_take,
    bytesPerPacket]
  omega

theorem payload_sentStream (heven : pcm16Le.length % 2 = 0) (i : Nat) :
    ((sentStream pcm16Le ssrc packetMs).packet i).payload =
      byteswap (sentChunk pcm16Le packetMs i) :=
  swapBytes_eq_byteswap _ (sentChunk_even heven i)

/-- What is delivered are datagrams of the client, by number. -/
theorem exists_arrived {delivered : List Bytes}
    (hdelivered : ∀ d ∈ delivered, d ∈ (List.range (sentCount pcm16Le packetMs)).map
      (sentDatagram pcm16Le ssrc packetMs)) :
    ∃ arrived : List Nat, (∀ i ∈ arrived, i < sentCount pcm16Le packetMs) ∧
      delivered = arrived.map (sentDatagram pcm16Le ssrc packetMs) := by
  induction delivered with
  | nil => exact ⟨[], nofun, rfl⟩
  | cons d delivered ih =>
      obtain ⟨arrived, harrived, hmap⟩ := ih fun e he => hdelivered e (List.mem_cons_of_mem d he)
      obtain ⟨i, hi, rfl⟩ := List.mem_map.mp (hdelivered d List.mem_cons_self)
      exact ⟨i :: arrived, List.forall_mem_cons.mpr ⟨List.mem_range.mp hi, harrived⟩,
        by rw [hmap, List.map_cons]⟩

theorem wellFormed_sentDatagram (heven : pcm16Le.length % 2 = 0) (hms : packetMs ≤ 127) (i : Nat) :
    wellFormed (sentDatagram pcm16Le ssrc packetMs i) = true := by
  obtain ⟨hlength, hparse⟩ := @parseRtp_sentDatagram _ ssrc _ heven hms i
  rw [wellFormed, received, List.take_of_length_le hlength, hparse]
  simp only
  rw [payload_sentStream heven, length_byteswap]
  exact decide_eq_true (sentChunk_even heven i)

/-- `drain_rtp` does not end by itself on datagrams of the client. -/
theorem drained_sent (heven : pcm16Le.length % 2 = 0) (hms : packetMs ≤ 127) (capacity : Nat)
    (arrived : List Nat) :
    (drained capacity (arrived.map (sentDatagram pcm16Le ssrc packetMs))).2.2 = true := by
  have honCourse : ∃ pcm, OnCourse capacity
      (arrived.map (sentDatagram pcm16Le ssrc packetMs)) pcm := by
    induction arrived using List.reverseRecOn with
    | nil => exact ⟨[], .nil⟩
    | append_singleton arrived i ih =>
        obtain ⟨pcm, h⟩ := ih
        rw [List.map_append, List.map_singleton]
        exact h.wellFormed (wellFormed_sentDatagram heven hms i)
  obtain ⟨pcm, h⟩ := honCourse
  rw [h.here]

/-- **Audio from an unreliable network.**  Whatever of the client's datagrams is delivered, how
often and in what order: the PCM collected consists of chunks that have been sent, each at
most once and in order. -/
theorem lossy_audio (pcm16Le : Bytes) (heven : pcm16Le.length % 2 = 0) (ssrc : Int)
    (packetMs : Nat) (hms : 1 ≤ packetMs ∧ packetMs ≤ 127)
    (hshort : sentCount pcm16Le packetMs < 2 ^ 15) (datagrams : List Bytes)
    (hsend : sendRtp pcm16Le ssrc packetMs = .ok datagrams) (capacity : Nat)
    (delivered : List Bytes) (hdelivered : ∀ d ∈ delivered, d ∈ datagrams) :
    ∃ kept : List Nat, kept.Pairwise (· < ·) ∧ (∀ i ∈ kept, i < datagrams.length) ∧
      collectRtp capacity delivered =
        some (kept.map (sentChunk pcm16Le packetMs)).flatten := by
  rw [sendRtp_eq heven hms.1] at hsend
  cases hsend
  obtain ⟨arrived, harrived, rfl⟩ := exists_arrived hdelivered
  obtain ⟨kept, hsorted, hkept, houtputs⟩ :=
    @Tracked.outputs_lossy (sentStream pcm16Le ssrc packetMs) _ arrived rfl hshort harrived capacity
  refine ⟨kept, hsorted, fun i hi => ?_, ?_⟩
  · simpa using harrived i (hkept i hi)
  · rw [collectRtp_outputs fun i _ => parseRtp_sentDatagram heven hms.2 i, houtputs, List.map_map]
    · congr 2
      refine List.map_congr_left fun i _ => ?_
      rw [Function.comp_apply, payload_sentStream heven, byteswap_byteswap]
    · rw [houtputs]
      intro payload hpayload
      obtain ⟨i, -, rfl⟩ := List.mem_map.mp hpayload
      rw [payload_sentStream heven, length_byteswap]
      exact sentChunk_even heven i

end Client

end Mrcp
end Sandroid
