import Sandroid.Lib.Windows
import Sandroid.Mrcp.Reordering

/-!
# Audio over RTP

The client cuts PCM into L16 packets (`_send_rtp`), the server parses them, puts them in
order and swaps their bytes back (`_collect_rtp_until_sentinel`).

`collectRtp_sendRtp`: when the datagrams arrive in order and without loss, the server has
the client's PCM.
-/

namespace Sandroid
namespace Mrcp

open Lib

/-- `RtpParseError`, a `ValueError`. -/
inductive RtpParseError where
  /-- "RTP packet too short (...B)" -/
  | tooShort (length : Nat)
  /-- "unsupported RTP version ..." -/
  | version (version : Nat)
  /-- "truncated CSRC list" -/
  | truncatedCsrc
  /-- "L16 payload length must be even, got ..." -/
  | oddLength (length : Nat)
deriving DecidableEq, Repr

/-- `_RTP_HEADER.pack`. -/
def packHeader (byte0 byte1 seq ts ssrc : Nat) : Bytes :=
  UInt8.ofNat byte0 :: UInt8.ofNat byte1 :: (packU16 seq ++ packU32 ts ++ packU32 ssrc)

def parseRtp (raw : Bytes) : Except RtpParseError RtpPacket :=
  match raw with
  | byte0 :: byte1 :: s₀ :: s₁ :: t₀ :: t₁ :: t₂ :: t₃ :: r₀ :: r₁ :: r₂ :: r₃ :: _ =>
      let version := byte0.toNat / 64
      if version ≠ 2 then
        .error (.version version)
      else
        let payloadStart := 12 + byte0.toNat % 16 * 4
        if payloadStart > raw.length then
          .error .truncatedCsrc
        else
          .ok
            { sequence := BitVec.ofNat 16 (unpackU16 s₀ s₁)
              timestamp := BitVec.ofNat 32 (unpackU32 t₀ t₁ t₂ t₃)
              ssrc := BitVec.ofNat 32 (unpackU32 r₀ r₁ r₂ r₃)
              payloadType := byte1.toNat % 128
              marker := 128 ≤ byte1.toNat
              payload := raw.drop payloadStart }
  | _ => .error (.tooShort raw.length)

/-- `array.byteswap` of 16-bit items. -/
def byteswap : Bytes → Bytes
  | a :: b :: rest => b :: a :: byteswap rest
  | rest => rest

def l16BeToPcm16Le (payload : Bytes) : Except RtpParseError Bytes :=
  if payload.length % 2 ≠ 0 then .error (.oddLength payload.length) else .ok (byteswap payload)

/-- A signed 16-bit integer. -/
def signed16 (n : Nat) : Int :=
  if n < 2 ^ 15 then n else (n : Int) - 2 ^ 16

/-- `struct.unpack` of little-endian signed 16-bit integers. -/
def unpackI16Le : Bytes → List Int
  | lo :: hi :: rest => signed16 (lo.toNat + hi.toNat * 2 ^ 8) :: unpackI16Le rest
  | _ => []

/-- `struct.pack` of big-endian signed 16-bit integers. -/
def packI16Be (values : List Int) : Bytes :=
  values.flatMap fun v => packU16 (v % 2 ^ 16).toNat

/-- `_swap_bytes`. -/
def swapBytes (pcm16Le : Bytes) : Bytes := packI16Be (unpackI16Le pcm16Le)

/-- The errors of `_send_rtp`, both `ValueError`. -/
inductive SendRtpError where
  /-- "pcm16_le length must be even" -/
  | oddLength
  /-- "range() arg 3 must not be zero" -/
  | zeroStep
deriving DecidableEq, Repr

/-- Datagram `seq` with its chunk; `_DEFAULT_PAYLOAD_TYPE` is 96. -/
def rtpDatagram (seq timestamp : Nat) (ssrc : Int) (chunkLe : Bytes) : Bytes :=
  packHeader 0x80 (96 % 2 ^ 7) (seq % 2 ^ 16) (timestamp % 2 ^ 32) (ssrc % 2 ^ 32).toNat ++
    swapBytes chunkLe

/-- The datagrams of `_send_rtp`, one for each step of the `range`. -/
def sendRtp (pcm16Le : Bytes) (ssrc : Int) (packetMs : Nat) : Except SendRtpError (List Bytes) :=
  let samplesPerPacket := 16000 * packetMs / 1000
  let bytesPerPacket := samplesPerPacket * 2
  if pcm16Le.length % 2 ≠ 0 then
    .error .oddLength
  else if bytesPerPacket = 0 then
    .error .zeroStep
  else
    .ok ((List.range ((pcm16Le.length + bytesPerPacket - 1) / bytesPerPacket)).map fun seq =>
      rtpDatagram seq (seq * samplesPerPacket) ssrc
        ((pcm16Le.drop (seq * bytesPerPacket)).take bytesPerPacket))

/-- The loop over payloads: the PCM, and if no payload was odd. -/
def extendPcm (pcm : Bytes) : List Bytes → Bytes × Bool
  | [] => (pcm, true)
  | payload :: payloads =>
      match l16BeToPcm16Le payload with
      | .ok pcmLe => extendPcm (pcm ++ pcmLe) payloads
      | .error _ => (pcm, false)

/-- `drain_rtp` with all that it receives, and if it still waits for more; a datagram is cut
off at 4096 bytes. -/
def drainRtp (jitter : JitterBuffer) (pcm : Bytes) : List Bytes → JitterBuffer × Bytes × Bool
  | [] => (jitter, pcm, true)
  | datagram :: datagrams =>
      let data := datagram.take 4096
      if data = [] then
        (jitter, pcm, false)
      else
        match parseRtp data with
        | .error _ => drainRtp jitter pcm datagrams
        | .ok packet =>
            let (payloads, jitter) := jitter.push packet
            match extendPcm pcm payloads with
            | (pcm, true) => drainRtp jitter pcm datagrams
            | (pcm, false) => (jitter, pcm, false)

/-- `_collect_rtp_until_sentinel`, when the sentinel follows the datagrams: the buffer is
flushed if `drain_rtp` has not ended by itself. -/
def collectRtp (capacity : Nat) (datagrams : List Bytes) : Option Bytes :=
  match drainRtp { capacity := capacity } [] datagrams with
  | (_, pcm, false) => some pcm
  | (jitter, pcm, true) =>
      match extendPcm pcm jitter.flush.1 with
      | (pcm, true) => some pcm
      | (_, false) => none

section Swap

@[simp] theorem length_byteswap : ∀ pcm : Bytes, (byteswap pcm).length = pcm.length
  | [] => rfl
  | [_] => rfl
  | _ :: _ :: rest => by simp [byteswap, length_byteswap rest]

@[simp] theorem byteswap_byteswap : ∀ pcm : Bytes, byteswap (byteswap pcm) = pcm
  | [] => rfl
  | [_] => rfl
  | _ :: _ :: rest => by simp [byteswap, byteswap_byteswap rest]

theorem signed16_emod {n : Nat} (hn : n < 2 ^ 16) : (signed16 n % 2 ^ 16).toNat = n := by
  rw [signed16]
  split_ifs <;> omega

theorem packU16_bytes (lo hi : UInt8) : packU16 (lo.toNat + hi.toNat * 2 ^ 8) = [hi, lo] := by
  have hlo := lo.toNat_lt
  have hhigh : UInt8.ofNat ((lo.toNat + hi.toNat * 2 ^ 8) / 2 ^ 8) = hi := by
    rw [show (lo.toNat + hi.toNat * 2 ^ 8) / 2 ^ 8 = hi.toNat by omega, UInt8.ofNat_toNat]
  have hlow : UInt8.ofNat (lo.toNat + hi.toNat * 2 ^ 8) = lo := by
    refine UInt8.toNat_inj.mp ?_
    rw [UInt8.toNat_ofNat']
    omega
  rw [packU16, hhigh, hlow]

/-- The client swaps bytes too, by way of integers. -/
theorem swapBytes_eq_byteswap : ∀ pcm : Bytes, pcm.length % 2 = 0 → swapBytes pcm = byteswap pcm
  | [], _ => by simp [swapBytes, unpackI16Le, packI16Be, byteswap]
  | [_], h => by simp at h
  | lo :: hi :: rest, h => by
      have hrest : rest.length % 2 = 0 := by
        simp only [List.length_cons] at h
        omega
      have ih := swapBytes_eq_byteswap rest hrest
      have hlo := lo.toNat_lt
      have hhi := hi.toNat_lt
      have hhead : swapBytes (lo :: hi :: rest) = packU16 (signed16
          (lo.toNat + hi.toNat * 2 ^ 8) % 2 ^ 16).toNat ++ swapBytes rest := by
        simp [swapBytes, unpackI16Le, packI16Be]
      rw [hhead, signed16_emod (by omega), packU16_bytes, ih]
      rfl

end Swap

/-- A datagram is parsed to the packet that it was made of. -/
theorem parseRtp_rtpDatagram (seq timestamp : Nat) (ssrc : Int) (chunkLe : Bytes) :
    parseRtp (rtpDatagram seq timestamp ssrc chunkLe) =
      .ok
        { sequence := BitVec.ofNat 16 seq
          timestamp := BitVec.ofNat 32 timestamp
          ssrc := BitVec.ofInt 32 ssrc
          payloadType := 96
          marker := false
          payload := swapBytes chunkLe } := by
  have hseq : BitVec.ofNat 16 (seq % 2 ^ 16) = BitVec.ofNat 16 seq := by
    refine BitVec.eq_of_toNat_eq ?_
    simp
  have htimestamp : BitVec.ofNat 32 (timestamp % 2 ^ 32) = BitVec.ofNat 32 timestamp := by
    refine BitVec.eq_of_toNat_eq ?_
    simp
  have hssrc : BitVec.ofNat 32 (ssrc % 2 ^ 32).toNat = BitVec.ofInt 32 ssrc := by
    refine BitVec.eq_of_toNat_eq ?_
    rw [BitVec.toNat_ofNat, BitVec.toNat_ofInt]
    omega
  simp only [rtpDatagram, packHeader, packU16, packU32, List.cons_append, List.nil_append, parseRtp]
  rw [unpackU16_packU16 (Nat.mod_lt _ (by omega)), unpackU32_packU32 (Nat.mod_lt _ (by omega)),
    unpackU32_packU32 (by omega), hseq, htimestamp, hssrc]
  simp

theorem length_rtpDatagram (seq timestamp : Nat) (ssrc : Int) {chunkLe : Bytes}
    (heven : chunkLe.length % 2 = 0) :
    (rtpDatagram seq timestamp ssrc chunkLe).length = chunkLe.length + 12 := by
  rw [rtpDatagram, swapBytes_eq_byteswap chunkLe heven]
  simp [packHeader, packU16, packU32]

theorem extendPcm_even (pcm : Bytes) {payloads : List Bytes}
    (heven : ∀ payload ∈ payloads, payload.length % 2 = 0) :
    extendPcm pcm payloads = (pcm ++ (payloads.map byteswap).flatten, true) := by
  induction payloads generalizing pcm with
  | nil => simp [extendPcm]
  | cons payload payloads ih =>
      have hpayload := heven payload List.mem_cons_self
      rw [extendPcm, l16BeToPcm16Le, if_neg (by simp [hpayload])]
      simp only
      rw [ih _ (fun p hp => heven p (List.mem_cons_of_mem _ hp))]
      simp

section Datagrams

variable {datagram : Nat → Bytes} {packet : Nat → RtpPacket} {seqs : List Nat}

/-- Good datagrams go through the buffer. -/
theorem drainRtp_pushAll
    (hparse : ∀ i ∈ seqs, (datagram i).length ≤ 4096 ∧ parseRtp (datagram i) = .ok (packet i))
    (jitter : JitterBuffer) (pcm : Bytes)
    (heven : ∀ payload ∈ (jitter.pushAll (seqs.map packet)).1, payload.length % 2 = 0) :
    drainRtp jitter pcm (seqs.map datagram) = ((jitter.pushAll (seqs.map packet)).2,
      pcm ++ ((jitter.pushAll (seqs.map packet)).1.map byteswap).flatten, true) := by
  induction seqs generalizing jitter pcm with
  | nil => simp [drainRtp, JitterBuffer.pushAll]
  | cons i seqs ih =>
      obtain ⟨hlength, hpacket⟩ := hparse i List.mem_cons_self
      have hne : datagram i ≠ [] := by
        intro hnil
        rw [hnil] at hpacket
        cases hpacket
      simp only [List.map_cons, JitterBuffer.pushAll, List.mem_append] at heven
      rw [List.map_cons, drainRtp, List.take_of_length_le hlength, if_neg hne, hpacket]
      simp only
      rw [extendPcm_even pcm (fun p hp => heven p (Or.inl hp))]
      simp only
      rw [ih (fun i hi => hparse i (List.mem_cons_of_mem _ hi)) _ _
        (fun p hp => heven p (Or.inr hp))]
      simp [JitterBuffer.pushAll]

/-- What is collected, if no payload is odd. -/
theorem collectRtp_outputs {capacity : Nat}
    (hparse : ∀ i ∈ seqs, (datagram i).length ≤ 4096 ∧ parseRtp (datagram i) = .ok (packet i))
    (heven : ∀ payload ∈ JitterBuffer.outputs capacity (seqs.map packet),
      payload.length % 2 = 0) :
    collectRtp capacity (seqs.map datagram) =
      some ((JitterBuffer.outputs capacity (seqs.map packet)).map byteswap).flatten := by
  simp only [JitterBuffer.outputs, List.mem_append] at heven
  rw [collectRtp, drainRtp_pushAll hparse _ _ (fun p hp => heven p (Or.inl hp))]
  simp only
  rw [extendPcm_even _ (fun p hp => heven p (Or.inr hp))]
  simp [JitterBuffer.outputs]

end Datagrams

/-- In order and without loss. -/
theorem outputs_range (stream : RtpStream) (capacity n : Nat) :
    JitterBuffer.outputs capacity ((List.range n).map stream.packet) =
      (List.range n).map fun i => (stream.packet i).payload := by
  have hplace : ∀ t i : Nat, (List.range n)[t]? = some i → i = t := by
    intro t i hi
    obtain ⟨-, rfl⟩ := List.getElem?_eq_some_iff.mp hi
    exact List.getElem_range _
  have hnear : ∀ c, NearOrder c (List.range n) := by
    intro c t i hi
    rw [hplace t i hi]
    exact ⟨Nat.le_add_right t c, Nat.le_add_right t c⟩
  refine outputs_of_withinHalf stream (.refl _) (hnear capacity) ?_
    (withinHalf_of_le (.refl _) (hnear 0) (Nat.zero_le _))
  intro i hi
  rw [List.head?_eq_getElem?] at hi
  exact hplace 0 i hi

/-- Whatever the length of the PCM, the length of the packets and the capacity of the buffer:
datagrams in order and without loss bring the PCM to the server. -/
theorem collectRtp_sendRtp (pcm16Le : Bytes) (heven : pcm16Le.length % 2 = 0) (ssrc : Int)
    (packetMs : Nat) (hms : 1 ≤ packetMs ∧ packetMs ≤ 127) (capacity : Nat) :
    ∃ datagrams, sendRtp pcm16Le ssrc packetMs = .ok datagrams ∧
      collectRtp capacity datagrams = some pcm16Le := by
  obtain ⟨samples, hsamples⟩ : ∃ samples, samples = 16000 * packetMs / 1000 := ⟨_, rfl⟩
  have hsize : 0 < samples * 2 ∧ samples * 2 + 12 ≤ 4096 := by omega
  obtain ⟨count, hcount⟩ : ∃ count, count = (pcm16Le.length + samples * 2 - 1) / (samples * 2) :=
    ⟨_, rfl⟩
  have hall : pcm16Le.length ≤ count * (samples * 2) := by
    have := Nat.lt_div_mul_add (a := pcm16Le.length + samples * 2 - 1) hsize.1
    rw [← hcount] at this
    omega
  let chunk (i : Nat) : Bytes := (pcm16Le.drop (i * (samples * 2))).take (samples * 2)
  have hchunk : ∀ i, (chunk i).length % 2 = 0 ∧ (chunk i).length ≤ samples * 2 := by
    intro i
    rw [List.length_take, List.length_drop, ← Nat.mul_assoc]
    omega
  let stream : RtpStream :=
    { start := 0
      packet := fun i =>
        { sequence := BitVec.ofNat 16 i
          timestamp := BitVec.ofNat 32 (i * samples)
          ssrc := BitVec.ofInt 32 ssrc
          payloadType := 96
          marker := false
          payload := swapBytes (chunk i) }
      numbered := fun i => (zero_add _).symm }
  have hsend : sendRtp pcm16Le ssrc packetMs =
      .ok ((List.range count).map fun i => rtpDatagram i (i * samples) ssrc (chunk i)) := by
    simp only [sendRtp, ← hsamples, ← hcount]
    rw [if_neg (by simp [heven]), if_neg (by omega)]
  have hparse : ∀ i ∈ List.range count,
      (rtpDatagram i (i * samples) ssrc (chunk i)).length ≤ 4096 ∧
        parseRtp (rtpDatagram i (i * samples) ssrc (chunk i)) = .ok (stream.packet i) := by
    intro i _
    obtain ⟨hchunkEven, hchunkLe⟩ := hchunk i
    refine ⟨?_, parseRtp_rtpDatagram _ _ _ _⟩
    rw [length_rtpDatagram _ _ _ hchunkEven]
    omega
  have houtputs := outputs_range stream capacity count
  refine ⟨_, hsend, ?_⟩
  rw [collectRtp_outputs hparse, houtputs, List.map_map]
  · have hback : byteswap ∘ (fun i => (stream.packet i).payload) = chunk := by
      funext i
      show byteswap (swapBytes (chunk i)) = chunk i
      rw [swapBytes_eq_byteswap _ (hchunk i).1, byteswap_byteswap]
    rw [hback, flatten_pieces, List.take_of_length_le hall]
  · rw [houtputs]
    intro payload hpayload
    obtain ⟨i, -, rfl⟩ := List.mem_map.mp hpayload
    show (swapBytes (chunk i)).length % 2 = 0
    rw [swapBytes_eq_byteswap _ (hchunk i).1, length_byteswap]
    exact (hchunk i).1

theorem collectRtp_sendRtp_short :
    ∃ datagrams, sendRtp (List.replicate 36 1 ++ [2, 3]) 7 1 = .ok datagrams ∧
      collectRtp 8 datagrams = some (List.replicate 36 1 ++ [2, 3]) :=
  collectRtp_sendRtp (List.replicate 36 1 ++ [2, 3]) (by decide) 7 1 (by decide) 8

end Mrcp
end Sandroid
