import Sandroid.Mrcp.BridgeFrames
import Sandroid.Lib.Reorder
import Mathlib.Data.List.Sort
import Mathlib.Data.List.MinMax

/-!
# The jitter buffer

`JitterBuffer` puts RTP packets in the order of their 16-bit sequence numbers.  A `Tracked`
buffer bears the extended number of its cursor, one that does not wrap; with it the buffer is
a `Window`, whatever arrives.

`jitterBuffer_safe`: each number that is accepted is emitted once, in order, with its last
payload, and no more than the capacity is held.
-/

namespace Sandroid
namespace Mrcp

open Lib

/-- What `parse_rtp` returns. -/
structure RtpPacket where
  sequence : BitVec 16
  timestamp : BitVec 32
  ssrc : BitVec 32
  payloadType : Nat
  marker : Bool
  payload : Bytes
deriving DecidableEq, Repr

/-- `(s - base) & 0xFFFF`. -/
abbrev seqDistance (base s : BitVec 16) : Nat := distance base s

/-- `((a - b) & 0xFFFF) > 0x8000`. -/
def seqLess (a b : BitVec 16) : Bool := 0x8000 < seqDistance b a

structure JitterBuffer where
  capacity : Nat := 8
  buffered : Dict (BitVec 16) Bytes := .empty
  nextSeq : Option (BitVec 16) := none

namespace JitterBuffer

/-- The variables of the loops of `push`. -/
structure Drained where
  emitted : List Bytes
  next : BitVec 16
  buffered : Dict (BitVec 16) Bytes

/-- `while self._next_seq in self._buffered`; each pass takes an entry out. -/
def drain : Nat → BitVec 16 → Dict (BitVec 16) Bytes → Drained
  | 0, next, buffered => ⟨[], next, buffered⟩
  | fuel + 1, next, buffered =>
      match buffered.get? next with
      | none => ⟨[], next, buffered⟩
      | some payload =>
          let rest := drain fuel (next + 1) (buffered.erase next)
          { rest with emitted := payload :: rest.emitted }

/-- The overflow guard: on to the nearest packet that is held. -/
def skipGap (capacity : Nat) (next : BitVec 16) (buffered : Dict (BitVec 16) Bytes) : Drained :=
  if buffered.size > capacity then
    match buffered.keys.argmin (seqDistance next) with
    | none => ⟨[], next, buffered⟩
    | some nearest => drain buffered.size nearest buffered
  else
    ⟨[], next, buffered⟩

def push (b : JitterBuffer) (packet : RtpPacket) : List Bytes × JitterBuffer :=
  let next := b.nextSeq.getD packet.sequence
  if seqLess packet.sequence next then
    ([], { b with nextSeq := some next })
  else
    let buffered := b.buffered.set packet.sequence packet.payload
    let drained := drain buffered.size next buffered
    let skipped := skipGap b.capacity drained.next drained.buffered
    (drained.emitted ++ skipped.emitted,
      { b with buffered := skipped.buffered, nextSeq := some skipped.next })

/-- The keys in the order of their distance from the cursor. -/
def orderedKeys (b : JitterBuffer) : List (BitVec 16) :=
  b.buffered.keys.insertionSort fun s t =>
    seqDistance (b.nextSeq.getD 0) s ≤ seqDistance (b.nextSeq.getD 0) t

def flush (b : JitterBuffer) : List Bytes × JitterBuffer :=
  if b.buffered.size = 0 then
    ([], b)
  else
    (b.orderedKeys.filterMap b.buffered.get?, { b with buffered := .empty })

/-- Push packets one after the other. -/
def pushAll (b : JitterBuffer) : List RtpPacket → List Bytes × JitterBuffer
  | [] => ([], b)
  | packet :: packets =>
      let (emitted, b) := b.push packet
      let (more, b) := b.pushAll packets
      (emitted ++ more, b)

/-- All that comes out of a new buffer. -/
def outputs (capacity : Nat) (packets : List RtpPacket) : List Bytes :=
  let (emitted, b) := pushAll { capacity := capacity } packets
  emitted ++ b.flush.1

variable {d : Dict (BitVec 16) Bytes} {ext fuel capacity : Nat} {sent accepted : List (Nat × Bytes)}

/-- The loop passes packets on until the one at the cursor is missing. -/
theorem drain_passes (d : Dict (BitVec 16) Bytes) (ext : Nat) (sent accepted : List (Nat × Bytes))
    (hfuel : d.size ≤ fuel) :
    ∃ sent' drained, drained = drain fuel (BitVec.ofNat 16 ext) d ∧
      (Window.ofDict d ext sent accepted).Passes drained.emitted
        (Window.ofDict drained.buffered (ext + drained.emitted.length) sent' accepted) ∧
      drained.next = BitVec.ofNat 16 (ext + drained.emitted.length) ∧
      drained.buffered.get? drained.next = none ∧
      drained.emitted.length + drained.buffered.size = d.size := by
  induction fuel generalizing d ext sent with
  | zero =>
      have hnone : d.get? (BitVec.ofNat 16 ext) = none := by
        rw [Dict.get?_eq_none_iff, List.eq_nil_of_length_eq_zero (l := d.keys) (by
          rw [Dict.length_keys]
          omega)]
        exact List.not_mem_nil
      exact ⟨sent, _, rfl, .done, rfl, hnone, Nat.zero_add _⟩
  | succ fuel ih =>
      cases hget : d.get? (BitVec.ofNat 16 ext) with
      | none =>
          refine ⟨sent, _, rfl, ?_⟩
          simp only [drain, hget]
          exact ⟨.done, rfl, trivial, Nat.zero_add _⟩
      | some payload =>
          have hmem : BitVec.ofNat 16 ext ∈ d.keys := (Dict.mem_keys_iff d _).mpr ⟨payload, hget⟩
          have hsize := Dict.size_erase d hmem
          have hnext : BitVec.ofNat 16 ext + 1 = BitVec.ofNat 16 (ext + 1) := by
            rw [BitVec.ofNat_add]
            rfl
          obtain ⟨sent', rest, hrest, hpasses, hcursor, hmissing, hlength⟩ :=
            ih (d.erase (BitVec.ofNat 16 ext)) (ext + 1) (sent ++ [(ext, payload)]) (by omega)
          refine ⟨sent', { rest with emitted := payload :: rest.emitted }, ?_, ?_, ?_, hmissing, ?_⟩
          · simp only [drain, hget, hnext, hrest]
          · refine .emit (heldAt_self.trans hget) ?_
            rw [Window.emit_ofDict]
            have hend : ext + (payload :: rest.emitted).length = ext + 1 + rest.emitted.length := by
              simp only [List.length_cons]
              omega
            simp only [hend]
            exact hpasses
          · simp only [List.length_cons]
            rw [hcursor]
            congr 1
            omega
          · simp only [List.length_cons]
            omega

theorem drain_emitted_ne_nil {next : BitVec 16} (hfuel : fuel ≠ 0) (hnext : next ∈ d.keys) :
    (drain fuel next d).emitted ≠ [] := by
  obtain ⟨payload, hget⟩ := (Dict.mem_keys_iff d next).mp hnext
  obtain ⟨fuel, rfl⟩ := Nat.exists_eq_succ_of_ne_zero hfuel
  simp [drain, hget]

theorem skipGap_of_le {next : BitVec 16} (hsize : d.size ≤ capacity) :
    skipGap capacity next d = ⟨[], next, d⟩ := by
  rw [skipGap, if_neg (not_lt.mpr hsize)]

/-- The guard gives up the packets before the nearest one, which it passes on. -/
theorem skipGap_passes (capacity : Nat) (sent accepted : List (Nat × Bytes))
    (hmissing : d.get? (BitVec.ofNat 16 ext) = none)
    (hsize : d.size ≤ capacity + 1) :
    ∃ n sent' skipped, skipped = skipGap capacity (BitVec.ofNat 16 ext) d ∧ ext ≤ n ∧
      (∀ m, m < n → heldAt d ext m = none) ∧
      ((Window.ofDict d ext sent accepted).skip n).Passes skipped.emitted
        (Window.ofDict skipped.buffered (n + skipped.emitted.length) sent' accepted) ∧
      skipped.next = BitVec.ofNat 16 (n + skipped.emitted.length) ∧
      skipped.buffered.get? skipped.next = none ∧ skipped.buffered.size ≤ capacity ∧
      (n = ext ∨ skipped.emitted ≠ []) := by
  by_cases hover : d.size > capacity
  · have hkeys : d.keys ≠ [] := by
      intro hnil
      have hlength := Dict.length_keys d
      rw [hnil] at hlength
      simp only [List.length_nil] at hlength
      omega
    obtain ⟨nearest, hnearest⟩ := Option.ne_none_iff_exists'.mp
      (fun hnone => hkeys (List.argmin_eq_none.mp hnone) :
        d.keys.argmin (seqDistance (BitVec.ofNat 16 ext)) ≠ none)
    have hmem := List.argmin_mem hnearest
    have hmin : ∀ k ∈ d.keys, distance (BitVec.ofNat 16 ext) nearest ≤
        distance (BitVec.ofNat 16 ext) k := fun k hk => List.le_of_mem_argmin hk hnearest
    have hlt : distance (BitVec.ofNat 16 ext) nearest < 2 ^ 16 := distance_lt
    have hskip : (Window.ofDict d ext sent accepted).skip
        (ext + distance (BitVec.ofNat 16 ext) nearest) = Window.ofDict d _ sent accepted :=
      Window.skip_ofDict ⟨by omega, by omega⟩ (fun k hk => by
        have := hmin k hk
        omega)
    obtain ⟨sent', skipped, hskipped, hpasses, hcursor, hnone, hlength⟩ :=
      drain_passes d (ext + distance (BitVec.ofNat 16 ext) nearest) sent accepted le_rfl
    rw [ofNat_add_distance] at hskipped
    have hemitted : skipped.emitted ≠ [] := by
      rw [hskipped]
      exact drain_emitted_ne_nil (by omega) hmem
    refine ⟨_, sent', skipped, ?_, Nat.le_add_right _ _, ?_, hskip ▸ hpasses, hcursor, hnone, ?_,
      Or.inr hemitted⟩
    · rw [hskipped, skipGap, if_pos hover, hnearest]
    · intro m hm
      by_contra hheld
      obtain ⟨a, ha⟩ := Option.ne_none_iff_exists'.mp hheld
      obtain ⟨-, hdistance, hget⟩ := heldAt_eq_some ha
      have := hmin _ ((Dict.mem_keys_iff d _).mpr ⟨a, hget⟩)
      omega
    · have := List.length_pos_of_ne_nil hemitted
      omega
  · refine ⟨ext, sent, _, rfl, le_rfl, ?_, ?_⟩
    · intro m hm
      rw [heldAt, if_neg (by omega)]
    · rw [skipGap_of_le (not_lt.mp hover)]
      exact ⟨.done, rfl, hmissing, not_lt.mp hover, Or.inl rfl⟩

/-- What holds of a buffer between two pushes, when its cursor has the number `ext`. -/
structure Ready (b : JitterBuffer) (ext : Nat) (sent accepted : List (Nat × Bytes)) : Prop where
  sound : (Window.ofDict b.buffered ext sent accepted).Sound
  near : ∀ n payload, heldAt b.buffered ext n = some payload → n ≤ ext + 0x8000
  size : b.buffered.size ≤ b.capacity
  missing : b.buffered.get? (BitVec.ofNat 16 ext) = none

theorem Ready.new : Ready { capacity := capacity } ext [] [] where
  sound :=
    { sorted := List.Pairwise.nil
      below := by simp [Window.ofDict]
      ahead := by simp [Window.ofDict, heldAt]
      content := by simp [Window.ofDict, heldAt, latest] }
  near := by simp [heldAt]
  size := Nat.zero_le _
  missing := rfl

/-- The number that a packet gets when the cursor is at `ext`. -/
def number (ext : Nat) (packet : RtpPacket) : Nat :=
  ext + seqDistance (BitVec.ofNat 16 ext) packet.sequence

/-- A packet that is not late is taken in, and those at the cursor are passed on. -/
theorem Ready.drained {b : JitterBuffer} {packet : RtpPacket} (h : b.Ready ext sent accepted)
    (hlate : seqLess packet.sequence (BitVec.ofNat 16 ext) = false) :
    ∃ sent' drained, drained = drain (b.buffered.set packet.sequence packet.payload).size
        (BitVec.ofNat 16 ext) (b.buffered.set packet.sequence packet.payload) ∧
      ((Window.ofDict b.buffered ext sent accepted).accept (number ext packet)
          packet.payload).Passes drained.emitted
        (Window.ofDict drained.buffered (ext + drained.emitted.length) sent'
          (accepted ++ [(number ext packet, packet.payload)])) ∧
      ((Window.ofDict b.buffered ext sent accepted).accept (number ext packet)
        packet.payload).Sound ∧
      (∀ n payload, ((Window.ofDict b.buffered ext sent accepted).accept (number ext packet)
        packet.payload).held n = some payload → n ≤ ext + 0x8000) ∧
      drained.next = BitVec.ofNat 16 (ext + drained.emitted.length) ∧
      drained.buffered.get? (BitVec.ofNat 16 (ext + drained.emitted.length)) = none ∧
      drained.emitted.length + drained.buffered.size =
        (b.buffered.set packet.sequence packet.payload).size := by
  have hclose : seqDistance (BitVec.ofNat 16 ext) packet.sequence ≤ 0x8000 := by
    simpa [seqLess] using hlate
  have hin : ext ≤ number ext packet ∧ number ext packet < ext + 2 ^ 16 := by
    rw [number]
    exact ⟨by omega, by omega⟩
  have haccept := Window.accept_ofDict b.buffered sent accepted packet.payload hin
  rw [number, ofNat_add_distance, ← number] at haccept
  obtain ⟨sent', drained, hdrained, hpasses, hnext, hmissing, hlength⟩ :=
    drain_passes (b.buffered.set packet.sequence packet.payload) ext sent
      (accepted ++ [(number ext packet, packet.payload)]) le_rfl
  refine ⟨sent', drained, hdrained, haccept ▸ hpasses, h.sound.accept hin.1, ?_, hnext,
    hnext ▸ hmissing, hlength⟩
  intro n payload hheld
  by_cases hn : n = number ext packet
  · rw [hn, number]
    omega
  · refine h.near n payload ?_
    simpa [Window.accept, Window.ofDict, Function.update_of_ne hn] using hheld

/-- A packet that is not late. -/
theorem Ready.push {b : JitterBuffer} {packet : RtpPacket} (h : b.Ready ext sent accepted)
    (hnext : b.nextSeq.getD packet.sequence = BitVec.ofNat 16 ext)
    (hlate : seqLess packet.sequence (BitVec.ofNat 16 ext) = false) :
    ∃ ext' more, (b.push packet).2.Ready ext' (sent ++ more)
        (accepted ++ [(number ext packet, packet.payload)]) ∧
      (b.push packet).2.capacity = b.capacity ∧
      (b.push packet).2.nextSeq = some (BitVec.ofNat 16 ext') ∧
      more.map Prod.snd = (b.push packet).1 ∧ ext ≤ ext' ∧ ext' ≤ ext + 0x8001 ∧
      (ext' = ext ∨ ∃ n payload, ext' = n + 1 ∧ (n, payload) ∈ sent ++ more) := by
  obtain ⟨sent₁, drained, hdrained, hpasses₁, hsound, hnear, hnext₁, hmissing₁, hlength⟩ :=
    h.drained hlate
  have hsize : (b.buffered.set packet.sequence packet.payload).size ≤ b.capacity + 1 := by
    have := h.size
    rw [Dict.size_set]
    split_ifs <;> omega
  obtain ⟨n, sent₂, skipped, hskipped, hn, hbefore, hpasses₂, hnext₂, hmissing₂, hsize₂, hmoved⟩ :=
    skipGap_passes b.capacity sent₁ (accepted ++ [(number ext packet, packet.payload)]) hmissing₁
      (by omega)
  have hpush : b.push packet = (drained.emitted ++ skipped.emitted,
      { b with buffered := skipped.buffered, nextSeq := some skipped.next }) := by
    simp only [JitterBuffer.push, hnext, hlate, ← hdrained, hnext₁, ← hskipped]
    rfl
  have hheld {m : Nat} {payload : Bytes}
      (hm : heldAt drained.buffered (ext + drained.emitted.length) m = some payload) :
      m ≤ ext + 0x8000 := hnear m payload (hpasses₁.held hm)
  have hsound₂ := hpasses₂.sound ((hpasses₁.sound hsound).skip hn hbefore)
  obtain ⟨more₁, hsent₁, hmore₁⟩ := hpasses₁.sent
  obtain ⟨more₂, hsent₂, hmore₂⟩ := hpasses₂.sent
  simp only [Window.ofDict, Window.skip, Window.accept] at hsent₁ hsent₂
  have hsent : sent₂ = sent ++ (more₁ ++ more₂) := by
    rw [hsent₂, hsent₁, List.append_assoc]
  have hlast : n + skipped.emitted.length = ext ∨ ∃ m payload,
      n + skipped.emitted.length = m + 1 ∧ m ≤ ext + 0x8000 ∧ (m, payload) ∈ sent₂ := by
    rcases hpasses₂.last with hstill | ⟨m, payload, hcursor, hm, hmem⟩
    · have hnil : skipped.emitted.length = 0 := by
        simpa [Window.ofDict, Window.skip] using hstill
      have hsame : n = ext + drained.emitted.length :=
        hmoved.resolve_right (fun h => h (List.length_eq_zero_iff.mp hnil))
      rcases hpasses₁.last with hstill₁ | ⟨m, payload, hcursor, hm, hmem⟩
      · left
        have : ext + drained.emitted.length = ext := hstill₁
        omega
      · right
        have hcursor' : ext + drained.emitted.length = m + 1 := hcursor
        refine ⟨m, payload, by omega, hnear m payload hm, ?_⟩
        rw [hsent₂]
        exact List.mem_append_left _ hmem
    · exact Or.inr ⟨m, payload, hcursor, hheld hm, hmem⟩
  rw [hpush]
  rw [hsent] at hsound₂ hlast
  refine ⟨n + skipped.emitted.length, more₁ ++ more₂, ⟨hsound₂, ?_, hsize₂, hnext₂ ▸ hmissing₂⟩,
    rfl, congrArg some hnext₂, by rw [List.map_append, hmore₁, hmore₂], by omega, ?_, ?_⟩
  · intro m payload hm
    have := hheld (hpasses₂.held hm)
    omega
  · rcases hlast with hlast | ⟨m, payload, hcursor, hm, hmem⟩ <;> omega
  · rcases hlast with hlast | ⟨m, payload, hcursor, hm, hmem⟩
    · exact Or.inl hlast
    · exact Or.inr ⟨m, payload, hcursor, hmem⟩

/-- At the end what is held comes out in order. -/
theorem flush_held {b : JitterBuffer}
    (hnext : b.nextSeq.getD 0 = BitVec.ofNat 16 ext ∨ b.buffered.size = 0) :
    ∃ held : List (Nat × Bytes), b.flush.1 = held.map Prod.snd ∧
      held.Pairwise (fun d e => d.1 < e.1) ∧
      ∀ n payload, (n, payload) ∈ held ↔ heldAt b.buffered ext n = some payload := by
  by_cases hempty : b.buffered.size = 0
  · refine ⟨[], by simp [JitterBuffer.flush, hempty], List.Pairwise.nil, ?_⟩
    intro n payload
    refine iff_of_false List.not_mem_nil ?_
    intro hheld
    have hmem := (Dict.mem_keys_iff _ _).mpr ⟨payload, (heldAt_eq_some hheld).2.2⟩
    have hlength := List.length_pos_of_mem hmem
    rw [Dict.length_keys] at hlength
    omega
  · have hbase := hnext.resolve_right hempty
    have hperm : b.orderedKeys.Perm b.buffered.keys := List.perm_insertionSort _ _
    have hnodup : b.orderedKeys.Nodup := hperm.nodup_iff.mpr b.buffered.nodupKeys
    have hle : b.orderedKeys.Pairwise fun s t =>
        seqDistance (BitVec.ofNat 16 ext) s ≤ seqDistance (BitVec.ofNat 16 ext) t := by
      rw [← hbase]
      exact List.pairwise_insertionSort _ _
    refine ⟨b.orderedKeys.filterMap fun k => (b.buffered.get? k).map fun payload =>
      (ext + seqDistance (BitVec.ofNat 16 ext) k, payload), ?_, ?_, ?_⟩
    · simp only [JitterBuffer.flush, if_neg hempty, List.map_filterMap]
      refine List.filterMap_congr ?_
      intro k _
      cases b.buffered.get? k <;> rfl
    · refine List.Pairwise.filterMap _ ?_ (hle.and hnodup)
      rintro s t ⟨hst, hne⟩ d hd e he
      obtain ⟨-, -, rfl⟩ := Option.map_eq_some_iff.mp hd
      obtain ⟨-, -, rfl⟩ := Option.map_eq_some_iff.mp he
      refine Nat.add_lt_add_left (lt_of_le_of_ne hst ?_) ext
      intro hsame
      apply hne
      rw [← ofNat_add_distance (k := ext) (s := s), ← ofNat_add_distance (k := ext) (s := t)]
      exact congrArg (fun d => BitVec.ofNat 16 (ext + d)) hsame
    · intro n payload
      rw [List.mem_filterMap]
      constructor
      · rintro ⟨k, -, hk⟩
        obtain ⟨payload', hget, heq⟩ := Option.map_eq_some_iff.mp hk
        cases heq
        exact heldAt_key ext hget
      · intro hheld
        obtain ⟨-, hn, hget⟩ := heldAt_eq_some hheld
        refine ⟨BitVec.ofNat 16 n, ?_, ?_⟩
        · exact hperm.mem_iff.mpr ((Dict.mem_keys_iff _ _).mpr ⟨payload, hget⟩)
        · rw [hget, Option.map_some, ← hn]

end JitterBuffer

/-- A buffer, with the extended number of its cursor and a record of what it has accepted
and emitted. -/
structure Tracked where
  buffer : JitterBuffer
  ext : Nat := 0
  accepted : List (Nat × Bytes) := []
  emitted : List Bytes := []

namespace Tracked

/-- The first packet sets the cursor. -/
def push (x : Tracked) (packet : RtpPacket) : Tracked :=
  let next := x.buffer.nextSeq.getD packet.sequence
  let ext := if x.buffer.nextSeq = none then packet.sequence.toNat else x.ext
  let (emitted, buffer) := x.buffer.push packet
  { buffer := buffer
    ext := ext + seqDistance next (buffer.nextSeq.getD next)
    accepted :=
      if seqLess packet.sequence next then x.accepted
      else x.accepted ++ [(ext + seqDistance next packet.sequence, packet.payload)]
    emitted := x.emitted ++ emitted }

def run (capacity : Nat) (packets : List RtpPacket) : Tracked :=
  packets.foldl push { buffer := { capacity := capacity } }

/-- Before the first packet nothing has happened; later the cursor is behind a packet that
has been emitted. -/
structure Inv (capacity : Nat) (x : Tracked) (sent : List (Nat × Bytes)) : Prop where
  sameCapacity : x.buffer.capacity = capacity
  ready : x.buffer.Ready x.ext sent x.accepted
  emitted : x.emitted = sent.map Prod.snd
  unused : x.buffer.nextSeq = none → x = { buffer := { capacity := capacity } }
  cursor : ∀ next, x.buffer.nextSeq = some next → next = BitVec.ofNat 16 x.ext ∧
    ∃ n payload, x.ext = n + 1 ∧ (n, payload) ∈ sent

variable {x : Tracked} {sent : List (Nat × Bytes)} {capacity : Nat}

theorem Inv.new : Inv capacity { buffer := { capacity := capacity } } [] where
  sameCapacity := rfl
  ready := .new
  emitted := rfl
  unused _ := rfl
  cursor := by simp

/-- A push with the cursor at `ext`. -/
theorem Inv.pushAt (h : x.Inv capacity sent) (packet : RtpPacket) {ext : Nat}
    (hext : (if x.buffer.nextSeq = none then packet.sequence.toNat else x.ext) = ext)
    (hnext : x.buffer.nextSeq.getD packet.sequence = BitVec.ofNat 16 ext)
    (hready : x.buffer.Ready ext sent x.accepted) :
    ∃ more, (x.push packet).Inv capacity (sent ++ more) := by
  cases hlate : seqLess packet.sequence (BitVec.ofNat 16 ext) with
  | true =>
      have hused : x.buffer.nextSeq ≠ none := by
        intro hnone
        rw [hnone, Option.getD_none] at hnext
        simp [← hnext, seqLess] at hlate
      obtain ⟨next, hsome⟩ := Option.ne_none_iff_exists'.mp hused
      have hsame : next = BitVec.ofNat 16 ext := by
        rwa [hsome, Option.getD_some] at hnext
      have hpush : x.push packet = x := by
        simp only [Tracked.push, JitterBuffer.push, hsome, Option.getD_some, hsame, hlate, if_true,
          reduceCtorEq, if_false, distance_self, Nat.add_zero, List.append_nil]
        rw [← hsame, ← hsome]
      exact ⟨[], by simpa [hpush] using h⟩
  | false =>
      obtain ⟨ext', more, hready', hcapacity, hnext', hmore, hle, hbound, hlast⟩ :=
        hready.push hnext hlate
      have hpush : x.push packet =
          { buffer := (x.buffer.push packet).2
            ext := ext'
            accepted := x.accepted ++ [(JitterBuffer.number ext packet, packet.payload)]
            emitted := x.emitted ++ (x.buffer.push packet).1 } := by
        obtain ⟨d, rfl⟩ := Nat.exists_eq_add_of_le hle
        have hd : seqDistance (BitVec.ofNat 16 ext) (BitVec.ofNat 16 (ext + d)) = d :=
          distance_ofNat (by omega)
        simp only [Tracked.push, hext, hnext, hlate, hnext', Option.getD_some, hd]
        rfl
      refine ⟨more, ?_⟩
      rw [hpush]
      refine ⟨hcapacity.trans h.sameCapacity, hready', by simp [h.emitted, hmore], ?_, ?_⟩
      · intro hnone
        rw [hnext'] at hnone
        cases hnone
      · intro next hsome
        rw [hnext'] at hsome
        refine ⟨(Option.some.inj hsome).symm, ?_⟩
        rcases hlast with rfl | hlast
        · cases hold : x.buffer.nextSeq with
          | some old =>
              rw [if_neg (by simp [hold])] at hext
              obtain ⟨-, n, payload, hn, hmem⟩ := h.cursor old hold
              exact ⟨n, payload, hext ▸ hn, List.mem_append_left _ hmem⟩
          | none =>
              rw [hold, Option.getD_none] at hnext
              rw [JitterBuffer.number, hnext, seqDistance, distance_self, Nat.add_zero] at hready'
              have hcontent := hready'.sound.content ext' packet.payload
              simp only [Window.ofDict, latest_append, Function.update_self, heldAt_self,
                hready'.missing, reduceCtorEq, or_false, true_iff] at hcontent
              exact absurd (hready'.sound.below _ hcontent) (lt_irrefl _)
        · exact hlast

theorem Inv.push (h : x.Inv capacity sent) (packet : RtpPacket) :
    ∃ more, (x.push packet).Inv capacity (sent ++ more) := by
  cases hnext : x.buffer.nextSeq with
  | none =>
      refine h.pushAt packet (if_pos hnext) ?_ ?_
      · rw [hnext, Option.getD_none, BitVec.ofNat_toNat, BitVec.setWidth_eq]
      · have hunused := h.unused hnext
        have hsent : sent = [] := by
          simpa [hunused] using h.emitted
        rw [hunused, hsent]
        exact .new
  | some next =>
      refine h.pushAt packet (if_neg (by simp [hnext])) ?_ h.ready
      rw [hnext, Option.getD_some]
      exact (h.cursor next hnext).1

theorem Inv.run (capacity : Nat) (packets : List RtpPacket) :
    ∃ sent, (run capacity packets).Inv capacity sent := by
  have hfold (x : Tracked) (h : ∃ sent, x.Inv capacity sent) :
      ∃ sent, (packets.foldl Tracked.push x).Inv capacity sent := by
    induction packets generalizing x with
    | nil => exact h
    | cons packet packets ih =>
        obtain ⟨sent, h⟩ := h
        obtain ⟨more, hpush⟩ := h.push packet
        exact ih _ ⟨_, hpush⟩
  exact hfold _ ⟨[], .new⟩

/-- The packets that the flush puts out. -/
theorem Inv.flush (h : x.Inv capacity sent) :
    ∃ held : List (Nat × Bytes), x.buffer.flush.1 = held.map Prod.snd ∧
      (sent ++ held).Pairwise (fun d e => d.1 < e.1) ∧
      (∀ n payload, (n, payload) ∈ sent ++ held ↔ latest x.accepted n = some payload) ∧
      ∀ e ∈ held, x.ext < e.1 := by
  have hbase : x.buffer.nextSeq.getD 0 = BitVec.ofNat 16 x.ext ∨ x.buffer.buffered.size = 0 := by
    cases hnext : x.buffer.nextSeq with
    | none =>
        right
        rw [h.unused hnext]
        rfl
    | some next => exact Or.inl (h.cursor next hnext).1
  obtain ⟨held, hflush, hsorted, hheld⟩ := JitterBuffer.flush_held hbase
  obtain ⟨hall, hcontent⟩ := h.ready.sound.flush hsorted hheld
  refine ⟨held, hflush, hall, fun n payload => hcontent n payload, ?_⟩
  intro e he
  have hin := (hheld e.1 e.2).mp he
  refine lt_of_le_of_ne (heldAt_eq_some hin).1 ?_
  intro hcursor
  rw [← hcursor, heldAt_self, h.ready.missing] at hin
  cases hin

/-- The record has what the buffer puts out. -/
theorem emitted_pushAll (packets : List RtpPacket) (x : Tracked) :
    (packets.foldl push x).emitted = x.emitted ++ (x.buffer.pushAll packets).1 ∧
      (packets.foldl push x).buffer = (x.buffer.pushAll packets).2 := by
  induction packets generalizing x with
  | nil => simp [JitterBuffer.pushAll]
  | cons packet packets ih =>
      obtain ⟨hemitted, hbuffer⟩ := ih (x.push packet)
      rw [List.foldl_cons, hemitted, hbuffer]
      simp [push, JitterBuffer.pushAll]

theorem emitted_flush (packets : List RtpPacket) :
    (run capacity packets).emitted ++ (run capacity packets).buffer.flush.1 =
      JitterBuffer.outputs capacity packets := by
  obtain ⟨hemitted, hbuffer⟩ := emitted_pushAll packets { buffer := { capacity := capacity } }
  rw [run, hemitted, hbuffer]
  rfl

/-- What comes out: for each number that has been accepted its last payload, in order. -/
theorem outputs_sorted (capacity : Nat) (packets : List RtpPacket) :
    ∃ items : List (Nat × Bytes), JitterBuffer.outputs capacity packets = items.map Prod.snd ∧
      items.Pairwise (fun d e => d.1 < e.1) ∧
      ∀ n payload, (n, payload) ∈ items ↔
        latest (run capacity packets).accepted n = some payload := by
  obtain ⟨sent, h⟩ := Inv.run capacity packets
  obtain ⟨held, hflush, hsorted, hcontent, -⟩ := h.flush
  exact ⟨sent ++ held, by rw [← emitted_flush, h.emitted, hflush, List.map_append], hsorted,
    hcontent⟩

end Tracked

/-- Whatever is pushed in whatever order: what comes out is, for each number that has been
accepted, its last payload, in the order of the numbers, those below the cursor before the
flush and the rest with it.  No more than the capacity is held, and nothing at the cursor;
the cursor does not move back and is behind a packet that has been emitted. -/
theorem jitterBuffer_safe (capacity : Nat) (packets : List RtpPacket) :
    let x := Tracked.run capacity packets
    JitterBuffer.outputs capacity packets = x.emitted ++ x.buffer.flush.1 ∧
    (∃ sent held : List (Nat × Bytes),
      x.emitted = sent.map Prod.snd ∧ x.buffer.flush.1 = held.map Prod.snd ∧
      (sent ++ held).Pairwise (fun d e => d.1 < e.1) ∧
      (∀ n payload, (n, payload) ∈ sent ++ held ↔ latest x.accepted n = some payload) ∧
      (∀ e ∈ sent, e.1 < x.ext) ∧ (∀ e ∈ held, x.ext < e.1) ∧
      (x.buffer.nextSeq ≠ none → ∃ n payload, x.ext = n + 1 ∧ (n, payload) ∈ sent)) ∧
    x.buffer.buffered.size ≤ capacity ∧
    (∀ next, x.buffer.nextSeq = some next →
      next = BitVec.ofNat 16 x.ext ∧ next ∉ x.buffer.buffered.keys) ∧
    ∀ packet, x.ext ≤ (x.push packet).ext := by
  intro x
  obtain ⟨sent, h⟩ : ∃ sent, x.Inv capacity sent := Tracked.Inv.run capacity packets
  obtain ⟨held, hflush, hsorted, hcontent, hheld⟩ := h.flush
  refine ⟨(Tracked.emitted_flush packets).symm,
    ⟨sent, held, h.emitted, hflush, hsorted, hcontent, h.ready.sound.below, hheld, ?_⟩, ?_, ?_, ?_⟩
  · intro hused
    obtain ⟨next, hnext⟩ := Option.ne_none_iff_exists'.mp hused
    exact (h.cursor next hnext).2
  · exact h.sameCapacity ▸ h.ready.size
  · intro next hnext
    obtain ⟨rfl, -⟩ := h.cursor next hnext
    exact ⟨rfl, (Dict.get?_eq_none_iff _ _).mp h.ready.missing⟩
  · intro packet
    cases hnext : x.buffer.nextSeq with
    | none =>
        have hext : x.ext = 0 := by
          rw [h.unused hnext]
        rw [hext]
        exact Nat.zero_le _
    | some next =>
        simp only [Tracked.push, hnext, reduceCtorEq, if_false]
        exact Nat.le_add_right _ _

end Mrcp
end Sandroid
