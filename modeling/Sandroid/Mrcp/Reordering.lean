import Sandroid.Mrcp.JitterBuffer

/-!
# Reordering

A stream of packets that bear consecutive sequence numbers and arrive near their places.
The buffer puts them in order if the first to arrive is the first of the stream, since it
sets the cursor, and if none arrives more than half a turn of the counter ahead of one that
is missing (`outputs_reordered`).

The loss at the start is `outputs_start_late`; half a turn is enough for capacities up to
2^14, and no more than these (`outputs_far_ahead`).
-/

namespace Sandroid
namespace Mrcp

open Lib

/-- Packets with consecutive sequence numbers. -/
structure RtpStream where
  start : BitVec 16
  packet : Nat → RtpPacket
  numbered : ∀ i, (packet i).sequence = start + BitVec.ofNat 16 i

/-- Each packet arrives at most `c` positions from its place. -/
def NearOrder (c : Nat) (order : List Nat) : Prop :=
  ∀ t i, order[t]? = some i → i ≤ t + c ∧ t ≤ i + c

/-- No packet arrives more than half a turn ahead of the first one that is missing. -/
def WithinHalf (order : List Nat) : Prop :=
  ∀ seen i rest, order = seen ++ i :: rest →
    ∀ k, (∀ j, j < k → j ∈ seen) → k ∉ seen → i ≤ k + 0x8000

instance (c : Nat) (order : List Nat) : Decidable (NearOrder c order) :=
  decidable_of_iff (∀ t, t < order.length → ∀ i ∈ order[t]?, i ≤ t + c ∧ t ≤ i + c) <| by
    refine ⟨fun h t i hi => h t ?_ i hi, fun h t _ i hi => h t i hi⟩
    exact (List.getElem?_eq_some_iff.mp hi).1

section Order

variable {c n k i : Nat} {order seen rest : List Nat}

/-- Of the packets up to the one that is missing few have arrived. -/
theorem length_le_of_missing (hperm : order.Perm (List.range n)) (hnear : NearOrder c order)
    (hsplit : order = seen ++ rest) (hk : k ∉ seen) : seen.length ≤ k + c := by
  by_cases hkn : k < n
  · have hmem : k ∈ order := hperm.mem_iff.mpr (List.mem_range.mpr hkn)
    rw [hsplit] at hmem
    obtain ⟨t, ht, hget⟩ := List.mem_iff_getElem.mp ((List.mem_append.mp hmem).resolve_left hk)
    have hat : order[seen.length + t]? = some k := by
      rw [hsplit, List.getElem?_append_right (by omega), Nat.add_sub_cancel_left,
        List.getElem?_eq_getElem ht, hget]
    have := (hnear _ _ hat).2
    omega
  · have hlength := hperm.length_eq
    rw [hsplit, List.length_append, List.length_range] at hlength
    omega

/-- The packet that arrives is not far from one that is missing. -/
theorem le_of_missing (hperm : order.Perm (List.range n)) (hnear : NearOrder c order)
    (hsplit : order = seen ++ i :: rest) (hk : k ∉ seen) : i ≤ k + (2 * c - 1) := by
  by_cases hik : k = i
  · omega
  · have hat : order[seen.length]? = some i := by
      rw [hsplit, List.getElem?_append_right le_rfl, Nat.sub_self]
      rfl
    have hi := (hnear _ _ hat).1
    have hsplit' : order = seen ++ [i] ++ rest := by
      rw [hsplit, List.append_assoc]
      rfl
    have hseen : (seen ++ [i]).length ≤ k + c :=
      length_le_of_missing hperm hnear hsplit' (by simp [hk, hik])
    rw [List.length_append, List.length_singleton] at hseen
    omega

theorem withinHalf_of_le (hperm : order.Perm (List.range n)) (hnear : NearOrder c order)
    (hc : c ≤ 2 ^ 14) : WithinHalf order := by
  intro seen i rest hsplit k _ hk
  have := le_of_missing hperm hnear hsplit hk
  omega

end Order

/-- The numbers and payloads of packets of the stream, in the order of arrival. -/
def RtpStream.entries (stream : RtpStream) (seen : List Nat) : List (Nat × Bytes) :=
  seen.map fun i => (stream.start.toNat + i, (stream.packet i).payload)

section Entries

variable (stream : RtpStream) {seen : List Nat} {i j ext : Nat}

theorem latest_entries_iff :
    (∃ payload, latest (stream.entries seen) (stream.start.toNat + j) = some payload) ↔
      j ∈ seen := by
  rw [exists_latest_iff, RtpStream.entries, List.map_map, List.mem_map]
  constructor
  · rintro ⟨i, hi, heq⟩
    have : i = j := Nat.add_left_cancel heq
    exact this ▸ hi
  · exact fun hj => ⟨j, hj, rfl⟩

theorem entries_append : stream.entries (seen ++ [i]) =
    stream.entries seen ++ [(stream.start.toNat + i, (stream.packet i).payload)] := by
  simp [RtpStream.entries]

/-- The distance of a packet from the cursor. -/
theorem seqDistance_packet {k : Nat} (hext : ext = stream.start.toNat + k) (hki : k ≤ i)
    (hin : i < k + 2 ^ 16) :
    seqDistance (BitVec.ofNat 16 ext) (stream.packet i).sequence = i - k := by
  have hsequence : (stream.packet i).sequence = BitVec.ofNat 16 (ext + (i - k)) := by
    have hnumber : ext + (i - k) = stream.start.toNat + i := by omega
    rw [stream.numbered, hnumber, BitVec.ofNat_add, BitVec.ofNat_toNat, BitVec.setWidth_eq]
  rw [hsequence, seqDistance, distance_ofNat (by omega)]

end Entries

namespace Tracked

variable {x : Tracked} {stream : RtpStream} {seen : List Nat} {i capacity ext : Nat}
  {sent : List (Nat × Bytes)}

/-- Nothing has been lost: what has arrived is accepted under its own number, and what has
been emitted is the beginning of the stream. -/
structure Gapless (stream : RtpStream) (seen : List Nat) (x : Tracked) : Prop where
  accepted : x.accepted = stream.entries seen
  length : x.buffer.buffered.size + x.emitted.length = seen.length
  cursor : x.buffer.nextSeq ≠ none → x.ext = stream.start.toNat + x.emitted.length
  filled : ∀ j, j < x.emitted.length → j ∈ seen

/-- The next packet, when the cursor is at `ext`. -/
theorem Gapless.pushAt (h : x.Gapless stream seen)
    (hext : (if x.buffer.nextSeq = none then (stream.packet i).sequence.toNat else x.ext) = ext)
    (hnext : x.buffer.nextSeq.getD (stream.packet i).sequence = BitVec.ofNat 16 ext)
    (hready : x.buffer.Ready ext sent x.accepted)
    (hcursor : ext = stream.start.toNat + x.emitted.length) (hi : i ∉ seen)
    (hhalf : i ≤ x.emitted.length + 0x8000)
    (hroom : ∀ k, k ∉ seen ++ [i] → seen.length + 1 ≤ k + x.buffer.capacity) :
    (x.push (stream.packet i)).Gapless stream (seen ++ [i]) := by
  have hge : x.emitted.length ≤ i := not_lt.mp fun hlt => hi (h.filled i hlt)
  have hdistance := seqDistance_packet stream hcursor hge (by omega)
  have hnumber : JitterBuffer.number ext (stream.packet i) = stream.start.toNat + i := by
    rw [JitterBuffer.number, hdistance]
    omega
  have hlate : seqLess (stream.packet i).sequence (BitVec.ofNat 16 ext) = false := by
    simp only [seqLess, hdistance, decide_eq_false_iff_not]
    omega
  have haccepted : x.accepted ++ [(JitterBuffer.number ext (stream.packet i),
      (stream.packet i).payload)] = stream.entries (seen ++ [i]) := by
    rw [hnumber, h.accepted, entries_append]
  have hnew : (stream.packet i).sequence ∉ x.buffer.buffered.keys := by
    intro hmem
    obtain ⟨payload, hget⟩ := (Dict.mem_keys_iff _ _).mp hmem
    have hheld := heldAt_key ext hget
    have hlatest := (hready.sound.content _ _).mpr (Or.inr hheld)
    refine hi ((latest_entries_iff stream).mp ⟨payload, ?_⟩)
    rw [← h.accepted, ← hnumber]
    exact hlatest
  obtain ⟨sent', drained, hdrained, hpasses, hsound, hnear, hnext', hmissing, hlength⟩ :=
    hready.drained hlate
  rw [Dict.size_set, if_neg hnew] at hlength
  have hlen := h.length
  have hsize : drained.buffered.size ≤ x.buffer.capacity := by
    have hmiss : x.emitted.length + drained.emitted.length ∉ seen ++ [i] := by
      intro hmem
      obtain ⟨payload, hlatest⟩ := (latest_entries_iff stream).mpr hmem
      rw [← haccepted, ← Nat.add_assoc, ← hcursor] at hlatest
      rcases ((hpasses.sound hsound).content _ _).mp hlatest with hsent | hheld
      · exact absurd ((hpasses.sound hsound).below _ hsent) (lt_irrefl _)
      · simp only [Window.ofDict, heldAt_self, hmissing, reduceCtorEq] at hheld
    have := hroom _ hmiss
    omega
  have hbound : drained.emitted.length ≤ 0x8001 := by
    rcases hpasses.last with hstill | ⟨n, payload, hlast, hheld, -⟩
    · have : ext + drained.emitted.length = ext := hstill
      omega
    · have hlast' : ext + drained.emitted.length = n + 1 := hlast
      have := hnear n payload hheld
      omega
  have hpush : x.push (stream.packet i) =
      { buffer := { x.buffer with buffered := drained.buffered, nextSeq := some drained.next }
        ext := ext + drained.emitted.length
        accepted := stream.entries (seen ++ [i])
        emitted := x.emitted ++ drained.emitted } := by
    have hmoved : seqDistance (BitVec.ofNat 16 ext)
        (BitVec.ofNat 16 (ext + drained.emitted.length)) = drained.emitted.length :=
      distance_ofNat (by omega)
    have hbuffer : x.buffer.push (stream.packet i) = (drained.emitted,
        { x.buffer with buffered := drained.buffered, nextSeq := some drained.next }) := by
      simp only [JitterBuffer.push, hnext, hlate, ← hdrained, JitterBuffer.skipGap_of_le hsize,
        List.append_nil]
      rfl
    simp only [Tracked.push, hext, hnext, hlate, hbuffer, Option.getD_some, hnext', hmoved,
      ← haccepted]
    rfl
  rw [hpush]
  refine ⟨rfl, ?_, ?_, ?_⟩
  · simp only [List.length_append, List.length_singleton]
    omega
  · intro _
    simp only [List.length_append]
    omega
  · intro j hj
    rw [List.length_append] at hj
    by_cases hold : j < x.emitted.length
    · exact List.mem_append_left _ (h.filled j hold)
    · obtain ⟨payload, hheld⟩ := hpasses.passed (n := stream.start.toNat + j)
        (by
          simp only [Window.accept, Window.ofDict]
          omega)
        (by
          simp only [Window.ofDict]
          omega)
      have hlatest := (hsound.content _ _).mpr (Or.inr hheld)
      refine (latest_entries_iff stream).mp ⟨payload, ?_⟩
      rw [← haccepted, latest_append]
      exact hlatest

/-- The packet at the cursor has not arrived. -/
theorem Gapless.missing (h : x.Gapless stream seen) (hinv : x.Inv capacity sent) :
    x.emitted.length ∉ seen := by
  intro hmem
  cases hnext : x.buffer.nextSeq with
  | none =>
      have hlength := h.length
      rw [hinv.unused hnext] at hlength
      rw [List.eq_nil_of_length_eq_zero hlength.symm] at hmem
      cases hmem
  | some next =>
      obtain ⟨payload, hlatest⟩ := (latest_entries_iff stream).mpr hmem
      rw [← h.accepted, ← h.cursor (by simp [hnext])] at hlatest
      rcases (hinv.ready.sound.content _ _).mp hlatest with hsent | hheld
      · exact absurd (hinv.ready.sound.below _ hsent) (lt_irrefl _)
      · simp only [Window.ofDict, heldAt_self, hinv.ready.missing, reduceCtorEq] at hheld

theorem run_append (capacity : Nat) (packets : List RtpPacket) (packet : RtpPacket) :
    run capacity (packets ++ [packet]) = (run capacity packets).push packet := by
  rw [run, List.foldl_append]
  rfl

/-- A beginning of the order: packets near their places, the first one first, none too far
ahead. -/
theorem Gapless.run {n : Nat} {order : List Nat} (hperm : order.Perm (List.range n))
    (hnear : NearOrder capacity order) (hfirst : ∀ i, order.head? = some i → i = 0)
    {rest : List Nat} (hsplit : order = seen ++ rest) (hhalf : WithinHalf seen) :
    (run capacity (seen.map stream.packet)).Gapless stream seen := by
  induction seen using List.reverseRecOn generalizing rest with
  | nil => exact ⟨rfl, rfl, by simp [Tracked.run], by simp [Tracked.run]⟩
  | append_singleton seen i ih =>
      have hsplit' : order = seen ++ i :: rest := by
        rw [hsplit, List.append_assoc]
        rfl
      have hgap := ih hsplit' (fun seen' j rest' hseen =>
        hhalf seen' j (rest' ++ [i]) (by simp [hseen]))
      obtain ⟨sent, hinv⟩ := Inv.run capacity (seen.map stream.packet)
      have hnodup : order.Nodup := hperm.nodup_iff.mpr List.nodup_range
      have hi : i ∉ seen := by
        intro hmem
        rw [hsplit'] at hnodup
        exact List.disjoint_of_nodup_append hnodup hmem (List.mem_cons_self)
      have hclose := hhalf seen i [] rfl _ hgap.filled (hgap.missing hinv)
      have hroom : ∀ k, k ∉ seen ++ [i] → seen.length + 1 ≤
          k + (Tracked.run capacity (seen.map stream.packet)).buffer.capacity := by
        intro k hk
        have := length_le_of_missing hperm hnear hsplit hk
        rw [hinv.sameCapacity]
        simpa using this
      rw [List.map_append, List.map_singleton, run_append]
      cases hnext : (Tracked.run capacity (seen.map stream.packet)).buffer.nextSeq with
      | none =>
          have hunused := hinv.unused hnext
          have hnil : seen = [] := by
            have hlength := hgap.length
            rw [hunused] at hlength
            exact List.eq_nil_of_length_eq_zero hlength.symm
          have hzero : i = 0 := hfirst i (by simp [hsplit', hnil])
          have hsequence : (stream.packet i).sequence = stream.start := by
            rw [stream.numbered, hzero]
            simp
          have hready : (Tracked.run capacity (seen.map stream.packet)).buffer.Ready
              (stream.packet i).sequence.toNat []
              (Tracked.run capacity (seen.map stream.packet)).accepted := by
            rw [hunused]
            exact .new
          refine hgap.pushAt (if_pos hnext) ?_ hready ?_ hi hclose hroom
          · rw [hnext, Option.getD_none, BitVec.ofNat_toNat, BitVec.setWidth_eq]
          · rw [hunused, hsequence]
            rfl
      | some next =>
          refine hgap.pushAt (if_neg (by simp [hnext])) ?_ hinv.ready
            (hgap.cursor (by simp [hnext])) hi hclose hroom
          rw [hnext, Option.getD_some]
          exact (hinv.cursor next hnext).1

end Tracked

/-- If the whole order is like that, all packets come out in the order of the stream. -/
theorem outputs_of_withinHalf (stream : RtpStream) {capacity n : Nat} {order : List Nat}
    (hperm : order.Perm (List.range n)) (hnear : NearOrder capacity order)
    (hfirst : ∀ i, order.head? = some i → i = 0) (hhalf : WithinHalf order) :
    JitterBuffer.outputs capacity (order.map stream.packet) =
      (List.range n).map fun i => (stream.packet i).payload := by
  have hgap : (Tracked.run capacity (order.map stream.packet)).Gapless stream order :=
    .run hperm hnear hfirst (List.append_nil order).symm hhalf
  obtain ⟨items, hitems, hsorted, hcontent⟩ :=
    Tracked.outputs_sorted capacity (order.map stream.packet)
  have hentries : (stream.entries (List.range n)).Pairwise (fun d e => d.1 < e.1) :=
    List.pairwise_lt_range.map _ (fun i j hij => Nat.add_lt_add_left hij _)
  have hnodup {l : List (Nat × Bytes)} (hl : l.Pairwise (fun d e => d.1 < e.1)) : l.Nodup :=
    hl.imp fun hlt heq => by
      rw [heq] at hlt
      exact lt_irrefl _ hlt
  have horder : ((stream.entries order).map Prod.fst).Nodup := by
    rw [RtpStream.entries, List.map_map]
    exact (hperm.nodup_iff.mpr List.nodup_range).map (fun i j hij => Nat.add_left_cancel hij)
  have hsame : items = stream.entries (List.range n) := by
    have hmem : items.Perm (stream.entries (List.range n)) := by
      refine (List.perm_ext_iff_of_nodup (hnodup hsorted) (hnodup hentries)).mpr ?_
      rintro ⟨m, payload⟩
      rw [hcontent, hgap.accepted, latest_eq_some_iff horder]
      exact (hperm.map _).mem_iff
    exact hmem.eq_of_pairwise
      (fun d e _ _ hde hed => absurd hed (not_lt.mpr hde.le)) hsorted hentries
  rw [hitems, hsame, RtpStream.entries, List.map_map]
  rfl

/-- Packets that arrive at most as far from their places as the capacity come out in the
order of the stream, if the first of the stream arrives first and none arrives more than half
a turn ahead of a missing one, as with a capacity up to 2^14. -/
theorem outputs_reordered (stream : RtpStream) (capacity n : Nat) (order : List Nat)
    (hperm : order.Perm (List.range n)) (hnear : NearOrder capacity order)
    (hfirst : ∀ i, order.head? = some i → i = 0)
    (hhalf : capacity ≤ 2 ^ 14 ∨ WithinHalf order) :
    JitterBuffer.outputs capacity (order.map stream.packet) =
      (List.range n).map fun i => (stream.packet i).payload := by
  refine outputs_of_withinHalf stream hperm hnear hfirst ?_
  rcases hhalf with hcapacity | hhalf
  · exact withinHalf_of_le hperm hnear hcapacity
  · exact hhalf

section FarAhead

variable {c t i : Nat}

/-- An order of `2 * c + 1` packets: the last one comes as early as it may, just before
packet 1, which comes as late as it may. -/
def farPlace (c t : Nat) : Nat :=
  if t = 0 then 0
  else if t < c then t + 1
  else if t = c then 2 * c
  else if t = c + 1 then 1
  else t - 1

def farOrder (c : Nat) : List Nat := (List.range (2 * c + 1)).map (farPlace c)

theorem farOrder_perm (hc : 0 < c) : (farOrder c).Perm (List.range (2 * c + 1)) := by
  have hinj : ∀ t ∈ List.range (2 * c + 1), ∀ u ∈ List.range (2 * c + 1),
      farPlace c t = farPlace c u → t = u := by
    intro t ht u hu heq
    rw [List.mem_range] at ht hu
    simp only [farPlace] at heq
    split_ifs at heq <;> omega
  have hnodup : (farOrder c).Nodup := List.nodup_range.map_on hinj
  have hsub : farOrder c ⊆ List.range (2 * c + 1) := by
    intro i hi
    obtain ⟨t, ht, rfl⟩ := List.mem_map.mp hi
    rw [List.mem_range] at ht ⊢
    simp only [farPlace]
    split_ifs <;> omega
  exact (hnodup.subperm hsub).perm_of_length_le (by simp [farOrder])

theorem farOrder_near (hc : 0 < c) : NearOrder c (farOrder c) := by
  intro t i hi
  simp only [farOrder, List.getElem?_map, Option.map_eq_some_iff] at hi
  obtain ⟨t', ht', rfl⟩ := hi
  obtain ⟨-, rfl⟩ := List.getElem?_eq_some_iff.mp ht'
  simp only [List.getElem_range, farPlace]
  split_ifs <;> omega

/-- A packet adds at most one entry to the record. -/
theorem Tracked.length_accepted_le (packets : List RtpPacket) (x : Tracked) :
    (packets.foldl push x).accepted.length ≤ x.accepted.length + packets.length := by
  induction packets generalizing x with
  | nil => exact le_rfl
  | cons packet packets ih =>
      have hpush : (x.push packet).accepted.length ≤ x.accepted.length + 1 := by
        simp only [push]
        split_ifs <;> simp
      have := ih (x.push packet)
      rw [List.foldl_cons, List.length_cons]
      omega

/-- No more comes out than has been accepted. -/
theorem Tracked.length_outputs_le (capacity : Nat) (packets : List RtpPacket) :
    (JitterBuffer.outputs capacity packets).length ≤ (run capacity packets).accepted.length := by
  obtain ⟨items, hitems, hsorted, hcontent⟩ := outputs_sorted capacity packets
  have hnodup : (items.map Prod.fst).Nodup := by
    rw [List.Nodup, List.pairwise_map]
    exact hsorted.imp fun hlt => hlt.ne
  have hsub : items.map Prod.fst ⊆ (run capacity packets).accepted.map Prod.fst := by
    intro n hn
    obtain ⟨e, he, rfl⟩ := List.mem_map.mp hn
    exact exists_latest_iff.mp ⟨e.2, (hcontent e.1 e.2).mp he⟩
  have hlength := (hnodup.subperm hsub).length_le
  rw [hitems, List.length_map]
  rwa [List.length_map, List.length_map] at hlength

/-- For each greater capacity there is an order in which the first packet arrives first and
each near its place, and yet one is lost. -/
theorem outputs_far_ahead (stream : RtpStream) {capacity : Nat} (hcapacity : 2 ^ 14 < capacity) :
    ∃ n order, order.Perm (List.range n) ∧ NearOrder capacity order ∧ order.head? = some 0 ∧
      (JitterBuffer.outputs capacity (order.map stream.packet)).length < n := by
  obtain ⟨c, hc⟩ : ∃ c, c = 2 ^ 14 + 1 := ⟨_, rfl⟩
  have hnear : NearOrder capacity (farOrder c) := by
    intro t i hi
    have := farOrder_near (by omega) t i hi
    omega
  have hperm := farOrder_perm (c := c) (by omega)
  have hsplit : farOrder c = (List.range c).map (farPlace c) ++
      2 * c :: (List.range c).map (fun t => farPlace c (c + (t + 1))) := by
    have hlength : 2 * c + 1 = c + (c + 1) := by omega
    have hlast : farPlace c c = 2 * c := by
      rw [farPlace, if_neg (by omega), if_neg (by omega), if_pos rfl]
    rw [farOrder, hlength, List.range_add, List.map_append, List.range_succ_eq_map]
    simp [Function.comp_def, hlast]
  have hhead : (farOrder c).head? = some 0 := by
    rw [farOrder, List.range_succ_eq_map]
    rfl
  have hbelow : ∀ i ∈ (List.range c).map (farPlace c), i ≤ c ∧ i ≠ 1 := by
    intro i hi
    obtain ⟨t, ht, rfl⟩ := List.mem_map.mp hi
    rw [List.mem_range] at ht
    simp only [farPlace]
    split_ifs <;> omega
  have hhalf : WithinHalf ((List.range c).map (farPlace c)) := by
    intro seen i rest hseen k _ _
    have := (hbelow i (by rw [hseen]; simp)).1
    omega
  have hgap : (Tracked.run capacity (((List.range c).map (farPlace c)).map stream.packet)).Gapless
      stream ((List.range c).map (farPlace c)) :=
    .run hperm hnear (fun i hi => by simpa [hhead, eq_comm] using hi) hsplit hhalf
  obtain ⟨sent, hinv⟩ := Tracked.Inv.run capacity
    (((List.range c).map (farPlace c)).map stream.packet)
  have hone : (Tracked.run capacity
      (((List.range c).map (farPlace c)).map stream.packet)).emitted.length = 1 := by
    have hmissing := hgap.missing hinv
    have hzero : 0 ∈ (List.range c).map (farPlace c) :=
      List.mem_map.mpr ⟨0, List.mem_range.mpr (by omega), rfl⟩
    by_contra hne
    rcases Nat.lt_or_gt_of_ne hne with hlt | hgt
    · rw [Nat.lt_one_iff.mp hlt] at hmissing
      exact hmissing hzero
    · exact (hbelow 1 (hgap.filled 1 hgt)).2 rfl
  refine ⟨_, _, hperm, hnear, hhead, ?_⟩
  refine lt_of_le_of_lt (Tracked.length_outputs_le _ _) ?_
  have hlength : (Tracked.run capacity
      (((List.range c).map (farPlace c)).map stream.packet)).accepted.length = c := by
    rw [hgap.accepted]
    simp [RtpStream.entries]
  have hused : (Tracked.run capacity
      (((List.range c).map (farPlace c)).map stream.packet)).buffer.nextSeq ≠ none := by
    intro hnone
    rw [hinv.unused hnone] at hone
    cases hone
  obtain ⟨next, hnext⟩ := Option.ne_none_iff_exists'.mp hused
  have hlate : seqLess (stream.packet (2 * c)).sequence next = true := by
    have hcursor := hgap.cursor hused
    rw [hone] at hcursor
    rw [(hinv.cursor next hnext).1]
    simp only [seqLess, seqDistance_packet stream hcursor (i := 2 * c) (by omega) (by omega),
      decide_eq_true_eq]
    omega
  have hdropped : ((Tracked.run capacity
      (((List.range c).map (farPlace c)).map stream.packet)).push
        (stream.packet (2 * c))).accepted.length = c := by
    simp only [Tracked.push, hnext, Option.getD_some, hlate, if_true, hlength]
  have htotal := Tracked.length_accepted_le
    (((List.range c).map (fun t => farPlace c (c + (t + 1)))).map stream.packet)
    ((Tracked.run capacity (((List.range c).map (farPlace c)).map stream.packet)).push
      (stream.packet (2 * c)))
  rw [hdropped, List.length_map, List.length_map, List.length_range] at htotal
  have hrun : Tracked.run capacity ((farOrder c).map stream.packet) =
      (((List.range c).map (fun t => farPlace c (c + (t + 1)))).map stream.packet).foldl
        Tracked.push ((Tracked.run capacity
          (((List.range c).map (farPlace c)).map stream.packet)).push (stream.packet (2 * c))) := by
    rw [hsplit, List.map_append, Tracked.run, List.foldl_append]
    rfl
  rw [hrun]
  omega

end FarAhead

section Examples

/-- A stream that starts just before the counter wraps. -/
def wrappingStream : RtpStream where
  start := 0xFFFF
  packet i :=
    { sequence := 0xFFFF + BitVec.ofNat 16 i
      timestamp := 0
      ssrc := 0
      payloadType := 96
      marker := false
      payload := [UInt8.ofNat i] }
  numbered _ := rfl

theorem outputs_reordered_wrapping :
    JitterBuffer.outputs 2 ([0, 3, 2, 1].map wrappingStream.packet) = [[0], [1], [2], [3]] := by
  exact outputs_reordered wrappingStream 2 4 [0, 3, 2, 1] (by decide) (by decide) (by simp)
    (Or.inl (by decide))

/-- Packet 1 arrives before packet 0, and packet 0 is lost. -/
theorem outputs_start_late :
    [1, 0].Perm (List.range 2) ∧ NearOrder 1 [1, 0] ∧
      JitterBuffer.outputs 1 ([1, 0].map wrappingStream.packet) = [[1]] ∧
      JitterBuffer.outputs 1 ([1, 0].map wrappingStream.packet) ≠
        (List.range 2).map fun i => (wrappingStream.packet i).payload := by
  decide

end Examples

end Mrcp
end Sandroid
