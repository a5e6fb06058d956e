import Sandroid.Mrcp.CborGrammar

/-!
# How far an item extends

`_cbor_decode` reports how many bytes an item takes, and the loop over a map goes on from
there.  What the encoder writes is read back to its last byte, whatever follows it:
`cbor_map_round_trip`.

The count is not checked against the bytes there are.  A text is cut out with a slice, which
may run past the end of the data; a text that does is only noticed if something has to be read
after it.  `cbor_truncation_rejected_iff` says which truncated payloads get through.
-/

namespace Sandroid
namespace Mrcp

open Lib

/-- The values that the encoder takes. -/
def CborScalar.Encodable : CborScalar → Prop
  | .str s => (utf8 s).length < 2 ^ 64
  | .int n => 0 ≤ n ∧ n < 2 ^ 64

/-- The maps that the encoder takes. -/
structure CborEncodable (m : Dict String CborScalar) : Prop where
  size : m.entries.length ≤ 255
  entries : ∀ k v, (k, v) ∈ m.entries → (utf8 k).length < 2 ^ 64 ∧ v.Encodable

section RoundTrip

theorem cborEncodeHead?_ok_iff (major : Nat) (val : Int) :
    (∃ b, cborEncodeHead? major val = .ok b) ↔ 0 ≤ val ∧ val < 2 ^ 64 := by
  rw [cborEncodeHead?]
  split_ifs with hneg hbig
  · constructor
    · rintro ⟨b, h⟩
      cases h
    · omega
  · constructor
    · rintro ⟨b, h⟩
      cases h
    · omega
  · exact iff_of_true ⟨_, rfl⟩ (by omega)

theorem cborEncodeStr?_ok_iff (s : String) :
    (∃ b, cborEncodeStr? s = .ok b) ↔ (utf8 s).length < 2 ^ 64 := by
  have hhead := cborEncodeHead?_ok_iff 3 (utf8 s).length
  constructor
  · rintro ⟨b, hb⟩
    rw [cborEncodeStr?, except_bind_eq_ok_iff] at hb
    obtain ⟨head, hok, -⟩ := hb
    have := hhead.mp ⟨head, hok⟩
    omega
  · intro hlen
    obtain ⟨head, hok⟩ := hhead.mpr (by omega)
    exact ⟨head ++ utf8 s, by rw [cborEncodeStr?, hok]; rfl⟩

theorem cborEncodeValue?_ok_iff (v : CborScalar) :
    (∃ b, cborEncodeValue? v = .ok b) ↔ v.Encodable := by
  cases v with
  | str s => exact cborEncodeStr?_ok_iff s
  | int n => exact cborEncodeHead?_ok_iff 0 n

theorem cborEncodeEntries?_ok_iff : ∀ entries : List (String × CborScalar),
    (∃ b, cborEncodeEntries? entries = .ok b) ↔
      ∀ k v, (k, v) ∈ entries → (utf8 k).length < 2 ^ 64 ∧ v.Encodable
  | [] => iff_of_true ⟨[], rfl⟩ (fun k v h => by cases h)
  | (k, v) :: entries => by
      have ih := cborEncodeEntries?_ok_iff entries
      constructor
      · rintro ⟨b, hb⟩
        simp only [cborEncodeEntries?, except_bind_eq_ok_iff] at hb
        obtain ⟨key, hkey, value, hvalue, more, hmore, -⟩ := hb
        intro k' v' hmem
        rcases List.mem_cons.mp hmem with heq | hmem
        · cases heq
          exact ⟨(cborEncodeStr?_ok_iff k).mp ⟨key, hkey⟩,
            (cborEncodeValue?_ok_iff v).mp ⟨value, hvalue⟩⟩
        · exact ih.mp ⟨more, hmore⟩ k' v' hmem
      · intro h
        obtain ⟨hk, hv⟩ := h k v List.mem_cons_self
        obtain ⟨key, hkey⟩ := (cborEncodeStr?_ok_iff k).mpr hk
        obtain ⟨value, hvalue⟩ := (cborEncodeValue?_ok_iff v).mpr hv
        obtain ⟨more, hmore⟩ := ih.mpr (fun k' v' hmem => h k' v' (List.mem_cons_of_mem _ hmem))
        exact ⟨key ++ value ++ more, by
          simp only [cborEncodeEntries?, hkey, hvalue, hmore, bind, Except.bind, pure, Except.pure]⟩

theorem cborEncodeMap_ok_iff (m : Dict String CborScalar) :
    (∃ e, cborEncodeMap m = .ok e) ↔ CborEncodable m := by
  constructor
  · rintro ⟨e, he⟩
    obtain ⟨hsize, body, hbody, -⟩ := cborEncodeMap_eq_ok he
    exact ⟨hsize, (cborEncodeEntries?_ok_iff m.entries).mp ⟨body, hbody⟩⟩
  · rintro ⟨hsize, hentries⟩
    obtain ⟨body, hbody⟩ := (cborEncodeEntries?_ok_iff m.entries).mpr hentries
    rw [cborEncodeMap]
    split_ifs with hsmall hbig
    · exact ⟨_, by rw [hbody]; rfl⟩
    · omega
    · exact ⟨_, by rw [hbody]; rfl⟩

/-- **The decoder reads back what the encoder wrote, and not a byte more.** -/
theorem cbor_map_round_trip (m : Dict String CborScalar) :
    ((∃ e, cborEncodeMap m = .ok e) ↔ CborEncodable m) ∧
    ∀ e, cborEncodeMap m = .ok e → ∀ rest limit, 2 ≤ limit →
      cborDecode limit (e ++ rest) = .ok (.map (m.entries.map cborEntry), e.length) := by
  refine ⟨cborEncodeMap_ok_iff m, ?_⟩
  intro e he rest limit hlimit
  obtain ⟨k, rfl⟩ := Nat.exists_eq_add_of_le' hlimit
  exact cborDecode_encodeMap k he rest

end RoundTrip

theorem replyKeys : ["code", "retry"].Nodup := by
  decide

/-- A map with a text and a number of two bytes. -/
def replyMap : Dict String CborScalar :=
  ⟨[("code", .str "BUSY"), ("retry", .int 300)], replyKeys⟩

def replyBytes : Bytes :=
  [0xA2, 0x64, 0x63, 0x6F, 0x64, 0x65, 0x64, 0x42, 0x55, 0x53, 0x59,
    0x65, 0x72, 0x65, 0x74, 0x72, 0x79, 0x19, 0x01, 0x2C]

theorem cbor_map_round_trip_reply :
    cborEncodeMap replyMap = .ok replyBytes ∧
    cborDecode 2 (replyBytes ++ [0xFF]) =
      .ok (.map [(.tstr "code", .tstr "BUSY"), (.tstr "retry", .uint 300)], 20) := by
  have hencode : cborEncodeMap replyMap = .ok replyBytes := by decide +kernel
  exact ⟨hencode, (cbor_map_round_trip replyMap).2 replyBytes hencode [0xFF] 2 le_rfl⟩

/-- The value of the last of `n + 1` entries begins at `last`. -/
inductive CborLastValue (item : Bytes → CborOutcome → Prop) : Nat → Bytes → Bytes → Prop
  | last {data last : Bytes} {kind : CborKind} (hkey : item data (.read kind last))
      (hkind : kind ≠ .map) : CborLastValue item 0 data last
  | next {n : Nat} {data mid rest last : Bytes} {kind kind' : CborKind}
      (hkey : item data (.read kind mid)) (hkind : kind ≠ .map)
      (hvalue : item mid (.read kind' rest)) (hlast : CborLastValue item n rest last) :
      CborLastValue item (n + 1) data last

/-- A text of which the data holds a part that is well formed by itself, or a map of which only
the last value is such an item. -/
inductive CborOverrunStep (item : Bytes → CborOutcome → Prop) (overrun : Bytes → Prop) :
    Bytes → Prop
  | text {data rest : Bytes} {n : Nat} {s : String} (hhead : CborHead data 3 n rest)
      (hlong : rest.length < n) (htext : utf8Decode? rest = some s) :
      CborOverrunStep item overrun data
  | map {data rest last : Bytes} {n : Nat} (hhead : CborHead data 5 (n + 1) rest)
      (hlast : CborLastValue item n rest last) (hover : overrun last) :
      CborOverrunStep item overrun data

/-- The data ends inside the text that comes last in it. -/
def CborOverrunAt : Nat → Bytes → Prop
  | 0 => fun _ => False
  | limit + 1 => CborOverrunStep (CborItemAt limit) (CborOverrunAt limit)

section Truncation

variable {data : Bytes} {limit major val len : Nat} {v : CborItem} {n : Nat}

/-- A head lies within the data, and is the same before any other bytes. -/
theorem cborHead_within (h : cborHead data = .ok (major, val, len)) :
    len ≤ data.length ∧ ∀ rest, cborHead (data.take len ++ rest) = .ok (major, val, len) := by
  cases data with
  | nil => cases h
  | cons ib tail =>
      obtain ⟨m, ai, hib, hai⟩ : ∃ m ai, ib.toNat = m * 32 + ai ∧ ai < 32 :=
        ⟨ib.toNat / 32, ib.toNat % 32, by omega, by omega⟩
      by_cases hshort : ai < 24
      · rw [cborHead_short hib hshort] at h
        cases h
        exact ⟨by simp, fun rest => cborHead_short hib hshort⟩
      by_cases hreserved : 28 ≤ ai
      · rw [cborHead_reserved hib ⟨hreserved, hai⟩] at h
        cases h
      obtain ⟨k, rfl⟩ := Nat.exists_eq_add_of_le (not_lt.mp hshort)
      have hk : k < 4 := by omega
      rw [cborHead_long hib hk] at h
      split_ifs at h with hcut
      cases h
      have harg : (tail.take (2 ^ k)).length = 2 ^ k := List.length_take_of_le (not_lt.mp hcut)
      refine ⟨by rw [List.length_cons]; omega, fun rest => ?_⟩
      rw [Nat.add_comm, List.take_succ_cons, List.cons_append, cborHead_long hib hk,
        if_neg (by rw [List.length_append]; omega), List.take_left' harg, Nat.add_comm]

theorem cborDecode_nil (r : CborItem × Nat) : cborDecode limit [] ≠ .ok r := by
  cases limit with
  | zero => exact fun h => by cases h
  | succ limit => exact fun h => by cases h

/-- What one round of the loop over the entries goes through. -/
theorem cborEntries_succ_eq_ok {decode : Bytes → Except CborError (CborItem × Nat)}
    {count pos : Nat} {out : List (CborKey × CborItem)} {r : CborItem × Nat}
    (h : cborEntries decode data (count + 1) pos out = .ok r) :
    ∃ k kn v vn key, decode (data.drop pos) = .ok (k, kn) ∧
      decode (data.drop (pos + kn)) = .ok (v, vn) ∧ k.asKey = .ok key ∧
      cborEntries decode data count (pos + kn + vn) (Dict.upsert key v out) = .ok r := by
  simp only [cborEntries, except_bind_eq_ok_iff] at h
  obtain ⟨⟨k, kn⟩, hk, ⟨v, vn⟩, hv, key, hkey, hrest⟩ := h
  exact ⟨k, kn, v, vn, key, hk, hv, hkey, hrest⟩

theorem le_of_cborEntries {decode : Bytes → Except CborError (CborItem × Nat)} {count pos : Nat}
    {out : List (CborKey × CborItem)}
    (h : cborEntries decode data count pos out = .ok (v, n)) : pos ≤ n := by
  induction count generalizing pos out with
  | zero =>
      cases h
      exact le_rfl
  | succ count ih =>
      obtain ⟨k, kn, v', vn, key, -, -, -, hrest⟩ := cborEntries_succ_eq_ok h
      have := ih hrest
      omega

/-- An item that was read, as the grammar sees it. -/
theorem cborItemAt_of_decode (h : cborDecode limit data = .ok (v, n)) :
    CborItemAt limit data (.read v.kind (data.drop n)) := by
  rw [item_iff, h]
  rfl

theorem kind_of_asKey {k : CborItem} {key : CborKey} (h : k.asKey = .ok key) : k.kind ≠ .map := by
  rcases k.asKey_cases with ⟨-, herror⟩ | ⟨hkind, -⟩
  · rw [herror] at h
    cases h
  · exact hkind

/-- An item of the grammar, as it is read at a position of the data. -/
theorem decode_of_cborItemAt {pos : Nat} {kind : CborKind} {mid : Bytes}
    (h : CborItemAt limit (data.drop pos) (.read kind mid)) :
    ∃ k kn, cborDecode limit (data.drop pos) = .ok (k, kn) ∧ k.kind = kind ∧
      mid = data.drop (pos + kn) := by
  rw [item_iff] at h
  cases hdecode : cborDecode limit (data.drop pos) with
  | error e =>
      rw [hdecode] at h
      cases h
  | ok r =>
      rw [hdecode] at h
      cases h
      exact ⟨r.1, r.2, rfl, rfl, List.drop_drop⟩

theorem exists_asKey {k : CborItem} (hkind : k.kind ≠ .map) : ∃ key, k.asKey = .ok key := by
  rcases k.asKey_cases with ⟨hmap, -⟩ | ⟨-, hkey⟩
  · exact absurd hmap hkind
  · exact hkey

/-- A map that takes more bytes than there are ends in a value that does. -/
theorem lastValue_of_cborEntries
    (hover : ∀ data v n, cborDecode limit data = .ok (v, n) → data.length < n →
      CborOverrunAt limit data)
    {count pos : Nat} {out : List (CborKey × CborItem)}
    (h : cborEntries (cborDecode limit) data count pos out = .ok (v, n))
    (hpos : pos ≤ data.length) (hlong : data.length < n) :
    ∃ c last, count = c + 1 ∧ CborLastValue (CborItemAt limit) c (data.drop pos) last ∧
      CborOverrunAt limit last := by
  induction count generalizing pos out with
  | zero =>
      cases h
      omega
  | succ count ih =>
      obtain ⟨k, kn, v', vn, key, hk, hv, hkey, hrest⟩ := cborEntries_succ_eq_ok h
      have hkeyItem := cborItemAt_of_decode hk
      have hkind := kind_of_asKey hkey
      rw [List.drop_drop] at hkeyItem
      have hmid : pos + kn < data.length := by
        by_contra hend
        rw [List.drop_eq_nil_of_le (not_lt.mp hend)] at hv
        exact cborDecode_nil _ hv
      by_cases hvalue : pos + kn + vn ≤ data.length
      · obtain ⟨c, last, rfl, hlast, hlastOver⟩ := ih hrest hvalue
        have hvalueItem := cborItemAt_of_decode hv
        rw [List.drop_drop] at hvalueItem
        exact ⟨c + 1, last, rfl, .next hkeyItem hkind hvalueItem hlast, hlastOver⟩
      · cases count with
        | zero =>
            refine ⟨0, data.drop (pos + kn), rfl, .last hkeyItem hkind, ?_⟩
            refine hover _ v' vn hv ?_
            rw [List.length_drop]
            omega
        | succ count =>
            obtain ⟨k', kn', v'', vn', key', hk', -, -, -⟩ := cborEntries_succ_eq_ok hrest
            rw [List.drop_eq_nil_of_le (by omega)] at hk'
            exact absurd hk' (cborDecode_nil _)

/-- An item that takes more bytes than there are ends in a text that does. -/
theorem overrun_of_decode (h : cborDecode limit data = .ok (v, n)) (hlong : data.length < n) :
    CborOverrunAt limit data := by
  induction limit generalizing data v n with
  | zero => cases h
  | succ limit ih =>
      obtain ⟨major, val, len, hhead, hgrammar⟩ | ⟨e, hhead, -⟩ := cborHead_cases data
      · obtain ⟨hlen, -⟩ := cborHead_within hhead
        rw [cborDecode_head hhead] at h
        split_ifs at h with h₀ h₃ h₅
        · cases h
          omega
        · subst h₃
          rw [cborText] at h
          split at h
          · cases h
          · rename_i s hs
            cases h
            have hshort : (data.drop len).length < val := by
              rw [List.length_drop]
              omega
            rw [List.take_of_length_le hshort.le] at hs
            exact .text hgrammar hshort hs
        · subst h₅
          obtain ⟨c, last, rfl, hlast, hover⟩ :=
            lastValue_of_cborEntries (fun _ _ _ h hlong => ih h hlong) h hlen hlong
          exact .map hgrammar hlast hover
      · rw [cborDecode_error hhead] at h
        cases h

/-- The loop reaches a last value that takes more bytes than there are. -/
theorem cborEntries_of_lastValue {c pos : Nat} {last : Bytes}
    (hlast : CborLastValue (CborItemAt limit) c (data.drop pos) last)
    (hover : ∃ v n, cborDecode limit last = .ok (v, n) ∧ last.length < n)
    (out : List (CborKey × CborItem)) :
    ∃ v n, cborEntries (cborDecode limit) data (c + 1) pos out = .ok (v, n) ∧ data.length < n := by
  induction c generalizing pos out with
  | zero =>
      cases hlast with
      | last hkey hkind =>
          obtain ⟨k, kn, hk, rfl, rfl⟩ := decode_of_cborItemAt hkey
          obtain ⟨key, hkey⟩ := exists_asKey hkind
          obtain ⟨v, vn, hv, hlong⟩ := hover
          refine ⟨.map (Dict.upsert key v out), pos + kn + vn,
            by simp only [cborEntries, hk, hv, hkey, bind, Except.bind], ?_⟩
          rw [List.length_drop] at hlong
          omega
  | succ c ih =>
      cases hlast with
      | next hkey hkind hvalue hrest =>
          obtain ⟨k, kn, hk, rfl, rfl⟩ := decode_of_cborItemAt hkey
          obtain ⟨key, hkey⟩ := exists_asKey hkind
          obtain ⟨v, vn, hv, -, rfl⟩ := decode_of_cborItemAt hvalue
          obtain ⟨w, n, hloop, hlong⟩ := ih hrest (Dict.upsert key v out)
          refine ⟨w, n, ?_, hlong⟩
          rw [cborEntries]
          simp only [hk, hv, hkey, bind, Except.bind, hloop]

theorem decode_of_overrun (h : CborOverrunAt limit data) :
    ∃ v n, cborDecode limit data = .ok (v, n) ∧ data.length < n := by
  induction limit generalizing data with
  | zero => cases h
  | succ limit ih =>
      cases h with
      | @text rest n s hhead hlong htext =>
          obtain ⟨len, hdecoded, rfl⟩ := hhead.decoded
          refine ⟨.tstr s, len + n, ?_, ?_⟩
          · rw [cborDecode_head hdecoded, if_neg (by decide), if_pos rfl, cborText,
              List.take_of_length_le hlong.le, htext]
          · rw [List.length_drop] at hlong
            omega
      | map hhead hlast hover =>
          obtain ⟨len, hdecoded, rfl⟩ := hhead.decoded
          obtain ⟨v, n, hloop, hlong⟩ := cborEntries_of_lastValue hlast (ih hover) []
          refine ⟨v, n, ?_, hlong⟩
          rw [cborDecode_head hdecoded, if_neg (by decide), if_neg (by decide), if_pos rfl, hloop]

/-- The loop sees nothing of the bytes after the entries that it reads. -/
theorem cborEntries_take
    (hdecode : ∀ data v n, cborDecode limit data = .ok (v, n) → n ≤ data.length →
      ∀ rest, cborDecode limit (data.take n ++ rest) = .ok (v, n))
    {count pos : Nat} {out : List (CborKey × CborItem)}
    (h : cborEntries (cborDecode limit) data count pos out = .ok (v, n)) (hn : n ≤ data.length)
    (rest : Bytes) :
    cborEntries (cborDecode limit) (data.take n ++ rest) count pos out = .ok (v, n) := by
  induction count generalizing pos out with
  | zero => exact h
  | succ count ih =>
      obtain ⟨k, kn, v', vn, key, hk, hv, hkey, hrest⟩ := cborEntries_succ_eq_ok h
      have hend : pos + kn + vn ≤ n := le_of_cborEntries hrest
      have hitem : ∀ {p m : Nat} {w : CborItem}, p + m ≤ n →
          cborDecode limit (data.drop p) = .ok (w, m) →
          cborDecode limit ((data.take n ++ rest).drop p) = .ok (w, m) := by
        intro p m w hm hw
        have hsplit : (data.take n ++ rest).drop p =
            (data.drop p).take m ++ (((data.drop p).drop m).take (n - p - m) ++ rest) := by
          rw [List.drop_append_of_le_length (by rw [List.length_take]; omega), List.drop_take,
            ← List.append_assoc, ← List.take_add]
          congr 2
          omega
        rw [hsplit]
        exact hdecode _ w m hw (by rw [List.length_drop]; omega) _
      simp only [cborEntries, hitem (by omega) hk, hitem (by omega) hv, hkey, bind, Except.bind]
      exact ih hrest

/-- An item that lies within the data is the same before any other bytes. -/
theorem cborDecode_take (h : cborDecode limit data = .ok (v, n)) (hn : n ≤ data.length)
    (rest : Bytes) : cborDecode limit (data.take n ++ rest) = .ok (v, n) := by
  induction limit generalizing data v n rest with
  | zero => cases h
  | succ limit ih =>
      obtain ⟨major, val, len, hhead, -⟩ | ⟨e, hhead, -⟩ := cborHead_cases data
      · obtain ⟨hlen, hsame⟩ := cborHead_within hhead
        have hle : len ≤ n := by
          rw [cborDecode_head hhead] at h
          split_ifs at h
          · cases h
            exact le_rfl
          · rw [cborText] at h
            split at h
            · cases h
            · cases h
              omega
          · exact le_of_cborEntries h
        have hhead' : cborHead (data.take n ++ rest) = .ok (major, val, len) := by
          have hsplit : data.take n ++ rest =
              data.take len ++ ((data.drop len).take (n - len) ++ rest) := by
            rw [← List.append_assoc, ← List.take_add, Nat.add_sub_cancel' hle]
          rw [hsplit]
          exact hsame _
        rw [cborDecode_head hhead] at h
        rw [cborDecode_head hhead']
        split_ifs at h ⊢
        · exact h
        · rw [cborText] at h ⊢
          have hlenn : n = len + val := by
            split at h
            · cases h
            · cases h
              rfl
          have hval : ((data.drop len).take val).length = val := by
            rw [List.length_take, List.length_drop]
            omega
          rw [List.drop_append_of_le_length (by rw [List.length_take]; omega), List.drop_take,
            hlenn, Nat.add_sub_cancel_left, List.take_left' hval]
          rwa [hlenn] at h
        · exact cborEntries_take (fun _ _ _ h hn rest => ih h hn rest) h hn rest
      · rw [cborDecode_error hhead] at h
        cases h

/-- **Truncated input is turned down, unless it breaks off inside the last text.** -/
theorem cbor_truncation_rejected_iff (limit : Nat) (data : Bytes) :
    (∀ v n, cborDecode limit data = .ok (v, n) →
      n ≤ data.length ∧ cborDecode limit (data.take n) = .ok (v, n)) ↔
      ¬ CborOverrunAt limit data := by
  constructor
  · intro hwithin hover
    obtain ⟨v, n, hdecode, hlong⟩ := decode_of_overrun hover
    have := (hwithin v n hdecode).1
    omega
  · intro hnot v n hdecode
    have hn : n ≤ data.length := by
      by_contra hlong
      exact hnot (overrun_of_decode hdecode (not_le.mp hlong))
    refine ⟨hn, ?_⟩
    have htake := cborDecode_take hdecode hn []
    rwa [List.append_nil] at htake

end Truncation

/-- A text of two bytes, and a byte after it. -/
def greetingBytes : Bytes :=
  [0x62, 0x68, 0x69, 0xFF]

theorem cbor_truncation_rejected_greeting :
    3 ≤ greetingBytes.length ∧
    cborDecode 1 (greetingBytes.take 3) = .ok (.tstr "hi", 3) := by
  have hdecode : cborDecode 1 greetingBytes = .ok (.tstr "hi", 3) := rfl
  have hwhole : ¬ CborOverrunAt 1 greetingBytes := by
    intro hover
    obtain ⟨v, n, hlong, hn⟩ := decode_of_overrun hover
    rw [hdecode] at hlong
    cases hlong
    exact absurd hn (by decide)
  exact (cbor_truncation_rejected_iff 1 greetingBytes).mpr hwhole (.tstr "hi") 3 hdecode

/-- A text that declares five bytes, cut off after two. -/
def cutText : Bytes :=
  [0x65, 0x68, 0x69]

/-- The same text as the value of a map. -/
def cutMap : Bytes :=
  [0xA1, 0x61, 0x61, 0x65, 0x68, 0x69]

/-- Truncated payloads that are accepted, as shorter texts. -/
theorem cbor_truncation_accepted :
    cborDecode 2 cutText = .ok (.tstr "hi", 6) ∧
    cborDecode 2 cutMap = .ok (.map [(.tstr "a", .tstr "hi")], 9) ∧
    (¬ ∀ v n, cborDecode 2 cutText = .ok (v, n) →
      n ≤ cutText.length ∧ cborDecode 2 (cutText.take n) = .ok (v, n)) ∧
    ¬ ∀ v n, cborDecode 2 cutMap = .ok (v, n) →
      n ≤ cutMap.length ∧ cborDecode 2 (cutMap.take n) = .ok (v, n) := by
  have htext : cborDecode 2 cutText = .ok (.tstr "hi", 6) := rfl
  have hmap : cborDecode 2 cutMap = .ok (.map [(.tstr "a", .tstr "hi")], 9) := rfl
  refine ⟨htext, hmap, fun h => ?_, fun h => ?_⟩
  · exact absurd (h _ _ htext).1 (by decide)
  · exact absurd (h _ _ hmap).1 (by decide)

end Mrcp
end Sandroid
