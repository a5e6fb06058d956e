import Sandroid.Lib.Dict
import Sandroid.Lib.ExceptLoop
import Sandroid.Lib.Utf8
import Sandroid.Mrcp.BridgeFrames
import Mathlib.Tactic

/-!
# The bridge's CBOR subset

`_cbor_decode` and `_cbor_encode_map` of `adapters/mrcp/bridge.py`: unsigned
integers, text strings and maps.

Only some of the ways in which decoding fails are `CBORError`; the others are the
exceptions of the Python operations it uses.  The first argument of `cborDecode`
is the number of calls that the interpreter's recursion limit still allows.
-/

namespace Sandroid
namespace Mrcp

open Lib

/-- Hashable items. -/
inductive CborKey where
  | uint (n : Nat)
  | tstr (s : String)
deriving DecidableEq, Repr

/-- Decoded items; a map lists its entries in insertion order. -/
inductive CborItem where
  | uint (n : Nat)
  | tstr (s : String)
  | map (entries : List (CborKey × CborItem))
deriving Repr

inductive CborError where
  /-- `CBORError("empty")` -/
  | empty
  /-- `CBORError("unsupported additional info ...")` -/
  | additionalInfo (ai : Nat)
  /-- `CBORError("unsupported major type ...")` -/
  | majorType (major : Nat)
  | indexError
  | structError
  | unicodeDecodeError
  /-- `TypeError`: a map as the key of a map -/
  | unhashable
  | recursionError
deriving DecidableEq, Repr

/-- Eight big-endian bytes. -/
def packU64 (n : Nat) : Bytes :=
  packU32 (n / 2 ^ 32) ++ packU32 n

/-- Major type, value and length of the head of an item. -/
def cborHead : Bytes → Except CborError (Nat × Nat × Nat)
  | [] => .error .empty
  | ib :: rest =>
      let major := ib.toNat / 32
      let ai := ib.toNat % 32
      if ai < 24 then
        .ok (major, ai, 1)
      else if ai = 24 then
        match rest with
        | b :: _ => .ok (major, b.toNat, 2)
        | _ => .error .indexError
      else if ai = 25 then
        match rest with
        | b₀ :: b₁ :: _ => .ok (major, unpackU16 b₀ b₁, 3)
        | _ => .error .structError
      else if ai = 26 then
        match rest with
        | b₀ :: b₁ :: b₂ :: b₃ :: _ => .ok (major, unpackU32 b₀ b₁ b₂ b₃, 5)
        | _ => .error .structError
      else if ai = 27 then
        match rest with
        | b₀ :: b₁ :: b₂ :: b₃ :: b₄ :: b₅ :: b₆ :: b₇ :: _ =>
            .ok (major, unpackU32 b₀ b₁ b₂ b₃ * 2 ^ 32 + unpackU32 b₄ b₅ b₆ b₇, 9)
        | _ => .error .structError
      else
        .error (.additionalInfo ai)

def CborItem.asKey : CborItem → Except CborError CborKey
  | .uint n => .ok (.uint n)
  | .tstr s => .ok (.tstr s)
  | .map _ => .error .unhashable

/-- The loop over the entries of a map, on the bytes `data[pos:]`. -/
def cborEntries (decode : Bytes → Except CborError (CborItem × Nat)) (data : Bytes) :
    Nat → Nat → List (CborKey × CborItem) → Except CborError (CborItem × Nat)
  | 0, pos, out => .ok (.map out, pos)
  | count + 1, pos, out => do
      let (k, kn) ← decode (data.drop pos)
      let (v, vn) ← decode (data.drop (pos + kn))
      let key ← k.asKey
      cborEntries decode data count (pos + kn + vn) (Dict.upsert key v out)

/-- `data[pos:end].decode("utf-8")`: the slice is cut off at the end of the data
without an error. -/
def cborText (data : Bytes) (val pos : Nat) : Except CborError (CborItem × Nat) :=
  match utf8Decode? ((data.drop pos).take val) with
  | none => .error .unicodeDecodeError
  | some s => .ok (.tstr s, pos + val)

/-- `_cbor_decode`: the item and the number of bytes it takes. -/
def cborDecode : Nat → Bytes → Except CborError (CborItem × Nat)
  | 0, _ => .error .recursionError
  | limit + 1, data => do
      let (major, val, pos) ← cborHead data
      if major = 0 then
        .ok (.uint val, pos)
      else if major = 3 then
        cborText data val pos
      else if major = 5 then
        cborEntries (cborDecode limit) data val pos []
      else
        .error (.majorType major)

/-- The values that the encoder supports. -/
inductive CborScalar where
  | str (s : String)
  | int (n : Int)
deriving DecidableEq, Repr

inductive CborEncodeError where
  /-- `bytearray.append` of a number that is not a byte -/
  | valueError
  | structError
deriving DecidableEq, Repr

/-- `_cbor_encode_head`, for a value below 2^64. -/
def cborEncodeHead (major val : Nat) : Bytes :=
  if val < 24 then
    [UInt8.ofNat (major * 32 + val)]
  else if val ≤ 0xFF then
    [UInt8.ofNat (major * 32 + 24), UInt8.ofNat val]
  else if val ≤ 0xFFFF then
    UInt8.ofNat (major * 32 + 25) :: packU16 val
  else if val ≤ 0xFFFFFFFF then
    UInt8.ofNat (major * 32 + 26) :: packU32 val
  else
    UInt8.ofNat (major * 32 + 27) :: packU64 val

/-- `_cbor_encode_head`, for any integer. -/
def cborEncodeHead? (major : Nat) (val : Int) : Except CborEncodeError Bytes :=
  if val < 0 then
    .error .valueError
  else if 2 ^ 64 ≤ val then
    .error .structError
  else
    .ok (cborEncodeHead major val.toNat)

/-- The bytes of a text string. -/
def cborEncodeStr (s : String) : Bytes :=
  cborEncodeHead 3 (utf8 s).length ++ utf8 s

/-- `_cbor_encode_str`. -/
def cborEncodeStr? (s : String) : Except CborEncodeError Bytes := do
  let head ← cborEncodeHead? 3 (utf8 s).length
  return head ++ utf8 s

def cborEncodeValue? : CborScalar → Except CborEncodeError Bytes
  | .str s => cborEncodeStr? s
  | .int n => cborEncodeHead? 0 n

/-- The loop of `_cbor_encode_map`. -/
def cborEncodeEntries? : List (String × CborScalar) → Except CborEncodeError Bytes
  | [] => .ok []
  | (k, v) :: entries => do
      let key ← cborEncodeStr? k
      let value ← cborEncodeValue? v
      let more ← cborEncodeEntries? entries
      return key ++ value ++ more

def cborEncodeMap (m : Dict String CborScalar) : Except CborEncodeError Bytes :=
  if m.entries.length < 24 then do
    let body ← cborEncodeEntries? m.entries
    return UInt8.ofNat (0xA0 + m.entries.length) :: body
  else if 255 < m.entries.length then
    .error .valueError
  else do
    let body ← cborEncodeEntries? m.entries
    return 0xB8 :: UInt8.ofNat m.entries.length :: body

section Heads

/-- A head that was encoded is read back, whatever follows. -/
theorem cborHead_encode {major val : Nat} (hmajor : major < 8) (hval : val < 2 ^ 64)
    (rest : Bytes) :
    cborHead (cborEncodeHead major val ++ rest) =
      .ok (major, val, (cborEncodeHead major val).length) := by
  have hbyte : ∀ ai, ai < 32 → (UInt8.ofNat (major * 32 + ai)).toNat = major * 32 + ai := by
    intro ai hai
    rw [UInt8.toNat_ofNat']
    omega
  have hdiv : ∀ ai, ai < 32 → (major * 32 + ai) / 32 = major ∧ (major * 32 + ai) % 32 = ai := by
    intro ai hai
    omega
  rw [cborEncodeHead]
  split_ifs with h₁ h₂ h₃ h₄
  · simp only [List.cons_append, List.nil_append, cborHead, hbyte val (by omega),
      (hdiv val (by omega)).1, (hdiv val (by omega)).2, if_pos h₁, List.length_singleton]
  · have hv : (UInt8.ofNat val).toNat = val := by
      rw [UInt8.toNat_ofNat']
      omega
    simp only [List.cons_append, List.nil_append, cborHead, hbyte 24 (by omega),
      (hdiv 24 (by omega)).1, (hdiv 24 (by omega)).2, hv]
    simp
  · simp only [packU16, List.cons_append, List.nil_append, cborHead, hbyte 25 (by omega),
      (hdiv 25 (by omega)).1, (hdiv 25 (by omega)).2,
      unpackU16_packU16 (show val < 2 ^ 16 by omega)]
    simp
  · simp only [packU32, List.cons_append, List.nil_append, cborHead, hbyte 26 (by omega),
      (hdiv 26 (by omega)).1, (hdiv 26 (by omega)).2,
      unpackU32_packU32 (show val < 2 ^ 32 by omega)]
    simp
  · have hhi := unpackU32_packU32 (show val / 2 ^ 32 < 2 ^ 32 by omega)
    have hlo : unpackU32 (UInt8.ofNat (val / 2 ^ 24)) (UInt8.ofNat (val / 2 ^ 16))
        (UInt8.ofNat (val / 2 ^ 8)) (UInt8.ofNat val) = val % 2 ^ 32 := by
      simp only [unpackU32, UInt8.toNat_ofNat']
      omega
    simp only [packU64, packU32, List.cons_append, List.nil_append, cborHead,
      hbyte 27 (by omega), (hdiv 27 (by omega)).1, (hdiv 27 (by omega)).2, hhi, hlo]
    simp [Nat.div_add_mod']

theorem length_cborEncodeHead_le (major val : Nat) : (cborEncodeHead major val).length ≤ 9 := by
  rw [cborEncodeHead]
  split_ifs <;> simp [packU16, packU32, packU64]

end Heads

section Items

variable (limit : Nat) (rest : Bytes)

theorem cborDecode_uint {n : Nat} (hn : n < 2 ^ 64) :
    cborDecode (limit + 1) (cborEncodeHead 0 n ++ rest) =
      .ok (.uint n, (cborEncodeHead 0 n).length) := by
  rw [cborDecode, cborHead_encode (by decide) hn]
  rfl

theorem cborDecode_str {s : String} (hs : (utf8 s).length < 2 ^ 64) :
    cborDecode (limit + 1) (cborEncodeStr s ++ rest) = .ok (.tstr s, (cborEncodeStr s).length) := by
  have htext : cborText (cborEncodeHead 3 (utf8 s).length ++ (utf8 s ++ rest)) (utf8 s).length
      (cborEncodeHead 3 (utf8 s).length).length = .ok (.tstr s, (cborEncodeStr s).length) := by
    rw [cborText, List.drop_left, List.take_left, utf8Decode?_utf8, cborEncodeStr,
      List.length_append]
  rw [cborDecode, cborEncodeStr, List.append_assoc, cborHead_encode (by decide) hs]
  exact htext

end Items

section Maps

/-- The item a value is decoded to. -/
def CborScalar.item : CborScalar → CborItem
  | .str s => .tstr s
  | .int n => .uint n.toNat

/-- The entry of a decoded map. -/
def cborEntry (entry : String × CborScalar) : CborKey × CborItem :=
  (.tstr entry.1, entry.2.item)

variable (limit : Nat)

theorem cborEncodeHead?_eq_ok {major : Nat} {val : Int} {b : Bytes}
    (h : cborEncodeHead? major val = .ok b) :
    val.toNat < 2 ^ 64 ∧ b = cborEncodeHead major val.toNat := by
  rw [cborEncodeHead?] at h
  split_ifs at h with hneg hbig
  have hb := Except.ok.inj h
  refine ⟨by omega, hb.symm⟩

theorem cborEncodeStr?_eq_ok {s : String} {b : Bytes} (h : cborEncodeStr? s = .ok b) :
    (utf8 s).length < 2 ^ 64 ∧ b = cborEncodeStr s := by
  rw [cborEncodeStr?, except_bind_eq_ok_iff] at h
  obtain ⟨head, hhead, hb⟩ := h
  obtain ⟨hlen, rfl⟩ := cborEncodeHead?_eq_ok hhead
  rw [Int.toNat_natCast] at hlen hb
  exact ⟨hlen, (Except.ok.inj hb).symm⟩

theorem cborDecode_value {v : CborScalar} {b : Bytes} (h : cborEncodeValue? v = .ok b)
    (rest : Bytes) : cborDecode (limit + 1) (b ++ rest) = .ok (v.item, b.length) := by
  cases v with
  | str s =>
    obtain ⟨hlen, rfl⟩ := cborEncodeStr?_eq_ok h
    exact cborDecode_str limit rest hlen
  | int n =>
    obtain ⟨hlen, rfl⟩ := cborEncodeHead?_eq_ok h
    exact cborDecode_uint limit rest hlen

/-- The loop over encoded entries with new keys. -/
theorem cborEntries_encode {entries : List (String × CborScalar)} {body : Bytes}
    (h : cborEncodeEntries? entries = .ok body) {data rest : Bytes} {pos : Nat}
    (hdata : data.drop pos = body ++ rest) {out : List (CborKey × CborItem)}
    (hnew : (out.map Prod.fst ++ (entries.map cborEntry).map Prod.fst).Nodup) :
    cborEntries (cborDecode (limit + 1)) data entries.length pos out =
      .ok (.map (out ++ entries.map cborEntry), pos + body.length) := by
  induction entries generalizing body pos out with
  | nil =>
    cases h
    simp [cborEntries]
  | cons entry entries ih =>
    obtain ⟨k, v⟩ := entry
    simp only [cborEncodeEntries?, except_bind_eq_ok_iff] at h
    obtain ⟨key, hkey, value, hvalue, more, hmore, hbody⟩ := h
    have hbody := (Except.ok.inj hbody).symm
    subst hbody
    have hk : cborDecode (limit + 1) (data.drop pos) = .ok (.tstr k, key.length) := by
      obtain ⟨hlen, rfl⟩ := cborEncodeStr?_eq_ok hkey
      rw [hdata, List.append_assoc, List.append_assoc]
      exact cborDecode_str limit _ hlen
    have hafter : data.drop (pos + key.length) = value ++ (more ++ rest) := by
      rw [← List.drop_drop, hdata, List.append_assoc, List.append_assoc, List.drop_left]
    have hv : cborDecode (limit + 1) (data.drop (pos + key.length)) =
        .ok (v.item, value.length) := by
      rw [hafter]
      exact cborDecode_value limit hvalue _
    have hrest : data.drop (pos + key.length + value.length) = more ++ rest := by
      rw [← List.drop_drop, hafter, List.drop_left]
    have hfresh : CborKey.tstr k ∉ out.map Prod.fst := by
      intro hmem
      exact (List.disjoint_of_nodup_append hnew) hmem (by simp [cborEntry])
    have hnew' : ((out ++ [(CborKey.tstr k, v.item)]).map Prod.fst ++
        (entries.map cborEntry).map Prod.fst).Nodup := by
      simpa [cborEntry] using hnew
    have hloop := ih hmore hrest hnew'
    rw [List.length_cons, cborEntries, hk]
    simp only [bind, Except.bind, hv, CborItem.asKey]
    rw [Dict.upsert_of_not_mem _ _ _ hfresh, hloop]
    simp [cborEntry, Nat.add_assoc]

/-- The map head of the encoder is the general head. -/
theorem cborEncodeMap_eq_ok {m : Dict String CborScalar} {e : Bytes}
    (h : cborEncodeMap m = .ok e) :
    m.entries.length ≤ 255 ∧ ∃ body, cborEncodeEntries? m.entries = .ok body ∧
      e = cborEncodeHead 5 m.entries.length ++ body := by
  rw [cborEncodeMap] at h
  split_ifs at h with hsmall hbig
  · rw [except_bind_eq_ok_iff] at h
    obtain ⟨body, hbody, he⟩ := h
    refine ⟨by omega, body, hbody, ?_⟩
    rw [cborEncodeHead, if_pos hsmall]
    exact (Except.ok.inj he).symm
  · rw [except_bind_eq_ok_iff] at h
    obtain ⟨body, hbody, he⟩ := h
    refine ⟨by omega, body, hbody, ?_⟩
    rw [cborEncodeHead, if_neg hsmall, if_pos (by omega)]
    exact (Except.ok.inj he).symm

/-- What the encoder returns decodes to the same map. -/
theorem cborDecode_encodeMap {m : Dict String CborScalar} {e : Bytes}
    (h : cborEncodeMap m = .ok e) (rest : Bytes) :
    cborDecode (limit + 2) (e ++ rest) = .ok (.map (m.entries.map cborEntry), e.length) := by
  obtain ⟨hlen, body, hbody, rfl⟩ := cborEncodeMap_eq_ok h
  have hkeys : (([] : List (CborKey × CborItem)).map Prod.fst ++
      (m.entries.map cborEntry).map Prod.fst).Nodup := by
    have hmap : (m.entries.map cborEntry).map Prod.fst =
        (m.entries.map Prod.fst).map CborKey.tstr := by
      simp [cborEntry, Function.comp_def]
    rw [List.map_nil, List.nil_append, hmap]
    exact m.nodupKeys.map (fun s t hst => CborKey.tstr.inj hst)
  have hdata : (cborEncodeHead 5 m.entries.length ++ (body ++ rest)).drop
      (cborEncodeHead 5 m.entries.length).length = body ++ rest := List.drop_left
  have hloop := cborEntries_encode limit hbody hdata hkeys
  rw [cborDecode, List.append_assoc, cborHead_encode (by decide) (by omega)]
  rw [List.nil_append] at hloop
  rw [List.length_append]
  exact hloop

end Maps

end Mrcp
end Sandroid
