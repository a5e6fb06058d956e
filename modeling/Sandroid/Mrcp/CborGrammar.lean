import Sandroid.Mrcp.BridgeCbor

/-!
# The grammar of the CBOR subset

What the bytes of an item look like and, where they are no item, what the first fault is.
`item_iff` says that `_cbor_decode` follows this grammar: it returns exactly where there is
an item, and raises the exception of the first fault.
-/

namespace Sandroid
namespace Mrcp

open Lib

inductive CborKind where
  | uint
  | text
  | map
deriving DecidableEq, Repr

inductive CborFault where
  /-- no byte where an item begins -/
  | missing
  /-- additional info 28 to 31 -/
  | reserved
  /-- a major type other than 0, 3 and 5 -/
  | unsupported
  /-- fewer bytes than the argument of a head takes -/
  | cutShort
  /-- a text that is not UTF-8 -/
  | badText
  /-- a map as the key of a map -/
  | mapAsKey
  /-- more nested maps than the interpreter has calls for -/
  | tooDeep
deriving DecidableEq, Repr

/-- An item and what follows it, or the first fault. -/
inductive CborOutcome where
  | read (kind : CborKind) (rest : Bytes)
  | fault (f : CborFault)
deriving DecidableEq, Repr

def bigEndian (arg : Bytes) : Nat := arg.foldl (fun n b => n * 2 ^ 8 + b.toNat) 0

/-- The head of an item: its major type, its argument, and what follows. -/
inductive CborHead : Bytes → Nat → Nat → Bytes → Prop
  | short {ib : UInt8} {major n : Nat} {rest : Bytes} (hib : ib.toNat = major * 32 + n)
      (hn : n < 24) : CborHead (ib :: rest) major n rest
  | long {ib : UInt8} {major k : Nat} {arg rest : Bytes}
      (hib : ib.toNat = major * 32 + (24 + k)) (hk : k < 4) (harg : arg.length = 2 ^ k) :
      CborHead (ib :: (arg ++ rest)) major (bigEndian arg) rest

/-- The entries of a map; a key that is a map is a fault once the value has been read. -/
inductive CborEntries (item : Bytes → CborOutcome → Prop) : Nat → Bytes → CborOutcome → Prop
  | done {data : Bytes} : CborEntries item 0 data (.read .map data)
  | keyFault {n : Nat} {data : Bytes} {f : CborFault} (hkey : item data (.fault f)) :
      CborEntries item (n + 1) data (.fault f)
  | valueFault {n : Nat} {data mid : Bytes} {kind : CborKind} {f : CborFault}
      (hkey : item data (.read kind mid)) (hvalue : item mid (.fault f)) :
      CborEntries item (n + 1) data (.fault f)
  | mapAsKey {n : Nat} {data mid rest : Bytes} {kind : CborKind}
      (hkey : item data (.read .map mid)) (hvalue : item mid (.read kind rest)) :
      CborEntries item (n + 1) data (.fault .mapAsKey)
  | more {n : Nat} {data mid rest : Bytes} {kind kind' : CborKind} {o : CborOutcome}
      (hkey : item data (.read kind mid)) (hkind : kind ≠ .map)
      (hvalue : item mid (.read kind' rest)) (hrest : CborEntries item n rest o) :
      CborEntries item (n + 1) data o

/-- An item whose nested items are given. -/
inductive CborItemStep (item : Bytes → CborOutcome → Prop) : Bytes → CborOutcome → Prop
  | missing : CborItemStep item [] (.fault .missing)
  | reserved {ib : UInt8} {major n : Nat} {rest : Bytes} (hib : ib.toNat = major * 32 + n)
      (hn : 28 ≤ n ∧ n < 32) : CborItemStep item (ib :: rest) (.fault .reserved)
  | cutShort {ib : UInt8} {major k : Nat} {arg : Bytes}
      (hib : ib.toNat = major * 32 + (24 + k)) (hk : k < 4) (harg : arg.length < 2 ^ k) :
      CborItemStep item (ib :: arg) (.fault .cutShort)
  | unsupported {data rest : Bytes} {major n : Nat} (hhead : CborHead data major n rest)
      (hmajor : major ≠ 0 ∧ major ≠ 3 ∧ major ≠ 5) : CborItemStep item data (.fault .unsupported)
  | uint {data rest : Bytes} {n : Nat} (hhead : CborHead data 0 n rest) :
      CborItemStep item data (.read .uint rest)
  | text {data rest : Bytes} {n : Nat} {s : String} (hhead : CborHead data 3 n rest)
      (htext : utf8Decode? (rest.take n) = some s) :
      CborItemStep item data (.read .text (rest.drop n))
  | badText {data rest : Bytes} {n : Nat} (hhead : CborHead data 3 n rest)
      (htext : utf8Decode? (rest.take n) = none) : CborItemStep item data (.fault .badText)
  | map {data rest : Bytes} {n : Nat} {o : CborOutcome} (hhead : CborHead data 5 n rest)
      (hentries : CborEntries item n rest o) : CborItemStep item data o

/-- The items that `limit` nested calls can read. -/
def CborItemAt : Nat → Bytes → CborOutcome → Prop
  | 0 => fun _ o => o = .fault .tooDeep
  | limit + 1 => CborItemStep (CborItemAt limit)

def CborItem.kind : CborItem → CborKind
  | .uint _ => .uint
  | .tstr _ => .text
  | .map _ => .map

def CborError.fault : CborError → CborFault
  | .empty => .missing
  | .additionalInfo _ => .reserved
  | .majorType _ => .unsupported
  | .indexError => .cutShort
  | .structError => .cutShort
  | .unicodeDecodeError => .badText
  | .unhashable => .mapAsKey
  | .recursionError => .tooDeep

/-- The outcome of a decoder on `data`. -/
def outcome (data : Bytes) : Except CborError (CborItem × Nat) → CborOutcome
  | .ok (item, n) => .read item.kind (data.drop n)
  | .error e => .fault e.fault

section Head

variable {ib : UInt8} {rest data : Bytes} {major n k : Nat}

theorem cborHead_short (hib : ib.toNat = major * 32 + n) (hn : n < 24) :
    cborHead (ib :: rest) = .ok (major, n, 1) := by
  have hmajor : ib.toNat / 32 = major := by omega
  have hinfo : ib.toNat % 32 = n := by omega
  simp only [cborHead, hmajor, hinfo, if_pos hn]

/-- A head with an argument of `2 ^ k` bytes. -/
theorem cborHead_long (hib : ib.toNat = major * 32 + (24 + k)) (hk : k < 4) :
    cborHead (ib :: rest) =
      if rest.length < 2 ^ k then .error (if k = 0 then .indexError else .structError)
      else .ok (major, bigEndian (rest.take (2 ^ k)), 1 + 2 ^ k) := by
  have hmajor : ib.toNat / 32 = major := by omega
  have hinfo : ib.toNat % 32 = 24 + k := by omega
  simp only [cborHead, hmajor, hinfo]
  rcases Nat.lt_or_ge k 1 with h | h
  · obtain rfl : k = 0 := by omega
    rcases rest with _ | ⟨b, rest⟩
    · rfl
    · have harg : bigEndian (List.take 1 (b :: rest)) = b.toNat := Nat.zero_add _
      simp [harg]
  rcases Nat.lt_or_ge k 2 with h | h
  · obtain rfl : k = 1 := by omega
    rcases rest with _ | ⟨b₀, _ | ⟨b₁, rest⟩⟩
    · rfl
    · rfl
    · have harg : bigEndian [b₀, b₁] = unpackU16 b₀ b₁ := by
        simp only [bigEndian, unpackU16, List.foldl_cons, List.foldl_nil]
        omega
      simp [harg]
  rcases Nat.lt_or_ge k 3 with h | h
  · obtain rfl : k = 2 := by omega
    rcases rest with _ | ⟨b₀, _ | ⟨b₁, _ | ⟨b₂, _ | ⟨b₃, rest⟩⟩⟩⟩
    · rfl
    · rfl
    · rfl
    · rfl
    · have harg : bigEndian [b₀, b₁, b₂, b₃] = unpackU32 b₀ b₁ b₂ b₃ := by
        simp only [bigEndian, unpackU32, List.foldl_cons, List.foldl_nil]
        omega
      simp [harg]
  · obtain rfl : k = 3 := by omega
    rcases rest with _ | ⟨b₀, _ | ⟨b₁, _ | ⟨b₂, _ | ⟨b₃, tail⟩⟩⟩⟩
    · rfl
    · rfl
    · rfl
    · rfl
    · rcases tail with _ | ⟨b₄, _ | ⟨b₅, _ | ⟨b₆, _ | ⟨b₇, tail⟩⟩⟩⟩
      · rfl
      · rfl
      · rfl
      · rfl
      · have harg : bigEndian [b₀, b₁, b₂, b₃, b₄, b₅, b₆, b₇] =
            unpackU32 b₀ b₁ b₂ b₃ * 2 ^ 32 + unpackU32 b₄ b₅ b₆ b₇ := by
          simp only [bigEndian, unpackU32, List.foldl_cons, List.foldl_nil]
          omega
        simp [harg]

theorem cborHead_reserved (hib : ib.toNat = major * 32 + n) (hn : 28 ≤ n ∧ n < 32) :
    cborHead (ib :: rest) = .error (.additionalInfo n) := by
  have hinfo : ib.toNat % 32 = n := by omega
  simp only [cborHead, hinfo]
  rw [if_neg (by omega), if_neg (by omega), if_neg (by omega), if_neg (by omega), if_neg (by omega)]

theorem CborHead.decoded (h : CborHead data major n rest) :
    ∃ len, cborHead data = .ok (major, n, len) ∧ data.drop len = rest := by
  cases h with
  | short hib hn => exact ⟨1, cborHead_short hib hn, rfl⟩
  | @long ib _ k arg _ hib hk harg =>
      refine ⟨1 + 2 ^ k, ?_, ?_⟩
      · rw [cborHead_long hib hk, if_neg (by simp [harg]), ← harg, List.take_left]
      · rw [Nat.add_comm, List.drop_succ_cons, ← harg, List.drop_left]

/-- A head is read, or it is cut short or reserved. -/
theorem cborHead_cases (data : Bytes) :
    (∃ major n len, cborHead data = .ok (major, n, len) ∧ CborHead data major n (data.drop len)) ∨
      ∃ e, cborHead data = .error e ∧
        ∀ item : Bytes → CborOutcome → Prop, CborItemStep item data (.fault e.fault) := by
  cases data with
  | nil => exact Or.inr ⟨.empty, rfl, fun _ => .missing⟩
  | cons ib rest =>
      obtain ⟨major, n, hib, hn⟩ : ∃ major n, ib.toNat = major * 32 + n ∧ n < 32 :=
        ⟨ib.toNat / 32, ib.toNat % 32, by omega, by omega⟩
      by_cases hshort : n < 24
      · exact Or.inl ⟨major, n, 1, cborHead_short hib hshort, .short hib hshort⟩
      by_cases hreserved : 28 ≤ n
      · exact Or.inr
          ⟨_, cborHead_reserved hib ⟨hreserved, hn⟩, fun _ => .reserved hib ⟨hreserved, hn⟩⟩
      obtain ⟨k, rfl⟩ := Nat.exists_eq_add_of_le (not_lt.mp hshort)
      have hk : k < 4 := by omega
      have hhead : cborHead (ib :: rest) = _ := cborHead_long hib hk
      by_cases hcut : rest.length < 2 ^ k
      · rw [if_pos hcut] at hhead
        refine Or.inr ⟨_, hhead, fun _ => ?_⟩
        split_ifs <;> exact .cutShort hib hk hcut
      · rw [if_neg hcut] at hhead
        refine Or.inl ⟨major, _, _, hhead, ?_⟩
        have hlong : CborHead (ib :: (rest.take (2 ^ k) ++ rest.drop (2 ^ k))) major
            (bigEndian (rest.take (2 ^ k))) (rest.drop (2 ^ k)) :=
          .long hib hk (List.length_take_of_le (not_lt.mp hcut))
        rw [List.take_append_drop] at hlong
        rwa [Nat.add_comm, List.drop_succ_cons]

end Head

section Decode

variable {item : Bytes → CborOutcome → Prop} {decode : Bytes → Except CborError (CborItem × Nat)}
  {data : Bytes} {o : CborOutcome}

/-- A map key that can be hashed. -/
theorem CborItem.asKey_cases (k : CborItem) :
    (k.kind = .map ∧ k.asKey = .error .unhashable) ∨
      k.kind ≠ .map ∧ ∃ key, k.asKey = .ok key := by
  cases k with
  | uint n => exact Or.inr ⟨by simp [CborItem.kind], _, rfl⟩
  | tstr s => exact Or.inr ⟨by simp [CborItem.kind], _, rfl⟩
  | map entries => exact Or.inl ⟨rfl, rfl⟩

/-- The loop over the entries follows the grammar if the decoder of items does. -/
theorem cborEntries_iff (hitem : ∀ data o, item data o ↔ outcome data (decode data) = o)
    (count pos : Nat) (out : List (CborKey × CborItem)) :
    CborEntries item count (data.drop pos) o ↔
      outcome data (cborEntries decode data count pos out) = o := by
  induction count generalizing pos out o with
  | zero =>
      constructor
      · intro h
        cases h
        rfl
      · rintro rfl
        exact .done
  | succ count ih =>
      have hread {kind : CborKind} {mid : Bytes} {pos : Nat}
          (h : item (data.drop pos) (.read kind mid)) :
          ∃ k n, decode (data.drop pos) = .ok (k, n) ∧ k.kind = kind ∧
            data.drop (pos + n) = mid := by
        have houtcome := (hitem _ _).mp h
        cases hdecode : decode (data.drop pos) with
        | error e => simp [hdecode, outcome] at houtcome
        | ok r =>
            simp only [hdecode, outcome, CborOutcome.read.injEq, List.drop_drop] at houtcome
            exact ⟨r.1, r.2, rfl, houtcome.1, houtcome.2⟩
      have hfault {f : CborFault} {pos : Nat} (h : item (data.drop pos) (.fault f)) :
          ∃ e, decode (data.drop pos) = .error e ∧ e.fault = f := by
        have houtcome := (hitem _ _).mp h
        cases hdecode : decode (data.drop pos) with
        | error e => exact ⟨e, rfl, by simpa [hdecode, outcome] using houtcome⟩
        | ok r => simp [hdecode, outcome] at houtcome
      constructor
      · intro h
        cases h with
        | keyFault hkey =>
            obtain ⟨e, hdecode, rfl⟩ := hfault hkey
            simp [cborEntries, hdecode, bind, Except.bind, outcome]
        | valueFault hkey hvalue =>
            obtain ⟨k, n, hdecode, -, rfl⟩ := hread hkey
            obtain ⟨e, hdecode', rfl⟩ := hfault hvalue
            simp [cborEntries, hdecode, hdecode', bind, Except.bind, outcome]
        | mapAsKey hkey hvalue =>
            obtain ⟨k, n, hdecode, hkind, rfl⟩ := hread hkey
            obtain ⟨v, m, hdecode', -, rfl⟩ := hread hvalue
            obtain ⟨-, hasKey⟩ | ⟨hne, -⟩ := k.asKey_cases
            · simp [cborEntries, hdecode, hdecode', hasKey, bind, Except.bind, outcome,
                CborError.fault]
            · exact absurd hkind hne
        | more hkey hkind hvalue hrest =>
            obtain ⟨k, n, hdecode, rfl, rfl⟩ := hread hkey
            obtain ⟨v, m, hdecode', -, rfl⟩ := hread hvalue
            obtain ⟨hmap, -⟩ | ⟨-, key, hasKey⟩ := k.asKey_cases
            · exact absurd hmap hkind
            · have hloop := (ih (pos + n + m) (Dict.upsert key v out)).mp hrest
              simpa [cborEntries, hdecode, hdecode', hasKey, bind, Except.bind] using hloop
      · rintro rfl
        cases hdecode : decode (data.drop pos) with
        | error e =>
            have hkey := (hitem (data.drop pos) (.fault e.fault)).mpr (by simp [hdecode, outcome])
            simpa [cborEntries, hdecode, bind, Except.bind, outcome] using .keyFault hkey
        | ok r =>
            obtain ⟨k, n⟩ := r
            have hkey := (hitem (data.drop pos) (.read k.kind (data.drop (pos + n)))).mpr
              (by simp [hdecode, outcome])
            cases hdecode' : decode (data.drop (pos + n)) with
            | error e =>
                have hvalue := (hitem (data.drop (pos + n)) (.fault e.fault)).mpr
                  (by simp [hdecode', outcome])
                simpa [cborEntries, hdecode, hdecode', bind, Except.bind, outcome] using
                  .valueFault hkey hvalue
            | ok r =>
                obtain ⟨v, m⟩ := r
                have hvalue := (hitem (data.drop (pos + n))
                  (.read v.kind (data.drop (pos + n + m)))).mpr (by simp [hdecode', outcome])
                obtain ⟨hmap, hasKey⟩ | ⟨hkind, key, hasKey⟩ := k.asKey_cases
                · rw [hmap] at hkey
                  simpa [cborEntries, hdecode, hdecode', hasKey, bind, Except.bind, outcome,
                    CborError.fault] using .mapAsKey hkey hvalue
                · have hrest := (ih (pos + n + m) (Dict.upsert key v out)).mpr rfl
                  simpa [cborEntries, hdecode, hdecode', hasKey, bind, Except.bind] using
                    .more hkey hkind hvalue hrest

/-- The dispatch on the major type. -/
theorem cborDecode_head {limit major n len : Nat} (h : cborHead data = .ok (major, n, len)) :
    cborDecode (limit + 1) data =
      if major = 0 then .ok (.uint n, len)
      else if major = 3 then cborText data n len
      else if major = 5 then cborEntries (cborDecode limit) data n len []
      else .error (.majorType major) := by
  simp only [cborDecode, h, bind, Except.bind]

theorem cborDecode_error {limit : Nat} {e : CborError} (h : cborHead data = .error e) :
    cborDecode (limit + 1) data = .error e := by
  simp only [cborDecode, h, bind, Except.bind]

/-- `_cbor_decode` follows the grammar. -/
theorem item_iff (limit : Nat) (data : Bytes) (o : CborOutcome) :
    CborItemAt limit data o ↔ outcome data (cborDecode limit data) = o := by
  induction limit generalizing data o with
  | zero => exact eq_comm
  | succ limit ih =>
      constructor
      · intro h
        cases h with
        | missing => rfl
        | reserved hib hn =>
            rw [cborDecode_error (cborHead_reserved hib hn)]
            rfl
        | @cutShort ib _ k arg hib hk harg =>
            have hhead : cborHead (ib :: arg) = _ := cborHead_long hib hk
            rw [if_pos harg] at hhead
            rw [cborDecode_error hhead]
            split_ifs <;> rfl
        | unsupported hhead hmajor =>
            obtain ⟨len, hdecoded, -⟩ := hhead.decoded
            rw [cborDecode_head hdecoded, if_neg hmajor.1, if_neg hmajor.2.1, if_neg hmajor.2.2]
            rfl
        | uint hhead =>
            obtain ⟨len, hdecoded, rfl⟩ := hhead.decoded
            rw [cborDecode_head hdecoded, if_pos rfl]
            rfl
        | text hhead htext =>
            obtain ⟨len, hdecoded, rfl⟩ := hhead.decoded
            rw [cborDecode_head hdecoded, if_neg (by decide), if_pos rfl, cborText, htext]
            simp [outcome, CborItem.kind]
        | badText hhead htext =>
            obtain ⟨len, hdecoded, rfl⟩ := hhead.decoded
            rw [cborDecode_head hdecoded, if_neg (by decide), if_pos rfl, cborText, htext]
            rfl
        | map hhead hentries =>
            obtain ⟨len, hdecoded, rfl⟩ := hhead.decoded
            rw [cborDecode_head hdecoded, if_neg (by decide), if_neg (by decide), if_pos rfl]
            exact (cborEntries_iff ih _ _ []).mp hentries
      · rintro rfl
        obtain ⟨major, n, len, hdecoded, hhead⟩ | ⟨e, hdecoded, hstep⟩ := cborHead_cases data
        · rw [cborDecode_head hdecoded]
          by_cases h₀ : major = 0
          · subst h₀
            exact .uint hhead
          rw [if_neg h₀]
          by_cases h₃ : major = 3
          · subst h₃
            rw [if_pos rfl, cborText]
            cases htext : utf8Decode? ((data.drop len).take n) with
            | none => exact .badText hhead htext
            | some s =>
                have htextItem : CborItemStep (CborItemAt limit) data
                    (.read .text ((data.drop len).drop n)) := .text hhead htext
                rwa [List.drop_drop] at htextItem
          rw [if_neg h₃]
          by_cases h₅ : major = 5
          · subst h₅
            rw [if_pos rfl]
            exact .map hhead ((cborEntries_iff ih n len []).mpr rfl)
          · rw [if_neg h₅]
            exact .unsupported hhead ⟨h₀, h₃, h₅⟩
        · rw [cborDecode_error hdecoded]
          exact hstep _

end Decode

end Mrcp
end Sandroid
