import Mathlib.Data.List.Nodup

/-!
# Insertion-ordered dictionaries

A dictionary is a list of entries whose keys are pairwise distinct; the list
order is the order of first insertion.  `set` replaces the value of a key that
is already present in its place and appends an entry for a new key, so that
`values` enumerates the dictionary the way an insertion-ordered hash map does.

The lemmas say what `get?`, `keys` and `size` see after `empty`, `set`
and `mapVal`; `ext_get?` recovers a dictionary from its keys and lookups.
-/

namespace Sandroid
namespace Lib

universe u v

/-- Association list with pairwise distinct keys, in insertion order. -/
structure Dict (κ : Type u) (β : Type v) where
  entries : List (κ × β)
  nodupKeys : (entries.map Prod.fst).Nodup

namespace Dict

variable {κ : Type u} {β : Type v} [DecidableEq κ]

instance [DecidableEq β] : DecidableEq (Dict κ β) := fun d e =>
  decidable_of_iff (d.entries = e.entries) (by
    cases d; cases e; simp)

/-- The dictionary with no entries. -/
def empty : Dict κ β := ⟨[], List.nodup_nil⟩

/-- Keys in insertion order. -/
def keys (d : Dict κ β) : List κ := d.entries.map Prod.fst

/-- Values in insertion order. -/
def values (d : Dict κ β) : List β := d.entries.map Prod.snd

/-- Number of entries. -/
def size (d : Dict κ β) : Nat := d.entries.length

/-- Value of the first entry with key `k`. -/
def lookup (k : κ) : List (κ × β) → Option β
  | [] => none
  | e :: l => if e.1 = k then some e.2 else lookup k l

/-- Value stored under `k`, if any. -/
def get? (d : Dict κ β) (k : κ) : Option β := lookup k d.entries

/-- Replace the value of the first entry with key `k`, or append an entry. -/
def upsert (k : κ) (b : β) : List (κ × β) → List (κ × β)
  | [] => [(k, b)]
  | e :: l => if e.1 = k then (k, b) :: l else e :: upsert k b l

theorem map_fst_upsert (k : κ) (b : β) :
    ∀ l : List (κ × β),
      (upsert k b l).map Prod.fst =
        if k ∈ l.map Prod.fst then l.map Prod.fst
        else l.map Prod.fst ++ [k]
  | [] => by simp [upsert]
  | e :: l => by
      by_cases h : e.1 = k
      · simp [upsert, h]
      · have ih := map_fst_upsert k b l
        by_cases hk : k ∈ l.map Prod.fst
        · rw [if_pos hk] at ih
          have hmem : k ∈ (e :: l).map Prod.fst := by
            rw [List.map_cons]
            exact List.mem_cons_of_mem _ hk
          rw [if_pos hmem]
          simp only [upsert, if_neg h, List.map_cons, ih]
        · rw [if_neg hk] at ih
          have hmem : k ∉ (e :: l).map Prod.fst := by
            rw [List.map_cons, List.mem_cons]
            rintro (he | hl)
            · exact h he.symm
            · exact hk hl
          rw [if_neg hmem]
          simp only [upsert, if_neg h, List.map_cons, ih, List.cons_append]

/-- `d[k] = b`. -/
def set (d : Dict κ β) (k : κ) (b : β) : Dict κ β where
  entries := upsert k b d.entries
  nodupKeys := by
    rw [map_fst_upsert]
    split_ifs with h
    · exact d.nodupKeys
    · rw [List.nodup_append]
      refine ⟨d.nodupKeys, List.nodup_singleton k, ?_⟩
      intro x hx y hy
      rw [List.mem_singleton] at hy
      rw [hy]
      rintro rfl
      exact h hx

/-- Apply `f` to every entry's key and value, keeping keys and order. -/
def mapVal {γ : Type*} (f : κ → β → γ) (d : Dict κ β) : Dict κ γ where
  entries := d.entries.map (fun e => (e.1, f e.1 e.2))
  nodupKeys := by
    have h : (d.entries.map (fun e => (e.1, f e.1 e.2))).map Prod.fst =
        d.entries.map Prod.fst := by
      rw [List.map_map]; rfl
    rw [h]
    exact d.nodupKeys

theorem lookup_upsert (k k' : κ) (b : β) :
    ∀ l : List (κ × β),
      lookup k' (upsert k b l) = if k = k' then some b else lookup k' l
  | [] => by simp [upsert, lookup]
  | e :: l => by
      have ih := lookup_upsert k k' b l
      by_cases h : e.1 = k
      · by_cases hk : k = k'
        · simp [upsert, lookup, h, hk]
        · simp [upsert, lookup, h, hk]
      · by_cases hk : k = k'
        · have h' : ¬ e.1 = k' := fun he => h (he.trans hk.symm)
          simp only [upsert, if_neg h, lookup, if_neg h', ih, if_pos hk]
        · simp only [upsert, if_neg h, lookup, ih, if_neg hk]

@[simp] theorem get?_empty (k : κ) :
    (empty : Dict κ β).get? k = none := rfl

theorem get?_set (d : Dict κ β) (k k' : κ) (b : β) :
    (d.set k b).get? k' = if k = k' then some b else d.get? k' :=
  lookup_upsert k k' b d.entries

@[simp] theorem get?_set_self (d : Dict κ β) (k : κ) (b : β) :
    (d.set k b).get? k = some b := by
  rw [get?_set, if_pos rfl]

theorem get?_set_ne (d : Dict κ β) {k k' : κ} (h : k ≠ k') (b : β) :
    (d.set k b).get? k' = d.get? k' := by
  rw [get?_set, if_neg h]

theorem keys_set (d : Dict κ β) (k : κ) (b : β) :
    (d.set k b).keys = if k ∈ d.keys then d.keys else d.keys ++ [k] :=
  map_fst_upsert k b d.entries

omit [DecidableEq κ] in
@[simp] theorem keys_mapVal {γ : Type*} (f : κ → β → γ) (d : Dict κ β) :
    (d.mapVal f).keys = d.keys := by
  simp [keys, mapVal, List.map_map]

theorem lookup_map {γ : Type*} (f : κ → β → γ) (k : κ) :
    ∀ l : List (κ × β),
      lookup k (l.map (fun e => (e.1, f e.1 e.2))) = (lookup k l).map (f k)
  | [] => rfl
  | e :: l => by
      by_cases h : e.1 = k
      · simp [lookup, h]
      · simp [lookup, h, lookup_map f k l]

@[simp] theorem get?_mapVal {γ : Type*} (f : κ → β → γ) (d : Dict κ β) (k : κ) :
    (d.mapVal f).get? k = (d.get? k).map (f k) :=
  lookup_map f k d.entries

theorem lookup_eq_none_iff (k : κ) :
    ∀ l : List (κ × β), lookup k l = none ↔ k ∉ l.map Prod.fst
  | [] => by simp [lookup]
  | e :: l => by
      by_cases h : e.1 = k
      · simp [lookup, h]
      · have ih := lookup_eq_none_iff k l
        rw [lookup, if_neg h, ih, List.map_cons, List.mem_cons, not_or]
        constructor
        · exact fun hl => ⟨fun he => h he.symm, hl⟩
        · exact fun hl => hl.2

theorem get?_eq_none_iff (d : Dict κ β) (k : κ) :
    d.get? k = none ↔ k ∉ d.keys :=
  lookup_eq_none_iff k d.entries

theorem mem_keys_iff (d : Dict κ β) (k : κ) :
    k ∈ d.keys ↔ ∃ b, d.get? k = some b := by
  constructor
  · intro h
    cases hg : d.get? k with
    | none => exact absurd h ((get?_eq_none_iff d k).mp hg)
    | some b => exact ⟨b, rfl⟩
  · rintro ⟨b, hb⟩
    by_contra h
    rw [(get?_eq_none_iff d k).mpr h] at hb
    cases hb

theorem lookup_eq_some_iff {k : κ} {b : β} :
    ∀ {l : List (κ × β)}, (l.map Prod.fst).Nodup →
      (lookup k l = some b ↔ (k, b) ∈ l)
  | [], _ => by simp [lookup]
  | e :: l, hnd => by
      rw [List.map_cons, List.nodup_cons] at hnd
      have ih := lookup_eq_some_iff (k := k) (b := b) hnd.2
      by_cases h : e.1 = k
      · rw [lookup, if_pos h, List.mem_cons]
        constructor
        · intro hb
          left
          rw [← h, ← Option.some.inj hb]
        · rintro (he | hl)
          · rw [← he]
          · exfalso
            apply hnd.1
            rw [h]
            exact List.mem_map.mpr ⟨(k, b), hl, rfl⟩
      · rw [lookup, if_neg h, ih, List.mem_cons]
        constructor
        · exact Or.inr
        · rintro (he | hl)
          · exact absurd (by rw [← he]) h
          · exact hl

/-- Looking a key up finds exactly the entry that carries it. -/
theorem get?_eq_some_iff (d : Dict κ β) (k : κ) (b : β) :
    d.get? k = some b ↔ (k, b) ∈ d.entries :=
  lookup_eq_some_iff d.nodupKeys

theorem get?_isSome_iff (d : Dict κ β) (k : κ) :
    (d.get? k).isSome ↔ k ∈ d.keys := by
  rw [Option.isSome_iff_exists, mem_keys_iff]

omit [DecidableEq κ] in
@[simp] theorem length_keys (d : Dict κ β) : d.keys.length = d.size := by
  simp [keys, size]

/-- Setting a present key keeps the size; a new key adds one entry. -/
theorem size_set (d : Dict κ β) (k : κ) (b : β) :
    (d.set k b).size = if k ∈ d.keys then d.size else d.size + 1 := by
  rw [← length_keys, keys_set]
  split_ifs with h
  · exact length_keys d
  · rw [List.length_append, length_keys]
    rfl

theorem upsert_of_not_mem (k : κ) (b : β) :
    ∀ l : List (κ × β), k ∉ l.map Prod.fst → upsert k b l = l ++ [(k, b)]
  | [], _ => rfl
  | e :: l, h => by
      rw [List.map_cons, List.mem_cons, not_or] at h
      have hne : ¬ e.1 = k := fun he => h.1 he.symm
      rw [upsert, if_neg hne, upsert_of_not_mem k b l h.2, List.cons_append]

/-- A new key's entry is appended. -/
theorem entries_set_of_not_mem (d : Dict κ β) {k : κ} (h : k ∉ d.keys) (b : β) :
    (d.set k b).entries = d.entries ++ [(k, b)] :=
  upsert_of_not_mem k b d.entries h

/-- `d.pop(k)`: the entry of `k` is removed. -/
def erase (d : Dict κ β) (k : κ) : Dict κ β where
  entries := d.entries.eraseP (fun e => e.1 = k)
  nodupKeys := d.nodupKeys.sublist (List.eraseP_sublist.map Prod.fst)

theorem lookup_eraseP (k k' : κ) :
    ∀ l : List (κ × β), (l.map Prod.fst).Nodup →
      lookup k' (l.eraseP (fun e => e.1 = k)) = if k = k' then none else lookup k' l
  | [], _ => by simp [lookup]
  | e :: l, hnd => by
      rw [List.map_cons, List.nodup_cons] at hnd
      have ih := lookup_eraseP k k' l hnd.2
      by_cases h : e.1 = k
      · have hnone : lookup k l = none := (lookup_eq_none_iff k l).mpr (h ▸ hnd.1)
        by_cases hk : k = k'
        · simp [h, ← hk, hnone]
        · simp [h, hk, lookup]
      · by_cases hk : k = k'
        · have h' : ¬ e.1 = k' := fun he => h (he.trans hk.symm)
          simp only [List.eraseP_cons, h, decide_false, cond_false, lookup, if_neg h', ih,
            if_pos hk]
        · simp only [List.eraseP_cons, h, decide_false, cond_false, lookup, ih, if_neg hk]

theorem get?_erase (d : Dict κ β) (k k' : κ) :
    (d.erase k).get? k' = if k = k' then none else d.get? k' :=
  lookup_eraseP k k' d.entries d.nodupKeys

/-- Removing a present key removes one entry. -/
theorem size_erase (d : Dict κ β) {k : κ} (h : k ∈ d.keys) : (d.erase k).size + 1 = d.size := by
  obtain ⟨e, he, hk⟩ := List.mem_map.mp h
  have hpos : 0 < d.entries.length := List.length_pos_of_mem he
  have hlength : (d.entries.eraseP (fun e => e.1 = k)).length = d.entries.length - 1 :=
    List.length_eraseP_of_mem he (by simp [hk])
  simp only [size, erase, hlength]
  omega

/-- Entry lists with the same keys and the same lookups are equal. -/
theorem entries_ext :
    ∀ {l m : List (κ × β)}, (l.map Prod.fst).Nodup →
      l.map Prod.fst = m.map Prod.fst →
      (∀ k, lookup k l = lookup k m) → l = m
  | [], [], _, _, _ => rfl
  | [], e :: m, _, hk, _ => by simp at hk
  | e :: l, [], _, hk, _ => by simp at hk
  | e :: l, e' :: m, hnd, hk, hl => by
      rw [List.map_cons, List.map_cons, List.cons.injEq] at hk
      obtain ⟨hfst, hrest⟩ := hk
      rw [List.map_cons, List.nodup_cons] at hnd
      have hval : e.2 = e'.2 := by
        have h := hl e.1
        rw [lookup, if_pos rfl, lookup, if_pos hfst.symm] at h
        exact Option.some.inj h
      have htail : l = m := by
        apply entries_ext hnd.2 hrest
        intro k
        by_cases hke : e.1 = k
        · have h1 : lookup k l = none := by
            rw [lookup_eq_none_iff, ← hke]
            exact hnd.1
          have h2 : lookup k m = none := by
            rw [lookup_eq_none_iff, ← hke, ← hrest]
            exact hnd.1
          rw [h1, h2]
        · have h := hl k
          rw [lookup, if_neg hke, lookup, if_neg (hfst ▸ hke)] at h
          exact h
      rw [htail, Prod.ext hfst hval]

/-- Dictionaries with the same key order and the same lookups are equal. -/
theorem ext_get? {d e : Dict κ β} (hk : d.keys = e.keys)
    (hg : ∀ k, d.get? k = e.get? k) : d = e := by
  have h : d.entries = e.entries := entries_ext d.nodupKeys hk hg
  cases d
  cases e
  cases h
  rfl

end Dict

end Lib
end Sandroid
