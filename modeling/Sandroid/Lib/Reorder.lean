import Sandroid.Lib.Dict
import Mathlib.Data.BitVec

/-!
# Reorder windows

A receiver of numbered items passes them on in the order of their numbers and holds those
that come early.  A `Window` is such a receiver with numbers that never wrap: it accepts an
item that is not before its cursor, emits the item at the cursor, or skips ahead to an item
that it holds.  `Sound` is kept by each of the three, `Passes` is a run of emits.

`heldAt` is the window of a dictionary whose keys are serial numbers of `w` bits: the number
of a key is found by its distance from the cursor.
-/

namespace Sandroid
namespace Lib

universe u

/-- The steps from `base` forward to `s`. -/
def distance {w : ℕ} (base s : BitVec w) : ℕ := (s - base).toNat

section Distance

variable {w k d m n : ℕ} {base s : BitVec w}

@[simp] theorem distance_self : distance base base = 0 := by
  rw [distance, sub_self]
  rfl

theorem distance_lt : distance base s < 2 ^ w := (s - base).isLt

theorem distance_ofNat (hd : d < 2 ^ w) :
    distance (BitVec.ofNat w k) (BitVec.ofNat w (k + d)) = d := by
  have hsub : BitVec.ofNat w (k + d) - BitVec.ofNat w k = BitVec.ofNat w d := by
    rw [BitVec.ofNat_add, add_sub_cancel_left]
  rw [distance, hsub, BitVec.toNat_ofNat, Nat.mod_eq_of_lt hd]

theorem ofNat_add_distance : BitVec.ofNat w (k + distance (BitVec.ofNat w k) s) = s := by
  rw [distance, BitVec.ofNat_add, BitVec.ofNat_toNat, BitVec.setWidth_eq, add_sub_cancel]

/-- One turn of the counter. -/
theorem ofNat_wrap : BitVec.ofNat w (k + 2 ^ w) = BitVec.ofNat w k := by
  refine BitVec.eq_of_toNat_eq ?_
  rw [BitVec.toNat_ofNat, BitVec.toNat_ofNat, Nat.add_mod_right]

/-- Within one turn of the counter serial numbers tell numbers apart. -/
theorem ofNat_inj (hn : k ≤ n ∧ n < k + 2 ^ w) (hm : k ≤ m ∧ m < k + 2 ^ w) :
    BitVec.ofNat w n = BitVec.ofNat w m ↔ n = m := by
  refine ⟨fun h => ?_, fun h => h ▸ rfl⟩
  obtain ⟨d, rfl⟩ := Nat.exists_eq_add_of_le hn.1
  obtain ⟨e, rfl⟩ := Nat.exists_eq_add_of_le hm.1
  have hd : distance (BitVec.ofNat w k) (BitVec.ofNat w (k + d)) = d :=
    distance_ofNat (by omega)
  have he : distance (BitVec.ofNat w k) (BitVec.ofNat w (k + e)) = e :=
    distance_ofNat (by omega)
  rw [← hd, h, he]

end Distance

/-- A receiver of numbered items: what it has accepted, passed on, and still holds. -/
structure Window (α : Type u) where
  cursor : ℕ
  held : ℕ → Option α
  sent : List (ℕ × α)
  accepted : ℕ → Option α

namespace Window

variable {α : Type u}

/-- An item is taken in; it replaces one of the same number. -/
def accept (x : Window α) (n : ℕ) (a : α) : Window α :=
  { x with
    held := Function.update x.held n (some a)
    accepted := Function.update x.accepted n (some a) }

/-- The item at the cursor is passed on. -/
def emit (x : Window α) (a : α) : Window α :=
  { x with
    cursor := x.cursor + 1
    held := Function.update x.held x.cursor none
    sent := x.sent ++ [(x.cursor, a)] }

/-- The cursor moves on. -/
def skip (x : Window α) (n : ℕ) : Window α :=
  { x with cursor := n }

/-- A run of emits, with what is passed on. -/
inductive Passes : Window α → List α → Window α → Prop
  | done {x : Window α} : Passes x [] x
  | emit {x y : Window α} {a : α} {out : List α} (ha : x.held x.cursor = some a)
      (hrest : Passes (x.emit a) out y) : Passes x (a :: out) y

variable {x y : Window α} {n : ℕ} {a : α} {out : List α}

/-- What was accepted last for a number has been passed on, below the cursor and in order,
or is held. -/
structure Sound (x : Window α) : Prop where
  sorted : x.sent.Pairwise (fun d e => d.1 < e.1)
  below : ∀ e ∈ x.sent, e.1 < x.cursor
  ahead : ∀ n, n < x.cursor → x.held n = none
  content : ∀ n a, x.accepted n = some a ↔ (n, a) ∈ x.sent ∨ x.held n = some a

namespace Sound

theorem accept (h : x.Sound) (hn : x.cursor ≤ n) : (x.accept n a).Sound where
  sorted := h.sorted
  below := h.below
  ahead m hm := by
    have hne : m ≠ n := by
      rintro rfl
      exact absurd hm (not_lt.mpr hn)
    simpa [Window.accept, hne] using h.ahead m hm
  content m b := by
    by_cases hm : m = n
    · subst hm
      have hsent : (m, b) ∉ x.sent := fun hmem => absurd (h.below _ hmem) (not_lt.mpr hn)
      simp [Window.accept, hsent]
    · simpa [Window.accept, hm] using h.content m b

theorem emit (h : x.Sound) (ha : x.held x.cursor = some a) : (x.emit a).Sound where
  sorted := by
    refine List.pairwise_append.mpr ⟨h.sorted, List.pairwise_singleton _ _, ?_⟩
    intro d hd e he
    rw [List.mem_singleton] at he
    rw [he]
    exact h.below d hd
  below e he := by
    simp only [Window.emit, List.mem_append, List.mem_singleton] at he ⊢
    rcases he with he | rfl
    · exact Nat.lt_succ_of_lt (h.below e he)
    · exact Nat.lt_succ_self _
  ahead m hm := by
    by_cases hcursor : m = x.cursor
    · simp [Window.emit, hcursor]
    · have hlt : m < x.cursor := lt_of_le_of_ne (Nat.lt_succ_iff.mp hm) hcursor
      simpa [Window.emit, hcursor] using h.ahead m hlt
  content m b := by
    by_cases hcursor : m = x.cursor
    · subst hcursor
      have hsent : (x.cursor, b) ∉ x.sent := fun hmem => absurd (h.below _ hmem) (lt_irrefl _)
      have hcontent := h.content x.cursor b
      simp only [hsent, false_or, ha, Option.some.injEq] at hcontent
      simp [Window.emit, hsent, hcontent, eq_comm]
    · simpa [Window.emit, hcursor] using h.content m b

theorem skip (h : x.Sound) (hn : x.cursor ≤ n) (hnone : ∀ m, m < n → x.held m = none) :
    (x.skip n).Sound where
  sorted := h.sorted
  below e he := lt_of_lt_of_le (h.below e he) hn
  ahead := hnone
  content := h.content

/-- At the end what is held follows in order: each number has its last item, once. -/
theorem flush (h : x.Sound) {rest : List (ℕ × α)} (hsorted : rest.Pairwise (fun d e => d.1 < e.1))
    (hrest : ∀ n a, (n, a) ∈ rest ↔ x.held n = some a) :
    (x.sent ++ rest).Pairwise (fun d e => d.1 < e.1) ∧
      ∀ n a, (n, a) ∈ x.sent ++ rest ↔ x.accepted n = some a := by
  refine ⟨List.pairwise_append.mpr ⟨h.sorted, hsorted, ?_⟩, ?_⟩
  · intro d hd e he
    have hheld := (hrest e.1 e.2).mp he
    have hle : x.cursor ≤ e.1 := by
      by_contra hlt
      rw [h.ahead e.1 (not_le.mp hlt)] at hheld
      cases hheld
    exact lt_of_lt_of_le (h.below d hd) hle
  · intro n a
    rw [List.mem_append, hrest, h.content]

end Sound

namespace Passes

theorem sound (h : x.Passes out y) (hsound : x.Sound) : y.Sound := by
  induction h with
  | done => exact hsound
  | emit ha _ ih => exact ih (hsound.emit ha)

theorem accepted (h : x.Passes out y) : y.accepted = x.accepted := by
  induction h with
  | done => rfl
  | emit _ _ ih => exact ih

theorem sent (h : x.Passes out y) :
    ∃ more, y.sent = x.sent ++ more ∧ more.map Prod.snd = out := by
  induction h with
  | done => exact ⟨[], by simp, rfl⟩
  | @emit x _ a _ _ _ ih =>
      obtain ⟨more, hsent, hmore⟩ := ih
      refine ⟨(x.cursor, a) :: more, ?_, by simp [hmore]⟩
      rw [hsent]
      simp [Window.emit]

theorem cursor (h : x.Passes out y) : y.cursor = x.cursor + out.length := by
  induction h with
  | done => rfl
  | emit _ _ ih =>
      rw [ih]
      simp only [Window.emit, List.length_cons]
      omega

/-- What is held afterwards was held before. -/
theorem held (h : x.Passes out y) (hn : y.held n = some a) : x.held n = some a := by
  induction h with
  | done => exact hn
  | @emit x _ _ _ _ _ ih =>
      have hemit := ih hn
      by_cases hcursor : n = x.cursor
      · simp [Window.emit, hcursor] at hemit
      · simpa [Window.emit, hcursor] using hemit

/-- The cursor ends behind the last item that is passed on. -/
theorem last (h : x.Passes out y) :
    y.cursor = x.cursor ∨
      ∃ n a, y.cursor = n + 1 ∧ x.held n = some a ∧ (n, a) ∈ y.sent := by
  induction h with
  | done => exact Or.inl rfl
  | @emit x y a _ ha hrest ih =>
      right
      rcases ih with hcursor | ⟨n, b, hcursor, hheld, hsent⟩
      · obtain ⟨more, hsent, -⟩ := hrest.sent
        refine ⟨x.cursor, a, hcursor, ha, ?_⟩
        rw [hsent]
        simp [Window.emit]
      · refine ⟨n, b, hcursor, ?_, hsent⟩
        by_cases hn : n = x.cursor
        · simp [Window.emit, hn] at hheld
        · simpa [Window.emit, hn] using hheld

/-- The cursor passes over items that are held. -/
theorem passed (h : x.Passes out y) (hle : x.cursor ≤ n) (hlt : n < y.cursor) :
    ∃ a, x.held n = some a := by
  induction h with
  | done => exact absurd hlt (not_lt.mpr hle)
  | @emit x _ a _ ha _ ih =>
      by_cases hcursor : n = x.cursor
      · exact ⟨a, hcursor ▸ ha⟩
      · obtain ⟨b, hb⟩ := ih (by
          simp only [Window.emit]
          omega) hlt
        exact ⟨b, by simpa [Window.emit, hcursor] using hb⟩

end Passes

end Window

/-- The item that was accepted last for a number. -/
def latest {α : Type u} (items : List (ℕ × α)) (n : ℕ) : Option α := items.reverse.lookup n

theorem latest_append {α : Type u} (items : List (ℕ × α)) (n : ℕ) (a : α) :
    latest (items ++ [(n, a)]) = Function.update (latest items) n (some a) := by
  funext m
  by_cases hm : m = n
  · simp [latest, hm]
  · have hne : (m == n) = false := by simpa using hm
    simp [latest, List.lookup_cons, Function.update_of_ne hm, hne]

theorem exists_latest_iff {α : Type u} {items : List (ℕ × α)} {n : ℕ} :
    (∃ a, latest items n = some a) ↔ n ∈ items.map Prod.fst := by
  induction items using List.reverseRecOn with
  | nil => simp [latest]
  | append_singleton items e ih =>
      obtain ⟨m, b⟩ := e
      rw [latest_append, List.map_append, List.mem_append, ← ih]
      by_cases hn : n = m
      · simp [hn]
      · simp [hn]

/-- With one item for each number the last is the only one. -/
theorem latest_eq_some_iff {α : Type u} {items : List (ℕ × α)}
    (hnodup : (items.map Prod.fst).Nodup) {n : ℕ} {a : α} :
    latest items n = some a ↔ (n, a) ∈ items := by
  induction items using List.reverseRecOn with
  | nil => simp [latest]
  | append_singleton items e ih =>
      obtain ⟨m, b⟩ := e
      rw [List.map_append, List.map_singleton, List.nodup_append] at hnodup
      obtain ⟨hnodup, -, hfresh⟩ := hnodup
      rw [latest_append, List.mem_append, List.mem_singleton, Prod.mk.injEq]
      by_cases hn : n = m
      · have hnot : (n, a) ∉ items := fun hmem =>
          hfresh _ (List.mem_map_of_mem hmem) m (List.mem_singleton_self _) hn
        rw [or_iff_right hnot, hn, Function.update_self]
        simp [eq_comm]
      · rw [Function.update_of_ne hn, ih hnodup]
        simp [hn]

section Dictionary

variable {w : ℕ} {α : Type u} {d : Dict (BitVec w) α} {ext n : ℕ} {k : BitVec w} {a : α}

/-- What a dictionary of serial numbers holds for a number, when the cursor is at `ext`. -/
def heldAt (d : Dict (BitVec w) α) (ext n : ℕ) : Option α :=
  if ext ≤ n ∧ n < ext + 2 ^ w then d.get? (BitVec.ofNat w n) else none

theorem heldAt_self : heldAt d ext ext = d.get? (BitVec.ofNat w ext) := by
  rw [heldAt, if_pos ⟨le_rfl, Nat.lt_add_of_pos_right (Nat.two_pow_pos w)⟩]

theorem heldAt_set (hn : ext ≤ n ∧ n < ext + 2 ^ w) :
    heldAt (d.set (BitVec.ofNat w n) a) ext = Function.update (heldAt d ext) n (some a) := by
  funext m
  by_cases hm : ext ≤ m ∧ m < ext + 2 ^ w
  · rw [heldAt, if_pos hm, Dict.get?_set]
    by_cases hnm : m = n
    · rw [hnm, if_pos rfl, Function.update_self]
    · rw [if_neg (fun h => hnm ((ofNat_inj hn hm).mp h).symm), Function.update_of_ne hnm, heldAt,
        if_pos hm]
  · have hnm : m ≠ n := by
      rintro rfl
      exact hm hn
    rw [Function.update_of_ne hnm, heldAt, heldAt, if_neg hm, if_neg hm]

/-- The entry at the cursor is removed. -/
theorem heldAt_erase :
    heldAt (d.erase (BitVec.ofNat w ext)) (ext + 1) = Function.update (heldAt d ext) ext none := by
  have hcursor : ext ≤ ext ∧ ext < ext + 2 ^ w :=
    ⟨le_rfl, Nat.lt_add_of_pos_right (Nat.two_pow_pos w)⟩
  funext m
  by_cases hm : m = ext
  · rw [hm, Function.update_self, heldAt, if_neg (by omega)]
  rw [Function.update_of_ne hm, heldAt, heldAt, Dict.get?_erase]
  by_cases hin : ext ≤ m ∧ m < ext + 2 ^ w
  · rw [if_pos hin, if_pos (by omega), if_neg (fun h => hm ((ofNat_inj hcursor hin).mp h).symm)]
  · rw [if_neg hin]
    by_cases hlast : m = ext + 2 ^ w
    · have hwrap : BitVec.ofNat w ext = BitVec.ofNat w m := by
        rw [hlast, ofNat_wrap]
      rw [if_pos hwrap, ite_self]
    · rw [if_neg (by omega)]

/-- The cursor moves over numbers for which nothing is held. -/
theorem heldAt_skip (hn : ext ≤ n ∧ n ≤ ext + 2 ^ w)
    (hkeys : ∀ k ∈ d.keys, n ≤ ext + distance (BitVec.ofNat w ext) k) :
    heldAt d n = heldAt d ext := by
  have hnone {m : ℕ} (hm : ext ≤ m) (hlt : m < n) (hin : m < ext + 2 ^ w) :
      d.get? (BitVec.ofNat w m) = none := by
    rw [Dict.get?_eq_none_iff]
    intro hmem
    have hfar := hkeys _ hmem
    obtain ⟨e, rfl⟩ := Nat.exists_eq_add_of_le hm
    rw [distance_ofNat (by omega)] at hfar
    omega
  funext m
  by_cases hold : ext ≤ m ∧ m < ext + 2 ^ w
  · by_cases hnew : n ≤ m
    · rw [heldAt, heldAt, if_pos hold, if_pos (by omega)]
    · rw [heldAt, heldAt, if_pos hold, if_neg (by omega), hnone hold.1 (by omega) hold.2]
  · rw [heldAt, heldAt, if_neg hold]
    by_cases hnew : n ≤ m ∧ m < n + 2 ^ w
    · obtain ⟨e, rfl⟩ : ∃ e, m = e + 2 ^ w := ⟨m - 2 ^ w, by omega⟩
      rw [if_pos hnew, ofNat_wrap]
      exact hnone (by omega) (by omega) (by omega)
    · rw [if_neg hnew]

theorem heldAt_key (ext : ℕ) (ha : d.get? k = some a) :
    heldAt d ext (ext + distance (BitVec.ofNat w ext) k) = some a := by
  have hlt : distance (BitVec.ofNat w ext) k < 2 ^ w := distance_lt
  rw [heldAt, if_pos (by omega), ofNat_add_distance, ha]

theorem heldAt_eq_some (h : heldAt d ext n = some a) :
    ext ≤ n ∧ n = ext + distance (BitVec.ofNat w ext) (BitVec.ofNat w n) ∧
      d.get? (BitVec.ofNat w n) = some a := by
  rw [heldAt] at h
  split_ifs at h with hn
  obtain ⟨e, rfl⟩ := Nat.exists_eq_add_of_le hn.1
  rw [distance_ofNat (by omega)]
  exact ⟨hn.1, rfl, h⟩

/-- The window of a dictionary. -/
def Window.ofDict (d : Dict (BitVec w) α) (ext : ℕ) (sent : List (ℕ × α))
    (accepted : List (ℕ × α)) : Window α :=
  { cursor := ext, held := heldAt d ext, sent := sent, accepted := latest accepted }

theorem Window.accept_ofDict (d : Dict (BitVec w) α) (sent accepted : List (ℕ × α)) (a : α)
    (hn : ext ≤ n ∧ n < ext + 2 ^ w) :
    (ofDict d ext sent accepted).accept n a =
      ofDict (d.set (BitVec.ofNat w n) a) ext sent (accepted ++ [(n, a)]) := by
  simp only [accept, ofDict, heldAt_set hn, latest_append]

theorem Window.emit_ofDict {sent accepted : List (ℕ × α)} :
    (ofDict d ext sent accepted).emit a =
      ofDict (d.erase (BitVec.ofNat w ext)) (ext + 1) (sent ++ [(ext, a)]) accepted := by
  simp only [emit, ofDict, heldAt_erase]

theorem Window.skip_ofDict {sent accepted : List (ℕ × α)} (hn : ext ≤ n ∧ n ≤ ext + 2 ^ w)
    (hkeys : ∀ k ∈ d.keys, n ≤ ext + distance (BitVec.ofNat w ext) k) :
    (ofDict d ext sent accepted).skip n = ofDict d n sent accepted := by
  simp only [skip, ofDict, heldAt_skip hn hkeys]

end Dictionary

end Lib
end Sandroid
