import Mathlib.Data.List.Basic

/-!
# Loops that may raise

Inversion lemmas for `Except` computations: a bind succeeds exactly when both
parts do, a `for` loop of checks succeeds exactly when every check does, and a
mapping loop succeeds exactly when every element is mapped.
-/

namespace Sandroid
namespace Lib

universe u v w

section ExceptLoop

variable {ε : Type u} {α : Type v} {β : Type v}

/-- Peel the first computation off a successful bind. -/
theorem except_bind_eq_ok_iff {x : Except ε α} {f : α → Except ε β} {b : β} :
    (x >>= f) = .ok b ↔ ∃ a, x = .ok a ∧ f a = .ok b := by
  cases x with
  | error e => simp [bind, Except.bind]
  | ok a => simp [bind, Except.bind]

/-- Peel the first computation off a failed bind. -/
theorem except_bind_eq_error_iff {x : Except ε α} {f : α → Except ε β} {e : ε} :
    (x >>= f) = .error e ↔
      x = .error e ∨ ∃ a, x = .ok a ∧ f a = .error e := by
  cases x with
  | error e' => simp [bind, Except.bind]
  | ok a => simp [bind, Except.bind]

end ExceptLoop

section Checks

variable {ε : Type u} {α : Type w}

/-- `for x in l: check(x)`. -/
def forEach (check : α → Except ε Unit) : List α → Except ε Unit
  | [] => .ok ()
  | x :: l => do
      check x
      forEach check l

theorem forEach_eq_ok_iff (check : α → Except ε Unit) :
    ∀ l : List α, forEach check l = .ok () ↔ ∀ x, x ∈ l → check x = .ok ()
  | [] => by simp [forEach]
  | x :: l => by
      rw [forEach, except_bind_eq_ok_iff, List.forall_mem_cons]
      constructor
      · rintro ⟨u, hx, hl⟩
        exact ⟨hx, (forEach_eq_ok_iff check l).mp hl⟩
      · rintro ⟨hx, hl⟩
        exact ⟨(), hx, (forEach_eq_ok_iff check l).mpr hl⟩

/-- A failed loop fails at one of its elements. -/
theorem forEach_eq_error {check : α → Except ε Unit} {e : ε} :
    ∀ {l : List α}, forEach check l = .error e → ∃ x, x ∈ l ∧ check x = .error e
  | [], h => by simp [forEach] at h
  | x :: l, h => by
      rw [forEach, except_bind_eq_error_iff] at h
      rcases h with hx | ⟨u, hx, hl⟩
      · exact ⟨x, List.mem_cons_self, hx⟩
      · obtain ⟨y, hy, hey⟩ := forEach_eq_error hl
        exact ⟨y, List.mem_cons_of_mem _ hy, hey⟩

end Checks

section Concat

variable {ε : Type u} {α : Type v} {β : Type v}

/-- `for x in l: out.extend(f(x))`. -/
def concatMapM (f : α → Except ε (List β)) : List α → Except ε (List β)
  | [] => .ok []
  | x :: l => do
      let out ← f x
      let rest ← concatMapM f l
      .ok (out ++ rest)

/-- Membership in the concatenation produced by a successful loop. -/
theorem mem_concatMapM {f : α → Except ε (List β)} :
    ∀ {l : List α} {out : List β}, concatMapM f l = .ok out →
      ∀ b, b ∈ out ↔ ∃ x, x ∈ l ∧ ∃ part, f x = .ok part ∧ b ∈ part
  | [], out, h, b => by
      rw [concatMapM, Except.ok.injEq] at h
      simp [← h]
  | x :: l, out, h, b => by
      rw [concatMapM, except_bind_eq_ok_iff] at h
      obtain ⟨part, hpart, h⟩ := h
      rw [except_bind_eq_ok_iff] at h
      obtain ⟨rest, hrest, h⟩ := h
      rw [Except.ok.injEq] at h
      rw [← h, List.mem_append, mem_concatMapM hrest b]
      constructor
      · rintro (hb | ⟨y, hy, p, hp, hb⟩)
        · exact ⟨x, List.mem_cons_self, part, hpart, hb⟩
        · exact ⟨y, List.mem_cons_of_mem _ hy, p, hp, hb⟩
      · rintro ⟨y, hy, p, hp, hb⟩
        rcases List.mem_cons.mp hy with rfl | hy
        · left
          rw [hpart, Except.ok.injEq] at hp
          rwa [hp]
        · right
          exact ⟨y, hy, p, hp, hb⟩

/-- The loop succeeds exactly when every element's call does. -/
theorem concatMapM_ok_iff (f : α → Except ε (List β)) :
    ∀ l : List α,
      (∃ out, concatMapM f l = .ok out) ↔ ∀ x, x ∈ l → ∃ part, f x = .ok part
  | [] => by simp [concatMapM]
  | x :: l => by
      rw [List.forall_mem_cons, ← concatMapM_ok_iff f l]
      constructor
      · rintro ⟨out, h⟩
        rw [concatMapM, except_bind_eq_ok_iff] at h
        obtain ⟨part, hpart, h⟩ := h
        rw [except_bind_eq_ok_iff] at h
        obtain ⟨rest, hrest, _⟩ := h
        exact ⟨⟨part, hpart⟩, ⟨rest, hrest⟩⟩
      · rintro ⟨⟨part, hpart⟩, ⟨rest, hrest⟩⟩
        refine ⟨part ++ rest, ?_⟩
        rw [concatMapM, hpart]
        simp [bind, Except.bind, hrest]

/-- The error of a failed loop is the error of one of its calls. -/
theorem concatMapM_eq_error {f : α → Except ε (List β)} {e : ε} :
    ∀ {l : List α}, concatMapM f l = .error e → ∃ x, x ∈ l ∧ f x = .error e
  | [], h => by simp [concatMapM] at h
  | x :: l, h => by
      rw [concatMapM, except_bind_eq_error_iff] at h
      rcases h with hx | ⟨part, _, h⟩
      · exact ⟨x, List.mem_cons_self, hx⟩
      · rw [except_bind_eq_error_iff] at h
        rcases h with hl | ⟨rest, _, h⟩
        · obtain ⟨y, hy, hey⟩ := concatMapM_eq_error hl
          exact ⟨y, List.mem_cons_of_mem _ hy, hey⟩
        · cases h

end Concat

end Lib
end Sandroid
