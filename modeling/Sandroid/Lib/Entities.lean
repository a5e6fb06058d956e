import Mathlib.Data.List.Basic
import Mathlib.Logic.Function.Basic
import Mathlib.Tactic.Common

/-!
# Text with entities

A table of entities gives names to some characters, among them a mark with which all names
begin.  Escaping puts the name for the character.  Reading goes from left to right and puts
the character for the first name it meets, never looking at what it has put.

No name is the beginning of another, and behind its mark a name has only characters without
names.  That is enough for reading to undo escaping, whatever the text was.
-/

namespace Sandroid
namespace Lib

structure Entities (α : Type*) where
  mark : α
  /-- characters and their names -/
  entries : List (α × List α)
  mark_named : ∃ e ∈ entries, e.1 = mark
  head_name : ∀ e ∈ entries, e.2.head? = some mark
  tail_plain : ∀ e ∈ entries, ∀ e' ∈ entries, e'.1 ∉ e.2.tail
  prefix_free : ∀ e ∈ entries, ∀ e' ∈ entries, e.2 <+: e'.2 → e = e'

namespace Entities

variable {α : Type*} (t : Entities α)

theorem name_eq {e : α × List α} (he : e ∈ t.entries) : e.2 = t.mark :: e.2.tail := by
  have hhead := t.head_name e he
  cases hname : e.2 with
  | nil =>
      rw [hname] at hhead
      cases hhead
  | cons y name =>
      rw [hname, List.head?_cons, Option.some.injEq] at hhead
      rw [hhead, List.tail_cons]

theorem ne_mark {x : α} (h : ∀ e ∈ t.entries, e.1 ≠ x) : x ≠ t.mark := by
  rintro rfl
  obtain ⟨e, he, hchar⟩ := t.mark_named
  exact h e he hchar

theorem mark_not_mem_tail {e : α × List α} (he : e ∈ t.entries) : t.mark ∉ e.2.tail := by
  obtain ⟨e', he', hchar⟩ := t.mark_named
  rw [← hchar]
  exact t.tail_plain e he e' he'

variable [DecidableEq α]

/-- One character, by its name if it has one. -/
def escapeOne (x : α) : List α :=
  match t.entries.find? fun e => e.1 = x with
  | some e => e.2
  | none => [x]

def escape (text : List α) : List α :=
  text.flatMap t.escapeOne

/-- Reading, with a number of characters to skip first. -/
def scan : Nat → List α → List α
  | _, [] => []
  | skip + 1, _ :: rest => scan skip rest
  | 0, x :: rest =>
      match t.entries.find? fun e => e.2.isPrefixOf (x :: rest) with
      | some e => e.1 :: scan (e.2.length - 1) rest
      | none => x :: scan 0 rest

def unescape (text : List α) : List α :=
  t.scan 0 text

theorem escape_cons (x : α) (text : List α) :
    t.escape (x :: text) = t.escapeOne x ++ t.escape text := rfl

/-- A character has a name, or it stands for itself. -/
theorem escapeOne_cases (x : α) :
    (∃ e ∈ t.entries, e.1 = x ∧ t.escapeOne x = e.2) ∨
      ((∀ e ∈ t.entries, e.1 ≠ x) ∧ t.escapeOne x = [x]) := by
  rw [escapeOne]
  cases hfind : t.entries.find? fun e => e.1 = x with
  | some e =>
      have hchar := List.find?_some hfind
      exact .inl ⟨e, List.mem_of_find?_eq_some hfind, of_decide_eq_true hchar, rfl⟩
  | none =>
      refine .inr ⟨fun e he hchar => ?_, rfl⟩
      exact List.find?_eq_none.mp hfind e he (decide_eq_true hchar)

theorem escapeOne_plain {x : α} (h : ∀ e ∈ t.entries, e.1 ≠ x) : t.escapeOne x = [x] := by
  rcases t.escapeOne_cases x with ⟨e, he, hchar, -⟩ | ⟨-, heq⟩
  · exact absurd hchar (h e he)
  · exact heq

/-- Characters with names do not occur in escaped text, the mark excepted. -/
theorem not_mem_escape {e : α × List α} (he : e ∈ t.entries) (hne : e.1 ≠ t.mark)
    (text : List α) : e.1 ∉ t.escape text := by
  intro hmem
  obtain ⟨x, -, hx⟩ := List.mem_flatMap.mp hmem
  rcases t.escapeOne_cases x with ⟨e', he', -, heq⟩ | ⟨hplain, heq⟩
  · rw [heq, t.name_eq he', List.mem_cons] at hx
    rcases hx with hx | hx
    · exact hne hx
    · exact t.tail_plain e' he' e he hx
  · rw [heq, List.mem_singleton] at hx
    exact hplain e he hx

/-- Every mark in escaped text begins a name. -/
theorem mark_begins_name {text before after : List α}
    (h : t.escape text = before ++ t.mark :: after) :
    ∃ e ∈ t.entries, e.2 <+: t.mark :: after := by
  induction text generalizing before with
  | nil => exact absurd h.symm (by simp [escape])
  | cons x text ih =>
      rw [escape_cons] at h
      rcases List.append_eq_append_iff.mp h with ⟨as, -, hrest⟩ | ⟨bs, hfirst, hrest⟩
      · exact ih hrest
      · cases bs with
        | nil =>
            rw [List.nil_append] at hrest
            exact @ih [] hrest.symm
        | cons b bs =>
            rw [List.cons_append, List.cons.injEq] at hrest
            rw [← hrest.1] at hfirst
            rcases t.escapeOne_cases x with ⟨e, he, -, heq⟩ | ⟨hplain, heq⟩
            · refine ⟨e, he, ?_⟩
              rw [heq] at hfirst
              cases before with
              | nil =>
                  rw [hfirst, hrest.2]
                  exact List.prefix_append (t.mark :: bs) (t.escape text)
              | cons y before =>
                  refine absurd ?_ (t.mark_not_mem_tail he)
                  rw [hfirst]
                  simp
            · rw [heq, List.singleton_eq_append_iff] at hfirst
              rcases hfirst with ⟨-, hmark⟩ | ⟨-, hmark⟩
              · cases hmark
                exact absurd rfl (t.ne_mark hplain)
              · cases hmark

theorem scan_skip (name rest : List α) : t.scan name.length (name ++ rest) = t.scan 0 rest := by
  induction name with
  | nil => rfl
  | cons y name ih => exact ih

/-- Names are told apart by any text behind them. -/
theorem find_name {e : α × List α} (he : e ∈ t.entries) (rest : List α) :
    (t.entries.find? fun e' => e'.2.isPrefixOf (e.2 ++ rest)) = some e := by
  cases hfind : t.entries.find? fun e' => e'.2.isPrefixOf (e.2 ++ rest) with
  | none =>
      refine absurd ?_ (List.find?_eq_none.mp hfind e he)
      exact List.isPrefixOf_iff_prefix.mpr (List.prefix_append e.2 rest)
  | some e' =>
      have he' := List.mem_of_find?_eq_some hfind
      have hfound : e'.2.isPrefixOf (e.2 ++ rest) = true :=
        List.find?_some (p := fun d : α × List α => d.2.isPrefixOf (e.2 ++ rest)) hfind
      have hprefix := List.isPrefixOf_iff_prefix.mp hfound
      rcases List.prefix_or_prefix_of_prefix hprefix (List.prefix_append e.2 rest) with h | h
      · rw [t.prefix_free e' he' e he h]
      · rw [t.prefix_free e he e' he' h]

theorem scan_name {e : α × List α} (he : e ∈ t.entries) (rest : List α) :
    t.scan 0 (e.2 ++ rest) = e.1 :: t.scan 0 rest := by
  have hfind := t.find_name he rest
  have hlength : e.2.length - 1 = e.2.tail.length := List.length_tail.symm
  rw [t.name_eq he, List.cons_append] at hfind ⊢
  rw [scan, hfind]
  simp only [hlength, scan_skip]

theorem scan_plain {x : α} (hx : x ≠ t.mark) (rest : List α) :
    t.scan 0 (x :: rest) = x :: t.scan 0 rest := by
  have hfind : (t.entries.find? fun e => e.2.isPrefixOf (x :: rest)) = none := by
    rw [List.find?_eq_none]
    intro e he hprefix
    rw [List.isPrefixOf_iff_prefix, t.name_eq he, List.cons_prefix_cons] at hprefix
    exact hx hprefix.1.symm
  rw [scan, hfind]

/-- Reading undoes escaping. -/
theorem unescape_escape (text : List α) : t.unescape (t.escape text) = text := by
  rw [unescape]
  induction text with
  | nil => rfl
  | cons x text ih =>
      rw [escape_cons]
      rcases t.escapeOne_cases x with ⟨e, he, hchar, heq⟩ | ⟨hplain, heq⟩
      · rw [heq, t.scan_name he, hchar, ih]
      · rw [heq, List.singleton_append, t.scan_plain (t.ne_mark hplain), ih]

end Entities
end Lib
end Sandroid
