import Mathlib.Data.List.Basic
import Mathlib.Logic.Relation

/-!
# Generators that pull from a source

An asynchronous generator over a source, as an automaton: from each state it
yields an item, asks the source for its next one, returns or raises.  The end of
the source is `none`; a generator may go on after it.

`Finishes s xs` says that a generator in state `s` comes to its end on a source
that still has `xs` to give.  `Reaches s xs ended ys` says that the generator may be
in state `s` once it has received `xs`, and the end of the source or not, and has
yielded `ys`; `First` and `Returns` are about the first and about all items over a source.
`Drains k s xs ys` says that from `s` it takes the rest `xs` of the source and its end,
yields `ys` and returns, in `k` steps.

`Reaches.unique`: over one source a generator comes to one end.
-/

namespace Sandroid
namespace Lib

/-- What a generator does next. -/
inductive GenStep (σ ι ο : Type) where
  | emit (item : ο) (state : σ)
  | pull (resume : Option ι → σ)
  | stop
  | fail (message : String)

structure Generator (ι ο : Type) where
  State : Type
  start : State
  next : State → GenStep State ι ο

namespace Generator

variable {ι ο : Type} (g : Generator ι ο)

/-- The generator ends on a source with the items `xs`. -/
inductive Finishes : g.State → List ι → Prop
  | stop {s : g.State} {xs : List ι} (h : g.next s = .stop) : Finishes s xs
  | fail {s : g.State} {xs : List ι} {message : String} (h : g.next s = .fail message) :
      Finishes s xs
  | emit {s s' : g.State} {xs : List ι} {item : ο} (h : g.next s = .emit item s')
      (hrest : Finishes s' xs) : Finishes s xs
  | pull {s : g.State} {x : ι} {xs : List ι} {resume : Option ι → g.State}
      (h : g.next s = .pull resume) (hrest : Finishes (resume (some x)) xs) :
      Finishes s (x :: xs)
  | finish {s : g.State} {resume : Option ι → g.State}
      (h : g.next s = .pull resume) (hrest : Finishes (resume none) []) : Finishes s []

/-- What has been received and yielded on the way to a state. -/
inductive Reaches : g.State → List ι → Bool → List ο → Prop
  | start : Reaches g.start [] false []
  | emit {s s' : g.State} {xs : List ι} {ended : Bool} {ys : List ο} {y : ο}
      (h : Reaches s xs ended ys) (hnext : g.next s = .emit y s') :
      Reaches s' xs ended (ys ++ [y])
  | pull {s : g.State} {xs : List ι} {ys : List ο} {resume : Option ι → g.State}
      (h : Reaches s xs false ys) (hnext : g.next s = .pull resume) (x : ι) :
      Reaches (resume (some x)) (xs ++ [x]) false ys
  | finish {s : g.State} {xs : List ι} {ended : Bool} {ys : List ο}
      {resume : Option ι → g.State} (h : Reaches s xs ended ys)
      (hnext : g.next s = .pull resume) : Reaches (resume none) xs true ys

/-- Where the generator may stand on a source, with what it has yielded: it has received a
front of the source, and its end only after all of it. -/
def Over (source : List ι) (s : g.State) (ys : List ο) : Prop :=
  ∃ given ended, given <+: source ∧ (ended = true → given = source) ∧ g.Reaches s given ended ys

/-- The first item that is yielded over a source. -/
def First (source : List ι) (y : ο) : Prop :=
  ∃ s s', g.Over source s [] ∧ g.next s = .emit y s'

/-- All that is yielded over a source, where the generator returns. -/
def Returns (source : List ι) (ys : List ο) : Prop :=
  ∃ s, g.Over source s ys ∧ g.next s = .stop

/-- The generator does not return before the end of its source. -/
def Exhausts : Prop :=
  ∀ {s : g.State} {xs : List ι} {ys : List ο}, g.Reaches s xs false ys → g.next s ≠ .stop

/-- After the end of the source. -/
inductive Drained : Nat → g.State → List ο → Prop
  | stop {s : g.State} (h : g.next s = .stop) : Drained 1 s []
  | emit {k : Nat} {s s' : g.State} {y : ο} {ys : List ο} (h : g.next s = .emit y s')
      (hrest : Drained k s' ys) : Drained (k + 1) s (y :: ys)
  | again {k : Nat} {s : g.State} {ys : List ο} {resume : Option ι → g.State}
      (h : g.next s = .pull resume) (hrest : Drained k (resume none) ys) : Drained (k + 1) s ys

/-- The whole source is taken before the generator returns. -/
inductive Drains : Nat → g.State → List ι → List ο → Prop
  | emit {k : Nat} {s s' : g.State} {xs : List ι} {y : ο} {ys : List ο}
      (h : g.next s = .emit y s') (hrest : Drains k s' xs ys) : Drains (k + 1) s xs (y :: ys)
  | pull {k : Nat} {s : g.State} {x : ι} {xs : List ι} {ys : List ο}
      {resume : Option ι → g.State} (h : g.next s = .pull resume)
      (hrest : Drains k (resume (some x)) xs ys) : Drains (k + 1) s (x :: xs) ys
  | finish {k : Nat} {s : g.State} {ys : List ο} {resume : Option ι → g.State}
      (h : g.next s = .pull resume) (hrest : Drained g k (resume none) ys) :
      Drains (k + 1) s [] ys

variable {g}

theorem Finishes.of_emit {s s' : g.State} {xs : List ι} {item : ο} (h : Finishes g s xs)
    (hnext : g.next s = .emit item s') : Finishes g s' xs := by
  cases h with
  | stop h => simp [hnext] at h
  | fail h => simp [hnext] at h
  | emit h hrest =>
      rw [hnext] at h
      cases h
      exact hrest
  | pull h hrest => simp [hnext] at h
  | finish h hrest => simp [hnext] at h

theorem Finishes.of_pull {s : g.State} {x : ι} {xs : List ι} {resume : Option ι → g.State}
    (h : Finishes g s (x :: xs)) (hnext : g.next s = .pull resume) :
    Finishes g (resume (some x)) xs := by
  cases h with
  | stop h => simp [hnext] at h
  | fail h => simp [hnext] at h
  | emit h hrest => simp [hnext] at h
  | pull h hrest =>
      rw [hnext] at h
      cases h
      exact hrest

theorem Finishes.of_finish {s : g.State} {resume : Option ι → g.State}
    (h : Finishes g s []) (hnext : g.next s = .pull resume) :
    Finishes g (resume none) [] := by
  cases h with
  | stop h => simp [hnext] at h
  | fail h => simp [hnext] at h
  | emit h hrest => simp [hnext] at h
  | finish h hrest =>
      rw [hnext] at h
      cases h
      exact hrest

section Draining

variable {k : Nat} {s s' : g.State} {x : ι} {xs : List ι} {y : ο} {ys : List ο}
  {resume : Option ι → g.State}

/-- A generator that drains its source yields or asks for more. -/
theorem Drains.goes_on (h : g.Drains k s xs ys) :
    (∃ y s', g.next s = .emit y s') ∨ ∃ resume, g.next s = .pull resume := by
  cases h with
  | emit h => exact Or.inl ⟨_, _, h⟩
  | pull h => exact Or.inr ⟨_, h⟩
  | finish h => exact Or.inr ⟨_, h⟩

theorem Drains.of_emit (h : g.Drains k s xs ys) (hnext : g.next s = .emit y s') :
    ∃ k' ys', k' < k ∧ ys = y :: ys' ∧ g.Drains k' s' xs ys' := by
  cases h with
  | @emit k' _ _ _ y' ys' h hrest =>
      rw [hnext] at h
      cases h
      exact ⟨k', ys', Nat.lt_succ_self k', rfl, hrest⟩
  | pull h => simp [hnext] at h
  | finish h => simp [hnext] at h

theorem Drains.of_pull (h : g.Drains k s (x :: xs) ys) (hnext : g.next s = .pull resume) :
    ∃ k', k' < k ∧ g.Drains k' (resume (some x)) xs ys := by
  cases h with
  | emit h => simp [hnext] at h
  | @pull k' _ _ _ _ _ h hrest =>
      rw [hnext] at h
      cases h
      exact ⟨k', Nat.lt_succ_self k', hrest⟩

theorem Drains.of_finish (h : g.Drains k s [] ys) (hnext : g.next s = .pull resume) :
    ∃ k', k' < k ∧ g.Drained k' (resume none) ys := by
  cases h with
  | emit h => simp [hnext] at h
  | @finish k' _ _ _ h hrest =>
      rw [hnext] at h
      cases h
      exact ⟨k', Nat.lt_succ_self k', hrest⟩

/-- After the end it does not fail. -/
theorem Drained.goes_on (h : g.Drained k s ys) :
    g.next s = .stop ∨ (∃ y s', g.next s = .emit y s') ∨ ∃ resume, g.next s = .pull resume := by
  cases h with
  | stop h => exact Or.inl h
  | emit h => exact Or.inr (Or.inl ⟨_, _, h⟩)
  | again h => exact Or.inr (Or.inr ⟨_, h⟩)

theorem Drained.of_stop (h : g.Drained k s ys) (hnext : g.next s = .stop) : ys = [] := by
  cases h with
  | stop h => rfl
  | emit h => simp [hnext] at h
  | again h => simp [hnext] at h

theorem Drained.of_emit (h : g.Drained k s ys) (hnext : g.next s = .emit y s') :
    ∃ k' ys', k' < k ∧ ys = y :: ys' ∧ g.Drained k' s' ys' := by
  cases h with
  | stop h => simp [hnext] at h
  | @emit k' _ _ y' ys' h hrest =>
      rw [hnext] at h
      cases h
      exact ⟨k', ys', Nat.lt_succ_self k', rfl, hrest⟩
  | again h => simp [hnext] at h

theorem Drained.of_pull (h : g.Drained k s ys) (hnext : g.next s = .pull resume) :
    ∃ k', k' < k ∧ g.Drained k' (resume none) ys := by
  cases h with
  | stop h => simp [hnext] at h
  | emit h => simp [hnext] at h
  | @again k' _ _ _ h hrest =>
      rw [hnext] at h
      cases h
      exact ⟨k', Nat.lt_succ_self k', hrest⟩

end Draining

section Reaching

variable {k : Nat} {s : g.State} {xs heard : List ι} {ys sent : List ο}

/-- Once the source has ended, the way goes on to where the generator returns. -/
theorem Drained.reaches (h : g.Drained k s ys) (hs : g.Reaches s heard true sent) :
    ∃ s', g.Reaches s' heard true (sent ++ ys) ∧ g.next s' = .stop := by
  induction h generalizing sent with
  | stop hnext =>
      rw [List.append_nil]
      exact ⟨_, hs, hnext⟩
  | emit hnext _ ih =>
      rw [List.append_cons]
      exact ih (hs.emit hnext)
  | again hnext _ ih => exact ih (hs.finish hnext)

/-- A whole run ends in a state that is reached with all of the source. -/
theorem Drains.reaches (h : g.Drains k s xs ys) (hs : g.Reaches s heard false sent) :
    ∃ s', g.Reaches s' (heard ++ xs) true (sent ++ ys) ∧ g.next s' = .stop := by
  induction h generalizing heard sent with
  | emit hnext _ ih =>
      rw [List.append_cons sent]
      exact ih (hs.emit hnext)
  | pull hnext _ ih =>
      rw [List.append_cons heard]
      exact ih (hs.pull hnext _)
  | finish hnext hrest =>
      rw [List.append_nil]
      exact hrest.reaches (hs.finish hnext)

end Reaching

section Determined

/-- One step, on what is left of the source and what has been yielded. -/
inductive Goes (g : Generator ι ο) :
    g.State × List ι × List ο → g.State × List ι × List ο → Prop
  | emit {s s' : g.State} {xs : List ι} {y : ο} {ys : List ο} (h : g.next s = .emit y s') :
      g.Goes (s, xs, ys) (s', xs, ys ++ [y])
  | pull {s : g.State} {x : ι} {xs : List ι} {ys : List ο} {resume : Option ι → g.State}
      (h : g.next s = .pull resume) : g.Goes (s, x :: xs, ys) (resume (some x), xs, ys)
  | finish {s : g.State} {ys : List ο} {resume : Option ι → g.State}
      (h : g.next s = .pull resume) : g.Goes (s, [], ys) (resume none, [], ys)

theorem goes_rightUnique : Relator.RightUnique g.Goes := by
  intro a b c hb hc
  cases hb with
  | emit h =>
      cases hc with
      | emit h' =>
          rw [h] at h'
          cases h'
          rfl
      | pull h' => simp [h] at h'
      | finish h' => simp [h] at h'
  | pull h =>
      cases hc with
      | emit h' => simp [h] at h'
      | pull h' =>
          rw [h] at h'
          cases h'
          rfl
  | finish h =>
      cases hc with
      | emit h' => simp [h] at h'
      | finish h' =>
          rw [h] at h'
          cases h'
          rfl

/-- What has been received is what the source has given. -/
theorem Reaches.goes {s : g.State} {xs rest : List ι} {ended : Bool} {ys : List ο}
    (h : g.Reaches s xs ended ys) (hrest : ended = true → rest = []) :
    Relation.ReflTransGen g.Goes (g.start, xs ++ rest, []) (s, rest, ys) := by
  induction h generalizing rest with
  | start => exact .refl
  | emit _ hnext ih => exact (ih hrest).tail (.emit hnext)
  | pull _ hnext x ih =>
      rw [List.append_assoc]
      exact (ih (fun h => absurd h Bool.false_ne_true)).tail (.pull hnext)
  | finish _ hnext ih =>
      obtain rfl := hrest rfl
      exact (ih (fun _ => rfl)).tail (.finish hnext)

/-- The generator has returned or raised. -/
def Ended (g : Generator ι ο) (s : g.State) : Prop :=
  g.next s = .stop ∨ ∃ message, g.next s = .fail message

theorem Ended.not_goes {s : g.State} (h : g.Ended s) {xs : List ι} {ys : List ο}
    (b : g.State × List ι × List ο) : ¬ g.Goes (s, xs, ys) b := by
  intro hgoes
  rcases h with h | ⟨message, h⟩
  · cases hgoes with
    | emit hnext => simp [h] at hnext
    | pull hnext => simp [h] at hnext
    | finish hnext => simp [h] at hnext
  · cases hgoes with
    | emit hnext => simp [h] at hnext
    | pull hnext => simp [h] at hnext
    | finish hnext => simp [h] at hnext

/-- Over one source a generator comes to one end. -/
theorem Reaches.unique {s s' : g.State} {xs : List ι} {ys ys' : List ο}
    (h : g.Reaches s xs true ys) (h' : g.Reaches s' xs true ys') (hend : g.Ended s)
    (hend' : g.Ended s') : s = s' ∧ ys = ys' := by
  have hgoes := h.goes (fun _ => rfl)
  have hgoes' := h'.goes (fun _ => rfl)
  rcases Relation.ReflTransGen.total_of_right_unique goes_rightUnique hgoes hgoes' with hon | hon
  · rcases hon.cases_head with heq | ⟨b, hb, -⟩
    · cases heq
      exact ⟨rfl, rfl⟩
    · exact absurd hb (hend.not_goes b)
  · rcases hon.cases_head with heq | ⟨b, hb, -⟩
    · cases heq
      exact ⟨rfl, rfl⟩
    · exact absurd hb (hend'.not_goes b)

end Determined

end Generator

end Lib
end Sandroid
