import Sandroid.Core.SceneLoader
import Mathlib.Logic.Relation

/-!
# Wiring the tree

What the three filling stages of the loader compute, and when they succeed.

* `insertCategories_eq_ok_iff`, `wireLoop_eq_ok_iff`: the two filling loops;
* `acyclicLoop_eq_ok`: on child lists wired from parent pointers the stack loop
  ends within its rounds and marks exactly the categories below the root.  The
  invariant is that seen and stacked ids are pairwise distinct, because a
  second visit would need a second parent;
* `Wired`: the dictionary that results, with its child edges (`childOf_iff`)
  and reachability (`reach_iff`) in terms of the parent pointers.
-/

namespace Sandroid
namespace Core

open Lib

section ParentPointers

/-- `b` is the parent that the entry of `a` names. -/
def ParentOf (entries : List CategoryEntry) (a b : CategoryId) : Prop :=
  ∃ e, e ∈ entries ∧ e.id = a ∧ e.parentId = some b

/-- Ids of the entries whose parent is `p`, in declaration order. -/
def childrenOf (entries : List CategoryEntry) (p : CategoryId) : List CategoryId :=
  (entries.filter (fun e => e.parentId = some p)).map (fun e => e.id)

end ParentPointers

/-- Errors that mean "this scene is invalid", other than a detected cycle. -/
def LoadError.Rejects (e : LoadError) : Prop :=
  ∃ s, e = .sceneValidation s ∧ ∀ id, s ≠ .cycleDetected id

section Insertion

/-- The key under which an entry is stored, with its category. -/
def keyed (entry : CategoryEntry) : CategoryId × Category :=
  (entry.id, parseCategory entry)

theorem insertCategories_eq_ok_iff :
    ∀ (entries : List CategoryEntry) (byId byId' : ById),
      insertCategories byId entries = .ok byId' ↔
        (entries.map (fun e => e.id)).Nodup ∧
        (∀ e, e ∈ entries → e.id ∉ byId.keys) ∧
        byId'.entries = byId.entries ++ entries.map keyed
  | [], byId, byId' => by
      rw [insertCategories, Except.ok.injEq]
      constructor
      · rintro rfl
        simp
      · rintro ⟨_, _, h⟩
        rw [List.map_nil, List.append_nil] at h
        cases byId
        cases byId'
        cases h
        rfl
  | e :: entries, byId, byId' => by
      have hid : (parseCategory e).id = e.id := rfl
      by_cases hmem : e.id ∈ byId.keys
      · rw [insertCategories, hid, if_pos ((Dict.get?_isSome_iff _ _).mpr hmem)]
        constructor
        · intro h
          cases h
        · rintro ⟨_, h, _⟩
          exact absurd hmem (h e List.mem_cons_self)
      · have hnone : ¬ (byId.get? e.id).isSome = true := by
          rw [Dict.get?_isSome_iff]
          exact hmem
        rw [insertCategories, hid, if_neg hnone,
          insertCategories_eq_ok_iff entries,
          Dict.entries_set_of_not_mem byId hmem, List.map_cons, List.nodup_cons,
          List.map_cons]
        have hkeys : (byId.set e.id (parseCategory e)).keys =
            byId.keys ++ [e.id] := by
          rw [Dict.keys_set, if_neg hmem]
        rw [hkeys]
        constructor
        · rintro ⟨hnd, hfresh, hent⟩
          refine ⟨⟨?_, hnd⟩, ?_, ?_⟩
          · intro h
            obtain ⟨f, hf, hfe⟩ := List.mem_map.mp h
            apply hfresh f hf
            rw [hfe]
            exact List.mem_append_right _ (List.mem_singleton_self _)
          · intro f hf
            rcases List.mem_cons.mp hf with rfl | hf
            · exact hmem
            · exact fun h => hfresh f hf (List.mem_append_left _ h)
          · rw [hent, List.append_assoc]
            rfl
        · rintro ⟨⟨hne, hnd⟩, hfresh, hent⟩
          refine ⟨hnd, ?_, ?_⟩
          · intro f hf h
            rcases List.mem_append.mp h with h | h
            · exact hfresh f (List.mem_cons_of_mem _ hf) h
            · apply hne
              rw [← List.mem_singleton.mp h]
              exact List.mem_map.mpr ⟨f, hf, rfl⟩
          · rw [hent, List.append_assoc]
            rfl

theorem insertCategories_error :
    ∀ (entries : List CategoryEntry) (byId : ById) {e : LoadError},
      insertCategories byId entries = .error e → e.Rejects
  | [], byId, e, h => by cases h
  | entry :: entries, byId, e, h => by
      rw [insertCategories] at h
      split_ifs at h
      · cases h
        exact ⟨_, rfl, fun _ h => by cases h⟩
      · exact insertCategories_error entries _ h

end Insertion

section Wiring

variable (rootId : CategoryId)

/-- Ids that `_wire_children` appends to the child list of `p` when it has run
over `categories`. -/
def linked (categories : List Category) (p : CategoryId) : List CategoryId :=
  (categories.filter (fun c => c.id ≠ rootId ∧ c.parentId = some p)).map
    (fun c => c.id)

/-- The category stored under `p` once `categories` have been wired. -/
def addChildren (categories : List Category) (p : CategoryId) (c : Category) :
    Category :=
  { c with childIds := c.childIds ++ linked rootId categories p }

/-- The parent check that `_wire_children` makes on one category. -/
def Wirable (keys : List CategoryId) (c : Category) : Prop :=
  (c.id = rootId → c.parentId = none) ∧
  (c.id ≠ rootId → ∃ p, c.parentId = some p ∧ p ∈ keys)

/-- Appending one category to the wired prefix changes one child list. -/
theorem mapVal_addChildren_snoc
    (base : ById) (pre : List Category) (c : Category)
    {p : CategoryId} {parent : Category}
    (hroot : c.id ≠ rootId) (hp : c.parentId = some p)
    (hget : (base.mapVal (addChildren rootId pre)).get? p = some parent) :
    (base.mapVal (addChildren rootId pre)).set p
        { parent with childIds := parent.childIds ++ [c.id] } =
      base.mapVal (addChildren rootId (pre ++ [c])) := by
  have hlinked : ∀ k, linked rootId (pre ++ [c]) k =
      linked rootId pre k ++ if k = p then [c.id] else [] := by
    intro k
    unfold linked
    rw [List.filter_append, List.map_append]
    by_cases hk : k = p
    · simp [hk, hp, hroot]
    · have hk' : ¬ p = k := fun h => hk h.symm
      simp [hk, hk', hp]
  apply Dict.ext_get?
  · have hmem : p ∈ (base.mapVal (addChildren rootId pre)).keys :=
      (Dict.mem_keys_iff _ _).mpr ⟨parent, hget⟩
    rw [Dict.keys_set, if_pos hmem, Dict.keys_mapVal, Dict.keys_mapVal]
  · intro k
    rw [Dict.get?_set]
    by_cases hk : p = k
    · subst hk
      rw [if_pos rfl]
      rw [Dict.get?_mapVal] at hget ⊢
      cases hb : base.get? p with
      | none =>
          rw [hb] at hget
          cases hget
      | some b =>
          rw [hb, Option.map_some, Option.some.injEq] at hget
          subst hget
          simp [addChildren, hlinked, List.append_assoc]
    · rw [if_neg hk, Dict.get?_mapVal, Dict.get?_mapVal]
      have hk' : ¬ k = p := fun h => hk h.symm
      congr 1
      funext d
      simp [addChildren, hlinked, hk']

theorem mapVal_addChildren_skip
    (base : ById) (pre : List Category) {c : Category} (hroot : c.id = rootId) :
    base.mapVal (addChildren rootId (pre ++ [c])) =
      base.mapVal (addChildren rootId pre) := by
  have hf : addChildren rootId (pre ++ [c]) = addChildren rootId pre := by
    funext k d
    simp [addChildren, linked, List.filter_append, hroot]
  rw [hf]

/-- What the wiring loop computes, and when it does. -/
theorem wireLoop_eq_ok_iff (base : ById) :
    ∀ (cs pre : List Category) (byId' : ById),
      wireLoop rootId (base.mapVal (addChildren rootId pre)) cs = .ok byId' ↔
        (∀ c, c ∈ cs → Wirable rootId base.keys c) ∧
        byId' = base.mapVal (addChildren rootId (pre ++ cs))
  | [], pre, byId' => by
      rw [wireLoop, Except.ok.injEq, List.append_nil]
      constructor
      · intro h
        exact ⟨fun c hc => absurd hc List.not_mem_nil, h.symm⟩
      · exact fun h => h.2.symm
  | c :: cs, pre, byId' => by
      have hsplit : pre ++ c :: cs = pre ++ [c] ++ cs := by simp
      rw [hsplit, List.forall_mem_cons]
      by_cases hroot : c.id = rootId
      · cases hp : c.parentId with
        | some p =>
            simp only [wireLoop, hroot, hp, if_true, Option.isSome_some]
            constructor
            · intro h
              cases h
            · rintro ⟨⟨hw, _⟩, _⟩
              have h := hw.1 hroot
              rw [hp] at h
              cases h
        | none =>
            have hw : Wirable rootId base.keys c :=
              ⟨fun _ => hp, fun h => absurd hroot h⟩
            have ih := wireLoop_eq_ok_iff base cs (pre ++ [c]) byId'
            rw [mapVal_addChildren_skip rootId base pre hroot] at ih
            simp only [wireLoop, hroot, hp, if_true, Option.isSome_none,
              Bool.false_eq_true, if_false]
            rw [ih]
            constructor
            · rintro ⟨h1, h2⟩
              exact ⟨⟨hw, h1⟩, h2⟩
            · rintro ⟨⟨_, h1⟩, h2⟩
              exact ⟨h1, h2⟩
      · cases hp : c.parentId with
        | none =>
            simp only [wireLoop, hroot, hp, if_false]
            constructor
            · intro h
              cases h
            · rintro ⟨⟨hw, _⟩, _⟩
              obtain ⟨p, hp', _⟩ := hw.2 hroot
              rw [hp] at hp'
              cases hp'
        | some p =>
            cases hget : (base.mapVal (addChildren rootId pre)).get? p with
            | none =>
                simp only [wireLoop, hroot, hp, if_false, hget]
                constructor
                · intro h
                  cases h
                · rintro ⟨⟨hw, _⟩, _⟩
                  obtain ⟨p', hp', hk⟩ := hw.2 hroot
                  rw [hp, Option.some.injEq] at hp'
                  subst hp'
                  rw [Dict.get?_eq_none_iff, Dict.keys_mapVal] at hget
                  exact absurd hk hget
            | some parent =>
                have hkey : p ∈ base.keys := by
                  have h := (Dict.mem_keys_iff _ _).mpr ⟨parent, hget⟩
                  rwa [Dict.keys_mapVal] at h
                have hw : Wirable rootId base.keys c :=
                  ⟨fun h => absurd h hroot, fun _ => ⟨p, hp, hkey⟩⟩
                have ih := wireLoop_eq_ok_iff base cs (pre ++ [c]) byId'
                rw [← mapVal_addChildren_snoc rootId base pre c hroot hp hget]
                  at ih
                simp only [wireLoop, hroot, hp, if_false, hget]
                rw [ih]
                constructor
                · rintro ⟨h1, h2⟩
                  exact ⟨⟨hw, h1⟩, h2⟩
                · rintro ⟨⟨_, h1⟩, h2⟩
                  exact ⟨h1, h2⟩

theorem wireLoop_error :
    ∀ (cs : List Category) (byId : ById) {e : LoadError},
      wireLoop rootId byId cs = .error e → e.Rejects
  | [], byId, e, h => by cases h
  | c :: cs, byId, e, h => by
      rw [wireLoop] at h
      split_ifs at h
      · cases h
        exact ⟨_, rfl, fun _ h => by cases h⟩
      · exact wireLoop_error cs byId h
      · split at h
        · cases h
          exact ⟨_, rfl, fun _ h => by cases h⟩
        · split at h
          · cases h
            exact ⟨_, rfl, fun _ h => by cases h⟩
          · exact wireLoop_error cs _ h

end Wiring

section Acyclic

/-- `b` is listed as a child of `a`. -/
def ChildOf (byId : ById) (a b : CategoryId) : Prop :=
  ∃ c, byId.get? a = some c ∧ b ∈ c.childIds

/-- Child lists as wired from parent pointers: every category is a child at
most once, and the root never. -/
structure Forest (byId : ById) (rootId : CategoryId) : Prop where
  rootListed : rootId ∈ byId.keys
  listed : ∀ {a b}, ChildOf byId a b → b ∈ byId.keys
  rootless : ∀ {a}, ¬ ChildOf byId a rootId
  parentUnique : ∀ {a a' b}, ChildOf byId a b → ChildOf byId a' b → a = a'
  childNodup : ∀ {a c}, byId.get? a = some c → c.childIds.Nodup

/-- Invariant of the `while stack` loop. -/
structure LoopInvariant (byId : ById) (rootId : CategoryId)
    (seen stack : List CategoryId) : Prop where
  distinct : (seen ++ stack).Nodup
  root : rootId ∈ seen ++ stack
  fromRoot : ∀ x, x ∈ seen ++ stack →
    Relation.ReflTransGen (ChildOf byId) rootId x
  parentSeen : ∀ x, x ∈ seen ++ stack →
    x = rootId ∨ ∃ k, k ∈ seen ∧ ChildOf byId k x
  closed : ∀ k x, k ∈ seen → ChildOf byId k x → x ∈ seen ++ stack

variable {byId : ById} {rootId : CategoryId}

theorem LoopInvariant.listed (hf : Forest byId rootId)
    {seen stack : List CategoryId} (h : LoopInvariant byId rootId seen stack)
    {x : CategoryId} (hx : x ∈ seen ++ stack) : x ∈ byId.keys := by
  rcases h.parentSeen x hx with rfl | ⟨k, _, hk⟩
  · exact hf.rootListed
  · exact hf.listed hk

theorem loopInvariant_init (byId : ById) (rootId : CategoryId) :
    LoopInvariant byId rootId [] [rootId] where
  distinct := by simp
  root := by simp
  fromRoot := by
    intro x hx
    rw [List.nil_append, List.mem_singleton] at hx
    rw [hx]
  parentSeen := by
    intro x hx
    left
    simpa using hx
  closed := by
    intro k x hk
    cases hk

/-- One round keeps the invariant: a child of `cur` that were already seen or
stacked would have its parent among the seen ids, so `cur` would be seen. -/
theorem loopInvariant_step (hf : Forest byId rootId)
    {seen stack : List CategoryId} {cur : CategoryId} {c : Category}
    (h : LoopInvariant byId rootId seen (cur :: stack))
    (hget : byId.get? cur = some c) :
    LoopInvariant byId rootId (cur :: seen) (c.childIds.reverse ++ stack) := by
  have hperm : (cur :: seen ++ stack).Perm (seen ++ cur :: stack) := by
    rw [List.cons_append]
    exact List.perm_middle.symm
  have hmem : ∀ x, x ∈ cur :: seen ++ (c.childIds.reverse ++ stack) ↔
      x ∈ seen ++ cur :: stack ∨ x ∈ c.childIds := by
    intro x
    simp only [List.cons_append, List.mem_cons, List.mem_append, List.mem_reverse]
    tauto
  have hcur : cur ∉ seen := by
    intro hs
    have hd := h.distinct
    rw [List.nodup_append] at hd
    exact hd.2.2 cur hs cur List.mem_cons_self rfl
  have hfresh : ∀ x, x ∈ c.childIds → x ∉ seen ++ cur :: stack := by
    intro x hx hold
    have hchild : ChildOf byId cur x := ⟨c, hget, hx⟩
    rcases h.parentSeen x hold with rfl | ⟨k, hk, hkx⟩
    · exact hf.rootless hchild
    · exact hcur (hf.parentUnique hkx hchild ▸ hk)
  refine ⟨?_, ?_, ?_, ?_, ?_⟩
  · have hshuffle : (cur :: seen ++ (c.childIds.reverse ++ stack)).Perm
        (c.childIds.reverse ++ (cur :: seen ++ stack)) := by
      rw [← List.append_assoc, ← List.append_assoc]
      exact List.perm_append_comm.append_right stack
    rw [hshuffle.nodup_iff, List.nodup_append]
    refine ⟨List.nodup_reverse.mpr (hf.childNodup hget),
      hperm.nodup_iff.mpr h.distinct, ?_⟩
    intro x hx y hy hxy
    subst hxy
    exact hfresh x (List.mem_reverse.mp hx) (hperm.mem_iff.mp hy)
  · exact (hmem rootId).mpr (Or.inl h.root)
  · intro x hx
    rcases (hmem x).mp hx with hx | hx
    · exact h.fromRoot x hx
    · have hc : cur ∈ seen ++ cur :: stack := by simp
      exact (h.fromRoot cur hc).tail ⟨c, hget, hx⟩
  · intro x hx
    rcases (hmem x).mp hx with hx | hx
    · rcases h.parentSeen x hx with hr | ⟨k, hk, hkx⟩
      · exact Or.inl hr
      · exact Or.inr ⟨k, List.mem_cons_of_mem _ hk, hkx⟩
    · exact Or.inr ⟨cur, List.mem_cons_self, c, hget, hx⟩
  · intro k x hk hkx
    rw [hmem]
    rcases List.mem_cons.mp hk with rfl | hk
    · obtain ⟨c', hc', hx⟩ := hkx
      rw [hget, Option.some.injEq] at hc'
      exact Or.inr (hc' ▸ hx)
    · exact Or.inl (h.closed k x hk hkx)

/-- The loop ends within its rounds and marks exactly the categories below the
root; in particular it never meets a marked id. -/
theorem acyclicLoop_eq_ok (hf : Forest byId rootId) :
    ∀ (rounds : Nat) (seen stack : List CategoryId),
      LoopInvariant byId rootId seen stack →
      byId.size + 1 ≤ seen.length + rounds →
      ∃ seen', acyclicLoop byId rounds seen stack = .ok seen' ∧
        ∀ x, x ∈ seen' ↔ Relation.ReflTransGen (ChildOf byId) rootId x
  | 0, seen, stack, h, hr => by
      exfalso
      have hnd : seen.Nodup := (List.nodup_append.mp h.distinct).1
      have hsub : seen ⊆ byId.keys :=
        fun x hx => h.listed hf (List.mem_append_left _ hx)
      have hle := (List.subperm_of_subset hnd hsub).length_le
      rw [Dict.length_keys] at hle
      omega
  | rounds + 1, seen, [], h, hr => by
      refine ⟨seen, rfl, ?_⟩
      intro x
      constructor
      · intro hx
        exact h.fromRoot x (List.mem_append_left _ hx)
      · intro hx
        induction hx with
        | refl => simpa using h.root
        | tail _ hstep ih => simpa using h.closed _ _ ih hstep
  | rounds + 1, seen, cur :: stack, h, hr => by
      have hcur : cur ∉ seen := by
        intro hs
        exact (List.nodup_append.mp h.distinct).2.2 cur hs cur
          List.mem_cons_self rfl
      have hkey : cur ∈ byId.keys := h.listed hf (by simp)
      obtain ⟨c, hget⟩ := (Dict.mem_keys_iff _ _).mp hkey
      have hnext := loopInvariant_step hf h hget
      have hrounds : byId.size + 1 ≤ (cur :: seen).length + rounds := by
        rw [List.length_cons]
        omega
      rw [acyclicLoop, if_neg hcur, hget]
      exact acyclicLoop_eq_ok hf rounds _ _ hnext hrounds

/-- `_assert_acyclic` accepts exactly the forests in which every category is
below the root, and otherwise reports the orphans. -/
theorem assertAcyclic_eq_ok_iff (hf : Forest byId rootId) :
    assertAcyclic byId rootId = .ok () ↔
      ∀ k, k ∈ byId.keys → Relation.ReflTransGen (ChildOf byId) rootId k := by
  obtain ⟨seen, hloop, hseen⟩ := acyclicLoop_eq_ok hf (byId.size + 1) [] [rootId]
    (loopInvariant_init byId rootId) (by simp)
  rw [assertAcyclic, hloop]
  simp only [bind, Except.bind]
  cases horphans : byId.keys.filter (fun id => id ∉ seen) with
  | nil =>
      rw [List.filter_eq_nil_iff] at horphans
      refine ⟨fun _ k hk => ?_, fun _ => rfl⟩
      have h := horphans k hk
      rw [decide_not, Bool.not_eq_true', decide_eq_false_iff_not, not_not] at h
      exact (hseen k).mp h
  | cons orphan orphans =>
      constructor
      · intro h
        cases h
      · intro h
        have hmem : orphan ∈ byId.keys.filter (fun id => id ∉ seen) := by
          rw [horphans]
          exact List.mem_cons_self
        rw [List.mem_filter, decide_eq_true_eq] at hmem
        exact absurd ((hseen orphan).mpr (h orphan hmem.1)) hmem.2

theorem assertAcyclic_error (hf : Forest byId rootId) {e : LoadError}
    (h : assertAcyclic byId rootId = .error e) : e.Rejects := by
  obtain ⟨seen, hloop, _⟩ := acyclicLoop_eq_ok hf (byId.size + 1) [] [rootId]
    (loopInvariant_init byId rootId) (by simp)
  rw [assertAcyclic, hloop] at h
  simp only [bind, Except.bind] at h
  split at h
  · cases h
  · cases h
    exact ⟨_, rfl, fun _ h => by cases h⟩

end Acyclic

section WiredScene

/-- The category that the loader stores for an entry. -/
def wiredCategory (entries : List CategoryEntry) (e : CategoryEntry) : Category :=
  { parseCategory e with childIds := childrenOf entries e.id }

/-- The parent conditions that the wiring loop checks. -/
structure ParentsOk (rootId : CategoryId) (entries : List CategoryEntry) :
    Prop where
  root : ∀ e, e ∈ entries → e.id = rootId → e.parentId = none
  other : ∀ e, e ∈ entries → e.id ≠ rootId →
    ∃ p, p ∈ entries ∧ e.parentId = some p.id

/-- The dictionary after wiring: one entry per parsed entry, in order. -/
structure Wired (rootId : CategoryId) (entries : List CategoryEntry)
    (byId : ById) : Prop where
  idsDistinct : (entries.map (fun e => e.id)).Nodup
  rootListed : rootId ∈ entries.map (fun e => e.id)
  parents : ParentsOk rootId entries
  stored : byId.entries = entries.map (fun e => (e.id, wiredCategory entries e))

variable {rootId : CategoryId} {entries : List CategoryEntry}

theorem eq_of_id_eq (hnd : (entries.map (fun e => e.id)).Nodup)
    {e f : CategoryEntry} (he : e ∈ entries) (hf : f ∈ entries)
    (h : e.id = f.id) : e = f :=
  List.inj_on_of_nodup_map hnd he hf h

theorem mem_childrenOf (p x : CategoryId) :
    x ∈ childrenOf entries p ↔ ParentOf entries x p := by
  unfold childrenOf ParentOf
  rw [List.mem_map]
  constructor
  · rintro ⟨e, he, hx⟩
    rw [List.mem_filter, decide_eq_true_eq] at he
    exact ⟨e, he.1, hx, he.2⟩
  · rintro ⟨e, he, hx, hp⟩
    refine ⟨e, ?_, hx⟩
    rw [List.mem_filter, decide_eq_true_eq]
    exact ⟨he, hp⟩

theorem linked_eq_childrenOf (h : ParentsOk rootId entries) (p : CategoryId) :
    linked rootId (entries.map parseCategory) p = childrenOf entries p := by
  unfold linked childrenOf
  rw [List.filter_map, List.map_map]
  have hfilter : entries.filter
        ((fun c : Category => decide (c.id ≠ rootId ∧ c.parentId = some p)) ∘
          parseCategory) =
      entries.filter (fun e => e.parentId = some p) := by
    apply List.filter_congr
    intro e he
    apply decide_eq_decide.mpr
    constructor
    · exact fun h => h.2
    · intro hp
      refine ⟨?_, hp⟩
      intro hroot
      rw [h.root e he hroot] at hp
      cases hp
  rw [hfilter]
  rfl

/-- What wiring the freshly inserted dictionary gives, and when. -/
theorem wireLoop_base_eq_ok_iff {base byId' : ById}
    (hbase : base.entries = entries.map keyed) :
    wireLoop rootId base base.values = .ok byId' ↔
      ParentsOk rootId entries ∧
      byId'.entries = entries.map (fun e => (e.id, wiredCategory entries e)) := by
  have hvalues : base.values = entries.map parseCategory := by
    unfold Dict.values
    rw [hbase, List.map_map]
    rfl
  have hkeys : base.keys = entries.map (fun e => e.id) := by
    unfold Dict.keys
    rw [hbase, List.map_map]
    rfl
  have hnil : base.mapVal (addChildren rootId []) = base := by
    apply Dict.ext_get?
    · exact Dict.keys_mapVal _ _
    · intro k
      rw [Dict.get?_mapVal]
      cases base.get? k with
      | none => rfl
      | some c => simp [addChildren, linked]
  have hloop := wireLoop_eq_ok_iff rootId base base.values [] byId'
  rw [hnil, List.nil_append] at hloop
  have hwirable : (∀ c, c ∈ base.values → Wirable rootId base.keys c) ↔
      ParentsOk rootId entries := by
    rw [hvalues, hkeys]
    constructor
    · intro h
      refine ⟨?_, ?_⟩
      · intro e he hroot
        exact (h (parseCategory e) (List.mem_map_of_mem he)).1 hroot
      · intro e he hroot
        obtain ⟨p, hp, hk⟩ := (h (parseCategory e) (List.mem_map_of_mem he)).2 hroot
        obtain ⟨f, hf, rfl⟩ := List.mem_map.mp hk
        exact ⟨f, hf, hp⟩
    · intro h c hc
      obtain ⟨e, he, rfl⟩ := List.mem_map.mp hc
      refine ⟨h.root e he, ?_⟩
      intro hroot
      obtain ⟨p, hp, hpe⟩ := h.other e he hroot
      exact ⟨p.id, hpe, List.mem_map_of_mem hp⟩
  have hentries : ParentsOk rootId entries →
      (base.mapVal (addChildren rootId base.values)).entries =
        entries.map (fun e => (e.id, wiredCategory entries e)) := by
    intro h
    show base.entries.map
        (fun e => (e.1, addChildren rootId base.values e.1 e.2)) = _
    rw [hvalues, hbase, List.map_map]
    apply List.map_congr_left
    intro e _
    simp [keyed, addChildren, wiredCategory, linked_eq_childrenOf h, parseCategory]
  rw [hloop, hwirable]
  constructor
  · rintro ⟨h, rfl⟩
    exact ⟨h, hentries h⟩
  · rintro ⟨h, hent⟩
    refine ⟨h, ?_⟩
    rw [← hentries h] at hent
    cases byId'
    cases hent
    rfl

namespace Wired

variable {byId : ById} (hw : Wired rootId entries byId)
include hw

theorem keys_eq : byId.keys = entries.map (fun e => e.id) := by
  unfold Dict.keys
  rw [hw.stored, List.map_map]
  rfl

theorem values_eq : byId.values = entries.map (wiredCategory entries) := by
  unfold Dict.values
  rw [hw.stored, List.map_map]
  rfl

/-- What is stored under a key is the wired category of its entry. -/
theorem get?_eq_some_iff (k : CategoryId) (c : Category) :
    byId.get? k = some c ↔
      ∃ e, e ∈ entries ∧ e.id = k ∧ c = wiredCategory entries e := by
  rw [Dict.get?_eq_some_iff, hw.stored, List.mem_map]
  constructor
  · rintro ⟨e, he, hk⟩
    rw [Prod.mk.injEq] at hk
    exact ⟨e, he, hk.1, hk.2.symm⟩
  · rintro ⟨e, he, hk, rfl⟩
    exact ⟨e, he, by rw [hk]⟩

theorem get?_id {e : CategoryEntry} (he : e ∈ entries) :
    byId.get? e.id = some (wiredCategory entries e) :=
  (hw.get?_eq_some_iff e.id _).mpr ⟨e, he, rfl, rfl⟩

/-- The child edges are the parent pointers read backwards. -/
theorem childOf_iff (a b : CategoryId) :
    ChildOf byId a b ↔ ParentOf entries b a := by
  constructor
  · rintro ⟨c, hc, hb⟩
    obtain ⟨e, he, rfl, rfl⟩ := (hw.get?_eq_some_iff a c).mp hc
    exact (mem_childrenOf e.id b).mp hb
  · rintro ⟨f, hf, rfl, hp⟩
    have hroot : f.id ≠ rootId := by
      intro h
      rw [hw.parents.root f hf h] at hp
      cases hp
    obtain ⟨e, he, hpe⟩ := hw.parents.other f hf hroot
    rw [hp, Option.some.injEq] at hpe
    subst hpe
    refine ⟨wiredCategory entries e, hw.get?_id he, ?_⟩
    exact (mem_childrenOf e.id f.id).mpr ⟨f, hf, rfl, hp⟩

theorem forest : Forest byId rootId where
  rootListed := by
    rw [hw.keys_eq]
    exact hw.rootListed
  listed := by
    intro a b hab
    obtain ⟨e, he, rfl, _⟩ := (hw.childOf_iff a b).mp hab
    rw [hw.keys_eq]
    exact List.mem_map_of_mem he
  rootless := by
    intro a hab
    obtain ⟨e, he, hid, hp⟩ := (hw.childOf_iff a rootId).mp hab
    rw [hw.parents.root e he hid] at hp
    cases hp
  parentUnique := by
    intro a a' b hab hab'
    obtain ⟨e, he, hid, hp⟩ := (hw.childOf_iff a b).mp hab
    obtain ⟨e', he', hid', hp'⟩ := (hw.childOf_iff a' b).mp hab'
    have heq := eq_of_id_eq hw.idsDistinct he he' (hid.trans hid'.symm)
    subst heq
    rw [hp, Option.some.injEq] at hp'
    exact hp'
  childNodup := by
    intro a c hc
    obtain ⟨e, _, _, rfl⟩ := (hw.get?_eq_some_iff a c).mp hc
    exact List.Nodup.sublist (List.Sublist.map _ List.filter_sublist) hw.idsDistinct

/-- A category is below the root iff its parent chain reaches the root. -/
theorem reach_iff (k : CategoryId) :
    Relation.ReflTransGen (ChildOf byId) rootId k ↔
      Relation.ReflTransGen (ParentOf entries) k rootId := by
  have hswap : Function.swap (ParentOf entries) = ChildOf byId := by
    funext a b
    exact propext (hw.childOf_iff a b).symm
  rw [← hswap]
  exact Relation.reflTransGen_swap

end Wired

end WiredScene

end Core
end Sandroid
