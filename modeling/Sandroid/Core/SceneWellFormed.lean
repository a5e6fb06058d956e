import Sandroid.Core.SceneWiring
import Mathlib.Data.List.Induction

/-!
# The loader accepts exactly the well-formed scenes

`WellFormedScene` says, on the list of entries alone and in terms of parent
pointers, what a scene file must satisfy.  The loader never looks at it: it
wires child lists, runs a reachability loop over them and checks the categories
one by one.

* `buildTree_eq_ok_iff`: the loader returns a tree iff the scene is well
  formed, and then it is the wired tree of the entries;
* `buildTree_error`: every other scene is rejected with a validation error,
  never with a detected cycle;
* `TreeInvariant`: what later modules may use of a loaded tree.
-/

namespace Sandroid
namespace Core

open Lib

/-- Structural rules that a mode puts on an entry with the given children. -/
structure StructuralRules (e : CategoryEntry) (children : List CategoryId) :
    Prop where
  ordinary : (∃ i, i ∈ e.intents ∧ i.isSpecial = false) →
    e.mode.props.mayHoldOrdinary = true
  special : (∃ i, i ∈ e.intents ∧ i.isSpecial = true) →
    e.mode.props.mayHoldSpecial = true
  required : e.mode.props.requiresSpecial = true →
    ∃ i, i ∈ e.intents ∧ i.isSpecial = true
  noChildren : e.mode.props.forbidsChildren = true → children = []
  chain : e.mode.props.singleChildChain = true → children.length ≤ 1

/-- What a scene must satisfy, stated on its entries. -/
structure WellFormedScene (rootId : CategoryId) (entries : List CategoryEntry) :
    Prop where
  idsDistinct : (entries.map (fun e => e.id)).Nodup
  rootListed : ∃ e, e ∈ entries ∧ e.id = rootId ∧ e.parentId = none
  parentListed : ∀ e, e ∈ entries → e.id ≠ rootId →
    ∃ p, p ∈ entries ∧ e.parentId = some p.id
  reachesRoot : ∀ e, e ∈ entries →
    Relation.ReflTransGen (ParentOf entries) e.id rootId
  siblingNames : ∀ e f, e ∈ entries → f ∈ entries →
    e.parentId ≠ none → e.parentId = f.parentId → e.name = f.name → e = f
  structural : ∀ e, e ∈ entries → StructuralRules e (childrenOf entries e.id)
  extendsEnum : ∀ e, e ∈ entries → ∀ t, e.extendsEnumCategory = some t →
    e.mode ≠ .enum ∧ ∃ f, f ∈ entries ∧ f.id = t ∧ f.mode = .enum

section Validators

/-- The structural check, read off a category with its child list. -/
theorem checkStructuralRules_eq_ok_iff
    (entries : List CategoryEntry) (e : CategoryEntry) :
    checkStructuralRules (wiredCategory entries e) = .ok () ↔
      StructuralRules e (childrenOf entries e.id) := by
  have hord : (wiredCategory entries e).ordinaryIntents ≠ [] ↔
      ∃ i, i ∈ e.intents ∧ i.isSpecial = false := by
    simp [wiredCategory, parseCategory, Category.ordinaryIntents]
  have hspec : (wiredCategory entries e).specialIntents ≠ [] ↔
      ∃ i, i ∈ e.intents ∧ i.isSpecial = true := by
    simp [wiredCategory, parseCategory, Category.specialIntents]
  have hmode : (wiredCategory entries e).mode = e.mode := rfl
  have hchild : (wiredCategory entries e).childIds = childrenOf entries e.id := rfl
  unfold checkStructuralRules
  simp only [hmode, hchild]
  split_ifs with h1 h2 h3 h4 h5
  · refine ⟨fun h => (by cases h), fun h => ?_⟩
    have := h.ordinary (hord.mp h1.1)
    rw [h1.2] at this
    cases this
  · refine ⟨fun h => (by cases h), fun h => ?_⟩
    have := h.special (hspec.mp h2.1)
    rw [h2.2] at this
    cases this
  · refine ⟨fun h => (by cases h), fun h => ?_⟩
    exact absurd h3.2 (hspec.mpr (h.required h3.1))
  · refine ⟨fun h => (by cases h), fun h => ?_⟩
    exact absurd (h.noChildren h4.1) h4.2
  · refine ⟨fun h => (by cases h), fun h => ?_⟩
    have := h.chain h5.1
    omega
  · refine ⟨fun _ => ⟨?_, ?_, ?_, ?_, ?_⟩, fun _ => rfl⟩
    · intro hi
      by_contra hb
      exact h1 ⟨hord.mpr hi, Bool.eq_false_iff.mpr hb⟩
    · intro hi
      by_contra hb
      exact h2 ⟨hspec.mpr hi, Bool.eq_false_iff.mpr hb⟩
    · intro hr
      by_contra hb
      exact h3 ⟨hr, not_not.mp (fun h => hb (hspec.mp h))⟩
    · intro hf
      by_contra hb
      exact h4 ⟨hf, hb⟩
    · intro hc
      by_contra hb
      exact h5 ⟨hc, by omega⟩

theorem checkStructuralRules_error {c : Category} {e : LoadError}
    (h : checkStructuralRules c = .error e) : e.Rejects := by
  simp only [checkStructuralRules] at h
  split_ifs at h <;>
    · cases h
      exact ⟨_, rfl, fun _ h => by cases h⟩

/-- `_assert_unique` accepts exactly the name lists without repetition. -/
theorem assertUniqueNames_eq_ok_iff (byId : ById) (parentId : CategoryId) :
    ∀ (cs : List Category) (seen : List String),
      (∀ c, c ∈ cs → byId.get? c.id = some c) →
      (assertUniqueNames byId parentId seen (cs.map (fun c => c.id)) = .ok () ↔
        (cs.map (fun c => c.name)).Nodup ∧ ∀ c, c ∈ cs → c.name ∉ seen)
  | [], seen, _ => by simp [assertUniqueNames]
  | c :: cs, seen, hcs => by
      rw [List.forall_mem_cons] at hcs
      have ih := assertUniqueNames_eq_ok_iff byId parentId cs (c.name :: seen) hcs.2
      rw [List.map_cons, List.map_cons, List.nodup_cons, assertUniqueNames, hcs.1,
        List.forall_mem_cons]
      by_cases hseen : c.name ∈ seen
      · simp only [if_pos hseen]
        refine ⟨nofun, fun h => absurd hseen h.2.1⟩
      · simp only [if_neg hseen]
        rw [ih]
        constructor
        · rintro ⟨hnd, hfresh⟩
          refine ⟨⟨?_, hnd⟩, hseen, ?_⟩
          · intro hmem
            obtain ⟨d, hd, hname⟩ := List.mem_map.mp hmem
            apply hfresh d hd
            rw [hname]
            exact List.mem_cons_self
          · exact fun d hd hin => hfresh d hd (List.mem_cons_of_mem _ hin)
        · rintro ⟨⟨hne, hnd⟩, _, hfresh⟩
          refine ⟨hnd, ?_⟩
          intro d hd hin
          rcases List.mem_cons.mp hin with heq | hin
          · apply hne
            rw [← heq]
            exact List.mem_map_of_mem hd
          · exact hfresh d hd hin

theorem assertUniqueNames_error (byId : ById) (parentId : CategoryId) :
    ∀ (cs : List Category) (seen : List String) {e : LoadError},
      (∀ c, c ∈ cs → byId.get? c.id = some c) →
      assertUniqueNames byId parentId seen (cs.map (fun c => c.id)) = .error e →
      e.Rejects
  | [], seen, e, _, h => by cases h
  | c :: cs, seen, e, hcs, h => by
      rw [List.forall_mem_cons] at hcs
      rw [List.map_cons, assertUniqueNames, hcs.1] at h
      simp only at h
      split_ifs at h
      · cases h
        exact ⟨_, rfl, fun _ h => by cases h⟩
      · exact assertUniqueNames_error byId parentId cs _ hcs.2 h

theorem checkExtendsEnum_error {byId : ById} {c : Category} {e : LoadError}
    (h : checkExtendsEnum byId c = .error e) : e.Rejects := by
  unfold checkExtendsEnum at h
  split at h
  · cases h
  · split at h
    · cases h
      exact ⟨_, rfl, fun _ h => by cases h⟩
    · split_ifs at h <;>
        · cases h
          exact ⟨_, rfl, fun _ h => by cases h⟩

variable {rootId : CategoryId} {entries : List CategoryEntry} {byId : ById}
  (hw : Wired rootId entries byId)
include hw

theorem validateStructuralRules_eq_ok_iff :
    validateStructuralRules byId = .ok () ↔
      ∀ e, e ∈ entries → StructuralRules e (childrenOf entries e.id) := by
  unfold validateStructuralRules
  rw [forEach_eq_ok_iff, hw.values_eq, List.forall_mem_map]
  constructor
  · exact fun h e he => (checkStructuralRules_eq_ok_iff entries e).mp (h e he)
  · exact fun h e he => (checkStructuralRules_eq_ok_iff entries e).mpr (h e he)

/-- The children of an entry as stored categories. -/
theorem childrenOf_eq_map_wired (p : CategoryId) :
    childrenOf entries p =
        ((entries.filter (fun e => e.parentId = some p)).map
          (wiredCategory entries)).map (fun c => c.id) ∧
      ∀ c, c ∈ (entries.filter (fun e => e.parentId = some p)).map
          (wiredCategory entries) → byId.get? c.id = some c := by
  refine ⟨by rw [List.map_map]; rfl, ?_⟩
  intro c hc
  obtain ⟨e, he, rfl⟩ := List.mem_map.mp hc
  exact hw.get?_id (List.mem_filter.mp he).1

theorem validateUniqueNamesPerParent_eq_ok_iff :
    validateUniqueNamesPerParent byId = .ok () ↔
      ∀ e f, e ∈ entries → f ∈ entries →
        e.parentId ≠ none → e.parentId = f.parentId → e.name = f.name → e = f := by
  have hentries : entries.Nodup := List.Nodup.of_map _ hw.idsDistinct
  have hcheck : ∀ p : CategoryEntry,
      assertUniqueNames byId p.id [] (childrenOf entries p.id) = .ok () ↔
        ∀ e, e ∈ entries → e.parentId = some p.id →
        ∀ f, f ∈ entries → f.parentId = some p.id → e.name = f.name → e = f := by
    intro p
    obtain ⟨heq, hget⟩ := childrenOf_eq_map_wired hw p.id
    rw [heq, assertUniqueNames_eq_ok_iff byId p.id _ [] hget, List.map_map]
    have hnames : (fun c : Category => c.name) ∘ wiredCategory entries =
        fun e => e.name := rfl
    rw [hnames, List.nodup_map_iff_inj_on (hentries.filter _)]
    simp only [List.mem_filter, decide_eq_true_eq, List.not_mem_nil,
      not_false_eq_true, implies_true, and_true]
    constructor
    · exact fun h e he hep f hf hfp hn => h e ⟨he, hep⟩ f ⟨hf, hfp⟩ hn
    · exact fun h e he f hf hn => h e he.1 he.2 f hf.1 hf.2 hn
  unfold validateUniqueNamesPerParent
  rw [forEach_eq_ok_iff, hw.values_eq, List.forall_mem_map]
  constructor
  · intro h e f he hf hne hpar hname
    have hroot : e.id ≠ rootId := fun hr => hne (hw.parents.root e he hr)
    obtain ⟨p, hp, hpe⟩ := hw.parents.other e he hroot
    exact (hcheck p).mp (h p hp) e he hpe f hf (hpar ▸ hpe) hname
  · intro h p hp
    apply (hcheck p).mpr
    intro e he hep f hf hfp hname
    exact h e f he hf (by rw [hep]; exact Option.some_ne_none _) (hep.trans hfp.symm)
      hname

theorem validateUniqueNamesPerParent_error {e : LoadError}
    (h : validateUniqueNamesPerParent byId = .error e) : e.Rejects := by
  obtain ⟨c, hc, he⟩ := forEach_eq_error h
  rw [hw.values_eq] at hc
  obtain ⟨p, _, rfl⟩ := List.mem_map.mp hc
  obtain ⟨heq, hget⟩ := childrenOf_eq_map_wired hw p.id
  have hids : (wiredCategory entries p).childIds = childrenOf entries p.id := rfl
  rw [hids, heq] at he
  exact assertUniqueNames_error byId _ _ _ hget he

theorem validateExtendsEnum_eq_ok_iff :
    validateExtendsEnum byId = .ok () ↔
      ∀ e, e ∈ entries → ∀ t, e.extendsEnumCategory = some t →
        e.mode ≠ .enum ∧ ∃ f, f ∈ entries ∧ f.id = t ∧ f.mode = .enum := by
  unfold validateExtendsEnum
  rw [forEach_eq_ok_iff, hw.values_eq, List.forall_mem_map]
  apply forall_congr'
  intro e
  apply forall_congr'
  intro he
  have hext : (wiredCategory entries e).extendsEnumCategory =
      e.extendsEnumCategory := rfl
  have hmode : (wiredCategory entries e).mode = e.mode := rfl
  unfold checkExtendsEnum
  rw [hext, hmode]
  cases e.extendsEnumCategory with
  | none => simp
  | some t =>
      simp only [Option.some.injEq, forall_eq']
      cases hget : byId.get? t with
      | none =>
          refine ⟨fun h => (by cases h), ?_⟩
          rintro ⟨_, f, hf, rfl, _⟩
          rw [hw.get?_id hf] at hget
          cases hget
      | some c =>
          obtain ⟨f, hf, rfl, rfl⟩ := (hw.get?_eq_some_iff t c).mp hget
          have hfmode : (wiredCategory entries f).mode = f.mode := rfl
          simp only [hfmode]
          split_ifs with h1 h2
          · refine ⟨fun h => (by cases h), ?_⟩
            rintro ⟨_, g, hg, hid, hgm⟩
            have := eq_of_id_eq hw.idsDistinct hg hf hid
            exact absurd (this ▸ hgm) h1
          · refine ⟨fun h => (by cases h), fun h => absurd h2 h.1⟩
          · exact ⟨fun _ => ⟨h2, f, hf, rfl, not_not.mp h1⟩, fun _ => rfl⟩

end Validators

section Acceptance

variable {rootId : CategoryId} {entries : List CategoryEntry}

/-- The dictionary that the first loop fills. -/
theorem insertCategories_empty_eq_ok_iff {base : ById} :
    insertCategories Dict.empty entries = .ok base ↔
      (entries.map (fun e => e.id)).Nodup ∧ base.entries = entries.map keyed := by
  rw [insertCategories_eq_ok_iff]
  constructor
  · rintro ⟨hnd, _, h⟩
    exact ⟨hnd, h⟩
  · rintro ⟨hnd, h⟩
    exact ⟨hnd, fun e _ => List.not_mem_nil, h⟩

theorem keys_of_inserted {base : ById} (hbase : base.entries = entries.map keyed) :
    base.keys = entries.map (fun e => e.id) := by
  unfold Dict.keys
  rw [hbase, List.map_map]
  rfl

/-- The loader's run, stage by stage. -/
theorem buildTree_stages (tree : CategoryTree) :
    buildTree rootId entries = .ok tree ↔
      ∃ base byId,
        insertCategories Dict.empty entries = .ok base ∧
        rootId ∈ base.keys ∧
        wireLoop rootId base base.values = .ok byId ∧
        assertAcyclic byId rootId = .ok () ∧
        validateStructuralRules byId = .ok () ∧
        validateUniqueNamesPerParent byId = .ok () ∧
        validateExtendsEnum byId = .ok () ∧
        tree = { rootId := rootId, categories := byId } := by
  constructor
  · intro h
    rw [buildTree, except_bind_eq_ok_iff] at h
    obtain ⟨base, hins, h⟩ := h
    split_ifs at h with hroot
    rw [except_bind_eq_ok_iff] at h
    obtain ⟨byId, hwire, h⟩ := h
    rw [wireChildren, except_bind_eq_ok_iff] at hwire
    obtain ⟨byId', hloop, hwire⟩ := hwire
    rw [except_bind_eq_ok_iff] at hwire
    obtain ⟨_, hacyclic, hwire⟩ := hwire
    cases hwire
    rw [except_bind_eq_ok_iff] at h
    obtain ⟨_, hstruct, h⟩ := h
    rw [except_bind_eq_ok_iff] at h
    obtain ⟨_, hunique, h⟩ := h
    rw [except_bind_eq_ok_iff] at h
    obtain ⟨_, hextends, h⟩ := h
    cases h
    rw [Option.isNone_iff_eq_none, Dict.get?_eq_none_iff, not_not] at hroot
    exact ⟨base, byId, hins, hroot, hloop, hacyclic, hstruct, hunique, hextends, rfl⟩
  · rintro ⟨base, byId, hins, hroot, hloop, hacyclic, hstruct, hunique, hextends, rfl⟩
    have hnone : ¬ (base.get? rootId).isNone = true := by
      rw [Option.isNone_iff_eq_none, Dict.get?_eq_none_iff, not_not]
      exact hroot
    simp only [buildTree, wireChildren, hins, bind, Except.bind, hnone, hloop,
      hacyclic, hstruct, hunique, hextends, Bool.false_eq_true, if_false]

/-- **Acceptance.**  The loader returns a tree exactly for a well-formed scene,
and the tree is the wired one. -/
theorem buildTree_eq_ok_iff (tree : CategoryTree) :
    buildTree rootId entries = .ok tree ↔
      WellFormedScene rootId entries ∧
      tree.rootId = rootId ∧
      tree.categories.entries =
        entries.map (fun e => (e.id, wiredCategory entries e)) := by
  rw [buildTree_stages]
  constructor
  · rintro ⟨base, byId, hins, hroot, hloop, hacyclic, hstruct, hunique, hextends, rfl⟩
    obtain ⟨hnd, hbase⟩ := insertCategories_empty_eq_ok_iff.mp hins
    obtain ⟨hparents, hstored⟩ := (wireLoop_base_eq_ok_iff hbase).mp hloop
    rw [keys_of_inserted hbase] at hroot
    have hw : Wired rootId entries byId := ⟨hnd, hroot, hparents, hstored⟩
    rw [assertAcyclic_eq_ok_iff hw.forest] at hacyclic
    refine ⟨⟨hnd, ?_, hparents.other, ?_, ?_, ?_, ?_⟩, rfl, hstored⟩
    · obtain ⟨e, he, hid⟩ := List.mem_map.mp hroot
      exact ⟨e, he, hid, hparents.root e he hid⟩
    · intro e he
      apply (hw.reach_iff e.id).mp
      apply hacyclic
      rw [hw.keys_eq]
      exact List.mem_map_of_mem he
    · exact (validateUniqueNamesPerParent_eq_ok_iff hw).mp hunique
    · exact (validateStructuralRules_eq_ok_iff hw).mp hstruct
    · exact (validateExtendsEnum_eq_ok_iff hw).mp hextends
  · rintro ⟨hwf, hroot, hstored⟩
    obtain ⟨treeRoot, byId⟩ := tree
    subst hroot
    have hkeyed : (entries.map keyed).map Prod.fst = entries.map (fun e => e.id) := by
      rw [List.map_map]
      rfl
    have hnd : ((entries.map keyed).map Prod.fst).Nodup := by
      rw [hkeyed]
      exact hwf.idsDistinct
    obtain ⟨r, hr, hrid, hrp⟩ := hwf.rootListed
    have hparents : ParentsOk treeRoot entries := by
      refine ⟨?_, hwf.parentListed⟩
      intro e he hid
      rw [eq_of_id_eq hwf.idsDistinct he hr (hid.trans hrid.symm)]
      exact hrp
    have hrootmem : treeRoot ∈ entries.map (fun e => e.id) :=
      List.mem_map.mpr ⟨r, hr, hrid⟩
    have hw : Wired treeRoot entries byId :=
      ⟨hwf.idsDistinct, hrootmem, hparents, hstored⟩
    refine ⟨⟨entries.map keyed, hnd⟩, byId, ?_, ?_, ?_, ?_, ?_, ?_, ?_, rfl⟩
    · exact insertCategories_empty_eq_ok_iff.mpr ⟨hwf.idsDistinct, rfl⟩
    · have hkeys : (⟨entries.map keyed, hnd⟩ : ById).keys =
          entries.map (fun e => e.id) := keys_of_inserted rfl
      rw [hkeys]
      exact hrootmem
    · exact (wireLoop_base_eq_ok_iff rfl).mpr ⟨hparents, hstored⟩
    · rw [assertAcyclic_eq_ok_iff hw.forest]
      intro k hk
      rw [hw.keys_eq] at hk
      obtain ⟨e, he, rfl⟩ := List.mem_map.mp hk
      exact (hw.reach_iff e.id).mpr (hwf.reachesRoot e he)
    · exact (validateStructuralRules_eq_ok_iff hw).mpr hwf.structural
    · exact (validateUniqueNamesPerParent_eq_ok_iff hw).mpr hwf.siblingNames
    · exact (validateExtendsEnum_eq_ok_iff hw).mpr hwf.extendsEnum

/-- A scene that is not accepted is rejected by a validation error. -/
theorem buildTree_error {e : LoadError}
    (h : buildTree rootId entries = .error e) : e.Rejects := by
  rw [buildTree, except_bind_eq_error_iff] at h
  rcases h with h | ⟨base, hins, h⟩
  · exact insertCategories_error entries _ h
  obtain ⟨hnd, hbase⟩ := insertCategories_empty_eq_ok_iff.mp hins
  split_ifs at h with hroot
  · cases h
    exact ⟨_, rfl, fun _ h => by cases h⟩
  rw [Option.isNone_iff_eq_none, Dict.get?_eq_none_iff, not_not,
    keys_of_inserted hbase] at hroot
  rw [except_bind_eq_error_iff] at h
  rcases h with h | ⟨byId, hwire, h⟩
  · rw [wireChildren, except_bind_eq_error_iff] at h
    rcases h with h | ⟨byId, hloop, h⟩
    · exact wireLoop_error rootId _ _ h
    obtain ⟨hparents, hstored⟩ := (wireLoop_base_eq_ok_iff hbase).mp hloop
    have hw : Wired rootId entries byId := ⟨hnd, hroot, hparents, hstored⟩
    rw [except_bind_eq_error_iff] at h
    rcases h with h | ⟨_, _, h⟩
    · exact assertAcyclic_error hw.forest h
    · cases h
  rw [wireChildren, except_bind_eq_ok_iff] at hwire
  obtain ⟨byId', hloop, hwire⟩ := hwire
  rw [except_bind_eq_ok_iff] at hwire
  obtain ⟨_, _, hwire⟩ := hwire
  cases hwire
  obtain ⟨hparents, hstored⟩ := (wireLoop_base_eq_ok_iff hbase).mp hloop
  have hw : Wired rootId entries byId := ⟨hnd, hroot, hparents, hstored⟩
  rw [except_bind_eq_error_iff] at h
  rcases h with h | ⟨_, _, h⟩
  · obtain ⟨c, _, hc⟩ := forEach_eq_error h
    exact checkStructuralRules_error hc
  rw [except_bind_eq_error_iff] at h
  rcases h with h | ⟨_, _, h⟩
  · exact validateUniqueNamesPerParent_error hw h
  rw [except_bind_eq_error_iff] at h
  rcases h with h | ⟨_, _, h⟩
  · obtain ⟨c, _, hc⟩ := forEach_eq_error h
    exact checkExtendsEnum_error hc
  · cases h

end Acceptance

section LoadedTree

/-- What holds of every loaded tree, stated on the tree alone. -/
structure TreeInvariant (tree : CategoryTree) : Prop where
  forest : Forest tree.categories tree.rootId
  keyedById : ∀ {k c}, tree.categories.get? k = some c → c.id = k
  parentIff : ∀ {k c}, tree.categories.get? k = some c →
    ∀ p, c.parentId = some p ↔ ChildOf tree.categories p k
  reached : ∀ {k}, k ∈ tree.categories.keys →
    Relation.ReflTransGen (ChildOf tree.categories) tree.rootId k
  extendsEnum : ∀ {k c t}, tree.categories.get? k = some c →
    c.extendsEnumCategory = some t →
    c.mode ≠ .enum ∧ ∃ d, tree.categories.get? t = some d ∧ d.mode = .enum

variable {rootId : CategoryId} {entries : List CategoryEntry} {tree : CategoryTree}

theorem wired_of_buildTree (h : buildTree rootId entries = .ok tree) :
    Wired rootId entries tree.categories := by
  obtain ⟨hwf, _, hstored⟩ := (buildTree_eq_ok_iff tree).mp h
  obtain ⟨r, hr, hrid, hrp⟩ := hwf.rootListed
  refine ⟨hwf.idsDistinct, List.mem_map.mpr ⟨r, hr, hrid⟩, ⟨?_, hwf.parentListed⟩,
    hstored⟩
  intro e he hid
  rw [eq_of_id_eq hwf.idsDistinct he hr (hid.trans hrid.symm)]
  exact hrp

/-- **The loader establishes the tree invariant.** -/
theorem treeInvariant_of_buildTree (h : buildTree rootId entries = .ok tree) :
    TreeInvariant tree := by
  have hw := wired_of_buildTree h
  obtain ⟨hwf, hroot, hstored⟩ := (buildTree_eq_ok_iff tree).mp h
  refine ⟨?_, ?_, ?_, ?_, ?_⟩
  · rw [hroot]
    exact hw.forest
  · intro k c hc
    obtain ⟨e, _, hid, rfl⟩ := (hw.get?_eq_some_iff k c).mp hc
    exact hid
  · intro k c hc p
    obtain ⟨e, he, rfl, rfl⟩ := (hw.get?_eq_some_iff k c).mp hc
    rw [hw.childOf_iff]
    constructor
    · exact fun hp => ⟨e, he, rfl, hp⟩
    · rintro ⟨f, hf, hid, hp⟩
      rw [eq_of_id_eq hw.idsDistinct hf he hid] at hp
      exact hp
  · intro k hk
    rw [hw.keys_eq] at hk
    obtain ⟨e, he, rfl⟩ := List.mem_map.mp hk
    rw [hroot]
    exact (hw.reach_iff e.id).mpr (hwf.reachesRoot e he)
  · intro k c t hc ht
    obtain ⟨e, he, rfl, rfl⟩ := (hw.get?_eq_some_iff k c).mp hc
    obtain ⟨hmode, f, hf, rfl, hfm⟩ := hwf.extendsEnum e he t ht
    exact ⟨hmode, _, hw.get?_id hf, hfm⟩

/-- `path` lists the categories after `a` on a chain of child edges to `b`. -/
def ChildPath (byId : ById) : CategoryId → List CategoryId → CategoryId → Prop
  | a, [], b => a = b
  | a, x :: path, b => ChildOf byId a x ∧ ChildPath byId x path b

theorem childPath_snoc {byId : ById} {b y : CategoryId} :
    ∀ (path : List CategoryId) (a : CategoryId),
      ChildPath byId a (path ++ [y]) b ↔
        y = b ∧ ∃ z, ChildPath byId a path z ∧ ChildOf byId z y
  | [], a => by
      simp only [List.nil_append, ChildPath]
      constructor
      · rintro ⟨h, rfl⟩
        exact ⟨rfl, a, rfl, h⟩
      · rintro ⟨rfl, z, rfl, h⟩
        exact ⟨h, rfl⟩
  | x :: path, a => by
      simp only [List.cons_append, ChildPath, childPath_snoc path x]
      constructor
      · rintro ⟨hx, rfl, z, hz, hzy⟩
        exact ⟨rfl, z, ⟨hx, hz⟩, hzy⟩
      · rintro ⟨rfl, z, ⟨hx, hz⟩, hzy⟩
        exact ⟨hx, rfl, z, hz, hzy⟩

theorem exists_childPath {byId : ById} {a b : CategoryId}
    (h : Relation.ReflTransGen (ChildOf byId) a b) :
    ∃ path, ChildPath byId a path b := by
  induction h with
  | refl => exact ⟨[], rfl⟩
  | tail _ hstep ih =>
      obtain ⟨path, hpath⟩ := ih
      exact ⟨path ++ [_], (childPath_snoc _ _).mpr ⟨rfl, _, hpath, hstep⟩⟩

/-- In a forest two child paths from the root to one category are equal: read
from the end, each step back goes to the unique parent. -/
theorem childPath_unique {byId : ById} {rootId : CategoryId}
    (hf : Forest byId rootId) (path : List CategoryId) :
    ∀ {path' : List CategoryId} {k : CategoryId},
      ChildPath byId rootId path k → ChildPath byId rootId path' k →
      path = path' := by
  induction path using List.reverseRecOn with
  | nil =>
      intro path' k h h'
      cases h
      rcases List.eq_nil_or_concat path' with rfl | ⟨init, y, rfl⟩
      · rfl
      · rw [List.concat_eq_append] at h'
        obtain ⟨rfl, z, _, hz⟩ := (childPath_snoc _ _).mp h'
        exact absurd hz hf.rootless
  | append_singleton init y ih =>
      intro path' k h h'
      obtain ⟨rfl, z, hz, hzy⟩ := (childPath_snoc _ _).mp h
      rcases List.eq_nil_or_concat path' with rfl | ⟨init', y', rfl⟩
      · cases h'
        exact absurd hzy hf.rootless
      · rw [List.concat_eq_append] at h' ⊢
        obtain ⟨rfl, z', hz', hzy'⟩ := (childPath_snoc _ _).mp h'
        have hzz := hf.parentUnique hzy hzy'
        subst hzz
        rw [ih hz hz']

/-- **Loading.**  A scene is accepted iff it is well formed; any other scene is
rejected with a validation error, and no run reports a cycle.  In an accepted
tree the child list of `p` lists the entries with parent `p` in order and once
each, and one child path leads from the root to every category. -/
theorem buildTree_accepts_wellFormed
    (rootId : CategoryId) (entries : List CategoryEntry) :
    ((∃ tree, buildTree rootId entries = .ok tree) ↔
      WellFormedScene rootId entries) ∧
    (¬ WellFormedScene rootId entries →
      ∃ e, buildTree rootId entries = .error (.sceneValidation e)) ∧
    (∀ id, buildTree rootId entries ≠
      .error (.sceneValidation (.cycleDetected id))) ∧
    (∀ tree, buildTree rootId entries = .ok tree →
      tree.rootId = rootId ∧
      tree.categories.keys = entries.map (fun e => e.id) ∧
      (∀ e, e ∈ entries → ∃ c, tree.get e.id = .ok c ∧
        c.childIds = childrenOf entries e.id ∧ c.childIds.Nodup) ∧
      (∀ e, e ∈ entries →
        ∃! path, ChildPath tree.categories rootId path e.id)) := by
  have haccept : (∃ tree, buildTree rootId entries = .ok tree) ↔
      WellFormedScene rootId entries := by
    constructor
    · rintro ⟨tree, h⟩
      exact ((buildTree_eq_ok_iff tree).mp h).1
    · intro hwf
      have hkeys : (entries.map (fun e => (e.id, wiredCategory entries e))).map
          Prod.fst = entries.map (fun e => e.id) := by
        rw [List.map_map]
        rfl
      refine ⟨⟨rootId, ⟨entries.map (fun e => (e.id, wiredCategory entries e)), ?_⟩⟩, ?_⟩
      · rw [hkeys]
        exact hwf.idsDistinct
      · exact (buildTree_eq_ok_iff _).mpr ⟨hwf, rfl, rfl⟩
  refine ⟨haccept, ?_, ?_, ?_⟩
  · intro hwf
    cases hrun : buildTree rootId entries with
    | ok tree => exact absurd (haccept.mp ⟨tree, hrun⟩) hwf
    | error e =>
        obtain ⟨s, rfl, _⟩ := buildTree_error hrun
        exact ⟨s, rfl⟩
  · intro id h
    obtain ⟨s, hs, hcycle⟩ := buildTree_error h
    cases hs
    exact hcycle id rfl
  · intro tree h
    have hw := wired_of_buildTree h
    obtain ⟨hwf, hroot, _⟩ := (buildTree_eq_ok_iff tree).mp h
    refine ⟨hroot, hw.keys_eq, ?_, ?_⟩
    · intro e he
      refine ⟨wiredCategory entries e, ?_, rfl, ?_⟩
      · exact (CategoryTree.get_eq_ok_iff tree e.id _).mpr (hw.get?_id he)
      · exact hw.forest.childNodup (hw.get?_id he)
    · intro e he
      obtain ⟨path, hpath⟩ :=
        exists_childPath ((hw.reach_iff e.id).mpr (hwf.reachesRoot e he))
      exact ⟨path, hpath, fun path' h' => childPath_unique hw.forest path' h' hpath⟩

end LoadedTree

end Core
end Sandroid
