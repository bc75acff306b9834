import Mathlib.Data.List.Forall2
import Mathlib.Data.List.Perm.Basic

/-!
# Extending a partial renaming to a rearrangement

Items of a list that are told apart only by where they are may be moved onto
equal ones: what is left over can be matched as well.
-/

namespace QuartzFire

variable {Item Content : Type}

theorem exists_related {Target : Type} {related : Item → Target → Prop}
    {items : List Item} {targets : List Target}
    (pairs : List.Forall₂ related items targets) {item : Item}
    (member : item ∈ items) : ∃ target ∈ targets, related item target := by
  induction pairs with
  | nil => simp at member
  | cons first _ ih =>
      rcases List.mem_cons.mp member with rfl | inside
      · exact ⟨_, List.mem_cons_self, first⟩
      · obtain ⟨target, inTargets, relates⟩ := ih inside
        exact ⟨target, List.mem_cons_of_mem _ inTargets, relates⟩

theorem forall₂_filterMap (rename : Item → Option Item) (items : List Item)
    (all : ∀ item ∈ items, (rename item).isSome = true) :
    List.Forall₂ (fun item target => rename item = some target) items
      (items.filterMap rename) := by
  induction items with
  | nil => exact .nil
  | cons item items ih =>
      obtain ⟨target, leads⟩ := Option.isSome_iff_exists.mp (all item (by simp))
      rw [List.filterMap_cons_some leads]
      exact .cons leads (ih fun other member => all other (by simp [member]))

/-- A renaming of some items of a list within the list, by one of the same
content each, extends to a rearrangement of the whole list. -/
theorem exists_rearrangement [DecidableEq Item] (content : Item → Content)
    (items : List Item)
    (unique : items.Nodup) (rename : Item → Option Item)
    (within : ∀ item ∈ items, ∀ target, rename item = some target →
      target ∈ items ∧ content target = content item)
    (apart : ∀ left ∈ items, ∀ right ∈ items, ∀ target,
      rename left = some target → rename right = some target → left = right) :
    ∃ moved, moved.Perm items ∧ List.Forall₂ (fun item target =>
      content target = content item ∧
        ∀ goal, rename item = some goal → target = goal) items moved := by
  let renamed := items.filter fun item => (rename item).isSome
  let kept := items.filter fun item => !(rename item).isSome
  let targets := renamed.filterMap rename
  let free := items.filter fun item => item ∉ targets
  have covered : (renamed ++ kept).Perm items :=
    List.filter_append_perm _ items
  have pairs : List.Forall₂ (fun item target => item ∈ items ∧
      rename item = some target) renamed targets := by
    refine (List.forall₂_and_left _ _).mpr ⟨fun item member =>
      List.mem_of_mem_filter member, ?_⟩
    refine forall₂_filterMap rename renamed fun item member => ?_
    exact (List.mem_filter.mp member).2
  have distinct : targets.Nodup := by
    refine List.pairwise_filterMap.mpr ((unique.filter _).imp_of_mem ?_)
    rintro left right inLeft inRight different _ leads _ leads' rfl
    exact different (apart left (List.mem_of_mem_filter inLeft) right
      (List.mem_of_mem_filter inRight) _ leads leads')
  have inside : ∀ target ∈ targets, target ∈ items := by
    intro target member
    obtain ⟨item, inRenamed, leads⟩ := List.mem_filterMap.mp member
    exact (within item (List.mem_of_mem_filter inRenamed) target leads).1
  have split : (targets ++ free).Perm items := by
    have parts := List.filter_append_perm
      (fun item => decide (item ∈ targets)) items
    simp only [← decide_not] at parts
    refine .trans (.append_right _ ?_) parts
    refine (List.perm_ext_iff_of_nodup distinct (unique.filter _)).mpr ?_
    intro target
    simpa using inside target
  have contents : targets.map content = renamed.map content := by
    rw [← List.forall₂_eq_eq_eq, List.forall₂_map_left_iff,
      List.forall₂_map_right_iff]
    exact pairs.flip.imp fun target item leads =>
      (within item leads.1 target leads.2).2
  have remaining : (kept.map content).Perm (free.map content) := by
    rw [← List.perm_append_left_iff (renamed.map content),
      ← List.map_append, ← contents, ← List.map_append]
    exact (covered.map content).trans (split.map content).symm
  obtain ⟨rest, alike, rearranged⟩ := List.perm_comp_forall₂ remaining
    (r := fun value item => content item = value) (v := free)
    (List.forall₂_map_left_iff.mpr (List.forall₂_same.mpr fun _ _ => rfl))
  have matched : List.Forall₂ (fun item target =>
      content target = content item ∧
        ∀ goal, rename item = some goal → target = goal)
      (renamed ++ kept) (targets ++ rest) := by
    refine List.rel_append (pairs.imp ?_) ?_
    · rintro item target ⟨member, leads⟩
      refine ⟨(within item member target leads).2, fun goal leads' => ?_⟩
      rw [leads] at leads'
      exact Option.some.inj leads'
    · have unnamed : ∀ item ∈ kept, rename item = none := by
        intro item member
        simpa using (List.mem_filter.mp member).2
      refine ((List.forall₂_and_left _ _).mpr ⟨unnamed,
        List.forall₂_map_left_iff.mp alike⟩).imp ?_
      rintro item target ⟨none, same⟩
      exact ⟨same, by simp [none]⟩
  obtain ⟨moved, follows, permuted⟩ :=
    List.perm_comp_forall₂ covered.symm matched
  exact ⟨moved, permuted.trans ((rearranged.append_left _).trans split),
    follows⟩

end QuartzFire
