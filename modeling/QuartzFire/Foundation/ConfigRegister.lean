import QuartzFire.Foundation.ConfigRecord
import QuartzFire.Foundation.Register

/-!
# Registers kept in a configuration

The entries of a register are read at nodes, one at the path of each key.  What
a batch does to the nodes is what it does to the register.
-/

namespace QuartzFire.ConfigTree

variable {Name Key Entry : Type}

/-- Entries read at the nodes of their keys, in trees whose nodes are named as
they should be. -/
structure NodeRegister [DecidableEq Name] (kinds : Kinds Name)
    (tidy : ConfigTree Name → Prop) (place : Key → List Name)
    (key : Entry → Key) (read : ConfigTree Name → Key → Entry)
    (entries : ConfigTree Name → List Entry) : Prop where
  apart : ∀ left right, left ≠ right → Diverges (place left) (place right)
  reads : ∀ {tree}, Conforms kinds tree → tidy tree →
    Reads key (fun one => (subtree (place one) tree).isSome = true) (read tree)
      (entries tree)
  here : ∀ {tree after one},
    subtree (place one) after = subtree (place one) tree →
      read after one = read tree one

namespace NodeRegister

variable [DecidableEq Name] {kinds : Kinds Name}
  {tidy : ConfigTree Name → Prop} {place : Key → List Name}
  {key : Entry → Key} {read : ConfigTree Name → Key → Entry}
  {entries : ConfigTree Name → List Entry}
  (register : NodeRegister kinds tidy place key read entries)
  {tree after : ConfigTree Name}
include register

/-- The entry that is edited in place, or none where there is no node. -/
theorem edited_or_new [DecidableEq Key] (conforms : Conforms kinds tree)
    (neat : tidy tree) {one : Key} {original : Option Key}
    (free : ∀ entry ∈ entries tree, key entry = one → original = some one)
    {isOne : Entry → Bool}
    (finds : ∀ entry, isOne entry = true ↔ key entry = one) :
    ((subtree (place one) tree).isSome = true ∧
        original.filter (· ≠ one) = none ∧
        (entries tree).find? isOne = some (read tree one)) ∨
      (subtree (place one) tree = none ∧
        (entries tree).find? isOne = none) := by
  rcases (register.reads conforms neat).edited_or_new free finds with
    edited | ⟨absent, missed⟩
  · exact .inl edited
  · refine .inr ⟨?_, missed⟩
    rwa [Bool.not_eq_true, Option.isSome_eq_false_iff,
      Option.isNone_iff_eq_none] at absent

/-- With the other nodes as they were and the old one gone, it comes to what is
read at the new one. -/
theorem placed_iff (conforms : Conforms kinds tree) (neat : tidy tree)
    (conforms' : Conforms kinds after) (neat' : tidy after) {one : Key}
    {renamed : Option Key} {shows : Entry → Prop}
    (kept : ∀ other, other ≠ one → renamed ≠ some other →
      subtree (place other) after = subtree (place other) tree)
    (gone : ∀ other, other ≠ one → renamed = some other →
      subtree (place other) after = none)
    (there : (subtree (place one) after).isSome = true) :
    Placed key (entries tree) (entries after) renamed one shows ↔
      shows (read after one) := by
  rw [(register.reads conforms neat).placed_iff
    (register.reads conforms' neat')]
  · exact and_iff_right there
  · intro other differs stays
    have same := kept other differs stays
    exact ⟨by rw [same], register.here same⟩
  · intro other differs moved listed
    rw [gone other differs moved] at listed
    cases listed

/-- Where no node changes, the register does not. -/
theorem mem_congr (conforms : Conforms kinds tree) (neat : tidy tree)
    (conforms' : Conforms kinds after) (neat' : tidy after)
    (kept : ∀ one, subtree (place one) after = subtree (place one) tree)
    (entry : Entry) : entry ∈ entries after ↔ entry ∈ entries tree := by
  refine (register.reads conforms neat).congr
    (register.reads conforms' neat') (fun one => ?_) entry
  exact ⟨by rw [kept one], register.here (kept one)⟩

end NodeRegister

end QuartzFire.ConfigTree
