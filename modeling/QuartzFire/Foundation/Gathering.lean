import Mathlib.Logic.Relation
import Mathlib.Data.List.Basic
import QuartzFire.Foundation.Fallible

/-!
# Gathering along references

Nodes carry items and refer to further nodes.  A depth-first walk that visits
every node once gathers the items of the nodes that can be reached, or fails on
a node that is not there; references may run in circles.
-/

namespace QuartzFire

structure Directory (Node Item Error : Type) where
  /-- The items of a node, or that it is missing. -/
  items : Node → Except Error (List Item)
  refers : Node → List Node

namespace Directory

variable {Node Item Error : Type}

section Walk

variable [DecidableEq Node]

/-- Visit nodes one after another, each with what was seen before it. -/
def visitAll (visit : Node → List Node → Except Error (List Item × List Node)) :
    List Node → List Node → Except Error (List Item × List Node)
  | [], seen => .ok ([], seen)
  | node :: rest, seen => do
      let first ← visit node seen
      let others ← visitAll visit rest first.2
      return (first.1 ++ others.1, others.2)

/-- The fuel bounds how many nodes that are there can still be met; without any
left, the node must be missing. -/
def gather (directory : Directory Node Item Error) :
    Nat → Node → List Node → Except Error (List Item × List Node)
  | fuel, node, seen =>
      if node ∈ seen then .ok ([], seen)
      else do
        let own ← directory.items node
        match fuel with
        | 0 => return (own, node :: seen)
        | fuel + 1 =>
            let rest ← visitAll (directory.gather fuel) (directory.refers node)
              (node :: seen)
            return (own ++ rest.1, rest.2)

end Walk

variable {directory : Directory Node Item Error}

/-- A node that can be reached from another by references. -/
def Reaches (directory : Directory Node Item Error) : Node → Node → Prop :=
  Relation.ReflTransGen fun node next => next ∈ directory.refers node

/-- The items are those of the nodes seen on the way, which are reached from
the starts and whose references have been followed. -/
structure Gathers (directory : Directory Node Item Error) (starts : List Node)
    (seen : List Node) (items : List Item) (after : List Node) : Prop where
  kept : seen ⊆ after
  started : starts ⊆ after
  items : ∀ item, item ∈ items ↔ ∃ node ∈ after, node ∉ seen ∧
    ∃ own, directory.items node = .ok own ∧ item ∈ own
  followed : ∀ node ∈ after, node ∉ seen → directory.refers node ⊆ after
  reached : ∀ node ∈ after, node ∉ seen →
    ∃ start ∈ starts, directory.Reaches start node
  present : ∀ node ∈ after, node ∉ seen →
    ∃ own, directory.items node = .ok own

namespace Gathers

variable {starts others seen middle after : List Node} {items more : List Item}

/-- Only nodes that were seen before. -/
theorem nothing (started : starts ⊆ seen) :
    directory.Gathers starts seen [] seen where
  kept := List.Subset.refl seen
  started := started
  items := by
    intro item
    refine iff_of_false List.not_mem_nil ?_
    rintro ⟨node, member, fresh, _⟩
    exact fresh member
  followed := fun _ member fresh => absurd member fresh
  reached := fun _ member fresh => absurd member fresh
  present := fun _ member fresh => absurd member fresh

theorem append (first : directory.Gathers starts seen items middle)
    (second : directory.Gathers others middle more after) :
    directory.Gathers (starts ++ others) seen (items ++ more) after where
  kept := fun _ old => second.kept (first.kept old)
  started := List.append_subset.mpr
    ⟨fun _ member => second.kept (first.started member), second.started⟩
  items := by
    intro item
    rw [List.mem_append, first.items, second.items]
    constructor
    · rintro (⟨node, met, fresh, own⟩ | ⟨node, met, fresh, own⟩)
      · exact ⟨node, second.kept met, fresh, own⟩
      · exact ⟨node, met, fun old => fresh (first.kept old), own⟩
    · rintro ⟨node, met, fresh, own⟩
      by_cases early : node ∈ middle
      · exact .inl ⟨node, early, fresh, own⟩
      · exact .inr ⟨node, met, early, own⟩
  followed := by
    intro node met fresh
    by_cases early : node ∈ middle
    · exact fun _ referred =>
        second.kept (first.followed node early fresh referred)
    · exact second.followed node met early
  reached := by
    intro node met fresh
    by_cases early : node ∈ middle
    · obtain ⟨start, member, path⟩ := first.reached node early fresh
      exact ⟨start, List.mem_append_left _ member, path⟩
    · obtain ⟨start, member, path⟩ := second.reached node met early
      exact ⟨start, List.mem_append_right _ member, path⟩
  present := by
    intro node met fresh
    by_cases early : node ∈ middle
    · exact first.present node early fresh
    · exact second.present node met early

/-- A node that was not seen yet, then what it refers to. -/
theorem visit {node : Node} {own : List Item}
    (there : directory.items node = .ok own) (fresh : node ∉ seen)
    (rest : directory.Gathers (directory.refers node) (node :: seen) more
      after) :
    directory.Gathers [node] seen (own ++ more) after where
  kept := fun _ member => rest.kept (List.mem_cons_of_mem _ member)
  started := by
    intro other member
    rw [List.mem_singleton.mp member]
    exact rest.kept List.mem_cons_self
  items := by
    intro item
    rw [List.mem_append, rest.items]
    constructor
    · rintro (mine | ⟨other, met, new, theirs⟩)
      · exact ⟨node, rest.kept List.mem_cons_self, fresh, own, there, mine⟩
      · exact ⟨other, met, fun old => new (List.mem_cons_of_mem _ old), theirs⟩
    · rintro ⟨other, met, new, theirs⟩
      by_cases same : other = node
      · subst same
        obtain ⟨items, found, mine⟩ := theirs
        cases there.symm.trans found
        exact .inl mine
      · exact .inr ⟨other, met, by simp [same, new], theirs⟩
  followed := by
    intro other met new
    by_cases same : other = node
    · subst same
      exact rest.started
    · exact rest.followed other met (by simp [same, new])
  reached := by
    intro other met new
    by_cases same : other = node
    · subst same
      exact ⟨other, by simp, .refl⟩
    · obtain ⟨start, member, path⟩ :=
        rest.reached other met (by simp [same, new])
      exact ⟨node, by simp, .head member path⟩
  present := by
    intro other met new
    by_cases same : other = node
    · subst same
      exact ⟨own, there⟩
    · exact rest.present other met (by simp [same, new])

theorem meets {start : Node} {items : List Item} {after : List Node}
    (gathers : directory.Gathers [start] [] items after) {node : Node}
    (path : directory.Reaches start node) : node ∈ after := by
  induction path with
  | refl => exact gathers.started (by simp)
  | tail _ refers ih => exact gathers.followed _ ih (by simp) refers

end Gathers

section Walk

variable [DecidableEq Node]

/-- How many nodes of the domain are still to be seen. -/
def unseen (domain seen : List Node) : Nat :=
  domain.countP fun node => decide (node ∉ seen)

theorem unseen_mono {domain seen after : List Node} (kept : seen ⊆ after) :
    unseen domain after ≤ unseen domain seen := by
  refine List.countP_mono_left fun node _ fresh => ?_
  simp only [decide_eq_true_eq] at fresh ⊢
  exact fun member => fresh (kept member)

theorem unseen_cons_lt {domain seen : List Node} {node : Node}
    (inside : node ∈ domain) (fresh : node ∉ seen) :
    unseen domain (node :: seen) < unseen domain seen := by
  induction domain with
  | nil => cases inside
  | cons head rest ih =>
      have tail : unseen rest (node :: seen) ≤ unseen rest seen :=
        unseen_mono fun _ member => List.mem_cons_of_mem _ member
      simp only [unseen, List.countP_cons] at ih tail ⊢
      rcases List.mem_cons.mp inside with rfl | later
      · rw [if_neg (by simp), if_pos (by simpa using fresh)]
        omega
      · have less := ih later
        by_cases old : head ∈ node :: seen
        · have passed : ¬ decide (head ∉ node :: seen) = true := by
            rw [decide_eq_true_eq]
            exact fun absent => absent old
          rw [if_neg passed]
          omega
        · have new : head ∉ seen := fun member =>
            old (List.mem_cons_of_mem _ member)
          rw [if_pos (by simpa using old), if_pos (by simpa using new)]
          omega

theorem visitAll_gathers {domain : List Node} {fuel : Nat}
    {visit : Node → List Node → Except Error (List Item × List Node)}
    (visits : ∀ node seen result, unseen domain seen ≤ fuel →
      visit node seen = .ok result →
        directory.Gathers [node] seen result.1 result.2)
    {starts seen : List Node} {result : List Item × List Node}
    (enough : unseen domain seen ≤ fuel)
    (walked : visitAll visit starts seen = .ok result) :
    directory.Gathers starts seen result.1 result.2 := by
  induction starts generalizing seen result with
  | nil =>
      cases walked
      exact .nothing (List.nil_subset seen)
  | cons node rest ih =>
      obtain ⟨first, visited, walked⟩ := bind_eq_ok.mp walked
      obtain ⟨others, later, same⟩ := bind_eq_ok.mp walked
      cases same
      have here := visits node seen first enough visited
      exact here.append (ih (Nat.le_trans (unseen_mono here.kept) enough) later)

theorem gather_gathers {domain : List Node}
    (covers : ∀ node own, directory.items node = .ok own → node ∈ domain)
    {fuel : Nat} {node : Node} {seen : List Node}
    {result : List Item × List Node} (enough : unseen domain seen ≤ fuel)
    (walked : directory.gather fuel node seen = .ok result) :
    directory.Gathers [node] seen result.1 result.2 := by
  induction fuel generalizing node seen result with
  | zero =>
      unfold gather at walked
      split at walked
      · rename_i old
        cases walked
        exact .nothing (by simpa using old)
      · rename_i fresh
        obtain ⟨own, there, _⟩ := bind_eq_ok.mp walked
        have less := unseen_cons_lt (covers node own there) fresh
        omega
  | succ fuel ih =>
      unfold gather at walked
      split at walked
      · rename_i old
        cases walked
        exact .nothing (by simpa using old)
      · rename_i fresh
        obtain ⟨own, there, walked⟩ := bind_eq_ok.mp walked
        obtain ⟨rest, later, same⟩ := bind_eq_ok.mp walked
        cases same
        have less := unseen_cons_lt (covers node own there) fresh
        exact .visit there fresh (visitAll_gathers
          (fun _ _ _ bound visited => ih bound visited) (by omega) later)

/-- From nothing seen, everything that can be reached is there. -/
theorem present_of_gather {domain : List Node}
    (covers : ∀ node own, directory.items node = .ok own → node ∈ domain)
    {fuel : Nat} {start node : Node} {result : List Item × List Node}
    (enough : domain.length ≤ fuel)
    (walked : directory.gather fuel start [] = .ok result)
    (path : directory.Reaches start node) :
    ∃ own, directory.items node = .ok own := by
  have gathers := gather_gathers covers
    (Nat.le_trans List.countP_le_length enough) walked
  exact gathers.present node (gathers.meets path) (by simp)

/-- Gathered are exactly the items of what can be reached. -/
theorem mem_gather {domain : List Node}
    (covers : ∀ node own, directory.items node = .ok own → node ∈ domain)
    {fuel : Nat} {start : Node} {result : List Item × List Node}
    (enough : domain.length ≤ fuel)
    (walked : directory.gather fuel start [] = .ok result) (item : Item) :
    item ∈ result.1 ↔ ∃ node, directory.Reaches start node ∧
      ∃ own, directory.items node = .ok own ∧ item ∈ own := by
  have gathers := gather_gathers covers
    (Nat.le_trans List.countP_le_length enough) walked
  rw [gathers.items]
  constructor
  · rintro ⟨node, visited, fresh, own⟩
    obtain ⟨first, member, path⟩ := gathers.reached node visited fresh
    rw [List.mem_singleton.mp member] at path
    exact ⟨node, path, own⟩
  · rintro ⟨node, path, own⟩
    exact ⟨node, gathers.meets path, by simp, own⟩

end Walk

/-! ## Finished walks -/

/-- A walk that has come to an end, over nodes one after another, without any
bound on how deep it went: each step is one of the calls that were made. -/
inductive Walks (directory : Directory Node Item Error) :
    List Node → List Node → Except Error (List Item × List Node) → Prop where
  | done {seen : List Node} : directory.Walks [] seen (.ok ([], seen))
  | again {node : Node} {rest seen : List Node}
      {result : Except Error (List Item × List Node)} :
      node ∈ seen → directory.Walks rest seen result →
      directory.Walks (node :: rest) seen result
  | missing {node : Node} {rest seen : List Node} {error : Error} :
      node ∉ seen → directory.items node = .error error →
      directory.Walks (node :: rest) seen (.error error)
  | fails {node : Node} {rest seen : List Node} {own : List Item}
      {error : Error} :
      node ∉ seen → directory.items node = .ok own →
      directory.Walks (directory.refers node) (node :: seen) (.error error) →
      directory.Walks (node :: rest) seen (.error error)
  | visit {node : Node} {rest seen middle : List Node} {own more : List Item}
      {result : Except Error (List Item × List Node)} :
      node ∉ seen → directory.items node = .ok own →
      directory.Walks (directory.refers node) (node :: seen)
        (.ok (more, middle)) →
      directory.Walks rest middle result →
      directory.Walks (node :: rest) seen
        (result.map fun later => (own ++ more ++ later.1, later.2))

namespace Walks

variable {starts others seen middle : List Node} {items : List Item}
  {result : Except Error (List Item × List Node)} {error : Error}

/-- There is one result at most. -/
theorem unique {other : Except Error (List Item × List Node)}
    (walks : directory.Walks starts seen result)
    (walks' : directory.Walks starts seen other) : result = other := by
  induction walks generalizing other with
  | done =>
      cases walks'
      rfl
  | again old _ ih =>
      cases walks' with
      | again _ later => exact ih later
      | missing fresh _ | fails fresh _ _ | visit fresh _ _ _ =>
          exact absurd old fresh
  | missing fresh absent =>
      cases walks' with
      | again old _ => exact absurd old fresh
      | missing _ absent' => cases absent.symm.trans absent'; rfl
      | fails _ there _ | visit _ there _ _ =>
          cases absent.symm.trans there
  | fails fresh there _ ih =>
      cases walks' with
      | again old _ => exact absurd old fresh
      | missing _ absent => cases there.symm.trans absent
      | fails _ _ inner => exact ih inner
      | visit _ _ inner _ => cases ih inner
  | visit fresh there _ _ inner_ih later_ih =>
      cases walks' with
      | again old _ => exact absurd old fresh
      | missing _ absent => cases there.symm.trans absent
      | fails _ _ inner => cases inner_ih inner
      | visit _ there' inner later =>
          cases there.symm.trans there'
          cases inner_ih inner
          rw [later_ih later]

theorem append_error (first : directory.Walks starts seen (.error error)) :
    directory.Walks (starts ++ others) seen (.error error) := by
  generalize failed : Except.error error = result at first
  induction first with
  | done => cases failed
  | again old _ ih => exact .again old (ih failed)
  | missing fresh absent =>
      cases failed
      exact .missing fresh absent
  | fails fresh there inner =>
      cases failed
      exact .fails fresh there inner
  | @visit _ _ _ _ _ _ walked fresh there inner later _ ih =>
      cases walked with
      | ok _ => cases failed
      | error _ =>
          cases failed
          exact .visit fresh there inner (ih rfl)

theorem append (first : directory.Walks starts seen (.ok (items, middle)))
    (second : directory.Walks others middle result) :
    directory.Walks (starts ++ others) seen
      (result.map fun later => (items ++ later.1, later.2)) := by
  generalize came : Except.ok (items, middle) = before at first
  induction first generalizing items with
  | done =>
      cases came
      cases result <;> exact second
  | again old _ ih => exact .again old (ih came)
  | missing _ _ | fails _ _ _ => cases came
  | @visit _ _ _ _ _ _ walked fresh there inner _ _ ih =>
      cases walked with
      | error _ => cases came
      | ok later =>
          obtain ⟨items, after⟩ := later
          cases came
          have next := Walks.visit fresh there inner (ih rfl)
          cases result with
          | error _ => exact next
          | ok _ => simpa [Except.map, List.append_assoc] using next

/-- A walk fails on a node that is reached. -/
theorem missing_of_error
    (walks : directory.Walks starts seen (.error error)) :
    ∃ start ∈ starts, ∃ node, directory.Reaches start node ∧
      directory.items node = .error error := by
  generalize failed : Except.error error = result at walks
  induction walks with
  | done => cases failed
  | again _ _ ih =>
      obtain ⟨start, member, reached⟩ := ih failed
      exact ⟨start, List.mem_cons_of_mem _ member, reached⟩
  | missing _ absent =>
      cases failed
      exact ⟨_, List.mem_cons_self, _, .refl, absent⟩
  | fails _ _ _ ih =>
      cases failed
      obtain ⟨start, member, node, path, absent⟩ := ih rfl
      exact ⟨_, List.mem_cons_self, node, .head member path, absent⟩
  | @visit _ _ _ _ _ _ walked _ _ _ _ _ ih =>
      cases walked with
      | ok _ => cases failed
      | error _ =>
          cases failed
          obtain ⟨start, member, reached⟩ := ih rfl
          exact ⟨start, List.mem_cons_of_mem _ member, reached⟩

end Walks

section Ending

variable [DecidableEq Node]

theorem walks_visitAll {domain : List Node} {fuel : Nat}
    {visit : Node → List Node → Except Error (List Item × List Node)}
    (kept : ∀ node seen result, unseen domain seen ≤ fuel →
      visit node seen = .ok result → seen ⊆ result.2)
    (visits : ∀ node seen, unseen domain seen ≤ fuel →
      directory.Walks [node] seen (visit node seen))
    {starts seen : List Node} (enough : unseen domain seen ≤ fuel) :
    directory.Walks starts seen (visitAll visit starts seen) := by
  induction starts generalizing seen with
  | nil => exact .done
  | cons node rest ih =>
      have here := visits node seen enough
      rw [visitAll]
      cases visited : visit node seen with
      | error error =>
          rw [visited] at here
          exact here.append_error
      | ok first =>
          rw [visited] at here
          have fewer := Nat.le_trans
            (unseen_mono (kept node seen first enough visited)) enough
          have both := here.append (ih fewer)
          change directory.Walks (node :: rest) seen
            ((visitAll visit rest first.2).bind fun others =>
              .ok (first.1 ++ others.1, others.2))
          cases later : visitAll visit rest first.2 with
          | error _ | ok _ =>
              rw [later] at both
              exact both

/-- With enough fuel a walk is what it would be without any bound. -/
theorem walks_gather {domain : List Node}
    (covers : ∀ node own, directory.items node = .ok own → node ∈ domain)
    {fuel : Nat} {node : Node} {seen : List Node}
    (enough : unseen domain seen ≤ fuel) :
    directory.Walks [node] seen (directory.gather fuel node seen) := by
  induction fuel generalizing node seen with
  | zero =>
      unfold gather
      split
      · rename_i old
        exact .again old .done
      · rename_i fresh
        cases there : directory.items node with
        | error error => exact .missing fresh there
        | ok own =>
            have less := unseen_cons_lt (covers node own there) fresh
            omega
  | succ fuel ih =>
      unfold gather
      split
      · rename_i old
        exact .again old .done
      · rename_i fresh
        cases there : directory.items node with
        | error error => exact .missing fresh there
        | ok own =>
            have less := unseen_cons_lt (covers node own there) fresh
            have inner : directory.Walks (directory.refers node) (node :: seen)
                (visitAll (directory.gather fuel) (directory.refers node)
                  (node :: seen)) := walks_visitAll
              (fun _ _ _ bound visited =>
                (gather_gathers covers bound visited).kept)
              (fun node seen bound => ih bound)
              (show unseen domain (node :: seen) ≤ fuel by omega)
            change directory.Walks [node] seen
              ((visitAll (directory.gather fuel) (directory.refers node)
                (node :: seen)).bind fun rest => .ok (own ++ rest.1, rest.2))
            cases rest : visitAll (directory.gather fuel)
                (directory.refers node) (node :: seen) with
            | error error =>
                rw [rest] at inner
                exact .fails fresh there inner
            | ok result =>
                rw [rest] at inner
                have all := Walks.visit fresh there inner .done
                simp only [Except.map, List.append_nil] at all
                exact all

end Ending

end Directory

end QuartzFire
