import QuartzFire.Replication.RuleMatch

/-!
# Members of groups that include one another

Includes may form any graph, circles among it.  The members of a group are
gathered in finitely many calls: those of every group that it reaches, unless
one of them does not exist.
-/

namespace QuartzFire.Replication

variable {groups : Groups} {gtype : String}

/-- A group that exists includes another, which need not. -/
def Groups.Includes (groups : Groups) (gtype name next : String) : Prop :=
  ∃ group, groups.find gtype name = some group ∧ next ∈ group.values "include"

/-- A group is reached from another by include edges. -/
abbrev Groups.Reached (groups : Groups) (gtype : String) :
    String → String → Prop :=
  Relation.ReflTransGen (groups.Includes gtype)

/-- The members that a group has itself. -/
def Group.literals (group : Group) (gtype : String) : List String :=
  group.values ((memberLeaf gtype).getD "")

theorem refers_iff {name next : String} :
    next ∈ (groupDirectory groups gtype).refers name ↔
      groups.Includes gtype name next := by
  cases found : groups.find gtype name with
  | none => simp [groupDirectory, Groups.Includes, found]
  | some group => simp [groupDirectory, Groups.Includes, found]

theorem reaches_eq :
    (groupDirectory groups gtype).Reaches = groups.Reached gtype := by
  have edges : (fun node next => next ∈ (groupDirectory groups gtype).refers node) =
      groups.Includes gtype := by
    funext node next
    exact propext refers_iff
  funext name
  rw [Directory.Reaches, edges]

theorem items_eq_ok {name : String} {own : List String} :
    (groupDirectory groups gtype).items name = .ok own ↔
      ∃ group, groups.find gtype name = some group ∧
        own = group.literals gtype := by
  cases found : groups.find gtype name with
  | none => simp [groupDirectory, found]
  | some group => simp [groupDirectory, found, Group.literals, eq_comm]

theorem items_eq_error {name : String} :
    (∃ error, (groupDirectory groups gtype).items name = .error error) ↔
      groups.find gtype name = none := by
  cases found : groups.find gtype name with
  | none => simp [groupDirectory, found]
  | some group => simp [groupDirectory, found]

/-- Every group that exists is listed under its type. -/
theorem listed_of_items (name : String) (own : List String)
    (there : (groupDirectory groups gtype).items name = .ok own) :
    name ∈ (groups.ofType gtype).map Prod.fst := by
  obtain ⟨group, found, _⟩ := items_eq_ok.mp there
  obtain ⟨front, back, entries, _⟩ := List.lookup_eq_some_iff.mp found
  simp [entries]

/-- The fuel of the model is never used up. -/
theorem walks_groupMembers (groups : Groups) (gtype name : String) :
    ∃ result, (groupDirectory groups gtype).Walks [name] [] result ∧
      groupMembers groups gtype name = result.map Prod.fst := by
  have enough : Directory.unseen ((groups.ofType gtype).map Prod.fst) [] ≤
      (groups.ofType gtype).length := by
    refine Nat.le_trans List.countP_le_length ?_
    rw [List.length_map]
  refine ⟨_, Directory.walks_gather listed_of_items enough, ?_⟩
  rw [groupMembers]
  cases (groupDirectory groups gtype).gather (groups.ofType gtype).length
    name [] <;> rfl

theorem mem_groupMembers_iff {name : String} {members : List String}
    (resolved : groupMembers groups gtype name = .ok members)
    (member : String) :
    member ∈ members ↔ ∃ next group, groups.Reached gtype name next ∧
      groups.find gtype next = some group ∧ member ∈ group.literals gtype := by
  obtain ⟨result, walked, same⟩ := bind_eq_ok.mp resolved
  cases same
  rw [Directory.mem_gather listed_of_items (by rw [List.length_map]) walked,
    reaches_eq]
  constructor
  · rintro ⟨next, path, own, there, mine⟩
    obtain ⟨group, found, rfl⟩ := items_eq_ok.mp there
    exact ⟨next, group, path, found, mine⟩
  · rintro ⟨next, group, path, found, mine⟩
    exact ⟨next, path, _, items_eq_ok.mpr ⟨group, found, rfl⟩, mine⟩

theorem groupMembers_fails_iff (name : String) :
    (∃ error, groupMembers groups gtype name = .error error) ↔
      ∃ next, groups.Reached gtype name next ∧
        groups.find gtype next = none := by
  constructor
  · rintro ⟨error, failed⟩
    obtain ⟨result, walks, same⟩ := walks_groupMembers groups gtype name
    cases result with
    | ok _ => cases same.symm.trans failed
    | error reason =>
        obtain ⟨start, member, next, path, absent⟩ := walks.missing_of_error
        rw [List.mem_singleton.mp member, reaches_eq] at path
        exact ⟨next, path, items_eq_error.mp ⟨reason, absent⟩⟩
  · rintro ⟨next, path, absent⟩
    cases resolved : groupMembers groups gtype name with
    | error error => exact ⟨error, rfl⟩
    | ok members =>
        obtain ⟨result, walked, _⟩ := bind_eq_ok.mp resolved
        rw [← reaches_eq] at path
        obtain ⟨own, there⟩ := Directory.present_of_gather listed_of_items
          (by rw [List.length_map]) walked path
        obtain ⟨group, found, _⟩ := items_eq_ok.mp there
        cases absent.symm.trans found

/-- The calls come to an end with one result, which holds exactly the members
of all groups reached, and is a failure exactly if one of them is missing. -/
theorem groupMembers_exact (groups : Groups) (gtype name : String) :
    (∃ result, (groupDirectory groups gtype).Walks [name] [] result ∧
      (∀ other, (groupDirectory groups gtype).Walks [name] [] other →
        other = result) ∧
      groupMembers groups gtype name = result.map Prod.fst) ∧
    (∀ members, groupMembers groups gtype name = .ok members →
      ∀ member, member ∈ members ↔
        ∃ next group, groups.Reached gtype name next ∧
          groups.find gtype next = some group ∧
            member ∈ group.literals gtype) ∧
    ((∃ error, groupMembers groups gtype name = .error error) ↔
      ∃ next, groups.Reached gtype name next ∧
        groups.find gtype next = none) := by
  obtain ⟨result, walks, same⟩ := walks_groupMembers groups gtype name
  refine ⟨⟨result, walks, fun other walks' => walks'.unique walks, same⟩, ?_,
    groupMembers_fails_iff name⟩
  intro members resolved
  exact mem_groupMembers_iff resolved

/-- Two groups that include each other, one of them twice over. -/
example : groupMembers [("address-group",
    [("web", [("address", ["10.0.0.1"]), ("include", ["db", "db"])]),
      ("db", [("address", ["10.0.0.2"]), ("include", ["web"])])])]
    "address-group" "web" = .ok ["10.0.0.1", "10.0.0.2"] := by decide

end QuartzFire.Replication
