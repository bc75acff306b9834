import QuartzFire.Foundation.Rearrangement
import QuartzFire.Firewall.DiffRule
import QuartzFire.Firewall.Services

/-!
# Reordering and deleting rules with their services

Geolocation policies ride the same commit as the rule change; Application
Control bindings are rewritten after it.
-/

namespace QuartzFire.Firewall

open ConfigTree

/-- `geo` and `ac` are what reading the features gave, `none` where a feature
is absent or unreadable and is skipped. -/
def deleteRuleWithCascade (rule : FirewallRule)
    (autoGroups : List AutoGroup) (cfg : Option FirewallConfig)
    (geo : Option (List GeoPolicy)) (ac : Option (List AcBinding)) :
    List VyosCommand × Option (List AcBinding) :=
  let orphans := (geo.getD []).filter fun policy => policy.rule = rule.rule &&
    rule.scopes.any fun scope => scope.chain = policy.ruleset
  let geoDeletes := orphans.map fun policy => .delete (policyBase policy.id)
  let bindings := if rule.chain.routed then
      ac.map fun bindings => bindings.filter fun binding =>
        binding.id ≠ rule.rule
    else ac
  (deleteRule rule autoGroups geoDeletes cfg, bindings)

def applyRuleOrderWithCascade (orderedRules : List FirewallRule)
    (geo : Option (List GeoPolicy)) (ac : Option (List AcBinding)) :
    List VyosCommand × Option (List AcBinding) :=
  let moves := renumberMap orderedRules
  if moves = [] then ([], ac)
  else
    let geoSets := (geo.getD []).filterMap fun policy =>
      (mapOf moves (policy.ruleset, policy.rule)).map fun target =>
        .set (policyBase policy.id ++ ["rule", toString target])
    let byRule := renumberByRule orderedRules
    let bindings := ac.map fun bindings => bindings.map fun binding =>
      match byRule binding.id with
      | none => binding
      | some target => { binding with id := target }
    (reorderCommands orderedRules ++ geoSets, bindings)

/-! ## What the cascades are to keep -/

/-- A binding that was attached to a rule of the order is attached to it at its
new number, and to no other rule. -/
def Follows {Binding : Type} (attached : Binding → FirewallRule → Nat → Prop)
    (orderedRules : List FirewallRule) (before after : Binding) : Prop :=
  ∀ (index : Nat) (rule : FirewallRule), orderedRules[index]? = some rule →
    attached before rule rule.rule →
    attached after rule (orderNumber index) ∧
      ∀ (other : Nat) (probe : FirewallRule),
        orderedRules[other]? = some probe → other ≠ index →
          ¬ attached after probe (orderNumber other)

/-- After a reorder the bindings are those of before, the same but for the rule
number, and each follows its rule.  A geolocation policy is known by its id and
an App Control binding by its place; an SSL policy is keyed by the rule number
itself, so that a moved one is known by what it says. -/
structure ReorderKeeps (before after : Cfg) (bindings moved : List AcBinding)
    (orderedRules : List FirewallRule) : Prop where
  geo : ∀ policy ∈ fetchGeolocation before, ∃ number,
    { policy with rule := number } ∈ fetchGeolocation after ∧
      Follows GeoPolicy.AttachedTo orderedRules policy
        { policy with rule := number }
  ssl : ∃ policies, policies.Perm (fetchSslPolicies after) ∧
    List.Forall₂ (fun policy moved =>
      moved = { policy with rule := moved.rule } ∧
        Follows SslPolicy.AttachedTo orderedRules policy moved)
      (fetchSslPolicies before) policies
  ac : List.Forall₂ (fun binding moved =>
      moved = { binding with id := moved.id } ∧
        Follows AcBinding.AttachedTo orderedRules binding moved)
      bindings moved

/-- Some rule of the console answers to a policy. -/
def GeoPolicy.Placed (root : Cfg) (policy : GeoPolicy) : Prop :=
  ∃ raw, Visible root ⟨policy.ruleset, policy.rule, raw⟩

def SslPolicy.Placed (root : Cfg) (policy : SslPolicy) : Prop :=
  ∃ chain raw, chain.isBaseChain = true ∧ chain.text = policy.ruleset ∧
    Visible root ⟨chain, policy.rule, raw⟩

def AcBinding.Placed (root : Cfg) (binding : AcBinding) : Prop :=
  ∃ chain raw, chain.routed = true ∧ Visible root ⟨chain, binding.id, raw⟩

/-- After a delete no binding refers to a rule that no longer exists: what
referred to a rule before still does. -/
structure DeleteKeeps (before after : Cfg) (bindings : List AcBinding) :
    Prop where
  geo : ∀ policy ∈ fetchGeolocation after,
    policy.Placed before → policy.Placed after
  ssl : ∀ policy ∈ fetchSslPolicies after,
    policy.Placed before → policy.Placed after
  ac : ∀ binding ∈ bindings, binding.Placed before → binding.Placed after

/-- Every SSL policy of a rule has an equal one at the number the rule moves
to, as when no rule with an SSL policy moves. -/
def SslTwinned (root : Cfg) (orderedRules : List FirewallRule) : Prop :=
  ∀ policy ∈ fetchSslPolicies root, ∀ (index : Nat) (rule : FirewallRule),
    orderedRules[index]? = some rule → policy.AttachedTo rule rule.rule →
      { policy with rule := orderNumber index } ∈ fetchSslPolicies root

/-- Of the rules that share the number of a bound rule, the bound one is the
last in the order to move, or none moves. -/
def BoundMovesLast (bindings : List AcBinding)
    (orderedRules : List FirewallRule) : Prop :=
  ∀ binding ∈ bindings, ∀ (index : Nat) (rule : FirewallRule),
    orderedRules[index]? = some rule → binding.AttachedTo rule rule.rule →
      ∀ (other : Nat) (probe : FirewallRule),
        orderedRules[other]? = some probe → probe.rule = rule.rule →
        probe.rule ≠ orderNumber other →
          other ≤ index ∧ rule.rule ≠ orderNumber index

theorem forall_zipIdx {Item : Type} {items : List Item}
    {p : Nat → Item → Prop} :
    (∀ entry ∈ items.zipIdx, p entry.2 entry.1) ↔
      ∀ (index : Nat) (item : Item), items[index]? = some item →
        p index item := by
  constructor
  · intro all index item present
    exact all (item, index) (List.mem_zipIdx_iff_getElem?.mpr present)
  · rintro all ⟨item, index⟩ member
    exact all index item (List.mem_zipIdx_iff_getElem?.mp member)

instance (root : Cfg) (orderedRules : List FirewallRule) :
    Decidable (SslTwinned root orderedRules) :=
  decidable_of_iff (∀ policy ∈ fetchSslPolicies root,
      ∀ entry ∈ orderedRules.zipIdx, policy.AttachedTo entry.1 entry.1.rule →
        { policy with rule := orderNumber entry.2 } ∈ fetchSslPolicies root)
    (forall₂_congr fun policy _ => forall_zipIdx (p := fun index rule =>
      policy.AttachedTo rule rule.rule →
        { policy with rule := orderNumber index } ∈ fetchSslPolicies root))

instance (bindings : List AcBinding) (orderedRules : List FirewallRule) :
    Decidable (BoundMovesLast bindings orderedRules) :=
  decidable_of_iff (∀ binding ∈ bindings, ∀ entry ∈ orderedRules.zipIdx,
      binding.AttachedTo entry.1 entry.1.rule →
      ∀ other ∈ orderedRules.zipIdx, other.1.rule = entry.1.rule →
        other.1.rule ≠ orderNumber other.2 →
          other.2 ≤ entry.2 ∧ entry.1.rule ≠ orderNumber entry.2)
    (forall₂_congr fun binding _ =>
      (forall_zipIdx (p := fun index rule =>
        binding.AttachedTo rule rule.rule →
          ∀ other ∈ orderedRules.zipIdx, other.1.rule = rule.rule →
            other.1.rule ≠ orderNumber other.2 →
              other.2 ≤ index ∧ rule.rule ≠ orderNumber index)).trans <|
      forall₃_congr fun index rule _ => forall_congr' fun _ =>
        forall_zipIdx (p := fun other (probe : FirewallRule) =>
          probe.rule = rule.rule → probe.rule ≠ orderNumber other →
            other ≤ index ∧ rule.rule ≠ orderNumber index))

/-! ## Lists -/

section Lists

variable {Key Value : Type} [DecidableEq Key]

/-- When the values grow along the list, the greatest of a key stands. -/
theorem mapOf_eq_some_iff {entries : List (Key × Nat)} {key : Key} {last : Nat}
    (grows : entries.Pairwise fun left right => left.2 < right.2) :
    mapOf entries key = some last ↔
      (key, last) ∈ entries ∧ ∀ value, (key, value) ∈ entries → value ≤ last := by
  induction entries using List.reverseRecOn with
  | nil => simp [mapOf]
  | append_singleton entries entry ih =>
      obtain ⟨name, newest⟩ := entry
      rw [List.pairwise_append] at grows
      have before := ih grows.1
      have greater : ∀ value, (key, value) ∈ entries → value < newest :=
        fun value member => grows.2.2 _ member (name, newest) (by simp)
      rw [mapOf, List.reverse_concat, List.find?_cons]
      split
      · rename_i same
        have same : name = key := by simpa using same
        subst same
        simp only [Option.map_some, Option.some.injEq, List.mem_append,
          List.mem_singleton, Prod.mk.injEq, true_and]
        constructor
        · rintro rfl
          refine ⟨.inr rfl, ?_⟩
          rintro value (member | rfl)
          · exact (greater value member).le
          · exact le_rfl
        · rintro ⟨member, most⟩
          have least := most newest (.inr rfl)
          rcases member with member | rfl
          · have less := greater last member
            omega
          · rfl
      · rename_i different
        have apart : ¬ key = name := by
          rintro rfl
          simp at different
        rw [← mapOf, before]
        simp [apart]

end Lists

/-! ## Reordering -/

/-- Numbers are distinct in an order, so following by number is enough. -/
theorem follows_iff {Binding : Type} (number : Binding → Nat)
    {attached : Binding → FirewallRule → Nat → Prop}
    (byNumber : ∀ binding rule place, attached binding rule place →
      number binding = place)
    {orderedRules : List FirewallRule} {before after : Binding} :
    Follows attached orderedRules before after ↔
      ∀ (index : Nat) (rule : FirewallRule),
        orderedRules[index]? = some rule → attached before rule rule.rule →
          attached after rule (orderNumber index) := by
  constructor
  · intro follows index rule present bound
    exact (follows index rule present bound).1
  · intro arrives index rule present bound
    refine ⟨arrives index rule present bound, ?_⟩
    intro other probe _ different elsewhere
    have here := byNumber _ _ _ (arrives index rule present bound)
    have there := byNumber _ _ _ elsewhere
    exact different (orderNumber_injective (there.symm.trans here))

theorem pairwise_lt_renumberTargets (orderedRules : List FirewallRule) :
    (renumberTargets orderedRules).Pairwise fun left right =>
      left.2 < right.2 := by
  refine List.Pairwise.filter _ (List.pairwise_map.mpr ?_)
  have indices : (orderedRules.zipIdx.map Prod.snd).Pairwise (· < ·) := by
    rw [List.zipIdx_map_snd]
    exact List.pairwise_lt_range'
  refine (List.pairwise_map.mp indices).imp fun less => ?_
  simp only [orderNumber]
  omega

/-- A number moves to the place of the last rule of that number to move. -/
theorem renumberByRule_eq_some_iff {orderedRules : List FirewallRule}
    {number target : Nat} :
    renumberByRule orderedRules number = some target ↔
      ∃ (index : Nat) (rule : FirewallRule), orderedRules[index]? = some rule ∧
        rule.rule = number ∧ rule.rule ≠ orderNumber index ∧
        target = orderNumber index ∧
        ∀ (other : Nat) (probe : FirewallRule),
          orderedRules[other]? = some probe → probe.rule = number →
          probe.rule ≠ orderNumber other → other ≤ index := by
  have grows : ((renumberTargets orderedRules).map fun entry =>
      (entry.1.rule, entry.2)).Pairwise fun left right => left.2 < right.2 :=
    List.pairwise_map.mpr (pairwise_lt_renumberTargets orderedRules)
  have mem : ∀ value, (number, value) ∈ (renumberTargets orderedRules).map
      (fun entry => (entry.1.rule, entry.2)) ↔
      ∃ (index : Nat) (rule : FirewallRule), orderedRules[index]? = some rule ∧
        rule.rule = number ∧ rule.rule ≠ orderNumber index ∧
        value = orderNumber index := by
    intro value
    simp only [List.mem_map, Prod.exists, mem_renumberTargets, Prod.mk.injEq]
    constructor
    · rintro ⟨rule, _, ⟨index, present, rfl, moved⟩, rfl, rfl⟩
      exact ⟨index, rule, present, rfl, moved, rfl⟩
    · rintro ⟨index, rule, present, rfl, moved, rfl⟩
      exact ⟨rule, _, ⟨index, present, rfl, moved⟩, rfl, rfl⟩
  rw [renumberByRule_eq, mapOf_eq_some_iff grows]
  simp only [mem]
  constructor
  · rintro ⟨⟨index, rule, present, same, moved, rfl⟩, most⟩
    refine ⟨index, rule, present, same, moved, rfl, ?_⟩
    intro other probe found numbered changed
    have bound := most _ ⟨other, probe, found, numbered, changed, rfl⟩
    simp only [orderNumber] at bound
    omega
  · rintro ⟨index, rule, present, same, moved, rfl, most⟩
    refine ⟨⟨index, rule, present, same, moved, rfl⟩, ?_⟩
    rintro _ ⟨other, probe, found, numbered, changed, rfl⟩
    have bound := most other probe found numbered changed
    simp only [orderNumber]
    omega

theorem renumberByRule_ne_none {orderedRules : List FirewallRule} {index : Nat}
    {rule : FirewallRule} (present : orderedRules[index]? = some rule)
    (moved : rule.rule ≠ orderNumber index) :
    renumberByRule orderedRules rule.rule ≠ none := by
  have member : (rule.rule, orderNumber index) ∈
      (renumberTargets orderedRules).map fun entry => (entry.1.rule, entry.2) :=
    List.mem_map.mpr ⟨(rule, orderNumber index),
      mem_renumberTargets.mpr ⟨index, present, rfl, moved⟩, rfl⟩
  obtain ⟨target, stands⟩ := mapOf_isSome member
  rw [renumberByRule_eq, stands]
  simp

/-- The commands of a reorder that repoint geolocation policies. -/
def geoSets (policies : List GeoPolicy) (orderedRules : List FirewallRule) :
    List VyosCommand :=
  policies.filterMap fun policy =>
    (mapOf (renumberMap orderedRules) (policy.ruleset, policy.rule)).map
      fun target => .set (policyBase policy.id ++ ["rule", toString target])

/-- What a reorder makes of a binding. -/
def rebind (orderedRules : List FirewallRule) (binding : AcBinding) :
    AcBinding :=
  { binding with
    id := (renumberByRule orderedRules binding.id).getD binding.id }

section Reorder

variable {schema : Schema} {locale : Locale} {root : Cfg}
  {orderedRules : List FirewallRule}

namespace Ordering

variable (ordering : Ordering schema locale root orderedRules)
include ordering

theorem scopes_ne_nil {rule : FirewallRule} (member : rule ∈ orderedRules) :
    rule.scopes ≠ [] := by
  have parsed := ordering.permutation.mem_iff.mp member
  rcases scopes_fetchFirewall parsed with ⟨_, _, single⟩ | ⟨_, proper, _⟩
  · simp [single]
  · exact proper

theorem applyRuleOrderWithCascade_eq (geo : List GeoPolicy)
    (ac : List AcBinding) :
    applyRuleOrderWithCascade orderedRules (some geo) (some ac) =
      (reorderCommands orderedRules ++ geoSets geo orderedRules,
        some (ac.map (rebind orderedRules))) := by
  have same : ∀ binding : AcBinding,
      (match renumberByRule orderedRules binding.id with
        | none => binding
        | some target => { binding with id := target }) =
          rebind orderedRules binding := by
    intro binding
    rw [rebind]
    cases renumberByRule orderedRules binding.id <;> rfl
  rw [applyRuleOrderWithCascade]
  simp only [same]
  split
  · rename_i unmoved
    have targets : renumberTargets orderedRules = [] := by
      rw [List.eq_nil_iff_forall_not_mem]
      rintro ⟨rule, target⟩ member
      obtain ⟨index, present, _⟩ := mem_renumberTargets.mp member
      have scopes := ordering.scopes_ne_nil (List.mem_of_getElem? present)
      rw [renumberMap, List.flatMap_eq_nil_iff] at unmoved
      exact scopes (List.map_eq_nil_iff.mp (unmoved _ member))
    have kept : ∀ binding, rebind orderedRules binding = binding := by
      intro binding
      rw [rebind, renumberByRule, targets]
      rfl
    have noSets : geoSets geo orderedRules = [] := by
      rw [geoSets, unmoved]
      exact List.filterMap_eq_nil_iff.mpr fun _ _ => rfl
    rw [noSets, reorderCommands, targets, funext kept]
    simp
  · rfl

/-- The number a policy of a rule is repointed to. -/
theorem mapOf_renumberMap {index : Nat} {rule : FirewallRule}
    {scope : RuleScope} (present : orderedRules[index]? = some rule)
    (inScopes : scope ∈ rule.scopes) :
    (mapOf (renumberMap orderedRules) (scope.chain, rule.rule)).getD
      rule.rule = orderNumber index := by
  have unique : ∀ target, ((scope.chain, rule.rule), target) ∈
      renumberMap orderedRules →
      rule.rule ≠ orderNumber index ∧ target = orderNumber index := by
    intro target member
    simp only [renumberMap, List.mem_flatMap, List.mem_map, Prod.exists,
      Prod.mk.injEq, mem_renumberTargets] at member
    obtain ⟨other, _, ⟨place, found, rfl, moved⟩, probe, inOther,
      ⟨chains, numbers⟩, rfl⟩ := member
    have same := ordering.index_unique present found inScopes inOther
      chains.symm numbers.symm
    subst same
    exact ⟨numbers ▸ moved, rfl⟩
  cases lookup : mapOf (renumberMap orderedRules) (scope.chain, rule.rule) with
  | some target => exact (unique target (mapOf_mem lookup)).2
  | none =>
      by_contra moved
      have member : ((scope.chain, rule.rule), orderNumber index) ∈
          renumberMap orderedRules := by
        simp only [renumberMap, List.mem_flatMap, Prod.exists,
          mem_renumberTargets, List.mem_map]
        exact ⟨rule, _, ⟨index, present, rfl, moved⟩, scope, inScopes, rfl⟩
      obtain ⟨last, found⟩ := mapOf_isSome member
      rw [lookup] at found
      cases found

end Ordering

theorem diverges_service (chain : RuleChain) (key : String) (path : Path) :
    Diverges (filterBase chain ++ ["rule", key]) ("service" :: path) := by
  cases chain with
  | base chain =>
      exact diverges_cons.mpr fun same => absurd same (by decide)
  | name ruleset =>
      exact diverges_cons.mpr fun same => absurd same (by decide)

theorem diverges_policyBase {left right : Nat} (different : left ≠ right) :
    Diverges (policyBase left) (policyBase right) := by
  refine (diverges_append_left geoBase).mpr (diverges_of_length rfl ?_)
  intro same
  exact different (toString_injective (List.cons.inj same).1)

theorem mem_geoSets {policies : List GeoPolicy} {command : VyosCommand}
    (member : command ∈ geoSets policies orderedRules) :
    ∃ policy ∈ policies, ∃ rest,
      command.path = policyBase policy.id ++ rest := by
  obtain ⟨policy, inside, made⟩ := List.mem_filterMap.mp member
  obtain ⟨target, _, rfl⟩ := Option.map_eq_some_iff.mp made
  exact ⟨policy, inside, _, rfl⟩

/-- The repointing leaves everything but geolocation policies alone. -/
theorem subtree_geoSets_apart (kinds : Kinds String)
    (policies : List GeoPolicy) {path : Path}
    (apart : Diverges geoBase path) (tree : Cfg) :
    subtree path (executeAll kinds (geoSets policies orderedRules) tree) =
      subtree path tree := by
  refine subtree_executeAll_of_diverges ?_ tree
  intro command member
  obtain ⟨policy, _, rest, same⟩ := mem_geoSets member
  rw [same, policyBase, List.append_assoc]
  simpa using apart.append ([toString policy.id] ++ rest) []

/-- Each policy is repointed to where its rule moved. -/
theorem subtree_geoSets (orderedRules : List FirewallRule)
    {policies : List GeoPolicy}
    (distinct : (policies.map GeoPolicy.id).Nodup) {policy : GeoPolicy}
    (member : policy ∈ policies) {tree cfg : Cfg}
    (conforms : Conforms schema.kinds tree)
    (found : subtree (policyBase policy.id) tree = some cfg) :
    subtree (policyBase policy.id)
      (executeAll schema.kinds (geoSets policies orderedRules) tree) =
      some (match mapOf (renumberMap orderedRules)
          (policy.ruleset, policy.rule) with
        | none => cfg
        | some target => cfg.put "rule" (.value (toString target))) := by
  obtain ⟨front, back, rfl⟩ := List.append_of_mem member
  rw [List.map_append, List.map_cons, List.nodup_append] at distinct
  have apart : ∀ (others : List GeoPolicy),
      (∀ other ∈ others, other.id ≠ policy.id) → ∀ tree,
      subtree (policyBase policy.id) (executeAll schema.kinds
        (geoSets others orderedRules) tree) =
          subtree (policyBase policy.id) tree := by
    intro others different tree
    refine subtree_executeAll_of_diverges ?_ tree
    intro command inside
    obtain ⟨other, member, rest, same⟩ := mem_geoSets inside
    rw [same]
    simpa using (diverges_policyBase (different other member)).append rest []
  have inFront : ∀ other ∈ front, other.id ≠ policy.id :=
    fun other inside => distinct.2.2 _ (List.mem_map_of_mem inside) _ (by simp)
  have inBack : ∀ other ∈ back, other.id ≠ policy.id := by
    rintro other inside same
    exact (List.nodup_cons.mp distinct.2.1).1
      (same ▸ List.mem_map_of_mem inside)
  have conformsFront : Conforms schema.kinds (executeAll schema.kinds
      (geoSets front orderedRules) tree) := conforms.executeAll
  rw [geoSets, List.filterMap_append, List.filterMap_cons,
    executeAll_append]
  split
  · rename_i unmoved
    rw [Option.map_eq_none_iff] at unmoved
    rw [unmoved]
    exact (apart back inBack _).trans ((apart front inFront _).trans found)
  · rename_i command made
    obtain ⟨target, lookup, rfl⟩ := Option.map_eq_some_iff.mp made
    rw [lookup]
    refine (apart back inBack _).trans ?_
    exact subtree_repointed conformsFront
      ((apart front inFront _).trans found) target

theorem ac_carried_iff {bindings : List AcBinding} :
    List.Forall₂ (fun binding moved =>
      moved = { binding with id := moved.id } ∧
        Follows AcBinding.AttachedTo orderedRules binding moved)
      bindings (bindings.map (rebind orderedRules)) ↔
        BoundMovesLast bindings orderedRules := by
  have byNumber : ∀ (binding : AcBinding) rule place,
      binding.AttachedTo rule place → binding.id = place :=
    fun _ _ _ bound => bound.1
  rw [List.forall₂_map_right_iff, List.forall₂_same]
  refine forall₂_congr fun binding _ => ?_
  rw [follows_iff AcBinding.id byNumber]
  have shape : rebind orderedRules binding =
      { binding with id := (rebind orderedRules binding).id } := rfl
  rw [and_iff_right shape]
  refine forall₃_congr fun index rule present => forall_congr' fun bound => ?_
  have arrives : (rebind orderedRules binding).AttachedTo rule
      (orderNumber index) ↔ (renumberByRule orderedRules rule.rule).getD
        rule.rule = orderNumber index := by
    rw [AcBinding.AttachedTo, and_iff_left bound.2, rebind, bound.1]
  rw [arrives]
  constructor
  · intro reached other probe found same moved
    cases lookup : renumberByRule orderedRules rule.rule with
    | none =>
        exact absurd lookup (same ▸ renumberByRule_ne_none found moved)
    | some target =>
        rw [lookup, Option.getD_some] at reached
        obtain ⟨last, mover, inOrder, numbered, changed, rfl, most⟩ :=
          renumberByRule_eq_some_iff.mp lookup
        have places := orderNumber_injective reached
        subst places
        rw [present] at inOrder
        cases inOrder
        exact ⟨most other probe found same moved, changed⟩
  · intro last
    cases lookup : renumberByRule orderedRules rule.rule with
    | none =>
        by_contra moved
        exact renumberByRule_ne_none present moved lookup
    | some target =>
        obtain ⟨place, mover, inOrder, numbered, changed, rfl, most⟩ :=
          renumberByRule_eq_some_iff.mp lookup
        obtain ⟨before, moved⟩ := last place mover inOrder numbered changed
        have after := most index rule present rfl moved
        rw [Option.getD_some, Nat.le_antisymm before after]

section Applied

variable (ordering : Ordering schema locale root orderedRules)
include ordering

/-- The configuration after a reorder and its repointing. -/
theorem geo_reordered {policy : GeoPolicy}
    (member : policy ∈ fetchGeolocation root) :
    { policy with rule := (mapOf (renumberMap orderedRules)
        (policy.ruleset, policy.rule)).getD policy.rule } ∈
      fetchGeolocation (executeAll schema.kinds (reorderCommands orderedRules ++
        geoSets (fetchGeolocation root) orderedRules) root) := by
  have conforms := ordering.rendered.conforms
  obtain ⟨key, cfg, found, rfl⟩ := (mem_fetchGeolocation conforms).mp member
  have decimal := ordering.rendered.policies geoBase (by simp) key cfg found
  have base : geoBase ++ [key] = policyBase (parseGeoPolicy key cfg).id := by
    rw [policyBase, decimal]
    simp only [parseGeoPolicy, ruleNumber_toString]
  have reordered : subtree (policyBase (parseGeoPolicy key cfg).id)
      (executeAll schema.kinds (reorderCommands orderedRules) root) =
        some cfg := by
    rw [ordering.subtree_apart, ← base, found]
    exact fun chain _ key => diverges_service chain key _
  have renumbered : Conforms schema.kinds (executeAll schema.kinds
      (reorderCommands orderedRules) root) := conforms.executeAll
  rw [executeAll_append, mem_fetchGeolocation renumbered.executeAll]
  have after := subtree_geoSets orderedRules (nodup_geoIds ordering.rendered)
    member renumbered reordered
  refine ⟨key, _, base ▸ after, ?_⟩
  split
  · rename_i unmoved
    rw [unmoved]
    rfl
  · rename_i target lookup
    rw [lookup, parseGeoPolicy_put]
    rfl

theorem ssl_reordered :
    fetchSslPolicies (executeAll schema.kinds (reorderCommands orderedRules ++
      geoSets (fetchGeolocation root) orderedRules) root) =
        fetchSslPolicies root := by
  refine fetchSslPolicies_congr ?_
  have apart : Diverges geoBase sslBase := by
    rw [geoBase, sslBase, diverges_cons]
    refine fun _ => diverges_cons.mpr fun same => absurd same (by decide)
  rw [executeAll_append, subtree_geoSets_apart _ _ apart,
    ordering.subtree_apart]
  exact fun chain _ key => diverges_service chain key _

theorem geo_follows {policy : GeoPolicy} :
    Follows GeoPolicy.AttachedTo orderedRules policy
      { policy with rule := (mapOf (renumberMap orderedRules)
        (policy.ruleset, policy.rule)).getD policy.rule } := by
  rw [follows_iff GeoPolicy.rule fun _ _ _ bound => bound.1]
  rintro index rule present ⟨number, scope, inScopes, chain⟩
  refine ⟨?_, scope, inScopes, chain⟩
  rw [← chain, number]
  exact ordering.mapOf_renumberMap present inScopes

/-- An inspection policy is attached to one rule at most. -/
theorem ssl_attached_unique {policy : SslPolicy} {left right : Nat}
    {rule other : FirewallRule} (present : orderedRules[left]? = some rule)
    (found : orderedRules[right]? = some other)
    (atRule : policy.AttachedTo rule rule.rule)
    (atOther : policy.AttachedTo other other.rule) : left = right := by
  obtain ⟨number, scope, inScopes, isBase, chain⟩ := atRule
  obtain ⟨number', probe, inOther, isBase', chain'⟩ := atOther
  refine ordering.index_unique present found inScopes inOther ?_
    (number.symm.trans number')
  exact isBaseChain_text_injective isBase isBase' (chain.trans chain'.symm)

/-- Inspection policies are not moved, so each must find its twin. -/
theorem ssl_carried_iff :
    (∃ policies, policies.Perm (fetchSslPolicies root) ∧
      List.Forall₂ (fun policy moved =>
        moved = { policy with rule := moved.rule } ∧
          Follows SslPolicy.AttachedTo orderedRules policy moved)
        (fetchSslPolicies root) policies) ↔ SslTwinned root orderedRules := by
  have byNumber : ∀ (policy : SslPolicy) rule place,
      policy.AttachedTo rule place → policy.rule = place :=
    fun _ _ _ bound => bound.1
  constructor
  · rintro ⟨policies, permuted, carried⟩ policy member index rule present bound
    obtain ⟨moved, inMoved, same, follows⟩ := exists_related carried member
    have arrives := (follows index rule present bound).1
    rw [← arrives.1, ← same]
    exact permuted.mem_iff.mp inMoved
  · intro twinned
    classical
    -- A policy's twin, if it is attached to a rule of the order.
    let rename : SslPolicy → Option SslPolicy := fun policy =>
      if bound : ∃ (index : Nat) (rule : FirewallRule),
          orderedRules[index]? = some rule ∧ policy.AttachedTo rule rule.rule
      then some { policy with rule := orderNumber bound.choose } else none
    have renamed : ∀ policy target, rename policy = some target →
        ∃ (index : Nat) (rule : FirewallRule),
          orderedRules[index]? = some rule ∧
          policy.AttachedTo rule rule.rule ∧
          target = { policy with rule := orderNumber index } := by
      intro policy target leads
      simp only [rename, Option.dite_none_right_eq_some,
        Option.some.injEq] at leads
      obtain ⟨bound, rfl⟩ := leads
      obtain ⟨rule, present, attached⟩ := bound.choose_spec
      exact ⟨_, rule, present, attached, rfl⟩
    have distinct := nodup_sslRules ordering.rendered
    obtain ⟨policies, permuted, carried⟩ := exists_rearrangement
      (fun policy : SslPolicy => { policy with rule := 0 })
      (fetchSslPolicies root) distinct.of_map rename
      (by
        intro policy member target leads
        obtain ⟨index, rule, present, attached, rfl⟩ :=
          renamed policy target leads
        exact ⟨twinned policy member index rule present attached, rfl⟩)
      (by
        intro left inLeft right inRight target leads leads'
        obtain ⟨index, rule, present, attached, rfl⟩ := renamed left _ leads
        obtain ⟨other, probe, found, attached', same⟩ := renamed right _ leads'
        have places := orderNumber_injective (congrArg SslPolicy.rule same)
        subst places
        rw [present] at found
        cases found
        refine List.inj_on_of_nodup_map distinct inLeft inRight ?_
        exact attached.1.trans attached'.1.symm)
    refine ⟨policies, permuted, carried.imp ?_⟩
    rintro policy moved ⟨alike, goal⟩
    refine ⟨?_, (follows_iff SslPolicy.rule byNumber).mpr ?_⟩
    · simp only [SslPolicy.mk.injEq, true_and] at alike
      obtain ⟨rulesets, actions, enabled⟩ := alike
      cases moved
      simp_all
    · intro index rule present attached
      have bound : ∃ (index : Nat) (rule : FirewallRule),
          orderedRules[index]? = some rule ∧
            policy.AttachedTo rule rule.rule := ⟨index, rule, present, attached⟩
      obtain ⟨other, found, attached'⟩ := bound.choose_spec
      have places := ssl_attached_unique ordering found present attached'
        attached
      have arrived := goal _ (dif_pos bound)
      rw [places] at arrived
      rw [arrived]
      exact ⟨rfl, attached.2⟩

/-- A reorder keeps geolocation policies always, the rest on its condition. -/
theorem reorderKeeps_iff {bindings : List AcBinding} :
    ReorderKeeps root (executeAll schema.kinds (reorderCommands orderedRules ++
        geoSets (fetchGeolocation root) orderedRules) root)
      bindings (bindings.map (rebind orderedRules)) orderedRules ↔
      SslTwinned root orderedRules ∧ BoundMovesLast bindings orderedRules := by
  rw [← ssl_carried_iff ordering, ← ac_carried_iff]
  constructor
  · intro keeps
    have ssl := keeps.ssl
    rw [ssl_reordered ordering] at ssl
    exact ⟨ssl, keeps.ac⟩
  · rintro ⟨ssl, ac⟩
    refine ⟨fun policy member => ⟨_, geo_reordered ordering member,
      geo_follows ordering⟩, ?_, ac⟩
    rwa [ssl_reordered ordering]

end Applied

end Reorder

/-! ## Deleting -/

theorem diverges_firewall {left right : String} (different : left ≠ right)
    (path other : Path) :
    Diverges ("firewall" :: left :: path) ("firewall" :: right :: other) :=
  diverges_cons.mpr fun _ => diverges_cons.mpr fun same =>
    absurd same different

theorem diverges_rule {head : String} (different : head ≠ "ipv4") (rest : Path)
    (chain : RuleChain) (key : String) :
    Diverges ("firewall" :: head :: rest) (filterBase chain ++ ["rule", key]) := by
  cases chain <;> exact diverges_firewall different _ _

section Delete

variable {schema : Schema} {locale : Locale} {root : Cfg}
  {rule : FirewallRule}

/-- What deleting a rule of a configuration removes. -/
inductive Removes (locale : Locale) (root : Cfg) (rule : FirewallRule) :
    Path → Prop where
  | copy {scope : RuleScope} : scope ∈ rule.scopes →
      Removes locale root rule (ruleBase scope.chain rule.rule)
  | binding {pair : ZonePair} {scope : RuleScope} :
      pair ∈ parseZonePairs (fetchFirewallConfig root) →
      scope ∈ rule.scopes → scope.chain = .name pair.ruleset →
      (∀ other ∈ (fetchFirewall locale root).rules, ∀ scope ∈ other.scopes,
        scope.chain = .name pair.ruleset → other.rule = rule.rule) →
      Removes locale root rule (bindingPath pair.src pair.dst)
  | ruleset {ruleset : String} {scope : RuleScope} :
      scope ∈ rule.scopes → scope.chain = .name ruleset →
      (∀ other ∈ (fetchFirewall locale root).rules, ∀ scope ∈ other.scopes,
        scope.chain = .name ruleset → other.rule = rule.rule) →
      Removes locale root rule ["firewall", "ipv4", "name", ruleset]
  | group (type name : String) :
      Removes locale root rule ["firewall", "group", type, name]
  | policy {policy : GeoPolicy} : policy ∈ fetchGeolocation root →
      policy.AttachedTo rule rule.rule →
      Removes locale root rule (policyBase policy.id)

/-- The commands of a delete and its cascade. -/
def deleteCommands (locale : Locale) (root : Cfg) (rule : FirewallRule)
    (autoGroups : List AutoGroup) : List VyosCommand :=
  (deleteRuleWithCascade rule autoGroups (some (fetchFirewall locale root))
    (some (fetchGeolocation root)) none).1

theorem removes_of_mem {autoGroups : List AutoGroup} {command : VyosCommand}
    (member : command ∈ deleteCommands locale root rule autoGroups) :
    ∃ path, command = .delete path ∧ Removes locale root rule path := by
  simp only [deleteCommands, deleteRuleWithCascade, deleteRule,
    List.mem_append, List.mem_flatMap, List.mem_cons, Option.map_some,
    Option.getD_some] at member
  rcases member with (⟨scope, inScopes, rfl | cleanup⟩ | group) | policy
  · exact ⟨_, rfl, .copy inScopes⟩
  · rw [emptyPairCleanup] at cleanup
    split at cleanup
    · simp at cleanup
    · rename_i pair found
      rw [pairForChain, Option.bind_eq_some_iff] at found
      obtain ⟨ruleset, named, found⟩ := found
      have chain : scope.chain = .name pair.ruleset := by
        have same : pair.ruleset = ruleset := by
          simpa using List.find?_some found
        cases inside : scope.chain with
        | base chain => simp [inside, RuleChain.rulesetName] at named
        | name other =>
            rw [inside] at named
            rw [same, Option.some.inj named]
      split at cleanup
      · simp at cleanup
      · rename_i alone
        have only : ∀ other ∈ (fetchFirewall locale root).rules,
            ∀ copy ∈ other.scopes, copy.chain = .name pair.ruleset →
              other.rule = rule.rule := by
          intro other inRules copy inCopies same
          by_contra different
          refine alone (List.any_eq_true.mpr ⟨other, inRules, ?_⟩)
          simpa [different] using ⟨copy, inCopies, same.trans chain.symm⟩
        rcases List.mem_cons.mp cleanup with rfl | cleanup
        · exact ⟨_, rfl, .binding (List.mem_of_find?_eq_some found) inScopes
            chain only⟩
        · rw [List.mem_singleton] at cleanup
          exact ⟨_, cleanup, .ruleset inScopes chain only⟩
  · rw [autoGroupDeletes, List.mem_flatMap] at group
    obtain ⟨side, _, inSide⟩ := group
    obtain ⟨⟨type, name⟩, _, made⟩ := List.mem_filterMap.mp inSide
    rw [Option.ite_none_right_eq_some, Option.some.injEq] at made
    exact ⟨_, made.2.symm, .group type name⟩
  · simp only [List.mem_map, List.mem_filter, Bool.and_eq_true,
      decide_eq_true_eq, List.any_eq_true] at policy
    obtain ⟨policy, ⟨inside, number, scope, inScopes, chain⟩, rfl⟩ := policy
    exact ⟨_, rfl, .policy inside ⟨number, scope, inScopes, chain⟩⟩

theorem delete_copy (autoGroups : List AutoGroup) {scope : RuleScope}
    (inScopes : scope ∈ rule.scopes) :
    .delete (ruleBase scope.chain rule.rule) ∈
      deleteCommands locale root rule autoGroups := by
  simp only [deleteCommands, deleteRuleWithCascade, deleteRule,
    List.mem_append, List.mem_flatMap, List.mem_cons]
  exact .inl (.inl ⟨scope, inScopes, .inl rfl⟩)

theorem delete_policy (autoGroups : List AutoGroup) {policy : GeoPolicy}
    (member : policy ∈ fetchGeolocation root)
    (attached : policy.AttachedTo rule rule.rule) :
    .delete (policyBase policy.id) ∈
      deleteCommands locale root rule autoGroups := by
  obtain ⟨number, scope, inScopes, chain⟩ := attached
  simp only [deleteCommands, deleteRuleWithCascade, deleteRule,
    List.mem_append, Option.getD_some, List.mem_map, List.mem_filter,
    Bool.and_eq_true, decide_eq_true_eq, List.any_eq_true]
  exact .inr ⟨policy, ⟨member, number, scope, inScopes, chain⟩, rfl⟩

/-- Away from what is removed the configuration is as before. -/
theorem subtree_apart_of_removes (kinds : Kinds String)
    (autoGroups : List AutoGroup) {probe : Path}
    (apart : ∀ path, Removes locale root rule path → Diverges path probe) :
    subtree probe (executeAll kinds
      (deleteCommands locale root rule autoGroups) root) =
        subtree probe root := by
  refine subtree_executeAll_of_diverges ?_ root
  intro command member
  obtain ⟨path, rfl, removes⟩ := removes_of_mem member
  exact apart path removes

/-- What a command deletes is gone in the end. -/
theorem subtree_removed (kinds : Kinds String) (autoGroups : List AutoGroup)
    {probe : Path}
    (deleted : .delete probe ∈ deleteCommands locale root rule autoGroups)
    (compare : ∀ path, Removes locale root rule path →
      path <+: probe ∨ Diverges path probe) :
    subtree probe (executeAll kinds
      (deleteCommands locale root rule autoGroups) root) = none := by
  have deletes : deleteCommands locale root rule autoGroups =
      ((deleteCommands locale root rule autoGroups).map Command.path).map
        .delete := by
    rw [List.map_map]
    refine (List.map_id _).symm.trans (List.map_congr_left ?_)
    intro command member
    obtain ⟨path, rfl, _⟩ := removes_of_mem member
    rfl
  have removes : ∀ path ∈ (deleteCommands locale root rule autoGroups).map
      Command.path, Removes locale root rule path := by
    intro path member
    obtain ⟨command, inside, rfl⟩ := List.mem_map.mp member
    obtain ⟨path, rfl, removes⟩ := removes_of_mem inside
    exact removes
  rw [deletes, subtree_deletes, if_pos]
  · exact ⟨probe, List.mem_map.mpr ⟨_, deleted, rfl⟩, List.prefix_refl probe⟩
  · intro path member
    cases removes path member <;> simp [ruleBase, bindingPath, policyBase]
  · intro path member
    exact compare path (removes path member)

/-- A visible body that is not one of the rule's stays where it is. -/
theorem visible_after_delete (rendered : Rendered schema root)
    (autoGroups : List AutoGroup) {placement : Placement}
    (shown : Visible root placement)
    (other : ∀ scope ∈ rule.scopes, scope.chain = placement.chain →
      placement.number ≠ rule.rule) :
    Visible (executeAll schema.kinds
      (deleteCommands locale root rule autoGroups) root) placement := by
  have member := (mem_placements rendered locale).mpr shown
  obtain ⟨holder, inRules, backs⟩ := List.mem_flatMap.mp member
  obtain ⟨copy, inCopies, rfl⟩ := List.mem_map.mp backs
  obtain ⟨read, found, visible⟩ := shown
  dsimp only at other read found visible
  -- A ruleset is torn down only when it holds no other rule.
  have inUse : ∀ scope ∈ rule.scopes, scope.chain = copy.chain →
      ∀ ruleset, copy.chain = .name ruleset →
      ¬ ∀ other ∈ (fetchFirewall locale root).rules, ∀ scope ∈ other.scopes,
        scope.chain = .name ruleset → other.rule = rule.rule := by
    intro scope inScopes same ruleset named alone
    exact other scope inScopes same (alone holder inRules copy inCopies named)
  refine ⟨?_, ?_, visible⟩
  · rw [readChains, List.mem_append] at read ⊢
    refine read.imp id fun named => ?_
    simp only [List.mem_map, mem_distinct] at named ⊢
    obtain ⟨_, ⟨pair, inPairs, rfl⟩, chain⟩ := named
    refine ⟨_, ⟨pair, ?_, rfl⟩, chain⟩
    obtain ⟨binding, bound, name⟩ :=
      (mem_parseZonePairs rendered.conforms).mp inPairs
    refine (mem_parseZonePairs rendered.conforms.executeAll).mpr
      ⟨binding, ?_, name⟩
    rw [subtree_apart_of_removes, bound]
    intro path removes
    cases removes with
    | copy inScopes => exact (diverges_rule (by decide) _ _ _).symm
    | binding inPairs' inScopes chain' alone =>
        refine diverges_of_length rfl fun same => ?_
        obtain ⟨binding', bound', name'⟩ :=
          (mem_parseZonePairs rendered.conforms).mp inPairs'
        rw [same, bound] at bound'
        cases bound'
        have rulesets := Option.some.inj (name.symm.trans name')
        exact inUse _ inScopes (chain'.trans (rulesets ▸ chain)) _
          (rulesets ▸ chain.symm) alone
    | ruleset _ _ _ => exact diverges_firewall (by decide) _ _
    | group type name => exact diverges_firewall (by decide) _ _
    | policy _ _ => exact diverges_cons.mpr fun same => absurd same (by decide)
  · rw [subtree_apart_of_removes]
    · exact found
    intro path removes
    cases removes with
    | copy inScopes =>
        refine diverges_ruleBase fun same => ?_
        exact other _ inScopes (congrArg Prod.fst same)
          (congrArg Prod.snd same).symm
    | binding => exact diverges_rule (by decide) _ _ _
    | ruleset inScopes chain alone =>
        have apart := inUse _ inScopes
        cases holds : copy.chain with
        | base chain =>
            refine (diverges_append_left ["firewall", "ipv4"]).mpr ?_
            refine diverges_cons.mpr fun same => absurd same ?_
            cases chain <;> decide
        | name ruleset =>
            refine (diverges_append_left ["firewall", "ipv4", "name"]).mpr ?_
            refine diverges_cons.mpr fun same => ?_
            subst same
            exact absurd alone (apart (chain.trans holds.symm) _ holds)
    | group type name => exact diverges_rule (by decide) _ _ _
    | policy _ _ => exact (diverges_service _ _ _).symm

theorem copy_deleted (kinds : Kinds String) (autoGroups : List AutoGroup)
    {scope : RuleScope} (inScopes : scope ∈ rule.scopes) :
    subtree (ruleBase scope.chain rule.rule) (executeAll kinds
      (deleteCommands locale root rule autoGroups) root) = none := by
  refine subtree_removed kinds autoGroups (delete_copy autoGroups inScopes) ?_
  intro path removes
  cases removes with
  | copy inCopies =>
      rename_i copy
      by_cases same : copy.chain = scope.chain
      · exact .inl (same ▸ List.prefix_refl _)
      · exact .inr (diverges_ruleBase fun places =>
          same (congrArg Prod.fst places))
  | binding => exact .inr (diverges_rule (by decide) _ _ _)
  | ruleset inCopies chain alone =>
      rename_i ruleset copy
      cases holds : scope.chain with
      | base chain =>
          refine .inr ((diverges_append_left ["firewall", "ipv4"]).mpr ?_)
          refine diverges_cons.mpr fun same => absurd same ?_
          cases chain <;> decide
      | name other =>
          by_cases same : ruleset = other
          · exact .inl (same ▸ ⟨["rule", toString rule.rule], rfl⟩)
          · refine .inr ((diverges_append_left
              ["firewall", "ipv4", "name"]).mpr ?_)
            exact diverges_cons.mpr fun equal => absurd equal same
  | group type name => exact .inr (diverges_rule (by decide) _ _ _)
  | policy _ _ => exact .inr (diverges_service _ _ _).symm

/-- The geolocation policies left are those not attached to the rule. -/
theorem geo_of_delete (rendered : Rendered schema root)
    (autoGroups : List AutoGroup) {policy : GeoPolicy}
    (member : policy ∈ fetchGeolocation (executeAll schema.kinds
      (deleteCommands locale root rule autoGroups) root)) :
    ¬ policy.AttachedTo rule rule.rule := by
  obtain ⟨key, cfg, found, rfl⟩ :=
    (mem_fetchGeolocation rendered.conforms.executeAll).mp member
  have compare : ∀ path, Removes locale root rule path →
      path = geoBase ++ [key] ∨ Diverges path (geoBase ++ [key]) := by
    intro path removes
    cases removes with
    | copy _ => exact .inr (diverges_service _ _ _)
    | policy _ _ =>
        rename_i other _ _
        by_cases same : policyBase other.id = geoBase ++ [key]
        · exact .inl same
        · exact .inr (diverges_of_length rfl same)
    | _ => exact .inr (diverges_cons.mpr fun same => absurd same (by decide))
  intro attached
  by_cases deleted : .delete (geoBase ++ [key]) ∈
      deleteCommands locale root rule autoGroups
  · have leads : ∀ path, Removes locale root rule path →
        path <+: geoBase ++ [key] ∨ Diverges path (geoBase ++ [key]) := by
      intro path removes
      refine (compare path removes).imp ?_ id
      rintro rfl
      exact List.prefix_refl _
    rw [subtree_removed schema.kinds autoGroups deleted leads] at found
    cases found
  · have before : subtree (geoBase ++ [key]) root = some cfg := by
      rw [← found]
      refine (subtree_executeAll_of_diverges ?_ root).symm
      intro command inside
      obtain ⟨path, rfl, removes⟩ := removes_of_mem inside
      exact (compare path removes).resolve_left fun same =>
        deleted (same ▸ inside)
    have decimal := rendered.policies geoBase (by simp) key cfg before
    refine deleted ?_
    have gone : _ ∈ deleteCommands locale root rule autoGroups :=
      delete_policy autoGroups ((mem_fetchGeolocation rendered.conforms).mpr
        ⟨key, cfg, before, rfl⟩) attached
    rw [policyBase, parseGeoPolicy] at gone
    dsimp only at gone
    rwa [← decimal] at gone

theorem ssl_of_delete (kinds : Kinds String) (autoGroups : List AutoGroup) :
    fetchSslPolicies (executeAll kinds
      (deleteCommands locale root rule autoGroups) root) =
        fetchSslPolicies root := by
  refine fetchSslPolicies_congr (subtree_apart_of_removes kinds autoGroups ?_)
  intro path removes
  cases removes with
  | copy _ => exact diverges_service _ _ _
  | policy _ _ =>
      exact diverges_cons.mpr fun _ => diverges_cons.mpr fun same =>
        absurd same (by decide)
  | _ => exact diverges_cons.mpr fun same => absurd same (by decide)

/-- A delete keeps geolocation policies and App Control bindings in order; an
SSL policy of the rule is left behind. -/
theorem deleteKeeps_iff (rendered : Rendered schema root)
    (member : rule ∈ (fetchFirewall locale root).rules)
    (autoGroups : List AutoGroup) (bindings : List AcBinding) :
    DeleteKeeps root (executeAll schema.kinds
        (deleteCommands locale root rule autoGroups) root)
      (if rule.chain.routed then bindings.filter fun binding =>
        binding.id ≠ rule.rule else bindings) ↔
      ∀ policy ∈ fetchSslPolicies root, ¬ policy.AttachedTo rule rule.rule := by
  constructor
  · rintro keeps policy inside ⟨number, scope, inScopes, isBase, chain⟩
    have shown : Visible root ⟨scope.chain, rule.rule, scope.raw⟩ :=
      (mem_placements rendered locale).mp (List.mem_flatMap.mpr
        ⟨rule, member, List.mem_map.mpr ⟨scope, inScopes, rfl⟩⟩)
    obtain ⟨other, raw, isBase', chain', _, found, _⟩ := keeps.ssl policy
      ((ssl_of_delete schema.kinds autoGroups).symm ▸ inside)
      ⟨scope.chain, scope.raw, isBase, chain, number ▸ shown⟩
    have same : other = scope.chain :=
      isBaseChain_text_injective isBase' isBase (chain'.trans chain.symm)
    rw [same, number, copy_deleted schema.kinds autoGroups inScopes] at found
    cases found
  · intro free
    constructor
    · rintro policy inside ⟨raw, shown⟩
      refine ⟨raw, visible_after_delete rendered autoGroups shown ?_⟩
      intro scope inScopes chain number
      exact geo_of_delete rendered autoGroups inside
        ⟨number, scope, inScopes, chain⟩
    · rintro policy inside ⟨chain, raw, isBase, text, shown⟩
      rw [ssl_of_delete schema.kinds autoGroups] at inside
      refine ⟨chain, raw, isBase, text,
        visible_after_delete rendered autoGroups shown ?_⟩
      intro scope inScopes same number
      exact free policy inside ⟨number, scope, inScopes, same ▸ isBase,
        (congrArg RuleChain.text same).trans text⟩
    · rintro binding inside ⟨chain, raw, routed, shown⟩
      refine ⟨chain, raw, routed,
        visible_after_delete rendered autoGroups shown ?_⟩
      intro scope inScopes same number
      have routes : rule.chain.routed = true := by
        rcases scopes_fetchFirewall member with ⟨base, atChain, single⟩ |
          ⟨⟨ruleset, atChain⟩, _⟩
        · rw [single, List.mem_singleton] at inScopes
          dsimp only at same
          rw [atChain]
          rw [← same, inScopes] at routed
          exact routed
        · rw [atChain]
          rfl
      rw [if_pos routes] at inside
      have kept : binding.id ≠ rule.rule := by
        simpa using (List.mem_filter.mp inside).2
      exact kept number

end Delete

/-- The cascades keep the bindings on their rules exactly if SSL policies of
moved rules have twins, no rule of the same number moves later in the order
than an App Control rule, and no deleted rule has an SSL policy. -/
theorem cascades_keep_iff {schema : Schema} {locale : Locale} {root : Cfg}
    {orderedRules : List FirewallRule}
    (ordering : Ordering schema locale root orderedRules)
    (bindings : List AcBinding) {rule : FirewallRule}
    (member : rule ∈ (fetchFirewall locale root).rules)
    (autoGroups : List AutoGroup) :
    let reorder := applyRuleOrderWithCascade orderedRules
      (some (fetchGeolocation root)) (some bindings)
    let removal := deleteRuleWithCascade rule autoGroups
      (some (fetchFirewall locale root)) (some (fetchGeolocation root))
      (some bindings)
    (ReorderKeeps root (executeAll schema.kinds reorder.1 root) bindings
        (reorder.2.getD []) orderedRules ↔
      SslTwinned root orderedRules ∧ BoundMovesLast bindings orderedRules) ∧
    (DeleteKeeps root (executeAll schema.kinds removal.1 root)
        (removal.2.getD []) ↔
      ∀ policy ∈ fetchSslPolicies root,
        ¬ policy.AttachedTo rule rule.rule) := by
  dsimp only
  constructor
  · rw [ordering.applyRuleOrderWithCascade_eq]
    exact reorderKeeps_iff ordering
  · have left : ((deleteRuleWithCascade rule autoGroups
        (some (fetchFirewall locale root)) (some (fetchGeolocation root))
        (some bindings)).2).getD [] =
        if rule.chain.routed then bindings.filter fun binding =>
          binding.id ≠ rule.rule else bindings := by
      rw [deleteRuleWithCascade]
      split <;> rfl
    rw [left]
    exact deleteKeeps_iff ordering.rendered member autoGroups bindings

/-- Geolocation on the first and the last rule and an inspection policy on the
one between them. -/
def servicesConfig : Cfg :=
  let geo := fun ruleset rule => .node [("action", .value "block"),
    ("ruleset", .value ruleset), ("rule", .value rule)]
  .node (zonedConfig.entries ++ [("service", .node
    [("geolocation", .node [("policy", .node
      [("1", geo "name:QZ-Z-LAN-TO-WAN" "30"), ("2", geo "forward" "10")])]),
      ("quartzfire", .node [("ssl-inspection", .node [("policy", .node
        [("20", .node [("action", .value "inspect"),
          ("ruleset", .value "forward")])])])])])])

def zoneBinding : AcBinding := ⟨30, "block", "", [], [], [], []⟩

/-- Reversing the order leaves the inspected rule where it is; the rule of the
zone pairs is not inspected. -/
theorem servicesConfig_keeps :
    let rules := (fetchFirewall codepoints servicesConfig).rules
    let reorder := applyRuleOrderWithCascade rules.reverse
      (some (fetchGeolocation servicesConfig)) (some [zoneBinding])
    ReorderKeeps servicesConfig
        (executeAll vyosKind reorder.1 servicesConfig) [zoneBinding]
        (reorder.2.getD []) rules.reverse ∧
      ∀ rule ∈ rules, rule.chain.isBaseChain = false →
        let removal := deleteRuleWithCascade rule []
          (some (fetchFirewall codepoints servicesConfig))
          (some (fetchGeolocation servicesConfig)) (some [zoneBinding])
        DeleteKeeps servicesConfig
          (executeAll vyosKind removal.1 servicesConfig)
          (removal.2.getD []) := by
  intro rules
  have ordering : Ordering vyosSchema codepoints servicesConfig
      rules.reverse :=
    { rendered := rendered_of_check rfl (by decide +kernel)
      permutation := List.reverse_perm _ }
  obtain ⟨first, inRules⟩ : ∃ rule, rule ∈ rules :=
    List.exists_mem_of_ne_nil _ (List.ne_nil_of_length_pos
      (by decide +kernel))
  constructor
  · exact (cascades_keep_iff ordering [zoneBinding] inRules []).1.mpr
      ⟨by decide +kernel, by decide +kernel⟩
  · intro rule member named
    have uninspected : ∀ rule ∈ rules, rule.chain.isBaseChain = false →
        ∀ policy ∈ fetchSslPolicies servicesConfig,
          ¬ policy.AttachedTo rule rule.rule := by decide +kernel
    exact (cascades_keep_iff ordering [zoneBinding] member []).2.mpr
      (uninspected rule member named)

/-- Two forward rules, the second of them inspected. -/
def inspectedConfig : Cfg :=
  .node [("firewall", .node [("ipv4", .node [("forward", .node
    [("filter", .node [("rule", .node
      [("10", .node [("action", .value "drop")]),
        ("20", .node [("action", .value "accept")])])])])])]),
    ("service", .node [("quartzfire", .node [("ssl-inspection", .node
      [("policy", .node [("20", .node [("action", .value "inspect"),
        ("ruleset", .value "forward")])])])])])]

/-- Swapping the rules leaves the inspection policy on the wrong one. -/
theorem inspection_left_behind :
    let rules := (fetchFirewall codepoints inspectedConfig).rules.reverse
    let reorder := applyRuleOrderWithCascade rules
      (some (fetchGeolocation inspectedConfig)) (some [])
    ¬ ReorderKeeps inspectedConfig
      (executeAll vyosKind reorder.1 inspectedConfig) []
      (reorder.2.getD []) rules := by
  intro rules reorder keeps
  have ordering : Ordering vyosSchema codepoints inspectedConfig rules :=
    { rendered := rendered_of_check rfl (by decide +kernel)
      permutation := List.reverse_perm _ }
  have unapplied : reorder = _ := ordering.applyRuleOrderWithCascade_eq _ _
  rw [unapplied] at keeps
  have twinned := ((reorderKeeps_iff ordering).mp keeps).1
  exact absurd twinned (by decide +kernel)

end QuartzFire.Firewall
