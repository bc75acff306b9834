import QuartzFire.AppControl.PolicyVerdicts
import QuartzFire.Foundation.LetterCase

/-!
# When a policy file compiles

A file is refused exactly if one of the listed conditions is met.  The actions
of one that compiles are numbered in the order in which its bindings name them.
-/

namespace QuartzFire.AppControl

namespace Policy

variable (isIpv4 : String → Option Bool)

/-- What each refusal says of the file. -/
def Violates (file : PolicyFile) (layout : Layout) : PolicyError → Prop
  | .version found => found = file.version ∧ found ≠ schemaVersion
  | .duplicateBinding bindingId =>
      2 ≤ (file.bindings.map BindingSpec.id).count bindingId
  | .badInterface bindingId name =>
      ∃ binding ∈ file.bindings, binding.id = bindingId ∧
        name ∈ binding.matchSpec.iifname ++ binding.matchSpec.oifname ∧
          validIfname name = false
  | .badAddress bindingId addr =>
      ∃ binding ∈ file.bindings, binding.id = bindingId ∧
        addr ∈ binding.matchSpec.saddr ++ binding.matchSpec.daddr ∧
          parseCidr isIpv4 addr = none
  | .badPort bindingId =>
      ∃ binding ∈ file.bindings, binding.id = bindingId ∧
        ∃ l4 ∈ binding.matchSpec.l4, 0 ∈ l4.dports
  | .unknownAction bindingId action =>
      ∃ binding ∈ file.bindings, binding.id = bindingId ∧
        binding.action = action ∧ ∀ entry ∈ file.actions, entry.1 ≠ action
  | .tooManyActions count max =>
      count = (file.bindings.map BindingSpec.action).dedup.length ∧
        max = layout.maxActionId ∧ max < count

/-- Bindings in the order of their ids. -/
def ordered (bindings : List BindingSpec) : List BindingSpec :=
  bindings.insertionSort fun left right => left.id ≤ right.id

theorem ordered_perm (bindings : List BindingSpec) :
    (ordered bindings).Perm bindings :=
  List.perm_insertionSort _ bindings

theorem ordered_sorted (bindings : List BindingSpec) :
    (ordered bindings).Pairwise fun left right => left.id ≤ right.id := by
  have total : Std.Total fun left right : BindingSpec => left.id ≤ right.id :=
    ⟨fun left right => Nat.le_total left.id right.id⟩
  have transitive : IsTrans BindingSpec
      fun left right => left.id ≤ right.id :=
    ⟨fun _ _ _ first second => Nat.le_trans first second⟩
  exact List.pairwise_insertionSort _ bindings

/-! ## The checks -/

theorem checkDistinct_ok {bindings : List BindingSpec}
    (sorted : bindings.Pairwise fun left right => left.id ≤ right.id)
    (passes : checkDistinct bindings = .ok ()) :
    bindings.Pairwise fun left right => left.id < right.id := by
  induction bindings with
  | nil => exact .nil
  | cons first rest ih =>
      rw [List.pairwise_cons] at sorted
      cases rest with
      | nil => exact List.pairwise_singleton _ _
      | cons second rest =>
          rw [checkDistinct] at passes
          obtain ⟨apart, passes⟩ := refuse_eq_ok.mp passes
          have later := ih sorted.2 passes
          refine List.pairwise_cons.mpr ⟨?_, later⟩
          have next := sorted.1 second List.mem_cons_self
          intro other member
          rcases List.mem_cons.mp member with rfl | after
          · omega
          · have above := (List.pairwise_cons.mp later).1 other after
            omega

theorem checkDistinct_error {bindings : List BindingSpec} {error : PolicyError}
    (refused : checkDistinct bindings = .error error) :
    ∃ bindingId, error = .duplicateBinding bindingId ∧
      2 ≤ (bindings.map BindingSpec.id).count bindingId := by
  induction bindings with
  | nil => cases refused
  | cons first rest ih =>
      cases rest with
      | nil => cases refused
      | cons second rest =>
          rw [checkDistinct] at refused
          split at refused
          · rename_i same
            cases refused
            refine ⟨first.id, rfl, ?_⟩
            rw [List.map_cons, List.map_cons, ← same, List.count_cons_self,
              List.count_cons_self]
            omega
          · obtain ⟨bindingId, named, twice⟩ := ih refused
            refine ⟨bindingId, named, twice.trans ?_⟩
            rw [List.map_cons]
            exact List.count_le_count_cons

theorem checkMatch_cases {file : PolicyFile} {layout : Layout}
    {binding : BindingSpec} (member : binding ∈ file.bindings) :
    (checkMatch isIpv4 binding = .ok () ∧
      (∀ name ∈ binding.matchSpec.iifname ++ binding.matchSpec.oifname,
        validIfname name = true) ∧
      (∀ addr ∈ binding.matchSpec.saddr ++ binding.matchSpec.daddr,
        parseCidr isIpv4 addr ≠ none) ∧
      ∀ l4 ∈ binding.matchSpec.l4, 0 ∉ l4.dports) ∨
    ∃ error, checkMatch isIpv4 binding = .error error ∧
      Violates isIpv4 file layout error := by
  unfold checkMatch
  dsimp only
  cases interface : (binding.matchSpec.iifname ++
      binding.matchSpec.oifname).find? fun name => !validIfname name with
  | some name =>
      refine .inr ⟨_, rfl, binding, member, rfl, ?_, ?_⟩
      · exact List.mem_of_find?_eq_some interface
      · simpa using List.find?_some interface
  | none =>
      cases address : (binding.matchSpec.saddr ++
          binding.matchSpec.daddr).find? fun addr =>
            (parseCidr isIpv4 addr).isNone with
      | some addr =>
          refine .inr ⟨_, rfl, binding, member, rfl, ?_, ?_⟩
          · exact List.mem_of_find?_eq_some address
          · simpa using List.find?_some address
      | none =>
          by_cases port : (binding.matchSpec.l4.any fun l4 =>
              l4.dports.contains 0) = true
          · refine .inr ⟨.badPort binding.id, ?_, binding, member, rfl, ?_⟩
            · simp only [port, if_true]
              rfl
            · simpa using port
          · refine .inl ⟨?_, ?_, ?_, ?_⟩
            · simp only [port]
              rfl
            · intro name among
              simpa using List.find?_eq_none.mp interface name among
            · intro addr among
              simpa using List.find?_eq_none.mp address addr among
            · simpa using port

theorem forM_cases {Item : Type} {check : Item → Except PolicyError Unit}
    (items : List Item) :
    (items.forM check = .ok () ∧ ∀ item ∈ items, check item = .ok ()) ∨
      ∃ error, items.forM check = .error error ∧
        ∃ item ∈ items, check item = .error error := by
  induction items with
  | nil => exact .inl ⟨rfl, by simp⟩
  | cons item items ih =>
      have unfolds : (item :: items).forM check =
          (check item >>= fun _ => items.forM check) := rfl
      rw [unfolds]
      cases checked : check item with
      | error error =>
          exact .inr ⟨error, rfl, item, List.mem_cons_self, checked⟩
      | ok _ =>
          rcases ih with ⟨passes, all⟩ | ⟨error, refused, other, member, found⟩
          · exact .inl ⟨passes, List.forall_mem_cons.mpr ⟨checked, all⟩⟩
          · exact .inr ⟨error, refused, other, List.mem_cons_of_mem _ member,
              found⟩

/-! ## Bound actions -/

/-- The names in the order of their first occurrence, after those known. -/
def firstNames : List String → List String → List String
  | known, [] => known
  | known, name :: names =>
      firstNames (if name ∈ known then known else known ++ [name]) names

theorem firstNames_spec (names : List String) (known : List String)
    (distinct : known.Nodup) :
    (firstNames known names).Nodup ∧
      ∀ name, name ∈ firstNames known names ↔ name ∈ known ∨ name ∈ names := by
  induction names generalizing known with
  | nil => exact ⟨distinct, by simp [firstNames]⟩
  | cons name names ih =>
      rw [firstNames]
      by_cases among : name ∈ known
      · rw [if_pos among]
        obtain ⟨apart, members⟩ := ih known distinct
        refine ⟨apart, fun other => ?_⟩
        rw [members, List.mem_cons]
        constructor
        · exact Or.imp_right .inr
        · rintro (before | rfl | after)
          · exact .inl before
          · exact .inl among
          · exact .inr after
      · rw [if_neg among]
        have more : (known ++ [name]).Nodup := by
          rw [List.nodup_append]
          refine ⟨distinct, List.nodup_singleton name, ?_⟩
          rintro other inside _ last rfl
          rw [List.mem_singleton] at last
          exact among (last ▸ inside)
        obtain ⟨apart, members⟩ := ih _ more
        refine ⟨apart, fun other => ?_⟩
        rw [members, List.mem_append, List.mem_singleton, List.mem_cons,
          or_assoc]

theorem length_firstNames (names : List String) :
    (firstNames [] names).length = names.dedup.length := by
  obtain ⟨apart, members⟩ := firstNames_spec names [] List.nodup_nil
  have same : (firstNames [] names).Perm names.dedup := by
    rw [List.perm_ext_iff_of_nodup apart (List.nodup_dedup names)]
    intro name
    rw [members, List.mem_dedup]
    simp
  exact same.length_eq

/-- The specification of a name in the file. -/
def specOf (actions : List (String × ActionSpec)) (name : String) :
    Option (String × ActionSpec) :=
  actions.find? fun entry => entry.1 = name

theorem boundActions_cases (actions : List (String × ActionSpec))
    (bindings : List BindingSpec) (bound : List (String × ActionSpec))
    (listed : ∀ entry ∈ bound, specOf actions entry.1 = some entry) :
    (∃ result, boundActions actions bindings bound = .ok result ∧
      result.map Prod.fst = firstNames (bound.map Prod.fst)
        (bindings.map BindingSpec.action) ∧
      (∀ entry ∈ result, specOf actions entry.1 = some entry) ∧
      ∀ binding ∈ bindings, ∃ entry, specOf actions binding.action =
        some entry) ∨
    ∃ binding ∈ bindings,
      boundActions actions bindings bound =
        .error (.unknownAction binding.id binding.action) ∧
      ∀ entry ∈ actions, entry.1 ≠ binding.action := by
  induction bindings generalizing bound with
  | nil => exact .inl ⟨bound, rfl, rfl, listed, by simp⟩
  | cons binding rest ih =>
      rw [boundActions]
      cases found : actions.find? fun entry => entry.1 = binding.action with
      | none =>
          refine .inr ⟨binding, List.mem_cons_self, rfl, ?_⟩
          simpa using found
      | some entry =>
          dsimp only
          have named : entry.1 = binding.action := by
            simpa using List.find?_some found
          have known : (bound.any fun other =>
              other.1 = binding.action) = true ↔
                binding.action ∈ bound.map Prod.fst := by
            simp
          rw [List.map_cons, firstNames]
          have extended : ∀ other ∈ (if (bound.any fun other =>
              other.1 = binding.action) = true then bound
                else bound ++ [entry]), specOf actions other.1 = some other := by
            intro other member
            split at member
            · exact listed other member
            · rcases List.mem_append.mp member with before | last
              · exact listed other before
              · rw [List.mem_singleton.mp last, named]
                exact found
          have names : (if (bound.any fun other =>
              other.1 = binding.action) = true then bound
                else bound ++ [entry]).map Prod.fst =
              if binding.action ∈ bound.map Prod.fst then bound.map Prod.fst
                else bound.map Prod.fst ++ [binding.action] := by
            by_cases among : binding.action ∈ bound.map Prod.fst
            · rw [if_pos among, if_pos (known.mpr among)]
            · rw [if_neg among, if_neg (mt known.mp among), List.map_append,
                List.map_singleton, named]
          rcases ih _ extended with
            ⟨result, built, order, entries, covered⟩ |
              ⟨other, member, refused, absent⟩
          · refine .inl ⟨result, built, ?_, entries, ?_⟩
            · rw [order, names]
            · exact List.forall_mem_cons.mpr ⟨⟨entry, found⟩, covered⟩
          · exact .inr ⟨other, List.mem_cons_of_mem _ member, refused, absent⟩

/-! ## Compiling -/

/-- The entries of the actions that are bound, in the order of the bindings. -/
structure Bound (file : PolicyFile) (layout : Layout)
    (bound : List (String × ActionSpec)) : Prop where
  sorted : (ordered file.bindings).Pairwise
    fun left right => left.id < right.id
  names : bound.map Prod.fst =
    firstNames [] ((ordered file.bindings).map BindingSpec.action)
  entries : ∀ entry ∈ bound, specOf file.actions entry.1 = some entry
  covered : ∀ binding ∈ ordered file.bindings, ∃ entry,
    specOf file.actions binding.action = some entry
  few : bound.length ≤ layout.maxActionId

/-- The policy of the bound actions. -/
def policyOf (file : PolicyFile) (catalog : Catalog) (generation : Nat)
    (bound : List (String × ActionSpec)) : Policy :=
  { generation
    actions := bound.mapIdx (compileAction catalog)
    bindings := (ordered file.bindings).map
      (compileBinding (bound.mapIdx (compileAction catalog)))
    warnings := bound.flatMap fun entry =>
      (actionTables catalog entry.1 entry.2).warnings }

theorem length_boundNames (file : PolicyFile) :
    (firstNames [] ((ordered file.bindings).map BindingSpec.action)).length =
      (file.bindings.map BindingSpec.action).dedup.length := by
  rw [length_firstNames]
  exact ((ordered_perm file.bindings).map _).dedup.length_eq

theorem Bound.length_eq {file : PolicyFile} {layout : Layout}
    {bound : List (String × ActionSpec)} (parts : Bound file layout bound) :
    bound.length = (file.bindings.map BindingSpec.action).dedup.length := by
  rw [← length_boundNames, ← parts.names, List.length_map]

theorem Bound.not_violates {file : PolicyFile} {layout : Layout}
    {bound : List (String × ActionSpec)} (parts : Bound file layout bound)
    (version : file.version = schemaVersion)
    (checked : ∀ binding ∈ ordered file.bindings,
      checkMatch isIpv4 binding = .ok ()) (error : PolicyError) :
    ¬ Violates isIpv4 file layout error := by
  have perm := ordered_perm file.bindings
  have specs : ∀ binding ∈ file.bindings,
      (∀ name ∈ binding.matchSpec.iifname ++ binding.matchSpec.oifname,
        validIfname name = true) ∧
      (∀ addr ∈ binding.matchSpec.saddr ++ binding.matchSpec.daddr,
        parseCidr isIpv4 addr ≠ none) ∧
      ∀ l4 ∈ binding.matchSpec.l4, 0 ∉ l4.dports := by
    intro binding member
    rcases @checkMatch_cases isIpv4 file layout binding member with
      ⟨_, spec⟩ | ⟨other, refused, _⟩
    · exact spec
    · rw [checked binding (perm.mem_iff.mpr member)] at refused
      cases refused
  cases error with
  | version found =>
      rintro ⟨rfl, other⟩
      exact other version
  | duplicateBinding bindingId =>
      intro twice
      have distinct : (file.bindings.map BindingSpec.id).Nodup := by
        rw [← (perm.map _).nodup_iff]
        exact List.pairwise_map.mpr (parts.sorted.imp Nat.ne_of_lt)
      have once := List.nodup_iff_count_le_one.mp distinct bindingId
      exact absurd (Nat.le_trans twice once) (by decide)
  | badInterface bindingId name =>
      rintro ⟨binding, member, _, among, invalid⟩
      rw [(specs binding member).1 name among] at invalid
      cases invalid
  | badAddress bindingId addr =>
      rintro ⟨binding, member, _, among, invalid⟩
      exact (specs binding member).2.1 addr among invalid
  | badPort bindingId =>
      rintro ⟨binding, member, _, l4, among, zero⟩
      exact (specs binding member).2.2 l4 among zero
  | unknownAction bindingId action =>
      rintro ⟨binding, member, _, rfl, absent⟩
      obtain ⟨entry, found⟩ := parts.covered binding (perm.mem_iff.mpr member)
      exact absent entry (List.mem_of_find?_eq_some found)
        (by simpa using List.find?_some found)
  | tooManyActions count max =>
      rintro ⟨rfl, rfl, many⟩
      rw [← parts.length_eq] at many
      exact absurd parts.few (Nat.not_le_of_lt many)

/-- A file compiles and violates nothing, or it is refused for what it
violates. -/
theorem compile_cases (file : PolicyFile) (catalog : Catalog) (layout : Layout)
    (generation : Nat) :
    (∃ bound, compile isIpv4 file catalog layout generation =
        .ok (policyOf file catalog generation bound) ∧
      Bound file layout bound ∧ ∀ error, ¬ Violates isIpv4 file layout error) ∨
    ∃ error, compile isIpv4 file catalog layout generation = .error error ∧
      Violates isIpv4 file layout error := by
  have perm := ordered_perm file.bindings
  have inFile : ∀ binding ∈ ordered file.bindings, binding ∈ file.bindings :=
    fun binding member => perm.mem_iff.mp member
  have unfolds : compile isIpv4 file catalog layout generation =
      if file.version ≠ schemaVersion then .error (.version file.version)
      else checkDistinct (ordered file.bindings) >>= fun _ =>
        (ordered file.bindings).forM (checkMatch isIpv4) >>= fun _ =>
          boundActions file.actions (ordered file.bindings) [] >>= fun bound =>
            if bound.length > layout.maxActionId then
              .error (.tooManyActions bound.length layout.maxActionId)
            else .ok (policyOf file catalog generation bound) := by
    unfold compile
    dsimp only
    split <;> rfl
  rw [unfolds]
  by_cases version : file.version = schemaVersion
  swap
  · rw [if_pos version]
    exact .inr ⟨_, rfl, rfl, version⟩
  rw [if_neg (not_not.mpr version)]
  cases distinct : checkDistinct (ordered file.bindings) with
  | error error =>
      obtain ⟨bindingId, rfl, twice⟩ := checkDistinct_error distinct
      refine .inr ⟨_, rfl, ?_⟩
      rwa [(perm.map BindingSpec.id).count_eq] at twice
  | ok _ =>
  rcases forM_cases (ordered file.bindings) with
    ⟨matches', all⟩ | ⟨error, refused, binding, member, bad⟩
  swap
  · refine .inr ⟨error, by rw [refused]; rfl, ?_⟩
    rcases checkMatch_cases isIpv4 (inFile binding member) with
      ⟨fine, _⟩ | ⟨other, found, violates⟩
    · rw [bad] at fine
      cases fine
    · rw [bad] at found
      cases found
      exact violates
  rw [matches']
  rcases boundActions_cases file.actions (ordered file.bindings) [] (by simp)
    with ⟨bound, built, names, entries, covered⟩ |
      ⟨binding, member, refused, absent⟩
  swap
  · refine .inr ⟨.unknownAction binding.id binding.action, by rw [refused]; rfl,
      binding, inFile binding member, rfl, rfl, absent⟩
  rw [built]
  by_cases many : bound.length > layout.maxActionId
  · refine .inr ⟨.tooManyActions bound.length layout.maxActionId, if_pos many,
      ?_, rfl, many⟩
    rw [← length_boundNames, ← List.map_nil, ← names, List.length_map]
  have parts : Bound file layout bound :=
    { sorted := checkDistinct_ok (ordered_sorted file.bindings) distinct
      names, entries, covered
      few := Nat.le_of_not_lt many }
  exact .inl ⟨bound, if_neg many, parts, parts.not_violates isIpv4 version all⟩

/-! ## What a compiled policy says -/

/-- Ids are 1, 2 and so on in the order of the bindings, and lead to the action
of the name. -/
structure Follows (file : PolicyFile) (catalog : Catalog) (layout : Layout)
    (policy : Policy) : Prop where
  bindings : policy.bindings.map (fun binding => (binding.bindingId,
      binding.actionName, binding.description, binding.matchSpec)) =
    (ordered file.bindings).map fun binding =>
      (binding.id, binding.action, binding.description, binding.matchSpec)
  sorted : policy.bindings.Pairwise fun left right =>
    left.bindingId < right.bindingId
  ids : policy.actions.map CompiledAction.actionId =
    List.range' 1 policy.actions.length
  few : policy.actions.length ≤ layout.maxActionId
  order : policy.actions.map CompiledAction.name =
    firstNames [] (policy.bindings.map PolicyBinding.actionName)
  indexed : ∀ action ∈ policy.actions,
    policy.action action.actionId = some action
  bound : ∀ binding ∈ policy.bindings, ∃ action entry,
    policy.action binding.actionId = some action ∧
      action.actionId = binding.actionId ∧
      action.name = binding.actionName ∧
      specOf file.actions binding.actionName = some entry ∧
      action.defaultAction = entry.2.defaultAction ∧
      action.blockMode = entry.2.blockMode ∧
      ∀ appId, (appId = 0 ∨ ∀ app ∈ catalog.applications, app.id ≠ appId) →
        action.verdict appId = entry.2.defaultAction

/-- The verdict of a bound action for an application is the declared one. -/
def Precedence (file : PolicyFile) (catalog : Catalog) (policy : Policy) :
    Prop :=
  ∀ binding ∈ policy.bindings, ∀ action,
    policy.action binding.actionId = some action →
    ∀ entry, specOf file.actions binding.actionName = some entry →
    ∀ app ∈ catalog.applications, app.id ≠ 0 →
      action.verdict app.id = entry.2.declared app

section Compiled

variable {file : PolicyFile} {catalog : Catalog} {layout : Layout}
  {generation : Nat} {bound : List (String × ActionSpec)}

theorem Bound.ids (parts : Bound file layout bound) :
    (bound.mapIdx (compileAction catalog)).map CompiledAction.actionId =
      List.range' 1 bound.length := by
  apply List.ext_getElem
  · simp
  · intro index inside _
    rw [List.length_map, List.length_mapIdx] at inside
    have small := Nat.lt_of_le_of_lt parts.few (maxActionId_lt layout)
    have fits : (index + 1) % 2 ^ 8 = index + 1 := Nat.mod_eq_of_lt (by omega)
    rw [List.getElem_map, List.getElem_mapIdx, List.getElem_range', Nat.one_mul,
      Nat.add_comm]
    exact fits

/-- A binding leads to the entry of the file its action is named after. -/
theorem Bound.action (parts : Bound file layout bound) {binding : PolicyBinding}
    (member : binding ∈ (policyOf file catalog generation bound).bindings) :
    ∃ index entry, bound[index]? = some entry ∧
      specOf file.actions binding.actionName = some entry ∧
      entry.1 = binding.actionName ∧
      (policyOf file catalog generation bound).action binding.actionId =
        some (compileAction catalog index entry) ∧
      (compileAction catalog index entry).actionId = binding.actionId := by
  obtain ⟨spec, inFile, rfl⟩ := List.mem_map.mp member
  have named : spec.action ∈ bound.map Prod.fst := by
    rw [parts.names, (firstNames_spec _ [] List.nodup_nil).2]
    exact .inr (List.mem_map_of_mem inFile)
  have exists' : ((bound.mapIdx (compileAction catalog)).find? fun action =>
      action.name = spec.action).isSome := by
    rw [List.find?_isSome]
    obtain ⟨entry, among, same⟩ := List.mem_map.mp named
    obtain ⟨index, inside, rfl⟩ := List.mem_iff_getElem.mp among
    exact ⟨_, List.mem_mapIdx.mpr ⟨index, inside, rfl⟩, decide_eq_true same⟩
  obtain ⟨action, first⟩ := Option.isSome_iff_exists.mp exists'
  have inActions := List.mem_of_find?_eq_some first
  have name : action.name = spec.action := by
    simpa using List.find?_some first
  have placed := compileAction_indexed catalog parts.few inActions
  obtain ⟨index, inside, rfl⟩ := List.mem_mapIdx.mp inActions
  have listed := parts.entries bound[index] (List.getElem_mem inside)
  have same : bound[index].1 = spec.action := name
  have actionId : (compileBinding (bound.mapIdx (compileAction catalog))
      spec).actionId = (compileAction catalog index bound[index]).actionId := by
    unfold compileBinding
    rw [first]
    rfl
  refine ⟨index, bound[index], List.getElem?_eq_getElem inside, ?_, same, ?_,
    actionId.symm⟩
  · rw [same] at listed
    exact listed
  · rw [actionId, Policy.action, if_neg placed.1]
    exact placed.2.2

theorem Bound.follows (parts : Bound file layout bound) :
    Follows file catalog layout (policyOf file catalog generation bound) := by
  have length : (policyOf file catalog generation bound).actions.length =
      bound.length := List.length_mapIdx
  refine ⟨?_, ?_, ?_, ?_, ?_, ?_, ?_⟩
  · rw [policyOf, List.map_map]
    rfl
  · exact List.pairwise_map.mpr parts.sorted
  · rw [length]
    exact parts.ids
  · rw [length]
    exact parts.few
  · have names : (policyOf file catalog generation bound).bindings.map
        PolicyBinding.actionName =
          (ordered file.bindings).map BindingSpec.action := by
      rw [policyOf, List.map_map]
      rfl
    rw [names, ← parts.names]
    apply List.ext_getElem?
    intro index
    rw [policyOf, List.getElem?_map, List.getElem?_mapIdx, List.getElem?_map,
      Option.map_map]
    rfl
  · intro action member
    have placed := compileAction_indexed catalog parts.few member
    rw [Policy.action, if_neg placed.1]
    exact placed.2.2
  · intro binding member
    obtain ⟨index, entry, _, spec, name, leads, actionId⟩ :=
      @Bound.action _ catalog _ generation _ parts binding member
    refine ⟨_, entry, leads, actionId, name, spec, rfl, rfl, ?_⟩
    intro appId unlisted
    exact verdict_unlisted catalog index entry unlisted

theorem Bound.precedence (parts : Bound file layout bound)
    (unambiguous : catalog.Unambiguous) :
    Precedence file catalog (policyOf file catalog generation bound) := by
  intro binding member action leads entry spec app among known
  obtain ⟨index, other, _, spec', _, leads', _⟩ :=
    @Bound.action _ catalog _ generation _ parts binding member
  rw [leads] at leads'
  rw [spec] at spec'
  cases leads'
  cases spec'
  exact verdict_declared unambiguous index entry among known

end Compiled

/-! ## Which catalogs are served -/

/-- One action, bound once. -/
def probeFile (spec : ActionSpec) : PolicyFile where
  version := 2
  actions := [("A", spec)]
  bindings := [⟨1, "A", "", .default⟩]

theorem probeFile_compiles (spec : ActionSpec) (catalog : Catalog) :
    ∃ policy, compile (fun _ => none) (probeFile spec) catalog .default 1 =
        .ok policy ∧
      policy.bindings = [⟨1, 1, "A", "", .default⟩] ∧
      policy.action 1 = some (compileAction catalog 0 ("A", spec)) :=
  ⟨policyOf (probeFile spec) catalog 1 [("A", spec)], rfl, rfl, rfl⟩

/-- A catalog all files are served with as declared. -/
theorem unambiguous_of_precedence {catalog : Catalog}
    (served : ∀ spec policy, compile (fun _ => none) (probeFile spec) catalog
      .default 1 = .ok policy → Precedence (probeFile spec) catalog policy) :
    catalog.Unambiguous := by
  have declared : ∀ (spec : ActionSpec), ∀ app ∈ catalog.applications,
      app.id ≠ 0 →
        ((lastKnown (catalog.appRule app.id) spec.applications).or
          (lastKnown (catalog.categoryRule app.id) spec.categories)).getD
            spec.defaultAction = spec.declared app := by
    intro spec app member known
    obtain ⟨policy, compiled, bindings, leads⟩ :=
      probeFile_compiles spec catalog
    rw [← verdict_compileAction catalog 0 ("A", spec) known]
    exact served spec policy compiled ⟨1, 1, "A", "", .default⟩
      (by rw [bindings]; exact List.mem_cons_self) _ leads ("A", spec) rfl app
      member known
  have found : ∀ app ∈ catalog.applications, app.id ≠ 0 →
      catalog.appIndex app.name.toLower = some app.id := by
    intro app member known
    have verdict := declared ⟨.allow, .drop, [], [(app.name, .block)]⟩ app
      member known
    by_contra other
    simp [ActionSpec.declared, lastKnown, Catalog.appRule, ruleFor, other]
      at verdict
  refine ⟨found, ?_⟩
  intro app member other among known same
  constructor
  · have leads := found other among (same ▸ known)
    rw [same] at leads
    have verdict := declared ⟨.allow, .drop, [], [(other.name, .block)]⟩ app
      member known
    by_contra apart
    simp [ActionSpec.declared, lastKnown, Catalog.appRule, ruleFor, leads,
      apart] at verdict
  · have inside : app.id ∈ (catalog.categoryIndex
        other.category.toLower).getD [] :=
      Catalog.mem_categoryIndex.mpr ⟨other, among, rfl, same⟩
    have verdict := declared ⟨.allow, .drop, [(other.category, .block)], []⟩
      app member known
    by_contra apart
    simp [ActionSpec.declared, lastKnown, Catalog.categoryRule, ruleFor, inside,
      apart] at verdict

/-- Two applications whose names differ in case only. -/
def twinCatalog : Catalog :=
  ⟨[⟨100, "ChatApp", "AI"⟩, ⟨101, "chatapp", "Web"⟩]⟩

def twinSpec : ActionSpec := ⟨.allow, .drop, [], [("ChatApp", .block)]⟩

/-- The name leads to the last of them. -/
theorem twinCatalog_index :
    twinCatalog.appIndex "ChatApp".toLower = some 101 := by
  have upper : "ChatApp".toLower = "chatapp" := by
    apply String.toList_injective
    rw [toList_toLower]
    decide
  have lower : "chatapp".toLower = "chatapp" := by
    apply String.toList_injective
    rw [toList_toLower]
    decide
  rw [upper]
  simp [twinCatalog, Catalog.appIndex, lower]

end Policy

end QuartzFire.AppControl
