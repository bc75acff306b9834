import QuartzFire.Services.Reads

/-!
# Saving a geolocation policy

A policy is put in place as the form has it, and the others stay.  So do the
actions.
-/

namespace QuartzFire.Firewall

open ConfigTree

/-! ## What a save is to do -/

def GeoPolicyUpdate.moved (update : GeoPolicyUpdate) : Option Nat :=
  update.originalId.filter (· ≠ update.id)

/-- What the form hands on: texts without blanks around them, the policy that is
edited, and a number that no other has. -/
structure GeoPolicyUpdate.Submitted (existing : List GeoPolicy)
    (update : GeoPolicyUpdate) : Prop where
  action : trimmed update.action = some update.action
  ruleset : trimmed update.ruleset.text = some update.ruleset.text
  known : ∀ id, update.originalId = some id → ∃ known ∈ existing, known.id = id
  free : ∀ known ∈ existing, known.id = update.id →
    update.originalId = some update.id

/-- The policy is put in place, and no action changes. -/
structure GeoPolicyUpdate.Saved [UpperCase] (kinds : Kinds String) (locale : Locale)
    (root : Cfg) (update : GeoPolicyUpdate) : Prop where
  placed : Placed GeoPolicy.id (fetchGeolocation root)
    (fetchGeolocation (executeAll kinds
      (diffGeoPolicy (fetchGeolocation root) update) root))
    update.moved update.id (· = update.desired)
  actions : ∀ action, action ∈ fetchGeoActions locale (executeAll kinds
    (diffGeoPolicy (fetchGeolocation root) update) root) ↔
      action ∈ fetchGeoActions locale root
  targeted : Targeted kinds (diffGeoPolicy (fetchGeolocation root) update) root
  settled : update.moved = none → update.desired ∈ fetchGeolocation root →
    diffGeoPolicy (fetchGeolocation root) update = []

/-! ## The save -/

section Save

variable {update : GeoPolicyUpdate}

abbrev GeoPolicyUpdate.base (update : GeoPolicyUpdate) : Path :=
  policyBase update.id

def GeoPolicyUpdate.live (update : GeoPolicyUpdate)
    (existing : List GeoPolicy) : Option GeoPolicy :=
  if update.moved.isSome then none
  else existing.find? fun policy => policy.id = update.id

def GeoPolicyUpdate.save (existing : List GeoPolicy)
    (update : GeoPolicyUpdate) : RecordSave String :=
  let live := update.live existing
  { old := update.moved.map policyBase
    base := update.base
    isNew := live.isNone
    fields :=
      [(["action"], leafDiff (update.base ++ ["action"])
          ((live.map GeoPolicy.action).map fun text => text)
          (some update.action)),
        (["ruleset"], leafDiff (update.base ++ ["ruleset"])
          ((live.map GeoPolicy.ruleset).map RuleChain.text)
          (some update.ruleset.text)),
        (["rule"], leafDiff (update.base ++ ["rule"])
          ((live.map GeoPolicy.rule).map toString)
          (some (toString update.rule))),
        (["direction"], leafDiff (update.base ++ ["direction"])
          ((live.map GeoPolicy.direction).map GeoDirection.text)
          (some update.direction.text)),
        (["disable"], flagDiff (update.base ++ ["disable"])
          (!(live.map GeoPolicy.enabled).getD true) (!update.enabled))] }

theorem diffGeoPolicy_eq_save (existing : List GeoPolicy) :
    diffGeoPolicy existing update = (update.save existing).commands := by
  have writes : withNode update.base (update.live existing).isNone
      (update.save existing).body = (update.save existing).body := by
    unfold withNode
    refine if_neg ?_
    rintro ⟨new, idle⟩
    rw [Option.isNone_iff_eq_none] at new
    simp [GeoPolicyUpdate.save, RecordSave.body, new, leafDiff,
      QuartzFire.Command.isSet] at idle
  have body : (update.save existing).commands =
      (update.moved.map policyBase).toList.map (fun path => .delete path) ++
        (update.save existing).body := by
    rw [RecordSave.commands]
    exact congrArg _ writes
  have text : ∀ (sub : String) (live : Option String) (wanted : String),
      leafDiff (update.base ++ [sub]) live (some wanted) =
        if some wanted = live then []
        else [.set (policyBase update.id ++ [sub, wanted])] := by
    intro sub live wanted
    rw [leafDiff, List.append_assoc]
    rfl
  have flag : ∀ live : Bool, flagDiff (update.base ++ ["disable"]) (!live)
      (!update.enabled) =
        if update.enabled = live then []
        else if update.enabled then
          [.delete (policyBase update.id ++ ["disable"])]
        else [.set (policyBase update.id ++ ["disable"])] := by
    intro live
    cases live <;> cases update.enabled <;> rfl
  rw [body]
  simp only [GeoPolicyUpdate.save, RecordSave.body, List.flatMap_cons,
    List.flatMap_nil, List.append_nil, text, flag, Option.map_map]
  unfold diffGeoPolicy GeoPolicyUpdate.live GeoPolicyUpdate.moved
  simp only [Option.toList_map, List.map_map, List.append_assoc]
  rfl

variable {kinds : Kinds String} (schema : ServiceSchema kinds)
include schema

theorem GeoPolicyUpdate.proper (existing : List GeoPolicy) :
    (update.save existing).Proper kinds where
  nodes := schema.policy _
  diverge := by
    simp only [GeoPolicyUpdate.save, List.map_cons, List.map_nil]
    decide
  named := by simp [GeoPolicyUpdate.save]
  below := by
    intro path commands member
    simp only [GeoPolicyUpdate.save, List.mem_cons, List.not_mem_nil, or_false,
      Prod.mk.injEq] at member
    rcases member with ⟨rfl, rfl⟩ | ⟨rfl, rfl⟩ | ⟨rfl, rfl⟩ | ⟨rfl, rfl⟩ |
      ⟨rfl, rfl⟩
    · exact below_leafDiff (update.base ++ ["action"]) _ _
    · exact below_leafDiff (update.base ++ ["ruleset"]) _ _
    · exact below_leafDiff (update.base ++ ["rule"]) _ _
    · exact below_leafDiff (update.base ++ ["direction"]) _ _
    · exact below_flagDiff (update.base ++ ["disable"]) _ _
  fresh := by
    intro isNew command member
    have isNew : update.live existing = none :=
      Option.isNone_iff_eq_none.mp isNew
    simp only [GeoPolicyUpdate.save, isNew, RecordSave.body,
      List.flatMap_cons, List.flatMap_nil, List.append_nil, List.mem_append]
      at member
    rcases member with text | text | text | text | flag
    · exact isSet_leafDiff _ text
    · exact isSet_leafDiff _ text
    · exact isSet_leafDiff _ text
    · exact isSet_leafDiff _ text
    · exact isSet_flagDiff _ flag
  apart := by
    rintro path member
    obtain ⟨id, moved, rfl⟩ := Option.map_eq_some_iff.mp member
    exact diverges_numbered
      (of_decide_eq_true (Option.filter_eq_some_iff.mp moved).2)

variable {locale : Locale} {root : Cfg} (conforms : Conforms kinds root)
  (numbered : Numbered geoBase root)
  (submitted : update.Submitted (fetchGeolocation root))
include conforms numbered submitted

omit schema in
theorem GeoPolicyUpdate.live_cases :
    ((subtree update.base root).isSome = true ∧ update.moved = none ∧
        update.live (fetchGeolocation root) =
          some (geoPolicyAt root update.id)) ∨
      (subtree update.base root = none ∧
        update.live (fetchGeolocation root) = none) := by
  rw [GeoPolicyUpdate.live]
  rcases (register_policies kinds).edited_or_new conforms numbered
      submitted.free fun known => decide_eq_true_iff (p := known.id = update.id)
    with ⟨there, kept, found⟩ | ⟨absent, missed⟩
  · have kept : update.moved = none := kept
    refine .inl ⟨there, kept, ?_⟩
    rw [kept, if_neg (by simp), found]
  · exact .inr ⟨absent, by rw [missed, ite_self]⟩

/-- A field reads as desired, written or not. -/
theorem GeoPolicyUpdate.value_after {Value : Type} (field : GeoPolicy → Value)
    (reads : Option String → Value) {text : Value → String}
    (injective : Function.Injective text) {desired : Value}
    (plain : trimmed (text desired) = some (text desired))
    (inverse : reads (some (text desired)) = desired) (key : String)
    (single : ([key], Kind.single) ∈ [(["action"], Kind.single),
      (["ruleset"], .single), (["rule"], .single), (["direction"], .single),
      (["disable"], .valueless)])
    (reading : field (geoPolicyAt root update.id) =
      reads (textAt (update.base ++ [key]) root))
    (member : ([key], leafDiff (update.base ++ [key])
      (((update.live (fetchGeolocation root)).map field).map text)
      (some (text desired))) ∈
        (update.save (fetchGeolocation root)).fields) :
    reads (textAt (update.base ++ [key]) (executeAll kinds
      (update.save (fetchGeolocation root)).commands root)) = desired := by
  have shaped := (schema.policyFields (toString update.id) ([key], .single)
    single).below (schema.policy _)
  refine reads_written injective plain inverse (fun value known => ?_)
    ((update.proper schema _).field_at conforms member
      (yields_leafDiff shaped _ _))
  rcases GeoPolicyUpdate.live_cases conforms numbered submitted with
    ⟨_, _, live⟩ | ⟨_, new⟩
  · rw [live] at known
    rw [← reading]
    exact Option.some.inj known
  · rw [new] at known
    cases known

theorem GeoPolicyUpdate.flag_after :
    (subtree (update.base ++ ["disable"]) (executeAll kinds
      (update.save (fetchGeolocation root)).commands root)).isSome =
      !update.enabled := by
  have shaped := (schema.policyFields (toString update.id)
    (["disable"], .valueless) (by simp)).below (schema.policy _)
  have yields : Yields kinds (update.base ++ ["disable"])
      (subtree (update.base ++ ["disable"]) root) _ _ :=
    yields_flagDiff shaped (!update.enabled)
  have shown : (subtree (update.base ++ ["disable"]) root).isSome =
      !((update.live (fetchGeolocation root)).map
        GeoPolicy.enabled).getD true := by
    rcases GeoPolicyUpdate.live_cases conforms numbered submitted with
      ⟨_, _, live⟩ | ⟨absent, new⟩
    · rw [live]
      simp [geoPolicyAt]
    · rw [new, subtree_append, absent]
      rfl
  rw [shown] at yields
  have member : (["disable"], flagDiff (update.base ++ ["disable"])
      (!((update.live (fetchGeolocation root)).map
        GeoPolicy.enabled).getD true) (!update.enabled)) ∈
      (update.save (fetchGeolocation root)).fields := by
    simp [GeoPolicyUpdate.save]
  exact (update.proper schema _).field_at conforms member yields

theorem GeoPolicyUpdate.read_after :
    geoPolicyAt (executeAll kinds
      (update.save (fetchGeolocation root)).commands root) update.id =
      update.desired := by
  have action := GeoPolicyUpdate.value_after schema conforms numbered submitted
    GeoPolicy.action (fun text => text.getD "") Function.injective_id
    submitted.action rfl "action" (by simp) rfl List.mem_cons_self
  have ruleset := GeoPolicyUpdate.value_after schema conforms numbered submitted
    GeoPolicy.ruleset asRuleset ruleset_text_injective submitted.ruleset
    (asRuleset_text _) "ruleset" (by simp) rfl
    (List.mem_cons_of_mem _ List.mem_cons_self)
  have rule := GeoPolicyUpdate.value_after schema conforms numbered submitted
    GeoPolicy.rule leafNumber (fun _ _ => toString_injective)
    (trimmed_toString update.rule) (ruleNumber_toString _) "rule" (by simp) rfl
    (List.mem_cons_of_mem _ (List.mem_cons_of_mem _ List.mem_cons_self))
  have direction := GeoPolicyUpdate.value_after schema conforms numbered
    submitted GeoPolicy.direction asDirection direction_text_injective
    (trimmed_direction _) (asDirection_text _) "direction" (by simp) rfl
    (List.mem_cons_of_mem _ (List.mem_cons_of_mem _ (List.mem_cons_of_mem _
      List.mem_cons_self)))
  have flag := GeoPolicyUpdate.flag_after schema conforms numbered submitted
  simp only [geoPolicyAt, action, ruleset, rule, direction, flag, Bool.not_not]
  rfl

theorem GeoPolicyUpdate.placed :
    Placed GeoPolicy.id (fetchGeolocation root)
      (fetchGeolocation (executeAll kinds
        (diffGeoPolicy (fetchGeolocation root) update) root))
      update.moved update.id (· = update.desired) := by
  have proper := update.proper schema (fetchGeolocation root)
  rw [diffGeoPolicy_eq_save]
  refine ((register_policies kinds).placed_iff conforms numbered
    conforms.executeAll (numbered.executeAll fun key odd => ?_) ?_ ?_ ?_).mpr
    (GeoPolicyUpdate.read_after schema conforms numbered submitted)
  · refine proper.elsewhere (diverges_odd odd _ []) fun path member => ?_
    obtain ⟨id, _, rfl⟩ := Option.map_eq_some_iff.mp member
    exact diverges_odd odd id []
  · intro other differs stays
    refine Spares.subtree_eq (proper.elsewhere
      (diverges_numbered differs.symm) fun path member => ?_) root
    obtain ⟨id, moved, rfl⟩ := Option.map_eq_some_iff.mp member
    exact diverges_numbered fun same => stays (same ▸ moved)
  · intro other _ moved
    exact proper.gone (Option.mem_map_of_mem policyBase moved)
      (List.prefix_refl _)
  · refine proper.present conforms fun known => ?_
    rcases GeoPolicyUpdate.live_cases conforms numbered submitted with
      ⟨there, _⟩ | ⟨_, new⟩
    · exact there
    · simp [GeoPolicyUpdate.save, new] at known

theorem GeoPolicyUpdate.targeted :
    Targeted kinds (diffGeoPolicy (fetchGeolocation root) update) root := by
  rw [diffGeoPolicy_eq_save]
  refine (update.proper schema _).targeted conforms ?_ ?_
  · intro path member
    obtain ⟨id, moved, rfl⟩ := Option.map_eq_some_iff.mp member
    obtain ⟨known, listed, rfl⟩ := submitted.known id
      (Option.filter_eq_some_iff.mp moved).1
    exact ((register_policies kinds).reads conforms numbered).listed_of_mem
      listed rfl
  · intro path commands member
    simp only [GeoPolicyUpdate.save, List.mem_cons, List.not_mem_nil, or_false,
      Prod.mk.injEq] at member
    rcases member with ⟨rfl, rfl⟩ | ⟨rfl, rfl⟩ | ⟨rfl, rfl⟩ | ⟨rfl, rfl⟩ |
      ⟨rfl, rfl⟩
    · exact targets_leafDiff fun none => by cases none
    · exact targets_leafDiff fun none => by cases none
    · exact targets_leafDiff fun none => by cases none
    · exact targets_leafDiff fun none => by cases none
    · rcases GeoPolicyUpdate.live_cases conforms numbered submitted with
        ⟨_, _, live⟩ | ⟨absent, new⟩
      · have shown : (!((update.live (fetchGeolocation root)).map
            GeoPolicy.enabled).getD true) =
            (subtree (update.base ++ ["disable"]) root).isSome := by
          rw [live]
          simp [geoPolicyAt]
        rw [shown]
        exact targets_flagDiff _
      · rw [new]
        exact .ofSets fun command inside => isSet_flagDiff command inside

omit schema in
theorem GeoPolicyUpdate.settled (stays : update.moved = none)
    (member : update.desired ∈ fetchGeolocation root) :
    diffGeoPolicy (fetchGeolocation root) update = [] := by
  have reads := (register_policies kinds).reads conforms numbered
  rcases GeoPolicyUpdate.live_cases conforms numbered submitted with
    ⟨_, _, live⟩ | ⟨absent, _⟩
  · have same : geoPolicyAt root update.id = update.desired :=
      reads.eq_read member rfl
    rw [same] at live
    rw [diffGeoPolicy_eq_save, RecordSave.commands]
    simp [GeoPolicyUpdate.save, RecordSave.body, stays, live,
      GeoPolicyUpdate.desired, leafDiff_self, flagDiff_self, withNode]
  · have listed := reads.listed_of_mem member rfl
    have base : policyBase update.desired.id = update.base := rfl
    rw [base, absent] at listed
    cases listed

theorem GeoPolicyUpdate.saved [UpperCase] : update.Saved kinds locale root where
  placed := GeoPolicyUpdate.placed schema conforms numbered submitted
  actions := by
    rw [diffGeoPolicy_eq_save]
    refine (register_actions kinds locale).mem_congr conforms trivial
      conforms.executeAll trivial fun name => ?_
    have apart : ∀ id, Diverges (policyBase id) (actionBase name) := by
      intro id
      have diverges := (diverges_action_policy name (toString id) [] []).symm
      rwa [List.append_nil] at diverges
    refine ((update.proper schema _).elsewhere (apart _)
      fun path member => ?_).subtree_eq root
    obtain ⟨id, _, rfl⟩ := Option.map_eq_some_iff.mp member
    exact apart id
  targeted := GeoPolicyUpdate.targeted schema conforms numbered submitted
  settled := GeoPolicyUpdate.settled conforms numbered submitted

end Save

end QuartzFire.Firewall
