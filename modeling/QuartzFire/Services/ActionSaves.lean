import QuartzFire.Services.Reads

/-!
# Saving a geolocation action

An action is put in place as the form has it, and the policies of one that is
renamed follow.  In place it is exactly when the countries that go are stored in
upper case, and a leaf for unknown addresses that is deleted is there.
-/

namespace QuartzFire.Firewall

open ConfigTree

/-! ## What a save is to do -/

section Saves

variable [UpperCase]

/-- The countries are a set. -/
structure GeoActionUpdate.Shows (update : GeoActionUpdate)
    (action : GeoAction) : Prop where
  description : action.description = update.description.bind trimmed
  mode : action.mode = some update.mode
  countries : ∀ country, country ∈ action.countries ↔
    country ∈ update.newCountries
  unknownIp : action.unknownIp = update.unknownIp
  log : action.log = update.log

/-- A policy of the action goes with its name. -/
def GeoActionUpdate.follow (update : GeoActionUpdate) (policy : GeoPolicy) :
    GeoPolicy :=
  if update.moved = some policy.action then
    { policy with action := update.name }
  else policy

/-- What the form hands on: a name that no other action has, and the action that
is edited. -/
structure GeoActionUpdate.Submitted (existing : List GeoAction)
    (update : GeoActionUpdate) : Prop where
  named : isGeoActionName update.name = true
  known : ∀ name, update.originalName = some name →
    ∃ known ∈ existing, known.name = name
  free : ∀ known ∈ existing, known.name = update.name →
    update.originalName = some update.name

abbrev GeoActionUpdate.commands (locale : Locale) (root : Cfg)
    (update : GeoActionUpdate) : List VyosCommand :=
  diffGeoAction (fetchGeoActions locale root) (fetchGeolocation root) update

/-- The action is put in place and each policy names the action it named. -/
structure GeoActionUpdate.Saved (kinds : Kinds String) (locale : Locale)
    (root : Cfg) (update : GeoActionUpdate) : Prop where
  placed : Placed GeoAction.name (fetchGeoActions locale root)
    (fetchGeoActions locale (executeAll kinds (update.commands locale root)
      root)) update.moved update.name update.Shows
  attached : ∀ policy, policy ∈ fetchGeolocation (executeAll kinds
    (update.commands locale root) root) ↔
      ∃ old ∈ fetchGeolocation root, update.follow old = policy
  targeted : Targeted kinds (update.commands locale root) root
  settled : update.moved = none → ∀ action ∈ fetchGeoActions locale root,
    action.name = update.name → update.Shows action →
      update.commands locale root = []

abbrev GeoActionUpdate.base (update : GeoActionUpdate) : Path :=
  actionBase update.name

/-- The countries that go are stored in upper case; and where unknown addresses
were and stay allowed, the leaf that says so is there, and something else
changes. -/
structure GeoActionUpdate.Effective (root : Cfg) (update : GeoActionUpdate) :
    Prop where
  countries : ∀ country ∈ leafValues
      (subtree (update.base ++ ["country"]) root),
    upper country ∉ update.newCountries → upper country = country
  unknownIp : (subtree update.base root).isSome = true →
    (geoActionAt root update.name).unknownIp = .allow →
      update.unknownIp = .allow →
        (subtree (update.base ++ ["unknown-ip"]) root).isSome = true ∧
          ¬ update.Shows (geoActionAt root update.name)

end Saves

/-! ## Countries -/

section Countries

variable [UpperCase]

/-- The stored countries come out as wanted, shown in upper case, exactly if
those that go are stored as they are shown. -/
theorem countries_iff {stored wanted : List String}
    (raised : ∀ country ∈ wanted, upper country = country) :
    (∀ country,
      (∃ text, (text ∉ (stored.map upper).filter (· ∉ wanted) ∧
        (text ∈ wanted.filter (· ∉ stored.map upper) ∨ text ∈ stored)) ∧
          upper text = country) ↔ country ∈ wanted) ↔
      ∀ country ∈ stored, upper country ∉ wanted → upper country = country := by
  simp only [List.mem_filter, List.mem_map, decide_eq_true_eq, not_and, not_not]
  constructor
  · intro exact' country member unwanted
    by_contra lower
    have kept := (exact' (upper country)).mp ⟨country, ⟨?_, .inr member⟩, rfl⟩
    · exact unwanted kept
    · rintro ⟨other, _, rfl⟩
      exact absurd (upper_upper other) lower
  · intro whole country
    constructor
    · rintro ⟨text, ⟨kept, new | member⟩, rfl⟩
      · rw [raised text new.1]
        exact new.1
      · by_contra unwanted
        have same := whole text member unwanted
        rw [same] at unwanted
        exact unwanted (kept ⟨text, member, same⟩)
    · intro wanted'
      by_cases shown : ∃ text ∈ stored, upper text = country
      · obtain ⟨text, member, same⟩ := shown
        refine ⟨text, ⟨?_, .inr member⟩, same⟩
        rintro ⟨other, _, rfl⟩
        rwa [← same, upper_upper] at wanted'
      · refine ⟨country, ⟨fun _ => wanted', .inl ⟨wanted', ?_⟩⟩,
          raised country wanted'⟩
        exact shown

theorem nodup_removed {stored wanted : List String} (distinct : stored.Nodup)
    (whole : ∀ country ∈ stored, upper country ∉ wanted →
      upper country = country) :
    ((stored.map upper).filter (· ∉ wanted)).Nodup ∧
      ∀ country ∈ (stored.map upper).filter (· ∉ wanted), country ∈ stored := by
  have same : (stored.map upper).filter (· ∉ wanted) =
      stored.filter fun country => upper country ∉ wanted := by
    rw [List.filter_map]
    conv_rhs => rw [← List.map_id (stored.filter _)]
    refine List.map_congr_left fun country member => ?_
    obtain ⟨inside, unwanted⟩ := List.mem_filter.mp member
    exact whole country inside (of_decide_eq_true unwanted)
  rw [same]
  exact ⟨distinct.filter _, fun country member => (List.mem_filter.mp member).1⟩

end Countries

/-! ## The save -/

section Save

variable [UpperCase] {update : GeoActionUpdate}

def GeoActionUpdate.live (update : GeoActionUpdate)
    (existing : List GeoAction) : Option GeoAction :=
  if update.moved.isSome then none
  else existing.find? fun action => action.name = update.name

/-- The old node goes and the policies are repointed before anything else. -/
def GeoActionUpdate.renames (policies : List GeoPolicy)
    (update : GeoActionUpdate) : List VyosCommand :=
  update.moved.toList.flatMap fun old =>
    .delete (actionBase old) :: repoint policies old update.name

def GeoActionUpdate.unknownText (update : GeoActionUpdate) : Option String :=
  if update.unknownIp = .block then some "block" else none

def GeoActionUpdate.save (existing : List GeoAction)
    (update : GeoActionUpdate) : RecordSave String :=
  let live := update.live existing
  { old := none
    base := update.base
    isNew := live.isNone
    fields :=
      [(["description"], leafDiff (update.base ++ ["description"])
          (live.bind GeoAction.description)
          (update.description.bind trimmed)),
        (["mode"], leafDiff (update.base ++ ["mode"])
          ((live.bind GeoAction.mode).map GeoMode.text)
          (some update.mode.text)),
        (["unknown-ip"], leafDiff (update.base ++ ["unknown-ip"])
          (live.map fun live => live.unknownIp.text) update.unknownText),
        (["country"], diffLeaf (update.base ++ ["country"])
          ((live.map GeoAction.countries).getD []) update.newCountries),
        (["log"], flagDiff (update.base ++ ["log"])
          ((live.map GeoAction.log).getD false) update.log)] }

theorem diffGeoAction_eq (existing : List GeoAction)
    (policies : List GeoPolicy) :
    diffGeoAction existing policies update =
      update.renames policies ++ (update.save existing).commands := by
  have writes : withNode update.base (update.live existing).isNone
      (update.save existing).body = (update.save existing).body := by
    unfold withNode
    refine if_neg ?_
    rintro ⟨new, idle⟩
    rw [Option.isNone_iff_eq_none] at new
    simp [GeoActionUpdate.save, RecordSave.body, new, leafDiff,
      QuartzFire.Command.isSet] at idle
  have body : (update.save existing).commands = (update.save existing).body :=
    writes
  rw [body]
  simp only [GeoActionUpdate.save, RecordSave.body, List.flatMap_cons,
    List.flatMap_nil, List.append_nil]
  unfold diffGeoAction GeoActionUpdate.live GeoActionUpdate.renames
    GeoActionUpdate.unknownText
  simp only [List.append_assoc]

variable {kinds : Kinds String} (schema : ServiceSchema kinds)
include schema

theorem GeoActionUpdate.proper (existing : List GeoAction) :
    (update.save existing).Proper kinds where
  nodes := schema.action _
  diverge := by
    simp only [GeoActionUpdate.save, List.map_cons, List.map_nil]
    decide
  named := by simp [GeoActionUpdate.save]
  below := by
    intro path commands member
    simp only [GeoActionUpdate.save, List.mem_cons, List.not_mem_nil, or_false,
      Prod.mk.injEq] at member
    rcases member with ⟨rfl, rfl⟩ | ⟨rfl, rfl⟩ | ⟨rfl, rfl⟩ | ⟨rfl, rfl⟩ |
      ⟨rfl, rfl⟩
    · exact below_leafDiff (update.base ++ ["description"]) _ _
    · exact below_leafDiff (update.base ++ ["mode"]) _ _
    · exact below_leafDiff (update.base ++ ["unknown-ip"]) _ _
    · exact below_diffLeaf (update.base ++ ["country"]) _ _
    · exact below_flagDiff (update.base ++ ["log"]) _ _
  fresh := by
    intro isNew command member
    have isNew : update.live existing = none :=
      Option.isNone_iff_eq_none.mp isNew
    simp only [GeoActionUpdate.save, isNew, RecordSave.body,
      List.flatMap_cons, List.flatMap_nil, List.append_nil, List.mem_append]
      at member
    rcases member with text | text | text | listed | flag
    · exact isSet_leafDiff _ text
    · exact isSet_leafDiff _ text
    · exact isSet_leafDiff _ text
    · exact isSet_diffLeaf _ listed
    · exact isSet_flagDiff _ flag
  apart := by
    intro path member
    cases member

/-! ### Renaming -/

omit [UpperCase] schema in
theorem GeoActionUpdate.spares_renames (policies : List GeoPolicy)
    (more : Path) : Spares (update.base ++ more) (update.renames policies) := by
  refine .flatMap fun old moved => .cons ?_ (.map fun policy _ => ?_)
  · have different : old ≠ update.name := of_decide_eq_true
      (Option.filter_eq_some_iff.mp (Option.mem_toList.mp moved)).2
    have apart := (@diverges_named geoActions _ _ different []).append [] more
    rwa [List.append_nil] at apart
  · have apart := diverges_action_policy update.name (toString policy.id) more
      ["action", update.name]
    exact apart.symm

omit [UpperCase] schema in
theorem GeoActionUpdate.renames_eq (policies : List GeoPolicy) {old : String}
    (moved : update.moved = some old) :
    update.renames policies =
      .delete (actionBase old) :: repoint policies old update.name := by
  rw [GeoActionUpdate.renames, moved]
  simp

omit [UpperCase] in
/-- A leaf that is set to one text, perhaps again and again, holds it. -/
theorem yields_repoint {policies : List GeoPolicy} {policy : GeoPolicy}
    (member : policy ∈ policies) (new : String) {start : Option Cfg} :
    Yields kinds (policyBase policy.id ++ ["action"]) start
      (· = some (.value new)) (repoint policies policy.action new) := by
  intro root conforms found
  clear found
  have shaped := (schema.policyFields (toString policy.id)
    (["action"], .single) (by simp)).kind
  have written : policy ∈ policies.filter (fun other =>
      other.action = policy.action) ∨
      subtree (policyBase policy.id ++ ["action"]) root = some (.value new) :=
    .inl (List.mem_filter.mpr ⟨member, by simp⟩)
  rw [repoint]
  generalize policies.filter (fun other => other.action = policy.action) = named
    at written
  induction named generalizing root with
  | nil => exact written.resolve_left List.not_mem_nil
  | cons other named ih =>
      rw [List.map_cons, executeAll, List.foldl_cons]
      refine ih _ conforms.execute ?_
      by_cases same : other.id = policy.id
      · have sets := conforms.subtree_set_single
          (schema.policy (toString policy.id)) shaped new
        rw [List.append_assoc] at sets
        rw [same]
        exact .inr sets
      · refine written.imp (fun among => ?_) fun held => ?_
        · refine (List.mem_cons.mp among).resolve_left ?_
          rintro rfl
          exact same rfl
        · have apart : Diverges
              (QuartzFire.Command.set (policyBase other.id ++ ["action", new])).path
              (policyBase policy.id ++ ["action"]) :=
            (@diverges_numbered geoBase _ _ same).append _ _
          rw [subtree_execute_of_diverges apart, held]

variable {locale : Locale} {root : Cfg} (conforms : Conforms kinds root)
include conforms

variable (numbered : Numbered geoBase root)

include numbered

omit conforms numbered in
/-- What an action's save writes below its own node is at no policy. -/
theorem GeoActionUpdate.spares_save (existing : List GeoAction) (id : Nat)
    (more : Path) :
    Spares (policyBase id ++ more) (update.save existing).commands := by
  refine (update.proper schema existing).elsewhere ?_ fun path member => by
    cases member
  have apart := diverges_action_policy update.name (toString id) [] more
  rwa [List.append_nil] at apart

omit [UpperCase] schema conforms numbered in
theorem spares_delete_action (old : String) (id : Nat) (more : Path) :
    Spares (policyBase id ++ more) [.delete (actionBase old)] := by
  refine .single ?_
  have apart := diverges_action_policy old (toString id) [] more
  rwa [List.append_nil] at apart

omit conforms numbered in
/-- A policy that nothing repoints is as it was. -/
theorem GeoActionUpdate.spares_policy {policies : List GeoPolicy}
    {existing : List GeoAction} {id : Nat}
    (others : ∀ policy ∈ policies, update.moved = some policy.action →
      policy.id ≠ id) :
    Spares (policyBase id) (diffGeoAction existing policies update) := by
  have saved := update.spares_save schema existing id []
  rw [List.append_nil] at saved
  rw [diffGeoAction_eq]
  refine .append ?_ saved
  cases moved : update.moved with
  | none =>
      rw [GeoActionUpdate.renames, moved]
      exact .nil
  | some old =>
      have deleted := spares_delete_action old id []
      rw [List.append_nil] at deleted
      rw [update.renames_eq policies moved]
      refine .append deleted (.map fun policy member => ?_)
      obtain ⟨among, named⟩ := List.mem_filter.mp member
      have apart := (@diverges_numbered geoBase _ _ (others policy among
        (by rw [moved, of_decide_eq_true named]))).append
          ["action", update.name] []
      rwa [List.append_nil] at apart

/-- A policy of the action that is renamed follows. -/
theorem GeoActionUpdate.repointed {existing : List GeoAction}
    {policy : GeoPolicy} (member : policy ∈ fetchGeolocation root)
    (moved : update.moved = some policy.action)
    (trims : trimmed update.name = some update.name) :
    (subtree (policyBase policy.id) (executeAll kinds
      (diffGeoAction existing (fetchGeolocation root) update) root)).isSome =
        true ∧
    geoPolicyAt (executeAll kinds
      (diffGeoAction existing (fetchGeolocation root) update) root) policy.id =
      { policy with action := update.name } := by
  have commands : diffGeoAction existing (fetchGeolocation root) update =
      [.delete (actionBase policy.action)] ++
        repoint (fetchGeolocation root) policy.action update.name ++
        (update.save existing).commands := by
    rw [diffGeoAction_eq, update.renames_eq _ moved]
    rfl
  have reads := (register_policies kinds).reads conforms numbered
  have before : geoPolicyAt root policy.id = policy := reads.eq_read member rfl
  have action : subtree (policyBase policy.id ++ ["action"]) (executeAll kinds
      (diffGeoAction existing (fetchGeolocation root) update) root) =
      some (.value update.name) := by
    rw [commands]
    exact Yields.within (spares_delete_action policy.action policy.id _)
      (yields_repoint schema member update.name)
      (update.spares_save schema existing policy.id _) root conforms rfl
  have others : ∀ leaf, leaf ≠ "action" →
      subtree (policyBase policy.id ++ [leaf]) (executeAll kinds
        (diffGeoAction existing (fetchGeolocation root) update) root) =
      subtree (policyBase policy.id ++ [leaf]) root := by
    intro leaf different
    refine Spares.subtree_eq ?_ root
    rw [commands]
    refine .append (.append (spares_delete_action policy.action policy.id _)
      (.map fun other _ => ?_)) (update.spares_save schema existing policy.id _)
    by_cases same : other.id = policy.id
    · show Diverges (policyBase other.id ++ ["action", update.name]) _
      rw [same, diverges_append_left]
      have apart : Diverges ["action"] [leaf] :=
        diverges_of_length rfl (by simpa using different.symm)
      have longer := apart.append [update.name] []
      rwa [List.append_nil] at longer
    · exact (@diverges_numbered geoBase _ _ same).append _ _
  constructor
  · rw [subtree_append] at action
    obtain ⟨node, found, _⟩ := Option.bind_eq_some_iff.mp action
    rw [found]
    rfl
  · conv_rhs => rw [← before]
    simp only [geoPolicyAt, textAt_of_value action, trims, Option.getD_some,
      textAt_congr (others "ruleset" (by decide)),
      textAt_congr (others "rule" (by decide)),
      textAt_congr (others "direction" (by decide)),
      others "disable" (by decide)]

theorem GeoActionUpdate.attached {existing : List GeoAction}
    (trims : trimmed update.name = some update.name) (policy : GeoPolicy) :
    policy ∈ fetchGeolocation (executeAll kinds
        (diffGeoAction existing (fetchGeolocation root) update) root) ↔
      ∃ old ∈ fetchGeolocation root, update.follow old = policy := by
  have tidy : Numbered geoBase (executeAll kinds
      (diffGeoAction existing (fetchGeolocation root) update) root) := by
    refine numbered.executeAll fun key odd => ?_
    rw [diffGeoAction_eq]
    have apart : ∀ name, Diverges (actionBase name) (geoBase ++ [key]) := by
      intro name
      have diverges := diverges_action_policy name key [] []
      rwa [List.append_nil] at diverges
    refine .append (.flatMap fun old _ => .cons (apart old)
      (.map fun policy _ => @diverges_odd geoBase _ odd policy.id
        ["action", update.name])) ?_
    exact (update.proper schema existing).elsewhere (apart update.name)
      fun path member => by cases member
  have before := (register_policies kinds).reads conforms numbered
  have after := (register_policies kinds).reads conforms.executeAll tidy
  have repointed := fun {old} => @GeoActionUpdate.repointed _ update kinds schema
    root conforms numbered existing old
  by_cases follows : ∃ old ∈ fetchGeolocation root,
      update.moved = some old.action ∧ old.id = policy.id
  · obtain ⟨old, member, moved, same⟩ := follows
    obtain ⟨there, reads⟩ := repointed member moved trims
    have followed : update.follow old = { old with action := update.name } :=
      if_pos moved
    rw [after.mem, ← same, reads, and_iff_right there, ← followed]
    constructor
    · exact fun equal => ⟨old, member, equal⟩
    · rintro ⟨other, among, rfl⟩
      have key : other.id = old.id := by
        rw [same]
        unfold GeoActionUpdate.follow
        split <;> rfl
      rw [← before.eq_read member rfl, ← key, before.eq_read among rfl]
  · have spared := @GeoActionUpdate.spares_policy _ update kinds schema
      (fetchGeolocation root) existing policy.id fun old member moved same =>
        follows ⟨old, member, moved, same⟩
    have kept := @Spares.subtree_eq _ _ kinds _ _ spared root
    rw [after.mem, kept, geoPolicyAt_congr kept, ← before.mem]
    constructor
    · intro member
      refine ⟨policy, member, if_neg fun moved => ?_⟩
      exact follows ⟨policy, member, moved, rfl⟩
    · rintro ⟨old, member, rfl⟩
      by_cases moved : update.moved = some old.action
      · refine absurd ⟨old, member, moved, ?_⟩ follows
        rw [GeoActionUpdate.follow, if_pos moved]
      · rw [GeoActionUpdate.follow, if_neg moved]
        exact member

end Save

/-! ### The action -/

theorem mode_text_injective : Function.Injective GeoMode.text := by
  intro left right same
  cases left <;> cases right <;> first | rfl | exact absurd same (by decide)

theorem asMode_text (mode : GeoMode) : asMode (some mode.text) = some mode := by
  cases mode <;> decide

theorem trimmed_mode (mode : GeoMode) : trimmed mode.text = some mode.text := by
  cases mode <;> decide

section Action

variable [UpperCase] {update : GeoActionUpdate} {kinds : Kinds String}
  (schema : ServiceSchema kinds) {locale : Locale} {root : Cfg}
  (conforms : Conforms kinds root)
  (submitted : update.Submitted (fetchGeoActions locale root))
include schema conforms submitted

omit schema in
theorem GeoActionUpdate.live_cases :
    ((subtree update.base root).isSome = true ∧ update.moved = none ∧
        update.live (fetchGeoActions locale root) =
          some (geoActionAt root update.name)) ∨
      (subtree update.base root = none ∧
        update.live (fetchGeoActions locale root) = none) := by
  rw [GeoActionUpdate.live]
  rcases (register_actions kinds locale).edited_or_new conforms trivial
      submitted.free fun known =>
        decide_eq_true_iff (p := known.name = update.name)
    with ⟨there, kept, found⟩ | ⟨absent, missed⟩
  · have kept : update.moved = none := kept
    refine .inl ⟨there, kept, ?_⟩
    rw [kept, if_neg (by simp), found]
  · exact .inr ⟨absent, by rw [missed, ite_self]⟩

omit submitted in
/-- A field holds what its own commands make of it. -/
theorem GeoActionUpdate.field_after {mark : Option Cfg → Prop}
    {commands : List VyosCommand} {path : Path}
    (member : (path, commands) ∈
      (update.save (fetchGeoActions locale root)).fields)
    (yields : Yields kinds (update.base ++ path)
      (subtree (update.base ++ path) root) mark commands) :
    mark (subtree (update.base ++ path)
      (executeAll kinds (update.commands locale root) root)) := by
  have start : subtree (update.base ++ path) (executeAll kinds
      (update.renames (fetchGeolocation root)) root) =
      subtree (update.base ++ path) root :=
    (update.spares_renames (fetchGeolocation root) path).subtree_eq root
  rw [← start] at yields
  rw [GeoActionUpdate.commands, diffGeoAction_eq, executeAll_append]
  exact (update.proper schema _).field_at conforms.executeAll member yields

omit submitted in
/-- A text reads as wanted, written or not. -/
theorem GeoActionUpdate.text_after {Value : Type} (reads : Option String → Value)
    {live wanted : Option String} {value : Value} (key : String)
    (single : ([key], Kind.single) ∈ [(["description"], Kind.single),
      (["mode"], .single), (["unknown-ip"], .single), (["country"], .multi),
      (["log"], .valueless)])
    (member : ([key], leafDiff (update.base ++ [key]) live wanted) ∈
      (update.save (fetchGeoActions locale root)).fields)
    (trims : wanted.bind trimmed = wanted)
    (kept : wanted = live →
      reads (textAt (update.base ++ [key]) root) = value)
    (written : reads wanted = value) :
    reads (textAt (update.base ++ [key])
      (executeAll kinds (update.commands locale root) root)) = value := by
  have shaped := (schema.actionFields update.name ([key], .single)
    single).below (schema.action _)
  have text := textAt_written trims (GeoActionUpdate.field_after schema conforms
    member (yields_leafDiff shaped live wanted))
  rw [text]
  split
  · rename_i same
    exact kept same
  · exact written

theorem GeoActionUpdate.texts_after :
    (geoActionAt (executeAll kinds (update.commands locale root) root)
        update.name).description = update.description.bind trimmed ∧
      (geoActionAt (executeAll kinds (update.commands locale root) root)
        update.name).mode = some update.mode ∧
      (geoActionAt (executeAll kinds (update.commands locale root) root)
        update.name).unknownIp = update.unknownIp := by
  have cases' := GeoActionUpdate.live_cases conforms submitted
  have absent : ∀ more, subtree update.base root = none →
      textAt (update.base ++ more) root = none := by
    intro more none'
    rw [textAt, subtree_append, none']
    rfl
  refine ⟨?_, ?_, ?_⟩
  · refine GeoActionUpdate.text_after schema conforms (fun text => text)
      "description" (by simp) List.mem_cons_self ?_ (fun same => ?_) rfl
    · cases read : update.description.bind trimmed with
      | none => rfl
      | some text =>
          obtain ⟨_, _, trims⟩ := Option.bind_eq_some_iff.mp read
          rw [Option.bind_some]
          exact trimmed_trimmed trims
    · rw [same]
      rcases cases' with ⟨_, _, live⟩ | ⟨gone, new⟩
      · rw [live]
        rfl
      · rw [new, absent _ gone]
        rfl
  · refine GeoActionUpdate.text_after schema conforms asMode "mode" (by simp)
      (List.mem_cons_of_mem _ List.mem_cons_self)
      (by rw [Option.bind_some, trimmed_mode]) (fun same => ?_)
      (asMode_text _)
    obtain ⟨mode, known, equal⟩ := Option.map_eq_some_iff.mp same.symm
    rcases cases' with ⟨_, _, live⟩ | ⟨_, new⟩
    · rw [live, Option.bind_some] at known
      rw [← mode_text_injective equal, ← known]
      rfl
    · rw [new] at known
      cases known
  · refine GeoActionUpdate.text_after schema conforms asUnknown "unknown-ip"
      (by simp) (List.mem_cons_of_mem _ (List.mem_cons_of_mem _
        List.mem_cons_self)) ?_ (fun same => ?_) ?_
    · rw [GeoActionUpdate.unknownText]
      split <;> decide
    · rw [GeoActionUpdate.unknownText] at same
      rcases cases' with ⟨_, _, live⟩ | ⟨gone, new⟩
      · have shown : (geoActionAt root update.name).unknownIp =
            asUnknown (textAt (update.base ++ ["unknown-ip"]) root) := rfl
        rw [← shown]
        rw [live, Option.map_some] at same
        revert same
        cases (geoActionAt root update.name).unknownIp <;>
          cases update.unknownIp <;> decide
      · rw [absent _ gone]
        rw [new] at same
        revert same
        cases update.unknownIp <;> decide
    · rw [GeoActionUpdate.unknownText]
      cases update.unknownIp <;> decide

omit schema in
/-- The countries that are known are those stored, in upper case. -/
theorem GeoActionUpdate.stored :
    ((update.live (fetchGeoActions locale root)).map
        GeoAction.countries).getD [] =
      (leafValues (subtree (update.base ++ ["country"]) root)).map upper := by
  rcases GeoActionUpdate.live_cases conforms submitted with
    ⟨_, _, live⟩ | ⟨absent, new⟩
  · rw [live]
    rfl
  · rw [new, subtree_append, absent]
    rfl

omit schema in
theorem GeoActionUpdate.logged :
    ((update.live (fetchGeoActions locale root)).map GeoAction.log).getD false =
      (subtree (update.base ++ ["log"]) root).isSome := by
  rcases GeoActionUpdate.live_cases conforms submitted with
    ⟨_, _, live⟩ | ⟨absent, new⟩
  · rw [live]
    rfl
  · rw [new, subtree_append, absent]
    rfl

omit conforms schema submitted in
theorem GeoActionUpdate.raised (update : GeoActionUpdate) :
    ∀ country ∈ update.newCountries, upper country = country := by
  intro country member
  rw [GeoActionUpdate.newCountries, mem_distinct, List.mem_map] at member
  obtain ⟨typed, _, rfl⟩ := member
  exact upper_upper _

theorem GeoActionUpdate.countries_after :
    (∀ country, country ∈ (geoActionAt (executeAll kinds
        (update.commands locale root) root) update.name).countries ↔
      country ∈ update.newCountries) ↔
      ∀ country ∈ leafValues (subtree (update.base ++ ["country"]) root),
        upper country ∉ update.newCountries → upper country = country := by
  have shaped := (schema.actionFields update.name (["country"], .multi)
    (by simp)).below (schema.action _)
  have member : (["country"], diffLeaf (update.base ++ ["country"])
      (((update.live (fetchGeoActions locale root)).map
        GeoAction.countries).getD []) update.newCountries) ∈
      (update.save (fetchGeoActions locale root)).fields := by
    simp [GeoActionUpdate.save]
  have held := GeoActionUpdate.field_after schema conforms member
    ((valueSet_of_field shaped).exchange _ _)
  rw [GeoActionUpdate.stored conforms submitted] at held
  rw [← countries_iff update.raised]
  refine forall_congr' fun country => iff_congr ?_ Iff.rfl
  rw [geoActionAt, List.mem_map]
  exact exists_congr fun text => and_congr_left' (held text)

theorem GeoActionUpdate.log_after :
    (geoActionAt (executeAll kinds (update.commands locale root) root)
      update.name).log = update.log := by
  have shaped := (schema.actionFields update.name (["log"], .valueless)
    (by simp)).below (schema.action _)
  have yields : Yields kinds (update.base ++ ["log"])
      (subtree (update.base ++ ["log"]) root) _ _ :=
    yields_flagDiff shaped update.log
  rw [← GeoActionUpdate.logged conforms submitted] at yields
  have member : (["log"], flagDiff (update.base ++ ["log"])
      (((update.live (fetchGeoActions locale root)).map
        GeoAction.log).getD false) update.log) ∈
      (update.save (fetchGeoActions locale root)).fields := by
    simp [GeoActionUpdate.save]
  exact GeoActionUpdate.field_after schema conforms member yields

theorem GeoActionUpdate.placed_iff :
    Placed GeoAction.name (fetchGeoActions locale root)
        (fetchGeoActions locale (executeAll kinds
          (update.commands locale root) root))
        update.moved update.name update.Shows ↔
      ∀ country ∈ leafValues (subtree (update.base ++ ["country"]) root),
        upper country ∉ update.newCountries → upper country = country := by
  have proper := update.proper schema (fetchGeoActions locale root)
  have elsewhere : ∀ other, other ≠ update.name →
      subtree (actionBase other) (executeAll kinds
        (update.save (fetchGeoActions locale root)).commands
        (executeAll kinds (update.renames (fetchGeolocation root)) root)) =
      subtree (actionBase other) (executeAll kinds
        (update.renames (fetchGeolocation root)) root) := by
    intro other differs
    refine Spares.subtree_eq (proper.elsewhere
      (diverges_named differs.symm []) fun path member => ?_) _
    cases member
  have repoints : ∀ other old, Spares (actionBase other)
      (repoint (fetchGeolocation root) old update.name) := by
    intro other old
    refine .map fun policy _ => ?_
    have apart := diverges_action_policy other (toString policy.id) []
      ["action", update.name]
    rw [List.append_nil] at apart
    exact apart.symm
  have texts := GeoActionUpdate.texts_after schema conforms submitted
  have log := GeoActionUpdate.log_after schema conforms submitted
  rw [(register_actions kinds locale).placed_iff conforms trivial
    conforms.executeAll trivial, ← GeoActionUpdate.countries_after schema
      conforms submitted]
  · constructor
    · exact fun shows => shows.countries
    · exact fun countries => ⟨texts.1, texts.2.1, countries, texts.2.2, log⟩
  · intro other differs stays
    rw [GeoActionUpdate.commands, diffGeoAction_eq, executeAll_append,
      elsewhere other differs]
    refine Spares.subtree_eq (.flatMap fun old moved => .cons ?_
      (repoints other old)) root
    refine diverges_named (fun same => stays ?_) []
    rw [← same]
    exact Option.mem_toList.mp moved
  · intro other differs moved
    rw [GeoActionUpdate.commands, diffGeoAction_eq, executeAll_append,
      elsewhere other differs, update.renames_eq _ moved, executeAll,
      List.foldl_cons]
    refine ((repoints other other).subtree_eq _).trans ?_
    exact subtree_delete_below (by simp [actionBase]) (List.prefix_refl _) root
  · have start : subtree update.base (executeAll kinds
        (update.renames (fetchGeolocation root)) root) =
        subtree update.base root := by
      have spared := update.spares_renames (fetchGeolocation root) []
      rw [List.append_nil] at spared
      exact @Spares.subtree_eq _ _ kinds _ _ spared root
    rw [GeoActionUpdate.commands, diffGeoAction_eq, executeAll_append]
    refine proper.present conforms.executeAll fun known => ?_
    have there : (subtree update.base root).isSome = true := by
      rcases GeoActionUpdate.live_cases conforms submitted with
        ⟨there, _⟩ | ⟨_, new⟩
      · exact there
      · simp [GeoActionUpdate.save, new] at known
    rw [← start] at there
    exact there

omit [UpperCase] schema conforms submitted in
theorem isSome_of_textAt {path : Path} (there : (textAt path root).isSome = true) :
    (subtree path root).isSome = true := by
  rw [textAt] at there
  split at there
  · rename_i found
    rw [found]
    rfl
  · cases there

omit schema conforms submitted in
/-- An edit in place that leaves unknown addresses allowed deletes the leaf. -/
theorem GeoActionUpdate.clears_unknown {known : GeoAction}
    (live : update.live (fetchGeoActions locale root) = some known)
    (stays : update.unknownIp = .allow) : ∃ back, update.commands locale root =
      (update.renames (fetchGeolocation root) ++
        (leafDiff (update.base ++ ["description"]) known.description
          (update.description.bind trimmed) ++
        leafDiff (update.base ++ ["mode"]) (known.mode.map GeoMode.text)
          (some update.mode.text))) ++
        .delete (update.base ++ ["unknown-ip"]) :: back := by
  have body : (update.save (fetchGeoActions locale root)).commands =
      (update.save (fetchGeoActions locale root)).body := by
    refine if_neg fun new => ?_
    simp [GeoActionUpdate.save, live] at new
  have differs : leafDiff (update.base ++ ["unknown-ip"])
      (some known.unknownIp.text) update.unknownText =
        [.delete (update.base ++ ["unknown-ip"])] := by
    rw [GeoActionUpdate.unknownText, stays, if_neg (by decide)]
    exact if_neg nofun
  rw [GeoActionUpdate.commands, diffGeoAction_eq, body]
  simp only [GeoActionUpdate.save, RecordSave.body, live, Option.bind_some,
    Option.map_some, differs, List.flatMap_cons]
  refine ⟨diffLeaf (update.base ++ ["country"])
    ((some known.countries).getD []) update.newCountries ++
    (flagDiff (update.base ++ ["log"]) ((some known.log).getD false)
      update.log ++ []), ?_⟩
  simp only [List.flatMap_nil, List.append_assoc, List.singleton_append]

/-- Where a leaf for unknown addresses is deleted that is there, and the
countries that go are stored in upper case, nothing is deleted in vain. -/
theorem GeoActionUpdate.targeted
    (countries : ∀ country ∈ leafValues
        (subtree (update.base ++ ["country"]) root),
      upper country ∉ update.newCountries → upper country = country)
    (unknown : (subtree update.base root).isSome = true →
      (geoActionAt root update.name).unknownIp = .allow →
        update.unknownIp = .allow →
          (subtree (update.base ++ ["unknown-ip"]) root).isSome = true) :
    Targeted kinds (update.commands locale root) root := by
  have cases' := GeoActionUpdate.live_cases conforms submitted
  rw [GeoActionUpdate.commands, diffGeoAction_eq]
  refine .append ?_ ?_
  · cases moved : update.moved with
    | none =>
        rw [GeoActionUpdate.renames, moved]
        trivial
    | some old =>
        rw [update.renames_eq _ moved]
        refine ⟨?_, .ofSets fun command member => ?_⟩
        · rintro path ⟨⟩
          obtain ⟨known, listed, rfl⟩ := submitted.known old
            (Option.filter_eq_some_iff.mp moved).1
          exact .inl (((register_actions kinds locale).reads conforms
            trivial).listed_of_mem listed rfl)
        · obtain ⟨policy, _, rfl⟩ := List.mem_map.mp member
          rfl
  · refine (update.proper schema _).targeted conforms.executeAll
      (fun path member => by cases member) fun path commands member => ?_
    have start : subtree (update.base ++ path) (executeAll kinds
        (update.renames (fetchGeolocation root)) root) =
        subtree (update.base ++ path) root :=
      (update.spares_renames (fetchGeolocation root) path).subtree_eq root
    have same : subtree ((update.save (fetchGeoActions locale root)).base ++
        path) (executeAll kinds (update.renames (fetchGeolocation root)) root) =
        subtree (update.base ++ path) root := start
    rw [same]
    simp only [GeoActionUpdate.save, List.mem_cons, List.not_mem_nil, or_false,
      Prod.mk.injEq] at member
    rcases member with ⟨rfl, rfl⟩ | ⟨rfl, rfl⟩ | ⟨rfl, rfl⟩ | ⟨rfl, rfl⟩ |
      ⟨rfl, rfl⟩
    · refine targets_leafDiff fun _ known => ?_
      rcases cases' with ⟨_, _, live⟩ | ⟨_, new⟩
      · rw [live] at known
        exact isSome_of_textAt known
      · rw [new] at known
        cases known
    · exact targets_leafDiff fun none => by cases none
    · refine targets_leafDiff fun cleared known => ?_
      have stays : update.unknownIp = .allow := by
        rw [GeoActionUpdate.unknownText] at cleared
        split at cleared
        · cases cleared
        · rename_i other
          cases given : update.unknownIp with
          | allow => rfl
          | block => exact absurd given other
      rcases cases' with ⟨there, _, live⟩ | ⟨_, new⟩
      · cases shown : (geoActionAt root update.name).unknownIp with
        | allow => exact unknown there shown stays
        | block =>
            refine isSome_of_textAt ?_
            have read : asUnknown (textAt (update.base ++ ["unknown-ip"])
                root) = .block := shown
            rw [asUnknown] at read
            split at read
            · rename_i text
              rw [text]
              rfl
            · cases read
      · rw [new] at known
        cases known
    · have shaped := (schema.actionFields update.name (["country"], .multi)
        (by simp)).below (schema.action _)
      obtain ⟨distinct, held⟩ := nodup_removed
        (nodup_leafValues conforms (update.base ++ ["country"])) countries
      rw [GeoActionUpdate.stored conforms submitted]
      exact .exchange (valueSet_of_field shaped) _ distinct held
    · rw [GeoActionUpdate.logged conforms submitted]
      exact targets_flagDiff _

omit schema in
theorem GeoActionUpdate.settled (stays : update.moved = none)
    {action : GeoAction} (member : action ∈ fetchGeoActions locale root)
    (name : action.name = update.name) (shows : update.Shows action)
    (unknown : action.unknownIp = .allow → update.unknownIp ≠ .allow) :
    update.commands locale root = [] := by
  have reads := (register_actions kinds locale).reads conforms trivial
  rcases GeoActionUpdate.live_cases conforms submitted with
    ⟨_, _, live⟩ | ⟨absent, _⟩
  · rw [reads.eq_read member name] at live
    have same : some action.unknownIp.text = update.unknownText := by
      rw [GeoActionUpdate.unknownText]
      have equal := shows.unknownIp
      cases given : update.unknownIp with
      | block => rw [equal, given, if_pos rfl, GeoUnknown.text]
      | allow => exact absurd given (unknown (equal.trans given))
    rw [GeoActionUpdate.commands, diffGeoAction_eq, GeoActionUpdate.renames,
      stays, RecordSave.commands]
    simp [GeoActionUpdate.save, RecordSave.body, live, ← same, withNode,
      shows.description, shows.mode, shows.log, leafDiff_self, flagDiff_self,
      diffLeaf_of_same shows.countries]
  · have listed := reads.listed_of_mem member name
    rw [absent] at listed
    cases listed

variable (numbered : Numbered geoBase root)
include numbered

/-- A save does what it is to do exactly in the effective cases. -/
theorem GeoActionUpdate.saved_iff :
    update.Saved kinds locale root ↔ update.Effective root := by
  have placed := GeoActionUpdate.placed_iff schema conforms submitted
  have cases' := GeoActionUpdate.live_cases conforms submitted
  constructor
  · intro saved
    refine ⟨placed.mp saved.placed, fun there allowed stays => ?_⟩
    rcases cases' with ⟨_, kept, live⟩ | ⟨absent, _⟩
    · obtain ⟨back, commands⟩ :=
        GeoActionUpdate.clears_unknown live stays
      constructor
      · have targeted := saved.targeted
        rw [commands] at targeted
        have present := targeted.later.1 _ rfl
        have found := present.ofNode (schema.action _) conforms.executeAll
        have apart : ∀ leaf, leaf ≠ "unknown-ip" →
            Diverges (update.base ++ [leaf]) (update.base ++ ["unknown-ip"]) :=
          fun leaf different => diverges_named different []
        have spared : Spares (update.base ++ ["unknown-ip"])
            (update.renames (fetchGeolocation root) ++ (leafDiff
              (update.base ++ ["description"])
                (geoActionAt root update.name).description
                (update.description.bind trimmed) ++ leafDiff
              (update.base ++ ["mode"])
                ((geoActionAt root update.name).mode.map GeoMode.text)
                (some update.mode.text))) :=
          .append (update.spares_renames _ _) (.append
            ((below_leafDiff _ _ _).spares fun more => by
              simpa using (apart "description" (by decide)).append more [])
            ((below_leafDiff _ _ _).spares fun more => by
              simpa using (apart "mode" (by decide)).append more []))
        rwa [spared.subtree_eq] at found
      · intro shows
        have reads := (register_actions kinds locale).reads conforms trivial
        have idle := saved.settled kept _ (reads.mem_read.mpr there) rfl shows
        rw [commands] at idle
        simp at idle
    · rw [absent] at there
      cases there
  · intro effective
    refine ⟨placed.mpr effective.countries, ?_, ?_, ?_⟩
    · exact GeoActionUpdate.attached schema conforms numbered
        (trimmed_geoActionName submitted.named)
    · exact GeoActionUpdate.targeted schema conforms submitted
        effective.countries fun there allowed stays =>
          (effective.unknownIp there allowed stays).1
    · intro kept action member name shows
      have reads := (register_actions kinds locale).reads conforms trivial
      refine GeoActionUpdate.settled conforms submitted kept member name shows
        fun allowed stays => ?_
      have same := reads.eq_read member name
      rw [← same] at allowed shows
      exact (effective.unknownIp (reads.listed_of_mem member name) allowed
        stays).2 shows

end Action

end QuartzFire.Firewall
