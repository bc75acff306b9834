import QuartzFire.Firewall.ObjectSaves

/-!
# Saving zones

A zone has more fields than a group, each written where it differs.  A save of
one puts it in place exactly when its description is read as it was typed.
-/

namespace QuartzFire.Firewall

open ConfigTree

/-! ## The action within a zone -/

/-- The node goes with its action. -/
def intraDiff (base : Path) (live desired : Option RuleAction) :
    List VyosCommand :=
  if desired = live then []
  else
    match desired with
    | some action =>
        [.set (base ++ ["intra-zone-filtering", "action", action.text])]
    | none => [.delete (base ++ ["intra-zone-filtering"])]

section Intra

variable {kinds : Kinds String} {base : Path} {start : Option Cfg}

theorem below_intraDiff (live desired : Option RuleAction) :
    Below (base ++ ["intra-zone-filtering"]) (intraDiff base live desired) := by
  refine .ite (fun _ => .nil) fun _ => ?_
  cases desired with
  | none => exact .single (List.prefix_refl _)
  | some action =>
      refine .single ⟨["action", action.text], ?_⟩
      rw [List.append_assoc]
      rfl

theorem isSet_intraDiff {desired : Option RuleAction} :
    ∀ command ∈ intraDiff base none desired, command.isSet = true := by
  intro command member
  unfold intraDiff at member
  cases desired with
  | none => cases member
  | some action =>
      rw [if_neg (by simp), List.mem_singleton] at member
      subst member
      rfl

theorem yields_intraDiff
    (field : FieldAt kinds (base ++ ["intra-zone-filtering", "action"]) .single)
    (live desired : Option RuleAction) :
    Yields kinds (base ++ ["intra-zone-filtering"] ++ ["action"]) start
      (· = if desired = live then start
        else desired.map fun action => .value action.text)
      (intraDiff base live desired) := by
  have path : base ++ ["intra-zone-filtering", "action"] =
      base ++ ["intra-zone-filtering"] ++ ["action"] := by simp
  rw [path] at field
  have nodes := field.nodes
  rw [List.dropLast_concat] at nodes
  unfold intraDiff
  split
  · exact .nil rfl
  · cases desired with
    | none => exact .clearAbove _ (by simp) (List.prefix_append _ _)
    | some action =>
        simpa using Yields.write nodes field.kind action.text

theorem targets_intraDiff {live desired : Option RuleAction}
    (there : live.isSome = true → start.isSome = true) :
    Targets kinds (base ++ ["intra-zone-filtering"]) start
      (intraDiff base live desired) := by
  unfold intraDiff
  split
  · exact .ofSets (by simp)
  · rename_i differs
    cases desired with
    | none =>
        refine .clear (there ?_)
        exact Option.isSome_iff_ne_none.mpr fun none => differs none.symm
    | some action => exact .ofSets (by simp [QuartzFire.Command.isSet])

theorem asAction_written {path : Path} {root after : Cfg}
    {live desired : Option RuleAction}
    (stored : live = asAction (textAt path root))
    (written : subtree path after = if desired = live then subtree path root
      else desired.map fun action => .value action.text) :
    asAction (textAt path after) = desired := by
  by_cases same : desired = live
  · rw [if_pos same] at written
    rw [textAt_congr written, same, stored]
  · rw [if_neg same] at written
    cases desired with
    | none =>
        rw [textAt, written]
        rfl
    | some action =>
        rw [textAt_of_value written]
        cases action <;> decide

theorem asZoneDefault_written {path : Path} {root after : Cfg}
    {live desired : Option ZoneDefaultAction}
    (stored : live = asZoneDefault (textAt path root))
    (written : subtree path after =
      if desired.map ZoneDefaultAction.text = live.map ZoneDefaultAction.text
      then subtree path root
      else (desired.map ZoneDefaultAction.text).map .value) :
    asZoneDefault (textAt path after) = desired := by
  by_cases same : desired = live
  · rw [same, if_pos rfl] at written
    rw [textAt_congr written, same, stored]
  · have differs : desired.map ZoneDefaultAction.text ≠
        live.map ZoneDefaultAction.text := by
      revert same
      rcases desired with _ | _ | _ <;> rcases live with _ | _ | _ <;> decide
    rw [if_neg differs] at written
    cases desired with
    | none =>
        rw [textAt, written]
        rfl
    | some action =>
        rw [textAt_of_value written]
        cases action <;> decide

/-- What is read as something is there. -/
theorem there_of_read {Value : Type} {read : Option String → Option Value}
    (nothing : read none = none) {path : Path} {root : Cfg}
    (some : (read (textAt path root)).isSome = true) :
    (subtree path root).isSome = true := by
  cases found : subtree path root with
  | some leaf => rfl
  | none =>
      rw [textAt, found] at some
      rw [nothing] at some
      cases some

end Intra

/-! ## The save of a zone -/

section Zones

variable {update : ZoneUpdate}

abbrev ZoneUpdate.base (update : ZoneUpdate) : Path := zoneBase update.name

abbrev ZoneUpdate.encoded (update : ZoneUpdate) : Option String :=
  encodeAliasDescription update.name update.display update.description

abbrev FirewallZone.encoded (zone : FirewallZone) : Option String :=
  encodeAliasDescription zone.name zone.display zone.description

def ZoneUpdate.live (update : ZoneUpdate) (existing : List FirewallZone) :
    Option FirewallZone :=
  if update.moved.isSome then none
  else existing.find? fun zone => zone.name = update.name

def ZoneUpdate.save (existing : List FirewallZone) (update : ZoneUpdate) :
    RecordSave String :=
  let live := update.live existing
  let base := update.base
  { old := update.moved.map zoneBase
    base := base
    isNew := live.isNone
    fields :=
      [(["description"], leafDiff (base ++ ["description"])
          (live.bind FirewallZone.encoded) update.encoded),
        (["local-zone"], flagDiff (base ++ ["local-zone"])
          (live.any FirewallZone.isLocal) update.isLocal),
        (["member", "interface"], diffLeaf (base ++ ["member", "interface"])
          ((live.map FirewallZone.interfaces).getD [])
          (trimmedMembers update.interfaces)),
        (["default-action"], leafDiff (base ++ ["default-action"])
          ((live.bind FirewallZone.defaultAction).map ZoneDefaultAction.text)
          (update.defaultAction.map ZoneDefaultAction.text)),
        (["default-log"], flagDiff (base ++ ["default-log"])
          (live.any FirewallZone.defaultLog) update.defaultLog),
        (["intra-zone-filtering"], intraDiff base
          (live.bind FirewallZone.intraZone) update.intraZone)] }

theorem ZoneUpdate.base_save (existing : List FirewallZone) :
    (update.save existing).base = update.base := rfl

theorem ZoneUpdate.body_save (existing : List FirewallZone) :
    (update.save existing).body = zoneWrites (update.live existing) update := by
  simp only [ZoneUpdate.save, RecordSave.body, zoneWrites, List.flatMap_cons,
    List.flatMap_nil, List.append_nil, List.append_assoc]
  rfl

/-- The first zone brings the global state match with it. -/
theorem diffZone_eq {cfg : FirewallConfig} {commands : List VyosCommand}
    (saved : diffZone cfg update = .ok commands) :
    commands = (update.save cfg.zones).commands ++
      if (update.save cfg.zones).commands = [] then []
      else ensureStatePolicy cfg := by
  have out : (update.save cfg.zones).commands =
      (update.moved.toList.map fun name => .delete (zoneBase name)) ++
        orNode update.base (update.live cfg.zones).isNone
          (zoneWrites (update.live cfg.zones) update) := by
    rw [RecordSave.commands, ZoneUpdate.body_save, orNode_eq_withNode]
    simp only [ZoneUpdate.save]
    cases update.moved <;> rfl
  rw [out]
  simp only [diffZone] at saved
  split at saved
  · cases saved
  · cases saved
    rfl

theorem diverges_zone_zone {name other : String} (different : name ≠ other) :
    Diverges (zoneBase name) (zoneBase other) :=
  diverges_of_length rfl fun same => different (by simpa [zoneBase] using same)

variable {kinds : Kinds String} (schema : ObjectSchema kinds)
include schema

theorem ZoneUpdate.proper (existing : List FirewallZone) :
    (update.save existing).Proper kinds where
  nodes := schema.zone _
  diverge := by
    simp only [ZoneUpdate.save, List.map_cons, List.map_nil]
    decide
  named := by simp [ZoneUpdate.save]
  below := by
    intro path commands member
    simp only [ZoneUpdate.save, List.mem_cons, List.not_mem_nil, or_false,
      Prod.mk.injEq] at member
    generalize update.encoded = encoded at member
    rcases member with ⟨rfl, rfl⟩ | ⟨rfl, rfl⟩ | ⟨rfl, rfl⟩ | ⟨rfl, rfl⟩ |
      ⟨rfl, rfl⟩ | ⟨rfl, rfl⟩
    · exact below_leafDiff (update.base ++ ["description"]) _ _
    · exact below_flagDiff (update.base ++ ["local-zone"]) _ _
    · exact below_diffLeaf (update.base ++ ["member", "interface"]) _ _
    · exact below_leafDiff (update.base ++ ["default-action"]) _ _
    · exact below_flagDiff (update.base ++ ["default-log"]) _ _
    · exact below_intraDiff _ _
  fresh := by
    intro isNew command member
    have isNew : update.live existing = none :=
      Option.isNone_iff_eq_none.mp isNew
    simp only [ZoneUpdate.save, isNew, RecordSave.body, List.flatMap_cons,
      List.flatMap_nil, List.append_nil, List.mem_append] at member
    rcases member with inside | inside | inside | inside | inside | inside
    · exact isSet_leafDiff _ inside
    · exact isSet_flagDiff _ inside
    · exact isSet_diffLeaf _ inside
    · exact isSet_leafDiff _ inside
    · exact isSet_flagDiff _ inside
    · exact isSet_intraDiff _ inside
  apart := by
    rintro path member
    obtain ⟨name, moved, rfl⟩ := Option.map_eq_some_iff.mp member
    exact diverges_zone_zone
      (of_decide_eq_true (Option.filter_eq_some_iff.mp moved).2)

omit schema in
/-- The state match is written apart from groups and zones. -/
theorem ZoneUpdate.subtree_after {root : Cfg} {cfg : FirewallConfig}
    {commands : List VyosCommand} (saved : diffZone cfg update = .ok commands)
    {probe : Path}
    (apart : ∀ more, Diverges ("firewall" :: "global-options" :: more) probe) :
    subtree probe (executeAll kinds commands root) =
      subtree probe (executeAll kinds (update.save cfg.zones).commands
        root) := by
  rw [diffZone_eq saved, executeAll_append]
  refine Spares.subtree_eq ?_ _
  exact .ite (fun _ => .nil) fun _ => spares_ensureStatePolicy cfg apart

theorem ZoneUpdate.elsewhere {root : Cfg} {cfg : FirewallConfig}
    {commands : List VyosCommand} (saved : diffZone cfg update = .ok commands)
    {probe : Path}
    (apart : ∀ more, Diverges ("firewall" :: "global-options" :: more) probe)
    (beside : Diverges update.base probe)
    (old : ∀ name, update.moved = some name → Diverges (zoneBase name) probe) :
    subtree probe (executeAll kinds commands root) = subtree probe root := by
  rw [ZoneUpdate.subtree_after saved apart]
  refine Spares.subtree_eq ((update.proper schema _).elsewhere beside ?_) root
  intro path member
  obtain ⟨name, moved, rfl⟩ := Option.map_eq_some_iff.mp member
  exact old name moved

omit schema in
theorem diverges_state_group (more : Path) (node name : String) :
    Diverges ("firewall" :: "global-options" :: more) (groupPath node name) := by
  simp [groupPath, diverges_cons]

omit schema in
theorem diverges_state_zone (more : Path) (name : String) (rest : Path) :
    Diverges ("firewall" :: "global-options" :: more)
      (zoneBase name ++ rest) := by
  simp [zoneBase, diverges_cons]

variable {locale : Locale} {root : Cfg} (conforms : Conforms kinds root)
  (submitted : update.Submitted (fetchFirewall locale root).zones)
include conforms submitted

omit schema in
/-- The zone that is edited, or none when there is none of its name. -/
theorem ZoneUpdate.live_cases :
    ((subtree update.base root).isSome = true ∧ update.moved = none ∧
        update.live (fetchFirewall locale root).zones =
          some (zoneAt root update.name)) ∨
      (subtree update.base root = none ∧
        update.live (fetchFirewall locale root).zones = none) := by
  have reads := reads_zones locale conforms
  rw [ZoneUpdate.live]
  rcases reads.edited_or_new submitted.free fun known =>
      @decide_eq_true_iff (known.name = update.name) _ with
    ⟨there, kept, found⟩ | ⟨hidden, missed⟩
  · have kept : update.moved = none := kept
    refine .inl ⟨there, kept, ?_⟩
    rw [kept, if_neg (by simp), found]
  · refine .inr ⟨?_, by rw [missed, ite_self]⟩
    exact Option.isNone_iff_eq_none.mp
      (Option.isSome_eq_false_iff.mp (Bool.eq_false_iff.mpr hidden))

/-- What a zone that may not be there shows is what is stored of it. -/
structure StoredZone (root : Cfg) (name : String)
    (live : Option FirewallZone) : Prop where
  isLocal : live.any FirewallZone.isLocal =
    (subtree (zoneBase name ++ ["local-zone"]) root).isSome
  interfaces : (live.map FirewallZone.interfaces).getD [] =
    leafValues (subtree (zoneBase name ++ ["member", "interface"]) root)
  defaultAction : live.bind FirewallZone.defaultAction =
    asZoneDefault (textAt (zoneBase name ++ ["default-action"]) root)
  defaultLog : live.any FirewallZone.defaultLog =
    (subtree (zoneBase name ++ ["default-log"]) root).isSome
  intraZone : live.bind FirewallZone.intraZone = asAction
    (textAt (zoneBase name ++ ["intra-zone-filtering", "action"]) root)

omit schema in
theorem ZoneUpdate.stored :
    StoredZone root update.name
      (update.live (fetchFirewall locale root).zones) := by
  rcases ZoneUpdate.live_cases conforms submitted with
    ⟨_, _, live⟩ | ⟨absent, new⟩
  · rw [live]
    constructor <;> rfl
  · have nothing : ∀ more, subtree (zoneBase update.name ++ more) root =
        none := by
      intro more
      rw [subtree_append, absent, Option.bind_none]
    rw [new]
    constructor
    · rw [nothing]
      rfl
    · rw [nothing]
      rfl
    · rw [textAt, nothing]
      rfl
    · rw [nothing]
      rfl
    · rw [textAt, nothing]
      rfl

/-- What the description leaf reads afterwards. -/
theorem ZoneUpdate.text_after :
    textAt (update.base ++ ["description"]) (executeAll kinds
        (update.save (fetchFirewall locale root).zones).commands root) =
      if update.encoded =
          (update.live (fetchFirewall locale root).zones).bind
            FirewallZone.encoded
      then textAt (update.base ++ ["description"]) root
      else update.encoded := by
  obtain ⟨typedName, accepts⟩ := submitted.named
  have trims : update.encoded.bind trimmed = update.encoded :=
    trimmed_encode (friendly_of_formNames accepts)
      (described_of_typed submitted.described)
  have field := (schema.zoneFields update.name (["description"], .single)
    (by simp)).below (schema.zone _)
  have member : (["description"], leafDiff (update.base ++ ["description"])
      ((update.live (fetchFirewall locale root).zones).bind
        FirewallZone.encoded) update.encoded) ∈
      (update.save (fetchFirewall locale root).zones).fields :=
    List.mem_cons_self
  have written := (update.proper schema _).field_at conforms member
    (yields_leafDiff field _ _)
  exact textAt_written trims written

/-- The other fields afterwards are as the form has them. -/
theorem ZoneUpdate.fields_after {after : Cfg}
    (written : after = executeAll kinds
      (update.save (fetchFirewall locale root).zones).commands root) :
    (subtree (update.base ++ ["local-zone"]) after).isSome = update.isLocal ∧
    SameMembers (leafValues
        (subtree (update.base ++ ["member", "interface"]) after))
      update.interfaces ∧
    asZoneDefault (textAt (update.base ++ ["default-action"]) after) =
      update.defaultAction ∧
    (subtree (update.base ++ ["default-log"]) after).isSome =
      update.defaultLog ∧
    asAction (textAt (update.base ++ ["intra-zone-filtering", "action"])
      after) = update.intraZone := by
  have stored := ZoneUpdate.stored conforms submitted
  have proper := update.proper schema (fetchFirewall locale root).zones
  have field : ∀ {path kind}, (path, kind) ∈ _ →
      FieldAt kinds (update.base ++ path) kind := fun {path kind} member =>
    (schema.zoneFields update.name (path, kind) member).below (schema.zone _)
  subst written
  refine ⟨?_, ?_, ?_, ?_, ?_⟩
  · have yields := @yields_flagDiff kinds (update.base ++ ["local-zone"])
      (subtree (update.base ++ ["local-zone"]) root) (field (by simp))
      update.isLocal
    rw [← stored.isLocal] at yields
    exact proper.field_at conforms (by simp [ZoneUpdate.save]) yields
  · have yields := @yields_diffLeaf kinds
      (update.base ++ ["member", "interface"])
      (subtree (update.base ++ ["member", "interface"]) root) (field (by simp))
      (trimmedMembers update.interfaces)
    rw [← stored.interfaces] at yields
    exact proper.field_at conforms (by simp [ZoneUpdate.save]) yields
  · exact asZoneDefault_written stored.defaultAction
      (proper.field_at conforms (by simp [ZoneUpdate.save])
        (yields_leafDiff (field (by simp)) _ _))
  · have yields := @yields_flagDiff kinds (update.base ++ ["default-log"])
      (subtree (update.base ++ ["default-log"]) root) (field (by simp))
      update.defaultLog
    rw [← stored.defaultLog] at yields
    exact proper.field_at conforms (by simp [ZoneUpdate.save]) yields
  · have joined : update.base ++ ["intra-zone-filtering", "action"] =
        update.base ++ ["intra-zone-filtering"] ++ ["action"] := by simp
    have member : (["intra-zone-filtering"], intraDiff update.base
        ((update.live (fetchFirewall locale root).zones).bind
          FirewallZone.intraZone) update.intraZone) ∈
        (update.save (fetchFirewall locale root).zones).fields := by
      simp [ZoneUpdate.save]
    have written := proper.field conforms member
      (yields_intraDiff (field (by simp)) _ _)
    rw [ZoneUpdate.base_save, ← joined] at written
    exact asAction_written stored.intraZone written

omit schema in
/-- A description that is taken away is there. -/
theorem ZoneUpdate.described (plain : update.encoded = none)
    (marked : ((update.live (fetchFirewall locale root).zones).bind
      FirewallZone.encoded).isSome = true) :
    (subtree (update.base ++ ["description"]) root).isSome = true := by
  rcases ZoneUpdate.live_cases conforms submitted with
    ⟨_, _, live⟩ | ⟨_, new⟩
  · rw [live, Option.bind_some] at marked
    have reads : decodeAliasDescription update.name
        (textAt (update.base ++ ["description"]) root) =
      ((zoneAt root update.name).display,
        (zoneAt root update.name).description) := rfl
    exact stored_of_encoded (encode_eq_none plain) reads marked
  · rw [new] at marked
    cases marked

variable {commands : List VyosCommand}
  (saved : diffZone (fetchFirewall locale root) update = .ok commands)
include saved

/-- It comes to the text of the description leaf. -/
theorem ZoneUpdate.placed_iff :
    Placed FirewallZone.name (fetchFirewall locale root).zones
        (fetchFirewall locale (executeAll kinds commands root)).zones
        update.moved update.name update.Shows ↔
      update.Legible (fetchFirewall locale root) := by
  have same : ∀ more, subtree (update.base ++ more)
      (executeAll kinds commands root) =
      subtree (update.base ++ more) (executeAll kinds (update.save
        (fetchFirewall locale root).zones).commands root) := fun more =>
    ZoneUpdate.subtree_after saved fun rest => diverges_state_zone rest _ more
  have cases' := ZoneUpdate.live_cases conforms submitted
  have text := ZoneUpdate.text_after schema conforms submitted
  have fields := ZoneUpdate.fields_after schema conforms submitted rfl
  rw [← textAt_congr (same ["description"])] at text
  simp only [← textAt_congr (same _), ← same] at fields
  obtain ⟨isLocal, interfaces, defaultAction, defaultLog, intraZone⟩ := fields
  have there : (subtree update.base (executeAll kinds commands root)).isSome =
      true := by
    have node := same []
    rw [List.append_nil] at node
    rw [node]
    refine (update.proper schema _).present conforms fun known => ?_
    rcases cases' with ⟨there, _⟩ | ⟨_, new⟩
    · exact there
    · simp [ZoneUpdate.save, new] at known
  obtain ⟨typedName, accepts⟩ := submitted.named
  have encoded := @reads_encode_zone update.name _ _
    (friendly_of_formNames accepts) (described_of_typed submitted.described)
  rw [(reads_zones locale conforms).placed_iff
    (reads_zones locale conforms.executeAll)]
  · have legible := @legible_iff (fun text =>
      decodeAliasDescription update.name text =
        (update.display, update.description)) _ _ _ _ encoded
      ((update.live (fetchFirewall locale root).zones).map fun live =>
        (live.display, live.description))
      (textAt (update.base ++ ["description"]) root)
      (textAt (update.base ++ ["description"])
        (executeAll kinds commands root)) ?_ ?_ ?_
    · refine Iff.trans ?_ legible
      constructor
      · rintro ⟨_, shows⟩
        exact Prod.ext shows.display shows.description
      · intro reads
        exact ⟨there, congrArg Prod.fst reads, congrArg Prod.snd reads, isLocal,
          interfaces, defaultAction, defaultLog, intraZone⟩
    · rintro shown found
      rcases cases' with ⟨_, _, live⟩ | ⟨_, new⟩
      · rw [live] at found
        cases found
        exact Iff.rfl
      · rw [new] at found
        cases found
    · intro new
      rcases cases' with ⟨_, _, live⟩ | ⟨absent, _⟩
      · rw [live] at new
        cases new
      · rw [textAt, subtree_append, absent]
        rfl
    · rw [text]
      rcases cases' with ⟨_, _, live⟩ | ⟨_, new⟩
      · rw [live]
        rfl
      · rw [new]
        rfl
  · intro other differs renamed
    have kept : subtree (zoneBase other) (executeAll kinds commands root) =
        subtree (zoneBase other) root := by
      refine ZoneUpdate.elsewhere schema saved (fun more => ?_)
        (diverges_zone_zone (Ne.symm differs)) fun name moved =>
          diverges_zone_zone fun same => renamed (same ▸ moved)
      have apart := diverges_state_zone more other []
      rwa [List.append_nil] at apart
    exact ⟨by rw [kept], zoneAt_congr kept⟩
  · intro other _ moved listed
    have gone := @RecordSave.Proper.gone _ _ _ _ root
      (update.proper schema (fetchFirewall locale root).zones) _ _
      (Option.mem_map_of_mem zoneBase moved) (List.prefix_refl _)
    rw [ZoneUpdate.subtree_after saved fun more => by
      have apart := diverges_state_zone more other []
      rwa [List.append_nil] at apart, gone] at listed
    cases listed

theorem ZoneUpdate.targeted : Targeted kinds commands root := by
  have stored := ZoneUpdate.stored conforms submitted
  have tail : ∀ command ∈ (if (update.save
        (fetchFirewall locale root).zones).commands = [] then []
      else ensureStatePolicy (fetchFirewall locale root)),
      command.isSet = true := by
    intro command member
    split at member
    · cases member
    · unfold ensureStatePolicy at member
      split at member
      · cases member
      · simp only [List.mem_cons, List.not_mem_nil, or_false] at member
        rcases member with rfl | rfl <;> rfl
  rw [diffZone_eq saved]
  refine .append ?_ (.ofSets tail)
  refine (update.proper schema _).targeted conforms ?_ ?_
  · intro path member
    obtain ⟨name, moved, rfl⟩ := Option.map_eq_some_iff.mp member
    obtain ⟨known, listed, rfl⟩ := submitted.known name
      (Option.filter_eq_some_iff.mp moved).1
    exact (reads_zones locale conforms).listed_of_mem listed rfl
  · intro path commands member
    have described := ZoneUpdate.described conforms submitted
    simp only [ZoneUpdate.save, List.mem_cons, List.not_mem_nil, or_false,
      Prod.mk.injEq] at member
    rw [ZoneUpdate.base_save]
    generalize update.encoded = encoded at described member
    rcases member with ⟨rfl, rfl⟩ | ⟨rfl, rfl⟩ | ⟨rfl, rfl⟩ | ⟨rfl, rfl⟩ |
      ⟨rfl, rfl⟩ | ⟨rfl, rfl⟩
    · exact targets_leafDiff described
    · rw [stored.isLocal]
      exact targets_flagDiff _
    · have field := (schema.zoneFields update.name
        (["member", "interface"], .multi) (by simp)).below (schema.zone _)
      rw [stored.interfaces]
      exact targets_diffLeaf field (nodup_leafValues conforms _) _
    · refine targets_leafDiff fun _ some => ?_
      rw [Option.isSome_map, stored.defaultAction] at some
      exact there_of_read rfl some
    · rw [stored.defaultLog]
      exact targets_flagDiff _
    · refine targets_intraDiff fun some => ?_
      rw [stored.intraZone] at some
      have there := there_of_read rfl some
      have joined : zoneBase update.name ++ ["intra-zone-filtering", "action"] =
          update.base ++ ["intra-zone-filtering"] ++ ["action"] := by simp
      rw [joined, subtree_append] at there
      exact Option.isSome_of_isSome_bind there

omit schema in
theorem ZoneUpdate.settled (stays : update.moved = none) {zone : FirewallZone}
    (member : zone ∈ (fetchFirewall locale root).zones)
    (place : zone.name = update.name) (shows : update.Shows zone) :
    commands = [] := by
  have reads := reads_zones locale conforms
  rcases ZoneUpdate.live_cases conforms submitted with
    ⟨_, _, live⟩ | ⟨absent, _⟩
  · rw [reads.eq_read member place] at live
    have encoded : zone.encoded = update.encoded := by
      rw [FirewallZone.encoded, place, shows.display, shows.description]
    have nothing : (update.save (fetchFirewall locale root).zones).commands =
        [] := by
      rw [RecordSave.commands]
      simp only [ZoneUpdate.save, RecordSave.body, stays, live,
        Option.bind_some, Option.any_some, Option.map_some, encoded,
        shows.isLocal, shows.defaultAction, shows.defaultLog, shows.intraZone,
        leafDiff_self, flagDiff_self, Option.getD_some,
        diffLeaf_of_same shows.interfaces]
      simp [withNode, intraDiff]
    rw [diffZone_eq saved, nothing]
    rfl
  · have listed := reads.listed_of_mem member place
    rw [absent] at listed
    cases listed

theorem ZoneUpdate.saved_iff :
    update.Saved kinds locale root commands ↔
      update.Legible (fetchFirewall locale root) := by
  have groups : ∀ node name,
      subtree (groupPath node name) (executeAll kinds commands root) =
        subtree (groupPath node name) root := fun node name =>
    ZoneUpdate.elsewhere schema saved
      (fun more => diverges_state_group more node name)
      (diverges_group_zone _ _ _).symm
      fun _ _ => (diverges_group_zone _ _ _).symm
  rw [← ZoneUpdate.placed_iff schema conforms submitted saved]
  refine ⟨Saves.placed, fun placed => ⟨placed, ⟨?_, ?_, ?_⟩,
    ZoneUpdate.targeted schema conforms submitted saved, ?_⟩⟩
  · exact same_aliases locale conforms conforms.executeAll
      fun type name => groups type.node name
  · exact same_autoGroups locale conforms conforms.executeAll
      fun type name => .inl (groups type.node name)
  · exact same_policies locale conforms conforms.executeAll
      fun name => groups "port-group" name
  · intro stays zone member place shows
    exact ZoneUpdate.settled conforms submitted saved stays member place shows

end Zones

/-! ## Every object -/

/-- What the forms submit is put in place, unless a description is taken for a
mark or the alias is written into a group of the rule editor. -/
theorem objects_saved_iff {kinds : Kinds String} (schema : ObjectSchema kinds)
    (locale : Locale) {root : Cfg} (conforms : Conforms kinds root) :
    (∀ update : AliasUpdate,
      update.Submitted (fetchFirewall locale root).aliases →
        (update.Saved kinds locale root ↔
          update.Legible (fetchFirewall locale root))) ∧
    (∀ update : PolicyUpdate,
      update.Submitted (fetchFirewall locale root).policies →
        update.Saved kinds locale root) ∧
    ∀ (update : ZoneUpdate) (commands : List VyosCommand),
      update.Submitted (fetchFirewall locale root).zones →
      diffZone (fetchFirewall locale root) update = .ok commands →
        (update.Saved kinds locale root commands ↔
          update.Legible (fetchFirewall locale root)) := by
  refine ⟨?_, ?_, ?_⟩
  · intro update submitted
    exact AliasUpdate.saved_iff schema conforms submitted
  · intro update submitted
    exact PolicyUpdate.saved schema conforms submitted
  · intro update commands submitted saved
    exact ZoneUpdate.saved_iff schema conforms submitted saved

theorem vyosObjects : ObjectSchema vyosKind where
  group _ _ := ⟨rfl, rfl, rfl, rfl, trivial⟩
  aliasFields type name := by
    intro field member
    simp only [List.mem_cons, List.not_mem_nil, or_false] at member
    rcases member with rfl | rfl
    · exact ⟨by simp, trivial, rfl⟩
    · exact ⟨by simp, trivial, by cases type <;> rfl⟩
  policyFields name := by
    intro field member
    simp only [List.mem_cons, List.not_mem_nil, or_false] at member
    rcases member with rfl | rfl <;> exact ⟨by simp, trivial, rfl⟩
  zone _ := ⟨rfl, rfl, rfl, trivial⟩
  zoneFields name := by
    have leaf : ∀ leaf, vyosKind.below (zoneBase name) [leaf] =
        if leaf = "description" ∨ leaf = "default-action" then .single
        else if leaf = "local-zone" ∨ leaf = "default-log" then .valueless
        else .node := fun _ => rfl
    intro field member
    simp only [List.mem_cons, List.not_mem_nil, or_false] at member
    rcases member with rfl | rfl | rfl | rfl | rfl | rfl
    · exact ⟨by simp, trivial, leaf _⟩
    · exact ⟨by simp, trivial, leaf _⟩
    · exact ⟨by simp, ⟨leaf _, trivial⟩, rfl⟩
    · exact ⟨by simp, trivial, leaf _⟩
    · exact ⟨by simp, trivial, leaf _⟩
    · exact ⟨by simp, ⟨leaf _, trivial⟩, rfl⟩

/-- An alias, a policy and a zone. -/
def labObjects : Cfg :=
  .node [("firewall", .node
    [("group", .node
      [("address-group", .node [("Web-Servers", .node
          [("address", .value "10.0.0.1"),
            ("description", .value "[dn:Web Servers] lab")])]),
        ("port-group", .node [("HTTPS", .node
          [("description", .value "[tcp]"), ("port", .value "443")])])]),
      ("zone", .node [("LAN", .node
        [("default-action", .value "drop"),
          ("member", .node [("interface", .value "eth1")])])])])]

/-- The alias renamed, with a description that looks like a mark after its
own. -/
def renamedServers : AliasUpdate where
  name := "Lab-Servers"
  display := "Lab Servers"
  type := .host
  description := some "[dn:DMZ] lab"
  members := ["10.0.0.2"]
  original := some (.host, "Web-Servers")

def securePorts : PolicyUpdate where
  name := "HTTPS"
  protocol := .tcpUdp
  ports := ["443", "8443"]
  description := none
  originalName := some "HTTPS"

def loggedZone : ZoneUpdate where
  name := "LAN"
  display := "LAN"
  description := some "wired"
  isLocal := false
  interfaces := ["eth1", "eth2"]
  defaultAction := some .reject
  defaultLog := true
  intraZone := some .accept
  originalName := some "LAN"

theorem labObjects_saved :
    renamedServers.Saved vyosKind codepoints labObjects ∧
      securePorts.Saved vyosKind codepoints labObjects ∧
      ∃ commands, diffZone (fetchFirewall codepoints labObjects) loggedZone =
          .ok commands ∧
        loggedZone.Saved vyosKind codepoints labObjects commands := by
  have conforms : Conforms vyosKind labObjects :=
    (rendered_of_check rfl (by decide)).conforms
  have aliases : (fetchFirewall codepoints labObjects).aliases =
      [⟨"Web-Servers", "Web Servers", .host, some "lab", ["10.0.0.1"]⟩] := by
    decide
  have autoGroups : (fetchFirewall codepoints labObjects).autoGroups = [] := by
    decide
  have policies : (fetchFirewall codepoints labObjects).policies =
      [⟨"HTTPS", .tcp, ["443"], none⟩] := by decide
  have zones : (fetchFirewall codepoints labObjects).zones =
      [⟨"LAN", "LAN", none, false, ["eth1"], some .drop, false, none⟩] := by
    decide
  have either := objects_saved_iff vyosObjects codepoints conforms
  refine ⟨(either.1 renamedServers ⟨⟨"Lab Servers", by decide⟩,
    ⟨"[dn:DMZ] lab", by decide⟩, ?_, ?_⟩).mpr ?_,
    either.2.1 securePorts ⟨⟨"", by decide⟩, ?_, ?_⟩, ?_⟩
  · rintro place ⟨⟩
    rw [aliases]
    exact ⟨_, List.mem_singleton_self _, rfl⟩
  · rw [aliases]
    decide
  · constructor
    · rw [autoGroups]
      exact fun _ member => absurd member List.not_mem_nil
    · have absent : renamedServers.live
          (fetchFirewall codepoints labObjects).aliases = none := by decide
      rw [absent]
      exact not_imitates_iff.mpr (.inl (by decide))
  · rintro name ⟨⟩
    rw [policies]
    exact ⟨_, List.mem_singleton_self _, rfl⟩
  · rw [policies]
    decide
  · cases result : diffZone (fetchFirewall codepoints labObjects) loggedZone with
    | error reason =>
        have passes : validateZone
            (fetchFirewall codepoints labObjects).zones loggedZone = none := by
          rw [zones]
          decide
        rw [diffZone, passes] at result
        contradiction
    | ok commands =>
        refine ⟨commands, rfl, (either.2.2 loggedZone commands
          ⟨⟨"LAN", by decide⟩, ⟨"wired", by decide⟩, ?_, ?_⟩ result).mpr ?_⟩
        · rintro name ⟨⟩
          rw [zones]
          exact ⟨_, List.mem_singleton_self _, rfl⟩
        · exact fun _ _ _ => rfl
        · rw [ZoneUpdate.Legible, zones]
          have typed : ¬ Imitates loggedZone.name loggedZone.display
              loggedZone.description (fun text => (displayMark text).isSome) :=
            not_imitates_iff.mpr (.inr (by decide))
          have differs : encodeAliasDescription "LAN" "LAN" none ≠
              encodeAliasDescription "LAN" "LAN" (some "wired") := by decide
          have legible : Legible (some ("LAN", none)) "LAN" "LAN"
              (some "wired") fun text => (displayMark text).isSome := by
            rw [Legible, if_neg differs]
            exact typed
          exact legible

/-- An alias on an empty configuration. -/
def mislabelledAlias : AliasUpdate where
  name := "LAN"
  display := "LAN"
  type := .host
  description := some "[dn:WAN] lab"
  members := ["10.0.0.1"]
  original := none

/-- The alias is put in place under another name. -/
theorem mislabelled_not_saved :
    mislabelledAlias.Submitted
        (fetchFirewall codepoints (.node [])).aliases ∧
      ¬ mislabelledAlias.Saved vyosKind codepoints (.node []) := by
  have before : (fetchFirewall codepoints (.node [])).aliases = [] := by decide
  have after : (fetchFirewall codepoints (executeAll vyosKind
      (diffAlias [] mislabelledAlias) (.node []))).aliases =
        [⟨"LAN", "WAN", .host, some "lab", ["10.0.0.1"]⟩] := by decide
  constructor
  · refine ⟨⟨"LAN", by decide⟩, ⟨"[dn:WAN] lab", by decide⟩, ?_, ?_⟩
    · intro place edited
      cases edited
    · rw [before]
      exact fun _ member => absurd member List.not_mem_nil
  · intro saved
    obtain ⟨entry, shows, only⟩ := saved.placed.there
    have member := ((only entry).mpr rfl).1
    rw [before, after, List.mem_singleton] at member
    have shown := shows.display
    rw [member] at shown
    exact absurd shown (by decide)

end QuartzFire.Firewall
