import QuartzFire.Firewall.ObjectReads

/-!
# Saving aliases and policies

A save puts one object in place as the form has it and leaves the others, and
deletes only what is there.  For an alias it does so exactly when what the
description leaf comes to hold is read as it was typed, and no group of the rule
editor has its name; for a policy, whose mark is always written, it always does.
-/

namespace QuartzFire.Firewall

open ConfigTree

/-! ## What a save is to do -/

/-- A save puts one entry in place and leaves what else is listed.  It deletes
nothing that is not there, and does nothing when the entry is in place. -/
structure Saves {Entry Key : Type} (kinds : Kinds String) (locale : Locale)
    (root : Cfg) (commands : List VyosCommand)
    (entries : FirewallConfig → List Entry) (key : Entry → Key)
    (old : Option Key) (new : Key) (shows : Entry → Prop)
    (Kept : FirewallConfig → FirewallConfig → Prop) : Prop where
  placed : Placed key (entries (fetchFirewall locale root))
    (entries (fetchFirewall locale (executeAll kinds commands root))) old new
    shows
  kept : Kept (fetchFirewall locale root)
    (fetchFirewall locale (executeAll kinds commands root))
  targeted : Targeted kinds commands root
  settled : old = none → ∀ entry ∈ entries (fetchFirewall locale root),
    key entry = new → shows entry → commands = []

/-- Members are a set, trimmed. -/
def SameMembers (shown desired : List String) : Prop :=
  ∀ member, member ∈ shown ↔ member ∈ trimmedMembers desired

structure AliasUpdate.Shows (update : AliasUpdate) (known : FirewallAlias) :
    Prop where
  display : known.display = update.display
  description : known.description = update.description
  members : SameMembers known.members update.members

/-- The alias is put in place; no other group changes, nor a zone. -/
abbrev AliasUpdate.Saved (kinds : Kinds String) (locale : Locale) (root : Cfg)
    (update : AliasUpdate) : Prop :=
  Saves kinds locale root
    (diffAlias (fetchFirewall locale root).aliases update)
    FirewallConfig.aliases (fun known => (known.type, known.name))
    update.moved (update.type, update.name) update.Shows
    fun before after => Same FirewallConfig.autoGroups before after ∧
      Same FirewallConfig.policies before after ∧
      Same FirewallConfig.zones before after

structure PolicyUpdate.Shows (update : PolicyUpdate) (policy : FirewallPolicy) :
    Prop where
  protocol : policy.protocol = update.protocol
  description : policy.description = update.description
  ports : SameMembers policy.ports update.ports

/-- A change of the name rebuilds the policy. -/
def PolicyUpdate.moved (update : PolicyUpdate) : Option String :=
  update.originalName.filter (· ≠ update.name)

abbrev PolicyUpdate.Saved (kinds : Kinds String) (locale : Locale) (root : Cfg)
    (update : PolicyUpdate) : Prop :=
  Saves kinds locale root
    (diffPolicy (fetchFirewall locale root).policies
      (fetchFirewall locale root).rules update)
    FirewallConfig.policies FirewallPolicy.name update.moved update.name
    update.Shows
    fun before after => Same FirewallConfig.aliases before after ∧
      Same FirewallConfig.autoGroups before after ∧
      Same FirewallConfig.zones before after

structure ZoneUpdate.Shows (update : ZoneUpdate) (zone : FirewallZone) :
    Prop where
  display : zone.display = update.display
  description : zone.description = update.description
  isLocal : zone.isLocal = update.isLocal
  interfaces : SameMembers zone.interfaces update.interfaces
  defaultAction : zone.defaultAction = update.defaultAction
  defaultLog : zone.defaultLog = update.defaultLog
  intraZone : zone.intraZone = update.intraZone

abbrev ZoneUpdate.Saved (kinds : Kinds String) (locale : Locale) (root : Cfg)
    (update : ZoneUpdate) (commands : List VyosCommand) : Prop :=
  Saves kinds locale root commands FirewallConfig.zones FirewallZone.name
    update.moved update.name update.Shows
    fun before after => Same FirewallConfig.aliases before after ∧
      Same FirewallConfig.autoGroups before after ∧
      Same FirewallConfig.policies before after

/-! ### What the forms hand on -/

/-- Names and description come from what is typed, an object that is edited is
one of those listed, and no other has the name. -/
structure AliasUpdate.Submitted (existing : List FirewallAlias)
    (update : AliasUpdate) : Prop where
  named : ∃ typed, formNames typed = some (update.name, update.display)
  described : ∃ typed, update.description = trimmed typed
  known : ∀ place, update.original = some place →
    ∃ known ∈ existing, (known.type, known.name) = place
  free : ∀ known ∈ existing,
    (known.type, known.name) = (update.type, update.name) →
      update.original = some (update.type, update.name)

structure PolicyUpdate.Submitted (existing : List FirewallPolicy)
    (update : PolicyUpdate) : Prop where
  described : ∃ typed, update.description = trimmed typed
  known : ∀ name, update.originalName = some name →
    ∃ known ∈ existing, known.name = name
  free : ∀ known ∈ existing, known.name = update.name →
    update.originalName = some update.name

structure ZoneUpdate.Submitted (existing : List FirewallZone)
    (update : ZoneUpdate) : Prop where
  named : ∃ typed, formNames typed = some (update.name, update.display)
  described : ∃ typed, update.description = trimmed typed
  known : ∀ name, update.originalName = some name →
    ∃ known ∈ existing, known.name = name
  free : ∀ known ∈ existing, known.name = update.name →
    update.originalName = some update.name

/-! ### Where descriptions are read as they are typed -/

/-- The description leaf is written, and nothing in it is taken for a mark; or
it is not, and shows what is typed already. -/
def Legible (stored : Option (String × Option String)) (name display : String)
    (description : Option String) (looks : String → Bool) : Prop :=
  match stored with
  | none => ¬ Imitates name display description looks
  | some shown =>
      if encodeAliasDescription name shown.1 shown.2 =
          encodeAliasDescription name display description then
        shown = (display, description)
      else ¬ Imitates name display description looks

/-- No group of the rule editor has the name of the alias. -/
def AliasUpdate.Legible (cfg : FirewallConfig) (update : AliasUpdate) : Prop :=
  (∀ auto ∈ cfg.autoGroups,
    (auto.node, auto.name) ≠ (update.type.node, update.name)) ∧
  Firewall.Legible
    ((update.live cfg.aliases).map fun live => (live.display, live.description))
    update.name update.display update.description fun text =>
      (displayMark text).isSome || startsWith text autoMark

def ZoneUpdate.Legible (cfg : FirewallConfig) (update : ZoneUpdate) : Prop :=
  Firewall.Legible
    ((if update.moved.isSome then none
      else cfg.zones.find? fun zone => zone.name = update.name).map
        fun live => (live.display, live.description))
    update.name update.display update.description fun text =>
      (displayMark text).isSome

/-- What is read of the leaf in the end. -/
theorem legible_iff {reads : Option String → Prop} {name display : String}
    {description : Option String} {looks : String → Bool}
    (encoded : reads (encodeAliasDescription name display description) ↔
      ¬ Imitates name display description looks)
    {stored : Option (String × Option String)} {before after : Option String}
    (shown : ∀ shown ∈ stored,
      (reads before ↔ shown = (display, description)))
    (absent : stored = none → before = none)
    (written : after =
      if encodeAliasDescription name display description =
          stored.bind fun shown => encodeAliasDescription name shown.1 shown.2
      then before else encodeAliasDescription name display description) :
    reads after ↔ Legible stored name display description looks := by
  cases stored with
  | none =>
      have same : after = encodeAliasDescription name display description := by
        rw [written]
        split
        · rename_i plain
          exact (absent rfl).trans plain.symm
        · rfl
      rw [same, Legible]
      exact encoded
  | some pair =>
      rw [written, Legible, Option.bind_some]
      by_cases kept : encodeAliasDescription name display description =
          encodeAliasDescription name pair.1 pair.2
      · rw [if_pos kept, if_pos kept.symm]
        exact shown pair rfl
      · rw [if_neg kept, if_neg (Ne.symm kept)]
        exact encoded

/-- A name that needs no mark is trimmed. -/
theorem encode_eq_none {name display : String} {description : Option String}
    (none : encodeAliasDescription name display description = none) :
    trim name = name := by
  unfold encodeAliasDescription at none
  by_cases same : trim display = name
  · rw [← same, trim_trim]
  · simp [same] at none

/-- What is shown of a leaf that is not there needs no mark. -/
theorem stored_of_encoded {name : String} (trims : trim name = name)
    {path : Path} {root : Cfg} {shown : String × Option String}
    (reads : decodeAliasDescription name (textAt path root) = shown)
    (encoded : (encodeAliasDescription name shown.1 shown.2).isSome = true) :
    (subtree path root).isSome = true := by
  cases found : subtree path root with
  | some leaf => rfl
  | none =>
      rw [textAt, found] at reads
      subst reads
      simp [decodeAliasDescription, encodeAliasDescription, trims] at encoded

/-! ## Aliases -/

section Aliases

variable {update : AliasUpdate}

abbrev AliasUpdate.base (update : AliasUpdate) : Path :=
  groupPath update.type.node update.name

abbrev AliasUpdate.encoded (update : AliasUpdate) : Option String :=
  encodeAliasDescription update.name update.display update.description

abbrev FirewallAlias.encoded (known : FirewallAlias) : Option String :=
  encodeAliasDescription known.name known.display known.description

def AliasUpdate.save (existing : List FirewallAlias) (update : AliasUpdate) :
    RecordSave String :=
  let live := update.live existing
  { old := update.moved.map fun place => groupPath place.1.node place.2
    base := update.base
    isNew := live.isNone
    fields :=
      [(["description"], leafDiff (update.base ++ ["description"])
          (live.bind FirewallAlias.encoded) update.encoded),
        ([update.type.memberLeaf],
          diffLeaf (update.base ++ [update.type.memberLeaf])
            ((live.map FirewallAlias.members).getD [])
            (trimmedMembers update.members))] }

theorem diffAlias_eq (existing : List FirewallAlias) :
    diffAlias existing update = (update.save existing).commands := by
  simp only [diffAlias, AliasUpdate.save, RecordSave.commands,
    RecordSave.body, orNode_eq_withNode, List.flatMap_cons, List.flatMap_nil,
    List.append_nil]
  cases update.moved <;> rfl

variable {kinds : Kinds String} (schema : ObjectSchema kinds)
include schema

theorem AliasUpdate.proper (existing : List FirewallAlias) :
    (update.save existing).Proper kinds where
  nodes := schema.group _ _
  diverge := by
    have differ : "description" ≠ update.type.memberLeaf := by
      cases update.type <;> decide
    have diverges : Diverges ["description"] [update.type.memberLeaf] :=
      diverges_of_length rfl (by simpa using differ)
    simpa [AliasUpdate.save] using diverges
  named := by simp [AliasUpdate.save]
  below := by
    intro path commands member
    simp only [AliasUpdate.save, List.mem_cons, List.not_mem_nil, or_false,
      Prod.mk.injEq] at member
    generalize update.encoded = encoded at member
    rcases member with ⟨rfl, rfl⟩ | ⟨rfl, rfl⟩
    · exact below_leafDiff (update.base ++ ["description"]) _ _
    · exact below_diffLeaf (update.base ++ [update.type.memberLeaf]) _ _
  fresh := by
    intro isNew command member
    have isNew : update.live existing = none :=
      Option.isNone_iff_eq_none.mp isNew
    simp only [AliasUpdate.save, isNew, RecordSave.body, List.flatMap_cons,
      List.flatMap_nil, List.append_nil, List.mem_append] at member
    rcases member with described | listed
    · exact isSet_leafDiff _ described
    · exact isSet_diffLeaf _ listed
  apart := by
    rintro path member
    obtain ⟨place, moved, rfl⟩ := Option.map_eq_some_iff.mp member
    exact diverges_place
      (of_decide_eq_true (Option.filter_eq_some_iff.mp moved).2)

/-- What neither the alias nor the one it is renamed from is at. -/
theorem AliasUpdate.elsewhere {root : Cfg} {existing : List FirewallAlias}
    {probe : Path}
    (apart : Diverges update.base probe)
    (old : ∀ place, update.moved = some place →
      Diverges (groupPath place.1.node place.2) probe) :
    subtree probe (executeAll kinds (diffAlias existing update) root) =
      subtree probe root := by
  rw [diffAlias_eq]
  refine Spares.subtree_eq ((update.proper schema _).elsewhere apart ?_) root
  intro path member
  obtain ⟨place, moved, rfl⟩ := Option.map_eq_some_iff.mp member
  exact old place moved

variable {locale : Locale} {root : Cfg} (conforms : Conforms kinds root)
  (submitted : update.Submitted (fetchFirewall locale root).aliases)
include conforms submitted

omit schema in
/-- The alias that is edited, or none when there is none in its place. -/
theorem AliasUpdate.live_cases :
    ((subtree update.base root).isSome = true ∧
        ownedAt root update.type.node update.name = false ∧
        update.moved = none ∧
        update.live (fetchFirewall locale root).aliases =
          some (aliasAt root (update.type, update.name))) ∨
      (¬ ((subtree update.base root).isSome = true ∧
            ownedAt root update.type.node update.name = false) ∧
        update.live (fetchFirewall locale root).aliases = none) := by
  have finds : ∀ known : FirewallAlias,
      (decide (known.name = update.name) && decide (known.type = update.type)) =
        true ↔ (known.type, known.name) = (update.type, update.name) :=
    fun known => by simp [and_comm]
  have either :=
    (reads_aliases locale conforms).edited_or_new submitted.free finds
  rw [AliasUpdate.live]
  rcases either with ⟨⟨there, shown⟩, kept, found⟩ | ⟨hidden, missed⟩
  · have kept : update.moved = none := kept
    refine .inl ⟨there, shown, kept, ?_⟩
    rw [kept, if_neg (by simp), found]
  · refine .inr ⟨hidden, ?_⟩
    rw [missed, ite_self]

/-- What the description leaf reads afterwards. -/
theorem AliasUpdate.text_after :
    textAt (update.base ++ ["description"]) (executeAll kinds
        (diffAlias (fetchFirewall locale root).aliases update) root) =
      if update.encoded =
          (update.live (fetchFirewall locale root).aliases).bind
            FirewallAlias.encoded
      then textAt (update.base ++ ["description"]) root
      else update.encoded := by
  obtain ⟨typedName, accepts⟩ := submitted.named
  obtain ⟨typed, described⟩ := submitted.described
  have trims : update.encoded.bind trimmed = update.encoded :=
    trimmed_encode (friendly_of_formNames accepts)
      (described ▸ described_trimmed typed)
  have field := (schema.aliasFields update.type update.name
    (["description"], .single) (by simp)).below (schema.group _ _)
  have member : (["description"], leafDiff (update.base ++ ["description"])
      ((update.live (fetchFirewall locale root).aliases).bind
        FirewallAlias.encoded) update.encoded) ∈
      (update.save (fetchFirewall locale root).aliases).fields :=
    List.mem_cons_self
  have written := (update.proper schema _).field_at conforms member
    (yields_leafDiff field _ _)
  rw [← diffAlias_eq] at written
  exact textAt_written trims written

omit submitted in
/-- The members afterwards, where the live ones are those that are stored. -/
theorem AliasUpdate.members_after
    (stored : ((update.live (fetchFirewall locale root).aliases).map
        FirewallAlias.members).getD [] =
      leafValues (subtree (update.base ++ [update.type.memberLeaf]) root)) :
    SameMembers (leafValues (subtree (update.base ++ [update.type.memberLeaf])
      (executeAll kinds
        (diffAlias (fetchFirewall locale root).aliases update) root)))
      update.members := by
  have field := (schema.aliasFields update.type update.name
    ([update.type.memberLeaf], .multi) (by simp)).below (schema.group _ _)
  have yields : Yields kinds _ (subtree
      (update.base ++ [update.type.memberLeaf]) root) _ _ :=
    yields_diffLeaf field (trimmedMembers update.members)
  rw [← stored] at yields
  rw [diffAlias_eq]
  exact (update.proper schema _).field_at conforms
    (List.mem_cons_of_mem _ List.mem_cons_self) yields

omit schema submitted in
theorem AliasUpdate.unowned
    (free : ∀ auto ∈ (fetchFirewall locale root).autoGroups,
      (auto.node, auto.name) ≠ (update.type.node, update.name))
    (there : (subtree update.base root).isSome = true) :
    ownedAt root update.type.node update.name = false := by
  refine Bool.eq_false_iff.mpr fun owned => ?_
  have reads := reads_autoGroups locale conforms
  exact free _ (reads.mem_read.mpr ⟨⟨update.type, rfl⟩, there, owned⟩)
    (reads.keyed (update.type.node, update.name))

omit schema in
theorem AliasUpdate.absent
    (free : ∀ auto ∈ (fetchFirewall locale root).autoGroups,
      (auto.node, auto.name) ≠ (update.type.node, update.name))
    (new : update.live (fetchFirewall locale root).aliases = none) :
    subtree update.base root = none := by
  rcases AliasUpdate.live_cases conforms submitted with
    ⟨_, _, _, found⟩ | ⟨hidden, _⟩
  · rw [new] at found
    cases found
  · refine Option.isNone_iff_eq_none.mp (Option.isSome_eq_false_iff.mp ?_)
    refine Bool.eq_false_iff.mpr fun there => hidden ⟨there, ?_⟩
    exact AliasUpdate.unowned conforms free there

omit schema in
/-- The live members are those that are stored. -/
theorem AliasUpdate.stored
    (free : ∀ auto ∈ (fetchFirewall locale root).autoGroups,
      (auto.node, auto.name) ≠ (update.type.node, update.name)) :
    ((update.live (fetchFirewall locale root).aliases).map
        FirewallAlias.members).getD [] =
      leafValues (subtree (update.base ++ [update.type.memberLeaf]) root) := by
  have absent := AliasUpdate.absent conforms submitted free
  rcases AliasUpdate.live_cases conforms submitted with
    ⟨_, _, _, found⟩ | ⟨_, none⟩
  · rw [found]
    rfl
  · rw [none, subtree_append, absent none]
    rfl

/-- Without a group of the rule editor in the way, it comes to the text of the
description leaf. -/
theorem AliasUpdate.placed_iff
    (free : ∀ auto ∈ (fetchFirewall locale root).autoGroups,
      (auto.node, auto.name) ≠ (update.type.node, update.name)) :
    Placed (fun known : FirewallAlias => (known.type, known.name))
        (fetchFirewall locale root).aliases
        (fetchFirewall locale (executeAll kinds
          (diffAlias (fetchFirewall locale root).aliases update) root)).aliases
        update.moved (update.type, update.name) update.Shows ↔
      Firewall.Legible
        ((update.live (fetchFirewall locale root).aliases).map fun live =>
          (live.display, live.description))
        update.name update.display update.description fun text =>
          (displayMark text).isSome || startsWith text autoMark := by
  have cases' := AliasUpdate.live_cases conforms submitted
  have absent := AliasUpdate.absent conforms submitted free
  have stored := AliasUpdate.stored conforms submitted free
  have members := AliasUpdate.members_after schema conforms stored
  have text := AliasUpdate.text_after schema conforms submitted
  have there : (subtree update.base (executeAll kinds
      (diffAlias (fetchFirewall locale root).aliases update) root)).isSome =
      true := by
    rw [diffAlias_eq]
    refine (update.proper schema _).present conforms fun known => ?_
    rcases cases' with ⟨there, _⟩ | ⟨_, none⟩
    · exact there
    · simp [AliasUpdate.save, none] at known
  obtain ⟨typedName, accepts⟩ := submitted.named
  obtain ⟨typed, described⟩ := submitted.described
  have encoded := @reads_encode_alias update.name update.display
    update.description (friendly_of_formNames accepts)
    (described ▸ described_trimmed typed)
  rw [(reads_aliases locale conforms).placed_iff
    (reads_aliases locale conforms.executeAll)]
  · rw [← @legible_iff (fun text =>
      text.any (startsWith · autoMark) = false ∧
        decodeAliasDescription update.name text =
          (update.display, update.description)) _ _ _ _ encoded _
      (textAt (update.base ++ ["description"]) root) _ ?_ ?_ ?_]
    · constructor
      · rintro ⟨⟨_, shown⟩, shows⟩
        exact ⟨shown, Prod.ext shows.display shows.description⟩
      · rintro ⟨shown, reads⟩
        exact ⟨⟨there, shown⟩, congrArg Prod.fst reads, congrArg Prod.snd reads,
          members⟩
    · rintro shown found
      rcases cases' with ⟨_, owned, _, live⟩ | ⟨_, none⟩
      · rw [live] at found
        cases found
        exact and_iff_right owned
      · rw [none] at found
        cases found
    · intro none
      rw [textAt, subtree_append, absent (Option.map_eq_none_iff.mp none)]
      rfl
    · rw [text]
      rcases cases' with ⟨_, _, _, live⟩ | ⟨_, none⟩
      · rw [live]
        rfl
      · rw [none]
        rfl
  · intro other differs renamed
    have kept : subtree (groupPath other.1.node other.2) (executeAll kinds
        (diffAlias (fetchFirewall locale root).aliases update) root) =
        subtree (groupPath other.1.node other.2) root :=
      AliasUpdate.elsewhere schema (diverges_place (Ne.symm differs))
        fun place moved => diverges_place fun same => renamed (same ▸ moved)
    exact ⟨by rw [kept, ownedAt_congr kept], aliasAt_congr kept⟩
  · intro other _ moved listed
    have gone : subtree (groupPath other.1.node other.2) (executeAll kinds
        (update.save (fetchFirewall locale root).aliases).commands root) =
        none :=
      (update.proper schema _).gone (Option.mem_map_of_mem _ moved)
        (List.prefix_refl _)
    rw [← diffAlias_eq] at gone
    rw [gone] at listed
    cases listed.1

omit schema in
/-- A description that is taken away is there. -/
theorem AliasUpdate.described (plain : update.encoded = none)
    (marked : ((update.live (fetchFirewall locale root).aliases).bind
      FirewallAlias.encoded).isSome = true) :
    (subtree (update.base ++ ["description"]) root).isSome = true := by
  rcases AliasUpdate.live_cases conforms submitted with
    ⟨_, _, _, live⟩ | ⟨_, new⟩
  · rw [live, Option.bind_some] at marked
    exact @stored_of_encoded _ (encode_eq_none plain)
      (update.base ++ ["description"]) _ _ rfl marked
  · rw [new] at marked
    cases marked

theorem AliasUpdate.targeted
    (free : ∀ auto ∈ (fetchFirewall locale root).autoGroups,
      (auto.node, auto.name) ≠ (update.type.node, update.name)) :
    Targeted kinds (diffAlias (fetchFirewall locale root).aliases update)
      root := by
  rw [diffAlias_eq]
  refine (update.proper schema _).targeted conforms ?_ ?_
  · intro path member
    obtain ⟨place, moved, rfl⟩ := Option.map_eq_some_iff.mp member
    obtain ⟨known, listed, rfl⟩ := submitted.known place
      (Option.filter_eq_some_iff.mp moved).1
    exact ((reads_aliases locale conforms).listed_of_mem listed rfl).1
  · intro path commands member
    have described := AliasUpdate.described conforms submitted
    simp only [AliasUpdate.save, List.mem_cons, List.not_mem_nil, or_false,
      Prod.mk.injEq] at member
    generalize update.encoded = encoded at described member
    rcases member with ⟨rfl, rfl⟩ | ⟨rfl, rfl⟩
    · exact targets_leafDiff described
    · have field := (schema.aliasFields update.type update.name
        ([update.type.memberLeaf], .multi) (by simp)).below (schema.group _ _)
      rw [AliasUpdate.stored conforms submitted free]
      exact targets_diffLeaf field (nodup_leafValues conforms _) _

omit schema in
theorem AliasUpdate.settled (stays : update.moved = none) {known : FirewallAlias}
    (member : known ∈ (fetchFirewall locale root).aliases)
    (place : (known.type, known.name) = (update.type, update.name))
    (shows : update.Shows known) :
    diffAlias (fetchFirewall locale root).aliases update = [] := by
  have reads := reads_aliases locale conforms
  rcases AliasUpdate.live_cases conforms submitted with
    ⟨_, _, _, live⟩ | ⟨hidden, _⟩
  · rw [reads.eq_read member place] at live
    have name : known.name = update.name := (Prod.mk.inj place).2
    simp only [diffAlias, stays, live, Option.bind_some, name, shows.display,
      shows.description, leafDiff_self, Option.map_some, Option.getD_some,
      diffLeaf_of_same shows.members]
    rfl
  · exact absurd (reads.listed_of_mem member place) hidden

/-- A group that goes, and one that is put in place, is none of the rule
editor's before or afterwards. -/
theorem AliasUpdate.same_autoGroups
    (free : ∀ auto ∈ (fetchFirewall locale root).autoGroups,
      (auto.node, auto.name) ≠ (update.type.node, update.name))
    (placed : Placed (fun known : FirewallAlias => (known.type, known.name))
      (fetchFirewall locale root).aliases
      (fetchFirewall locale (executeAll kinds
        (diffAlias (fetchFirewall locale root).aliases update) root)).aliases
      update.moved (update.type, update.name) update.Shows) :
    Same FirewallConfig.autoGroups (fetchFirewall locale root)
      (fetchFirewall locale (executeAll kinds
        (diffAlias (fetchFirewall locale root).aliases update) root)) := by
  refine Firewall.same_autoGroups locale conforms conforms.executeAll
    fun type name => ?_
  by_cases here : (type, name) = (update.type, update.name)
  · obtain ⟨rfl, rfl⟩ := Prod.mk.inj here
    obtain ⟨⟨entry, _, only⟩, _⟩ := placed
    obtain ⟨listed, place⟩ := (only entry).mpr rfl
    exact .inr ⟨AliasUpdate.unowned conforms free,
      ((reads_aliases locale conforms.executeAll).listed_of_mem listed place).2⟩
  · by_cases renamed : update.moved = some (type, name)
    · refine .inr ⟨fun _ => ?_, ownedAt_of_absent ?_⟩
      · obtain ⟨known, listed, place⟩ := submitted.known (type, name)
          (Option.filter_eq_some_iff.mp renamed).1
        exact ((reads_aliases locale conforms).listed_of_mem listed place).2
      · rw [diffAlias_eq]
        exact (update.proper schema _).gone (Option.mem_map_of_mem _ renamed)
          (List.prefix_refl _)
    · exact .inl (AliasUpdate.elsewhere schema
        (@diverges_place _ (type, name) (Ne.symm here))
        fun place moved => @diverges_place place (type, name)
          fun same => renamed (same ▸ moved))

theorem AliasUpdate.saved_iff :
    update.Saved kinds locale root ↔
      update.Legible (fetchFirewall locale root) := by
  have free_of_saved : update.Saved kinds locale root →
      ∀ auto ∈ (fetchFirewall locale root).autoGroups,
        (auto.node, auto.name) ≠ (update.type.node, update.name) := by
    intro saved auto member same
    obtain ⟨⟨entry, _, only⟩, _⟩ := saved.placed
    obtain ⟨listed, place⟩ := (only entry).mpr rfl
    have kept := (saved.kept.1 auto).mpr member
    have shown := ((reads_aliases locale conforms.executeAll).listed_of_mem
      listed place).2
    have owned := ((reads_autoGroups locale conforms.executeAll).listed_of_mem
      kept same).2.2
    exact Bool.false_ne_true (shown.symm.trans owned)
  constructor
  · intro saved
    have free := free_of_saved saved
    exact ⟨free, (AliasUpdate.placed_iff schema conforms submitted free).mp
      saved.placed⟩
  · rintro ⟨free, legible⟩
    have placed := (AliasUpdate.placed_iff schema conforms submitted free).mpr
      legible
    refine ⟨placed, ⟨?_, ?_, ?_⟩,
      AliasUpdate.targeted schema conforms submitted free, ?_⟩
    · exact AliasUpdate.same_autoGroups schema conforms submitted free placed
    · refine same_policies locale conforms conforms.executeAll fun name => ?_
      exact AliasUpdate.elsewhere schema (diverges_groupPath fun same =>
        node_ne_portGroup _ (Prod.mk.inj same).1) fun place _ =>
          diverges_groupPath fun same =>
            node_ne_portGroup _ (Prod.mk.inj same).1
    · refine same_zones locale conforms conforms.executeAll fun name => ?_
      exact AliasUpdate.elsewhere schema (diverges_group_zone _ _ _)
        fun _ _ => diverges_group_zone _ _ _
    · intro stays known member place shows
      exact AliasUpdate.settled conforms submitted stays member place shows

end Aliases

/-! ## Policies -/

section Policies

variable {update : PolicyUpdate}

abbrev PolicyUpdate.base (update : PolicyUpdate) : Path :=
  FirewallPolicy.policyBase update.name

def PolicyUpdate.live (update : PolicyUpdate) (existing : List FirewallPolicy) :
    Option FirewallPolicy :=
  if update.moved.isSome then none
  else existing.find? fun known => known.name = update.name

def PolicyUpdate.save (existing : List FirewallPolicy) (update : PolicyUpdate) :
    RecordSave String :=
  let live := update.live existing
  { old := update.moved.map FirewallPolicy.policyBase
    base := update.base
    isNew := live.isNone
    fields :=
      [(["description"], leafDiff (update.base ++ ["description"])
          (live.map fun live =>
            encodePolicyDescription live.protocol live.description)
          (some (encodePolicyDescription update.protocol
            update.description))),
        (["port"], diffLeaf (update.base ++ ["port"])
          ((live.map FirewallPolicy.ports).getD [])
          (trimmedMembers update.ports))] }

theorem PolicyUpdate.base_save (existing : List FirewallPolicy) :
    (update.save existing).base = update.base := rfl

/-- The protocol of the rules with the policy follows its own. -/
def PolicyUpdate.syncs (existing : List FirewallPolicy)
    (rules : List FirewallRule) (update : PolicyUpdate) : List VyosCommand :=
  if (update.live existing).any fun live => live.protocol ≠ update.protocol then
    protocolSync rules update
  else []

theorem diffPolicy_eq (existing : List FirewallPolicy)
    (rules : List FirewallRule) :
    diffPolicy existing rules update =
      (update.save existing).commands ++ update.syncs existing rules := by
  have writes : withNode update.base (update.live existing).isNone
      (update.save existing).body = (update.save existing).body := by
    unfold withNode
    refine if_neg ?_
    rintro ⟨new, idle⟩
    rw [Option.isNone_iff_eq_none] at new
    simp [PolicyUpdate.save, RecordSave.body, new, leafDiff,
      QuartzFire.Command.isSet] at idle
  have body : (update.save existing).commands =
      (update.moved.toList.map fun name =>
          .delete (FirewallPolicy.policyBase name)) ++
        (update.save existing).body := by
    rw [RecordSave.commands]
    show _ ++ withNode update.base (update.live existing).isNone _ = _
    rw [writes]
    simp only [PolicyUpdate.save]
    cases update.moved <;> rfl
  rw [body]
  simp only [PolicyUpdate.save, RecordSave.body, List.flatMap_cons,
    List.flatMap_nil, List.append_nil, ← List.append_assoc]
  rfl

theorem spares_syncs {probe : Path} (existing : List FirewallPolicy)
    (rules : List FirewallRule)
    (apart : ∀ chain key more, Diverges (rulePath chain key ++ more) probe) :
    Spares probe (update.syncs existing rules) :=
  .ite (fun _ => .map fun _ _ => apart _ _ _) fun _ => .nil

theorem isSet_syncs (existing : List FirewallPolicy)
    (rules : List FirewallRule) :
    ∀ command ∈ update.syncs existing rules, command.isSet = true := by
  intro command member
  unfold PolicyUpdate.syncs at member
  split at member
  · obtain ⟨rule, _, rfl⟩ := List.mem_map.mp member
    rfl
  · cases member

variable {kinds : Kinds String} (schema : ObjectSchema kinds)
include schema

theorem PolicyUpdate.proper (existing : List FirewallPolicy) :
    (update.save existing).Proper kinds where
  nodes := schema.group _ _
  diverge := by
    simp only [PolicyUpdate.save, List.map_cons, List.map_nil]
    decide
  named := by simp [PolicyUpdate.save]
  below := by
    intro path commands member
    simp only [PolicyUpdate.save, List.mem_cons, List.not_mem_nil, or_false,
      Prod.mk.injEq] at member
    rcases member with ⟨rfl, rfl⟩ | ⟨rfl, rfl⟩
    · exact below_leafDiff (update.base ++ ["description"]) _ _
    · exact below_diffLeaf (update.base ++ ["port"]) _ _
  fresh := by
    intro isNew command member
    have isNew : update.live existing = none :=
      Option.isNone_iff_eq_none.mp isNew
    simp only [PolicyUpdate.save, isNew, RecordSave.body, List.flatMap_cons,
      List.flatMap_nil, List.append_nil, List.mem_append] at member
    rcases member with described | listed
    · exact isSet_leafDiff _ described
    · exact isSet_diffLeaf _ listed
  apart := by
    rintro path member
    obtain ⟨name, moved, rfl⟩ := Option.map_eq_some_iff.mp member
    have differs : name ≠ update.name :=
      of_decide_eq_true (Option.filter_eq_some_iff.mp moved).2
    exact diverges_groupPath fun same => differs (Prod.mk.inj same).2

omit schema in
/-- The rules that follow are written apart from all groups and zones. -/
theorem PolicyUpdate.subtree_after {root : Cfg}
    {existing : List FirewallPolicy} {rules : List FirewallRule} {probe : Path}
    (apart : ∀ chain key more, Diverges (rulePath chain key ++ more) probe) :
    subtree probe (executeAll kinds (diffPolicy existing rules update) root) =
      subtree probe (executeAll kinds (update.save existing).commands root) := by
  rw [diffPolicy_eq, executeAll_append]
  exact (spares_syncs existing rules apart).subtree_eq _

variable {locale : Locale} {root : Cfg} (conforms : Conforms kinds root)
  (submitted : update.Submitted (fetchFirewall locale root).policies)
include conforms submitted

omit schema in
/-- The policy that is edited, or none when there is none of its name. -/
theorem PolicyUpdate.live_cases :
    ((subtree update.base root).isSome = true ∧ update.moved = none ∧
        update.live (fetchFirewall locale root).policies =
          some (policyAt root update.name)) ∨
      (subtree update.base root = none ∧
        update.live (fetchFirewall locale root).policies = none) := by
  have reads := reads_policies locale conforms
  rw [PolicyUpdate.live]
  rcases reads.edited_or_new submitted.free fun known =>
      decide_eq_true_iff (p := known.name = update.name) with
    ⟨there, kept, found⟩ | ⟨hidden, missed⟩
  · have kept : update.moved = none := kept
    refine .inl ⟨there, kept, ?_⟩
    rw [kept, if_neg (by simp), found]
  · refine .inr ⟨?_, by rw [missed, ite_self]⟩
    exact Option.isNone_iff_eq_none.mp
      (Option.isSome_eq_false_iff.mp (Bool.eq_false_iff.mpr hidden))

/-- The description leaf is read as it was typed, written or not. -/
theorem PolicyUpdate.read_after :
    decodePolicyDescription (textAt (update.base ++ ["description"])
        (executeAll kinds (update.save
          (fetchFirewall locale root).policies).commands root)) =
      (update.protocol, update.description) := by
  have described := described_of_typed submitted.described
  have field := (schema.policyFields update.name (["description"], .single)
    (by simp)).below (schema.group _ _)
  have member : (["description"], leafDiff (update.base ++ ["description"])
      ((update.live (fetchFirewall locale root).policies).map fun live =>
        encodePolicyDescription live.protocol live.description)
      (some (encodePolicyDescription update.protocol update.description))) ∈
      (update.save (fetchFirewall locale root).policies).fields :=
    List.mem_cons_self
  have written := (update.proper schema _).field_at conforms member
    (yields_leafDiff field _ _)
  have trims : (some (encodePolicyDescription update.protocol
      update.description)).bind trimmed =
      some (encodePolicyDescription update.protocol update.description) := by
    rw [Option.bind_some, trimmed_encodePolicy described]
  have text := textAt_written trims written
  have decoded := @decode_encodePolicy update.protocol _ described
  rw [PolicyUpdate.base_save] at text
  rw [text]
  split
  · rename_i same
    rcases PolicyUpdate.live_cases conforms submitted with
      ⟨_, _, live⟩ | ⟨_, new⟩
    · -- The mark is always written, so what is stored is told from it.
      have stored := described_decodePolicy
        (trimmed_textAt (update.base ++ ["description"]) root)
      have shown := @decode_encodePolicy (decodePolicyDescription
        (textAt (update.base ++ ["description"]) root)).1 _ stored
      rw [live, Option.map_some, Option.some.injEq] at same
      rw [← decoded, same]
      exact shown.symm
    · rw [new] at same
      cases same
  · exact decoded

omit schema in
theorem PolicyUpdate.stored :
    ((update.live (fetchFirewall locale root).policies).map
        FirewallPolicy.ports).getD [] =
      leafValues (subtree (update.base ++ ["port"]) root) := by
  rcases PolicyUpdate.live_cases conforms submitted with
    ⟨_, _, live⟩ | ⟨absent, new⟩
  · rw [live]
    rfl
  · rw [new, subtree_append, absent]
    rfl

theorem PolicyUpdate.ports_after :
    SameMembers (leafValues (subtree (update.base ++ ["port"])
      (executeAll kinds (update.save
        (fetchFirewall locale root).policies).commands root)))
      update.ports := by
  have field := (schema.policyFields update.name (["port"], .multi)
    (by simp)).below (schema.group _ _)
  have yields := @yields_diffLeaf kinds (update.base ++ ["port"])
    (subtree (update.base ++ ["port"]) root) field (trimmedMembers update.ports)
  rw [← PolicyUpdate.stored conforms submitted] at yields
  exact (update.proper schema _).field_at conforms
    (List.mem_cons_of_mem _ List.mem_cons_self) yields

omit conforms submitted in
theorem PolicyUpdate.elsewhere {existing : List FirewallPolicy}
    {rules : List FirewallRule} {probe : Path}
    (follows : ∀ chain key more, Diverges (rulePath chain key ++ more) probe)
    (apart : Diverges update.base probe)
    (old : ∀ name, update.moved = some name →
      Diverges (FirewallPolicy.policyBase name) probe) :
    subtree probe (executeAll kinds (diffPolicy existing rules update) root) =
      subtree probe root := by
  rw [PolicyUpdate.subtree_after follows]
  refine Spares.subtree_eq ((update.proper schema _).elsewhere apart ?_) root
  intro path member
  obtain ⟨name, moved, rfl⟩ := Option.map_eq_some_iff.mp member
  exact old name moved

theorem PolicyUpdate.placed :
    Placed FirewallPolicy.name (fetchFirewall locale root).policies
      (fetchFirewall locale (executeAll kinds
        (diffPolicy (fetchFirewall locale root).policies
          (fetchFirewall locale root).rules update) root)).policies
      update.moved update.name update.Shows := by
  have same : ∀ more, subtree (update.base ++ more) (executeAll kinds
      (diffPolicy (fetchFirewall locale root).policies
        (fetchFirewall locale root).rules update) root) =
      subtree (update.base ++ more) (executeAll kinds (update.save
        (fetchFirewall locale root).policies).commands root) := fun more =>
    PolicyUpdate.subtree_after fun chain key rest =>
      diverges_rule_group chain key rest _ _ more
  rw [(reads_policies locale conforms).placed_iff
    (reads_policies locale conforms.executeAll)]
  · constructor
    · have there := (update.proper schema
        (fetchFirewall locale root).policies).present conforms
        fun known => by
          rcases PolicyUpdate.live_cases conforms submitted with
            ⟨there, _⟩ | ⟨_, new⟩
          · exact there
          · simp [PolicyUpdate.save, new] at known
      have node := same []
      rw [List.append_nil] at node
      rw [node]
      exact there
    · have read := PolicyUpdate.read_after schema conforms submitted
      have ports := PolicyUpdate.ports_after schema conforms submitted
      rw [← textAt_congr (same ["description"])] at read
      rw [← same ["port"]] at ports
      exact ⟨congrArg Prod.fst read, congrArg Prod.snd read, ports⟩
  · intro other differs renamed
    have kept : subtree (FirewallPolicy.policyBase other) (executeAll kinds
        (diffPolicy (fetchFirewall locale root).policies
          (fetchFirewall locale root).rules update) root) =
        subtree (FirewallPolicy.policyBase other) root := by
      apply PolicyUpdate.elsewhere schema
      · intro chain key more
        have apart := diverges_rule_group chain key more "port-group" other []
        rwa [List.append_nil] at apart
      · exact diverges_policyName (Ne.symm differs)
      · intro name moved
        exact diverges_policyName fun same => renamed (same ▸ moved)
    exact ⟨by rw [kept], policyAt_congr kept⟩
  · intro other _ moved listed
    have gone := @RecordSave.Proper.gone _ _ _ _ root
      (update.proper schema (fetchFirewall locale root).policies) _ _
      (Option.mem_map_of_mem FirewallPolicy.policyBase moved)
      (List.prefix_refl _)
    rw [PolicyUpdate.subtree_after fun chain key more => by
      have apart := diverges_rule_group chain key more "port-group" other []
      rwa [List.append_nil] at apart, gone] at listed
    cases listed

theorem PolicyUpdate.targeted :
    Targeted kinds (diffPolicy (fetchFirewall locale root).policies
      (fetchFirewall locale root).rules update) root := by
  rw [diffPolicy_eq]
  refine .append ?_ (.ofSets (isSet_syncs _ _))
  refine (update.proper schema _).targeted conforms ?_ ?_
  · intro path member
    obtain ⟨name, moved, rfl⟩ := Option.map_eq_some_iff.mp member
    obtain ⟨known, listed, rfl⟩ := submitted.known name
      (Option.filter_eq_some_iff.mp moved).1
    exact (reads_policies locale conforms).listed_of_mem listed rfl
  · intro path commands member
    simp only [PolicyUpdate.save, List.mem_cons, List.not_mem_nil, or_false,
      Prod.mk.injEq] at member
    rcases member with ⟨rfl, rfl⟩ | ⟨rfl, rfl⟩
    · exact targets_leafDiff fun none => by cases none
    · have field := (schema.policyFields update.name (["port"], .multi)
        (by simp)).below (schema.group _ _)
      rw [PolicyUpdate.stored conforms submitted]
      exact targets_diffLeaf field (nodup_leafValues conforms _) _

omit schema in
theorem PolicyUpdate.settled (stays : update.moved = none)
    {policy : FirewallPolicy}
    (member : policy ∈ (fetchFirewall locale root).policies)
    (place : policy.name = update.name) (shows : update.Shows policy) :
    diffPolicy (fetchFirewall locale root).policies
      (fetchFirewall locale root).rules update = [] := by
  have reads := reads_policies locale conforms
  rcases PolicyUpdate.live_cases conforms submitted with
    ⟨_, _, live⟩ | ⟨absent, _⟩
  · rw [reads.eq_read member place] at live
    rw [diffPolicy_eq, RecordSave.commands, PolicyUpdate.syncs]
    simp only [PolicyUpdate.save, RecordSave.body, stays, live,
      Option.map_some, shows.protocol, shows.description, leafDiff_self,
      Option.getD_some, diffLeaf_of_same shows.ports]
    simp [withNode, shows.protocol]
  · have listed := reads.listed_of_mem member place
    rw [absent] at listed
    cases listed

/-- A policy is always put in place as the form has it. -/
theorem PolicyUpdate.saved : update.Saved kinds locale root := by
  have groups : ∀ (type : AliasType) name,
      subtree (groupPath type.node name) (executeAll kinds
        (diffPolicy (fetchFirewall locale root).policies
          (fetchFirewall locale root).rules update) root) =
        subtree (groupPath type.node name) root := by
    intro type name
    apply PolicyUpdate.elsewhere schema
    · intro chain key more
      have apart := diverges_rule_group chain key more type.node name []
      rwa [List.append_nil] at apart
    · exact diverges_groupPath fun same =>
        node_ne_portGroup type (Prod.mk.inj same).1.symm
    · exact fun _ _ => diverges_groupPath fun same =>
        node_ne_portGroup type (Prod.mk.inj same).1.symm
  refine ⟨PolicyUpdate.placed schema conforms submitted, ⟨?_, ?_, ?_⟩,
    PolicyUpdate.targeted schema conforms submitted, ?_⟩
  · exact same_aliases locale conforms conforms.executeAll groups
  · exact same_autoGroups locale conforms conforms.executeAll
      fun type name => .inl (groups type name)
  · refine same_zones locale conforms conforms.executeAll fun name => ?_
    apply PolicyUpdate.elsewhere schema
    · exact fun chain key more => diverges_rule_zone chain key more name
    · exact diverges_group_zone _ _ _
    · exact fun _ _ => diverges_group_zone _ _ _
  · intro stays policy member place shows
    exact PolicyUpdate.settled conforms submitted stays member place shows

end Policies

end QuartzFire.Firewall
