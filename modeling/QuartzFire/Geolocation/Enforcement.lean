import QuartzFire.Geolocation.Closure

/-!
# What the rendered table enforces

A packet that opens a connection is dropped in a hook exactly if a policy there
matches it and the policy's action drops one of the addresses it looks at.
-/

namespace QuartzFire.Geolocation

open Nft

/-! ## Packets and the database -/

/-- `Rest` is what only the replicated matches read. -/
structure GeoPacket (Rest : Type) where
  addresses : Addresses
  state : ConnState
  rest : Rest

/-- The networks of a country, and all that are classified. -/
structure Database where
  networks : String → Family → List String
  allNetworks : Family → List String

section Meaning

variable {Rest : Type} (matching : Match → GeoPacket Rest → Bool)
  (covers : String → IpAddr → Bool) (db : Database)

def GeoPacket.read (packet : GeoPacket Rest) : AddrField → IpAddr
  | .saddr => packet.addresses.source
  | .daddr => packet.addresses.destination

def inElements (elements : List String) (addr : IpAddr) : Bool :=
  elements.any fun element => covers element addr

/-- Whether the set of a country for its family has an address. -/
def inSets (sets : List (String × List String)) (cc : String)
    (addr : IpAddr) : Bool :=
  inElements covers ((sets.lookup (setName cc addr.family)).getD []) addr

/-- A lookup asks for the family first. -/
def GeoTest.holds (sets : List (String × List String))
    (packet : GeoPacket Rest) : GeoTest → Bool
  | .ctStateNew => packet.state = .new
  | .replicated expr => matching expr packet
  | .lookup family field negated sname =>
      let addr := packet.read field
      (addr.family = family : Bool) &&
        (inElements covers ((sets.lookup sname).getD []) addr != negated)

def geoMeaning (sets : List (String × List String)) :
    Interpretation GeoTest GeoEffect (GeoPacket Rest) where
  holds test packet := test.holds matching covers sets packet
  apply _ packet := packet

def Script.chain (script : Script) (name : String) : List GeoRule :=
  ((script.chains.find? fun chain => chain.name = name).map
    ChainDecl.rules).getD []

/-- What becomes of a packet in a hook. -/
def fate (rendered : Option Script) (hook : String)
    (packet : GeoPacket Rest) : Fate Empty :=
  match rendered with
  | none => .accept
  | some script =>
      (runHook (geoMeaning matching covers script.sets) script.chain hook
        packet).1

/-! ## Actions -/

def Action.lists (action : Action) (addr : IpAddr) : Bool :=
  action.countries.any fun cc =>
    inElements covers (db.networks cc.toUpper addr.family) addr

def classified (addr : IpAddr) : Bool :=
  inElements covers (db.allNetworks addr.family) addr

/-- Whether an action drops an address. -/
def Action.drops (action : Action) (addr : IpAddr) : Bool :=
  if action.mode = some "block-listed" then
    action.lists covers db addr ||
      (action.unknown = "block" && !classified covers db addr)
  else
    !action.lists covers db addr &&
      (action.unknown = "block" || classified covers db addr)

/-- Whether an action drops a packet that a policy looks at in a direction. -/
def Action.dropsPacket (action : Action) (direction : String)
    (packet : GeoPacket Rest) : Bool :=
  (direction ∈ ["source", "both"] &&
      action.drops covers db packet.addresses.source) ||
    (direction ∈ ["destination", "both"] &&
      action.drops covers db packet.addresses.destination)

/-- The sets a model needs hold the networks of the database. -/
structure Loaded (model : Model) (sets : List (String × List String)) :
    Prop where
  declared : sets.map Prod.fst = requiredSets model
  country : ∀ cc ∈ (inUse model).countries, ∀ addr : IpAddr,
    inSets covers sets cc addr =
      inElements covers (db.networks cc addr.family) addr
  known : (inUse model).needKnown = true → ∀ addr : IpAddr,
    inSets covers sets known addr = classified covers db addr

end Meaning

/-! ## Chains of actions -/

section Chains

variable {Rest : Type} {matching : Match → GeoPacket Rest → Bool}
  {covers : String → IpAddr → Bool} {db : Database}
  {sets : List (String × List String)}
  {call : String → GeoPacket Rest → Progress Empty × GeoPacket Rest}
  {packet : GeoPacket Rest}

theorem runRule_verdict (name : String) (action : Action) :
    runRule (geoMeaning matching covers sets) call (verdict name action)
        packet = (.done .drop, packet) := by
  rw [verdict]
  cases action.log <;> rfl

/-- Over both families, a lookup is one in the set of the packet's family. -/
theorem any_families (field : AddrField) (cc : String) (negated : Bool) :
    ([Family.v4, .v6].any fun family =>
        (geoMeaning matching covers sets).holds
          (.lookup family field negated (setName cc family)) packet) =
      (inSets covers sets cc (packet.read field) != negated) := by
  simp only [geoMeaning, GeoTest.holds, inSets, List.any_cons, List.any_nil,
    Bool.or_false]
  cases (packet.read field).family <;> simp

/-- The rules of a country ask for its sets. -/
theorem runRules_countries {progress : Progress Empty} {codes : List String}
    {field : AddrField} {rulesOf : String → List GeoRule}
    {ruleOf : String → Family → GeoRule} (proper : progress ≠ .next)
    (expands : ∀ cc, rulesOf cc = [Family.v4, .v6].map (ruleOf cc))
    (each : ∀ cc family,
      runRule (geoMeaning matching covers sets) call (ruleOf cc family) packet =
        if (geoMeaning matching covers sets).holds
            (.lookup family field false (setName cc family)) packet then
          (progress, packet) else (.next, packet)) :
    runRules (geoMeaning matching covers sets) call (codes.flatMap rulesOf)
        packet =
      if codes.any fun cc => inSets covers sets cc (packet.read field) then
        (progress, packet) else (.next, packet) := by
  have flat : codes.flatMap rulesOf =
      (codes.flatMap fun cc => [Family.v4, .v6].map (Prod.mk cc)).map
        fun pair => ruleOf pair.1 pair.2 := by
    rw [List.map_flatMap]
    refine List.flatMap_congr fun cc _ => ?_
    rw [expands, List.map_map]
    rfl
  rw [flat, runRules_map_alike proper fun pair _ => each pair.1 pair.2,
    List.any_flatMap]
  have pairs : ∀ cc, (([Family.v4, .v6].map (Prod.mk cc)).any fun pair =>
      (geoMeaning matching covers sets).holds (.lookup pair.2 field false
        (setName pair.1 pair.2)) packet) =
      inSets covers sets cc (packet.read field) := by
    intro cc
    have own := @any_families Rest matching covers sets packet field cc false
    rw [Bool.bne_false] at own
    rw [List.any_map, ← own]
    rfl
  simp only [pairs]

theorem runRules_blockCountries (codes : List String) (name : String)
    (action : Action) (field : AddrField) :
    runRules (geoMeaning matching covers sets) call
        (codes.flatMap (blockCountry name action field)) packet =
      if codes.any fun cc => inSets covers sets cc (packet.read field) then
        (.done .drop, packet) else (.next, packet) := by
  refine runRules_countries (by simp) (fun _ => rfl) fun cc family => ?_
  rw [List.cons_append, inSet, runRule_test, List.singleton_append,
    runRule_effect, runRule_verdict]
  rfl

theorem runRules_passCountries (codes : List String) (field : AddrField) :
    runRules (geoMeaning matching covers sets) call
        (codes.flatMap (passCountry field)) packet =
      if codes.any fun cc => inSets covers sets cc (packet.read field) then
        (.leave, packet) else (.next, packet) :=
  runRules_countries (by simp) (fun _ => rfl) fun _ _ => rfl

theorem runRules_passUnknown (field : AddrField) :
    runRules (geoMeaning matching covers sets) call (passUnknown field)
        packet =
      if inSets covers sets known (packet.read field) then
        (.next, packet) else (.leave, packet) := by
  have passed : runRules (geoMeaning matching covers sets) call
      (passUnknown field) packet =
      if [Family.v4, .v6].any fun family =>
        (geoMeaning matching covers sets).holds
          (.lookup family field true (setName known family)) packet then
        (.leave, packet) else (.next, packet) :=
    runRules_map_alike (by simp) fun _ _ => rfl
  rw [passed, any_families]
  cases inSets covers sets known (packet.read field) <;> rfl

theorem runRules_verdict (name : String) (action : Action) :
    runRules (geoMeaning matching covers sets) call [verdict name action]
        packet = (.done .drop, packet) :=
  runRules_cons_ended (runRule_verdict name action) (by simp)

/-- Behind the listed countries, an action that blocks unknown addresses lets
the classified ones back. -/
theorem runRules_blockUnknown (name : String) (action : Action)
    (field : AddrField) :
    runRules (geoMeaning matching covers sets) call
        (passCountry field known ++ [verdict name action]) packet =
      if inSets covers sets known (packet.read field) then (.leave, packet)
      else (.done .drop, packet) := by
  have passed : runRules (geoMeaning matching covers sets) call
      (passCountry field known) packet =
      if inSets covers sets known (packet.read field) then (.leave, packet)
      else (.next, packet) := by
    simpa using runRules_passCountries [known] field
  rw [runRules_append, passed]
  cases inSets covers sets known (packet.read field) with
  | true => rfl
  | false => exact runRules_verdict name action

/-- Behind the listed countries, an action that allows only them may let the
unknown addresses back. -/
theorem runRules_allowUnknown (name : String) (action : Action)
    (field : AddrField) :
    runRules (geoMeaning matching covers sets) call
        (passUnknown field ++ [verdict name action]) packet =
      if inSets covers sets known (packet.read field) then
        (.done .drop, packet) else (.leave, packet) := by
  rw [runRules_append, runRules_passUnknown]
  cases inSets covers sets known (packet.read field) with
  | true => exact runRules_verdict name action
  | false => rfl

/-- What the sets say of an action's countries is what the database says. -/
theorem any_codes {model : Model} (loaded : Loaded covers db model sets)
    {name : String} {action : Action}
    (used : name ∈ (inUse model).usedActions)
    (configured : model.actions.lookup name = some action) (addr : IpAddr) :
    (action.codes.any fun cc => inSets covers sets cc addr) =
      action.lists covers db addr := by
  have each : ∀ cc ∈ action.codes, inSets covers sets cc addr =
      inElements covers (db.networks cc addr.family) addr :=
    fun cc listed =>
      loaded.country cc (country_mem_inUse used configured listed) addr
  rw [Action.lists, Bool.eq_iff_iff, List.any_eq_true, List.any_eq_true]
  constructor
  · rintro ⟨cc, listed, inside⟩
    rw [each cc listed] at inside
    rw [Action.codes, mem_orderedTexts] at listed
    obtain ⟨own, written, rfl⟩ := List.mem_map.mp listed
    exact ⟨own, written, inside⟩
  · rintro ⟨own, written, inside⟩
    have listed : own.toUpper ∈ action.codes := by
      rw [Action.codes, mem_orderedTexts]
      exact List.mem_map_of_mem written
    exact ⟨own.toUpper, listed, by rw [each _ listed]; exact inside⟩

/-- The chain of an action drops the packet if the action drops the address it
reads, and otherwise hands it back. -/
theorem resume_actionChainRules {model : Model} (validated : Validated model)
    (loaded : Loaded covers db model sets) {name : String} {action : Action}
    (used : name ∈ (inUse model).usedActions)
    (configured : model.actions.lookup name = some action)
    (direction : String) :
    resume (runRules (geoMeaning matching covers sets) call
        (actionChainRules name action direction) packet) =
      if action.drops covers db (packet.read (fieldOf direction)) then
        (.done .drop, packet) else (.next, packet) := by
  have lists := any_codes loaded used configured
    (packet.read (fieldOf direction))
  have whole : action.needsKnown = true →
      inSets covers sets known (packet.read (fieldOf direction)) =
        classified covers db (packet.read (fieldOf direction)) :=
    fun needs => loaded.known (needKnown_of_used used configured needs) _
  rw [actionChainRules, Action.drops]
  rcases validated.mode configured with blocks | allows
  · rw [if_pos blocks, if_pos blocks, runRules_append,
      runRules_blockCountries, lists]
    cases action.lists covers db (packet.read (fieldOf direction)) with
    | true => rfl
    | false =>
        rcases validated.unknown configured with passes | drops
        · have needless : action.needsKnown = false := by
            simp [Action.needsKnown, blocks, passes]
          rw [needless]
          simp [passes, resume]
        · have needs : action.needsKnown = true := by
            simp [Action.needsKnown, blocks, drops]
          simp only [needs, if_true, Bool.false_eq_true, if_false, drops,
            runRules_blockUnknown, whole needs, Bool.false_or, decide_true,
            Bool.true_and]
          cases classified covers db (packet.read (fieldOf direction)) <;> rfl
  · have listing : action.mode ≠ some "block-listed" := by simp [allows]
    rw [if_neg listing, if_neg listing, runRules_append,
      runRules_passCountries, lists]
    cases action.lists covers db (packet.read (fieldOf direction)) with
    | true => rfl
    | false =>
        rcases validated.unknown configured with passes | drops
        · have needs : action.needsKnown = true := by
            simp [Action.needsKnown, allows, passes]
          simp only [needs, if_true, Bool.false_eq_true, if_false, passes,
            runRules_allowUnknown, whole needs, Bool.not_false, Bool.true_and]
          cases classified covers db (packet.read (fieldOf direction)) <;> rfl
        · have needless : action.needsKnown = false := by
            simp [Action.needsKnown, allows, drops]
          simp only [needless, Bool.false_eq_true, if_false, List.nil_append,
            runRules_verdict, drops, Bool.not_false, Bool.true_and,
            decide_true, Bool.true_or, if_true]
          rfl

/-! ## Hooks -/

theorem runRule_jumpRule (policy : Nat) (expr : Match)
    (action direction : String) :
    runRule (geoMeaning matching covers sets) call
        (jumpRule policy expr action direction) packet =
      if packet.state = .new ∧ (expr = [] ∨ matching expr packet = true) then
        resume (call (chainName action direction) packet)
      else (.next, packet) := by
  rw [jumpRule, List.append_assoc, List.singleton_append, runRule_test]
  by_cases opens : packet.state = .new
  · rw [if_pos (by exact decide_eq_true opens)]
    by_cases any : expr = []
    · rw [if_pos any, if_pos ⟨opens, .inl any⟩]
      rfl
    · rw [if_neg any, List.singleton_append, runRule_test]
      simp only [opens, any, false_or, true_and]
      rfl
  · rw [if_neg (by exact fun holds => opens (of_decide_eq_true holds)),
      if_neg fun both => opens both.1]

variable {model : Model} {found : List (Nat × Option Match)}
  {hookAt : List (Nat × String)}
  {counterSeed countrySeed : List (String × (Nat × Nat))} {script : Script}

theorem chain_eq (rendered : renderFull model found hookAt sets counterSeed
      countrySeed = some script) {chain : ChainDecl}
    (declared : chain ∈ script.chains) :
    script.chain chain.name = chain.rules := by
  have distinct := chains_nodup rendered
  rw [Script.chain]
  generalize script.chains = chains at declared distinct
  induction chains with
  | nil => cases declared
  | cons first rest ih =>
      rw [List.map_cons, List.nodup_cons] at distinct
      rcases List.mem_cons.mp declared with rfl | later
      · simp
      · have other : first.name ≠ chain.name := fun same =>
          distinct.1 (same ▸ List.mem_map_of_mem later)
        rw [List.find?_cons_of_neg (by simpa using other)]
        exact ih later distinct.2

/-- The chain of a hook has the rules of the policies there. -/
theorem chain_hook (rendered : renderFull model found hookAt sets counterSeed
      countrySeed = some script) {hook : String}
    (base : hook ∈ hooks.map Prod.fst) :
    script.chain hook =
      ((jumps model found hookAt).filter fun jump => jump.hook = hook).map
        Jump.rule := by
  obtain ⟨entry, inHooks, rfl⟩ := List.mem_map.mp base
  obtain ⟨_, _, chains⟩ := renderFull_eq rendered
  by_cases empty : ((jumps model found hookAt).filter fun jump =>
      jump.hook = entry.1).map Jump.rule = []
  · have undeclared : ∀ chain ∈ script.chains, chain.name ≠ entry.1 := by
      intro chain member same
      rw [chains, List.mem_append] at member
      rcases member with ofAction | ofHook
      · obtain ⟨name, direction, action, _, _, rfl⟩ :=
          mem_actionChains.mp ofAction
        refine chainName_notMem_hooks name direction ?_
        rw [show chainName name direction = entry.1 from same]
        exact base
      · obtain ⟨other, _, made⟩ := List.mem_filterMap.mp ofHook
        obtain ⟨filled, made⟩ := Option.ite_none_left_eq_some.mp made
        cases made
        refine filled ?_
        rw [show other.1 = entry.1 from same]
        exact empty
    rw [Script.chain, List.find?_eq_none.mpr (by simpa using undeclared),
      empty]
    rfl
  · have declared : (⟨entry.1, some entry.2, ((jumps model found hookAt).filter
        fun jump => jump.hook = entry.1).map Jump.rule⟩ : ChainDecl) ∈
          script.chains := by
      rw [chains, List.mem_append]
      exact .inr (List.mem_filterMap.mpr ⟨entry, inHooks, if_neg empty⟩)
    exact chain_eq rendered declared

theorem chain_action (rendered : renderFull model found hookAt sets counterSeed
      countrySeed = some script) {name direction : String} {action : Action}
    (used : (name, direction) ∈ usedPairs model found hookAt)
    (configured : model.actions.lookup name = some action) :
    script.chain (chainName name direction) =
      actionChainRules name action direction := by
  have declared : (⟨chainName name direction, none,
      actionChainRules name action direction⟩ : ChainDecl) ∈ script.chains := by
    rw [(renderFull_eq rendered).2.2, List.mem_append]
    exact .inl (mem_actionChains.mpr
      ⟨name, direction, action, used, configured, rfl⟩)
  exact chain_eq rendered declared

theorem runRule_jump (validated : Validated model)
    (loaded : Loaded covers db model sets)
    (rendered : renderFull model found hookAt sets counterSeed countrySeed =
      some script) (opens : packet.state = .new) {policy : Policy}
    {expr : Match} {name : String} {action : Action} {ruleset : String}
    (listed : policy ∈ model.policies)
    (enforced : Enforced model found policy expr name action ruleset)
    {direction : String} (inside : direction ∈ directionsOf policy) :
    runRule (geoMeaning matching covers sets)
        (runChain (geoMeaning matching covers sets) script.chain jumpDepth)
        (jumpRule policy.id expr name direction) packet =
      if (expr = [] ∨ matching expr packet = true) ∧
          action.drops covers db (packet.read (fieldOf direction)) = true then
        (.done .drop, packet) else (.next, packet) := by
  have used : (name, direction) ∈ usedPairs model found hookAt :=
    mem_usedPairs.mpr ⟨_, mem_jumps.mpr ⟨policy, listed, expr, name, action,
      ruleset, enforced, direction, inside, rfl⟩, rfl, rfl⟩
  have called := @resume_actionChainRules Rest matching covers db sets
    (runChain (geoMeaning matching covers sets) script.chain 15) packet model
    validated loaded name action (used_of_mem_usedPairs used).2.choose_spec.2
    enforced.action direction
  rw [← chain_action rendered used enforced.action] at called
  rw [runRule_jumpRule, jumpDepth, runChain, called]
  simp only [opens, true_and]
  split_ifs <;> simp_all

theorem dropsPacket_iff {policy : Policy} (known : policy.direction ∈ directions)
    (action : Action) :
    action.dropsPacket covers db policy.direction packet = true ↔
      ∃ direction ∈ directionsOf policy,
        action.drops covers db (packet.read (fieldOf direction)) = true := by
  have destination : fieldOf "destination" = .daddr := by decide
  simp only [directions, List.mem_cons, List.not_mem_nil, or_false] at known
  rcases known with source | only | both
  · simp [Action.dropsPacket, directionsOf, source, fieldOf, GeoPacket.read]
  · simp [Action.dropsPacket, directionsOf, only, destination, GeoPacket.read]
  · simp [Action.dropsPacket, directionsOf, both, fieldOf, GeoPacket.read]

/-- A hook drops a packet if one of its jumps does. -/
theorem runHook_jumps (validated : Validated model)
    (loaded : Loaded covers db model sets)
    (rendered : renderFull model found hookAt sets counterSeed countrySeed =
      some script) (opens : packet.state = .new) {hook : String}
    (base : hook ∈ hooks.map Prod.fst) :
    (runHook (geoMeaning matching covers sets) script.chain hook packet).1 =
        .drop ↔
      ∃ jump ∈ jumps model found hookAt, jump.hook = hook ∧
        runRule (geoMeaning matching covers sets)
          (runChain (geoMeaning matching covers sets) script.chain jumpDepth)
          jump.rule packet = (.done .drop, packet) := by
  have each : ∀ rule ∈ script.chain hook,
      runRule (geoMeaning matching covers sets)
          (runChain (geoMeaning matching covers sets) script.chain jumpDepth)
          rule packet = (.done .drop, packet) ∨
        runRule (geoMeaning matching covers sets)
          (runChain (geoMeaning matching covers sets) script.chain jumpDepth)
          rule packet = (.next, packet) := by
    rw [chain_hook rendered base]
    intro rule member
    obtain ⟨jump, atHook, rfl⟩ := List.mem_map.mp member
    obtain ⟨policy, listed, expr, name, action, ruleset, enforced, direction,
      inside, rfl⟩ := mem_jumps.mp (List.mem_filter.mp atHook).1
    rw [runRule_jump validated loaded rendered opens listed enforced inside]
    split
    · exact .inl rfl
    · exact .inr rfl
  have rules : ∀ outcome : GeoRule → Prop,
      (∃ rule ∈ script.chain hook, outcome rule) ↔
        ∃ jump ∈ jumps model found hookAt, jump.hook = hook ∧
          outcome jump.rule := by
    intro outcome
    rw [chain_hook rendered base]
    simp [and_assoc]
  rw [runHook_eq]
  rcases runRules_ends (by simp) each with ⟨some, ran⟩ | ⟨none, ran⟩
  · rw [ran]
    exact iff_of_true rfl ((rules _).mp some)
  · rw [ran]
    refine iff_of_false (by simp) fun some => ?_
    obtain ⟨rule, member, drops⟩ := (rules fun rule =>
      runRule _ _ rule packet = (.done .drop, packet)).mpr some
    rw [none rule member] at drops
    cases drops

/-- A packet that opens a connection is dropped in a hook if and only if some
enabled policy there has a match, matches it and has an action that drops an
address it looks at. -/
theorem renderFull_enforces {codes : Option (List String)}
    (valid : validate model codes = [])
    (loaded : Loaded covers db model sets) {hook : String}
    (base : hook ∈ hooks.map Prod.fst) (opens : packet.state = .new) :
    fate matching covers
        (renderFull model found hookAt sets counterSeed countrySeed) hook
        packet = .drop ↔
      ∃ policy ∈ model.policies, ∃ expr name action ruleset,
        Enforced model found policy expr name action ruleset ∧
        hookOf hookAt policy ruleset = hook ∧
        (expr = [] ∨ matching expr packet = true) ∧
        action.dropsPacket covers db policy.direction packet = true := by
  have validated := validated_of_validate valid
  cases rendered : renderFull model found hookAt sets counterSeed
      countrySeed with
  | none =>
      refine iff_of_false (by simp [fate]) ?_
      rintro ⟨policy, listed, expr, name, action, ruleset, enforced, _, _,
        drops⟩
      obtain ⟨direction, inside, _⟩ :=
        (dropsPacket_iff (validated.direction policy listed) action).mp drops
      have some : ∃ jump, jump ∈ jumps model found hookAt :=
        ⟨_, mem_jumps.mpr ⟨policy, listed, expr, name, action, ruleset,
          enforced, direction, inside, rfl⟩⟩
      rw [renderFull_eq_none.mp rendered] at some
      simp at some
  | some script =>
      have own : script.sets = sets := (renderFull_eq rendered).2.1
      rw [fate, own, runHook_jumps validated loaded rendered opens base]
      constructor
      · rintro ⟨jump, member, atHook, drops⟩
        obtain ⟨policy, listed, expr, name, action, ruleset, enforced,
          direction, inside, rfl⟩ := mem_jumps.mp member
        rw [runRule_jump validated loaded rendered opens listed enforced
          inside] at drops
        split at drops
        · rename_i both
          exact ⟨policy, listed, expr, name, action, ruleset, enforced, atHook,
            both.1, (dropsPacket_iff (validated.direction policy listed)
              action).mpr ⟨direction, inside, both.2⟩⟩
        · cases drops
      · rintro ⟨policy, listed, expr, name, action, ruleset, enforced, atHook,
          applies, drops⟩
        obtain ⟨direction, inside, drops⟩ :=
          (dropsPacket_iff (validated.direction policy listed) action).mp drops
        refine ⟨_, mem_jumps.mpr ⟨policy, listed, expr, name, action, ruleset,
          enforced, direction, inside, rfl⟩, atHook, ?_⟩
        rw [runRule_jump validated loaded rendered opens listed enforced
          inside, if_pos ⟨applies, drops⟩]

end Chains

/-! ## Building the sets -/

section Building

variable {covers : String → IpAddr → Bool} {db : Database}

/-- `elements_for`; the networks are collapsed. -/
def elementsFor (db : Database) (collapse : List String → Family → List String)
    (sname : String) : List String :=
  let family := familyOfSet sname
  let cc := String.ofList
    (((splitOnce '_' sname.toList).map Prod.snd).getD [])
  collapse (if cc = known then db.allNetworks family
    else db.networks cc.toUpper family) family

def buildSets (db : Database) (collapse : List String → Family → List String)
    (setNames : List String) : List (String × List String) :=
  setNames.map fun sname => (sname, elementsFor db collapse sname)

theorem elementsFor_setName (collapse : List String → Family → List String)
    (cc : String) (family : Family) :
    elementsFor db collapse (setName cc family) =
      collapse (if cc.toLower = known then db.allNetworks family
        else db.networks cc.toLower.toUpper family) family := by
  have code : String.ofList (((splitOnce '_' (setName cc family).toList).map
      Prod.snd).getD []) = cc.toLower := by
    cases family <;>
      simp [setName, String.toList_append, splitOnce, String.ofList_toList]
  rw [elementsFor, code, familyOfSet_setName]

theorem known_toLower : known.toLower = known := by
  apply String.toList_injective
  simp [known, toList_toLower]

theorem lookup_map_name {Content : Type} {names : List String}
    (content : String → Content) {name : String} (member : name ∈ names) :
    (names.map fun name => (name, content name)).lookup name =
      some (content name) := by
  induction names with
  | nil => cases member
  | cons first rest ih =>
      rw [List.map_cons, List.lookup_cons]
      by_cases same : name = first
      · simp [same]
      · rw [beq_false_of_ne same]
        exact ih ((List.mem_cons.mp member).resolve_left same)

/-- If collapsing keeps what the networks cover, the sets that are built hold
the networks of the database. -/
theorem loaded_buildSets {model : Model} (validated : Validated model)
    {collapse : List String → Family → List String}
    (keeps : ∀ elements, ∀ addr : IpAddr,
      inElements covers (collapse elements addr.family) addr =
        inElements covers elements addr) :
    Loaded covers db model (buildSets db collapse (requiredSets model)) where
  declared := by
    rw [buildSets, List.map_map]
    exact List.map_id _
  country := by
    intro cc listed addr
    have required : setName cc addr.family ∈ requiredSets model :=
      mem_requiredSets.mpr (.inl ⟨cc, listed, addr.family, rfl⟩)
    obtain ⟨own, accepted, rfl⟩ := country_of_inUse validated listed
    have other : own.toUpper.toLower ≠ known := by
      have apart := toLower_ne_known accepted
      rwa [known_toLower] at apart
    rw [inSets, buildSets, lookup_map_name _ required, Option.getD_some,
      elementsFor_setName, if_neg other, toUpper_toLower_toUpper, keeps]
  known := by
    intro needed addr
    have required : setName known addr.family ∈ requiredSets model :=
      mem_requiredSets.mpr (.inr ⟨needed, addr.family, rfl⟩)
    rw [inSets, buildSets, lookup_map_name _ required, Option.getD_some,
      elementsFor_setName, if_pos known_toLower, keeps]
    rfl

end Building

section Examples

/-- One network is classified, and it is Chinese. -/
def siteDatabase : Database where
  networks cc family :=
    if cc = "CN" ∧ family = .v4 then ["1.0.1.0/24"] else []
  allNetworks family := if family = .v4 then ["1.0.1.0/24"] else []

def siteCovers (element : String) : IpAddr → Bool
  | .v4 bits => element = "1.0.1.0/24" && bits >>> 8 = 0x010001#32
  | .v6 _ => false

def sitePacket : GeoPacket Unit :=
  ⟨.v4 0x01000107#32 0x0A000001#32, .new, ()⟩

theorem siteModel_enforced :
    fate (fun _ _ => true) siteCovers
      (renderFull siteModel [(10, some [])] []
        (buildSets siteDatabase (fun elements _ => elements)
          (requiredSets siteModel)) [] []) "geo_forward" sitePacket =
        .drop := by
  have valid : validate siteModel none = [] := by decide
  have loaded : Loaded siteCovers siteDatabase siteModel
      (buildSets siteDatabase (fun elements _ => elements)
        (requiredSets siteModel)) :=
    loaded_buildSets (validated_of_validate valid) fun _ _ => rfl
  exact (renderFull_enforces valid loaded (by decide) rfl).mpr
    ⟨_, List.mem_cons_self, [], "Geo", _, "forward", ⟨rfl, rfl, rfl, rfl, rfl⟩,
      by decide, .inl rfl, by decide +kernel⟩

end Examples

end QuartzFire.Geolocation
