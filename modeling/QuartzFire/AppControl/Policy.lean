import QuartzFire.Foundation.Fallible
import QuartzFire.AppControl.CtMark
import QuartzFire.AppControl.Worker
import Mathlib.Data.List.Sort

/-!
# Compiling the policy file

Named actions and their bindings become verdict tables and action ids.  The ids
are assigned afresh by every load, in the order of the bindings.
-/

namespace QuartzFire.AppControl

inductive L4Proto where
  | tcp
  | udp
  deriving DecidableEq, Repr

structure L4Match where
  proto : L4Proto
  dports : List Nat

structure MatchSpec where
  iifname : List String
  oifname : List String
  saddr : List String
  daddr : List String
  l4 : List L4Match

def MatchSpec.default : MatchSpec := ⟨[], [], [], [], []⟩

/-- `id` orders the bindings; it is not the action id of the mark. -/
structure BindingSpec where
  id : Nat
  action : String
  description : String
  matchSpec : MatchSpec

/-- The maps of the file are lists in key order. -/
structure ActionSpec where
  defaultAction : Verdict
  blockMode : BlockMode
  categories : List (String × Verdict)
  applications : List (String × Verdict)

structure PolicyFile where
  version : Nat
  actions : List (String × ActionSpec)
  bindings : List BindingSpec

structure AppEntry where
  id : Nat
  name : String
  category : String

/-- The applications the inspection library knows. -/
structure Catalog where
  applications : List AppEntry

namespace Catalog

/-- Collected into a map, the last application of a name wins. -/
def appIndex (catalog : Catalog) (name : String) : Option Nat :=
  (catalog.applications.reverse.find? fun app =>
    app.name.toLower == name).map AppEntry.id

def categoryIndex (catalog : Catalog) (name : String) : Option (List Nat) :=
  let members := catalog.applications.filter fun app =>
    app.category.toLower == name
  if members.isEmpty then none else some (members.map AppEntry.id)

/-- One past the largest application id. -/
def tableLen (catalog : Catalog) : Nat :=
  (catalog.applications.map fun app => app.id + 1).foldl max 0

end Catalog

inductive PolicyError where
  | version (found : Nat)
  | unknownAction (bindingId : Nat) (action : String)
  | duplicateBinding (bindingId : Nat)
  | tooManyActions (count max : Nat)
  | badInterface (bindingId : Nat) (name : String)
  | badAddress (bindingId : Nat) (addr : String)
  | badPort (bindingId : Nat)
  deriving DecidableEq, Repr

inductive Warning where
  | unknownCategory (action category : String)
  | unknownApplication (action application : String)
  deriving DecidableEq, Repr

/-- `CompiledBinding`, with the binding's own words. -/
structure PolicyBinding where
  bindingId : Nat
  actionId : Nat
  actionName : String
  description : String
  matchSpec : MatchSpec

/-- `CompiledPolicy`, with what a load adds to the tables. -/
structure Policy where
  generation : Nat
  actions : List CompiledAction
  bindings : List PolicyBinding
  warnings : List Warning

namespace Policy

def schemaVersion : Nat := 2

/-- What a daemon without a valid file runs on. -/
def empty : Policy := ⟨0, [], [], []⟩

/-- The tables the worker and the rules see; `matching` says which packets the
rules rendered for a match hold of. -/
def compiled {Payload : Type} (policy : Policy)
    (matching : MatchSpec → Payload → Bool) : CompiledPolicy Payload :=
  { actions := policy.actions
    bindings := policy.bindings.map fun binding =>
      ⟨binding.bindingId, binding.actionId, matching binding.matchSpec⟩ }

/-- What Linux allows, minus anything that could break out of a quoted nft
string. -/
def validIfname (name : String) : Bool :=
  !name.isEmpty && name.utf8ByteSize ≤ 15 &&
    name.toList.all fun char => char.isAlphanum || char ∈ ".-_+@:".toList

/-- A prefix length, as `u8` parses it. -/
def parsePrefixLength (text : String) : Option Nat :=
  let digits := match text.toList with
    | '+' :: rest => rest
    | all => all
  if digits.isEmpty || !digits.all Char.isDigit then none
  else
    let value := digits.foldl (fun acc char => acc * 10 + (char.toNat - 48)) 0
    if value < 256 then some value else none

/-- `isIpv4` is the address parser: whether a text is an address, and of which
family. -/
def parseCidr (isIpv4 : String → Option Bool) (text : String) :
    Option (Bool × Nat) :=
  let parts := text.toList.splitOn '/'
  let addr := String.ofList (parts.headD [])
  let plen := if parts.length ≤ 1 then none
    else some (String.ofList (['/'].intercalate parts.tail))
  (isIpv4 addr).bind fun ipv4 =>
    let max := if ipv4 then 32 else 128
    match plen with
    | none => some (ipv4, max)
    | some plen =>
        (parsePrefixLength plen).bind fun length =>
          if length ≤ max then some (ipv4, length) else none

section Compile

variable (isIpv4 : String → Option Bool)

def checkDistinct : List BindingSpec → Except PolicyError Unit
  | first :: second :: rest =>
      if first.id = second.id then .error (.duplicateBinding first.id)
      else checkDistinct (second :: rest)
  | _ => .ok ()

def checkMatch (binding : BindingSpec) : Except PolicyError Unit := do
  let spec := binding.matchSpec
  match (spec.iifname ++ spec.oifname).find? fun name => !validIfname name with
  | some name => throw (.badInterface binding.id name)
  | none => pure ()
  match (spec.saddr ++ spec.daddr).find? fun addr =>
      (parseCidr isIpv4 addr).isNone with
  | some addr => throw (.badAddress binding.id addr)
  | none => pure ()
  if spec.l4.any fun l4 => l4.dports.contains 0 then
    throw (.badPort binding.id)

/-- Distinct bound actions, in binding order. -/
def boundActions (actions : List (String × ActionSpec)) :
    List BindingSpec → List (String × ActionSpec) →
      Except PolicyError (List (String × ActionSpec))
  | [], bound => .ok bound
  | binding :: rest, bound =>
      match actions.find? fun entry => entry.1 = binding.action with
      | none => .error (.unknownAction binding.id binding.action)
      | some entry =>
          boundActions actions rest
            (if bound.any fun other => other.1 = binding.action then bound
              else bound ++ [entry])

/-- Verdicts and explicitness by application id, with the warnings. -/
structure Tables where
  verdicts : List Verdict
  explicit : List Bool
  warnings : List Warning

def Tables.put (tables : Tables) (verdict : Verdict) (appId : Nat) : Tables :=
  { tables with
    verdicts := tables.verdicts.set appId verdict
    explicit := tables.explicit.set appId true }

/-- Categories first, then applications overwrite them; the unknown
application always gets the default. -/
def actionTables (catalog : Catalog) (name : String) (spec : ActionSpec) :
    Tables :=
  let fresh : Tables :=
    { verdicts := List.replicate catalog.tableLen spec.defaultAction
      explicit := List.replicate catalog.tableLen false
      warnings := [] }
  let byCategory := spec.categories.foldl
    (fun (tables : Tables) entry =>
      match catalog.categoryIndex entry.1.toLower with
      | some ids => ids.foldl (fun tables appId => tables.put entry.2 appId)
          tables
      | none => { tables with
          warnings := tables.warnings ++ [.unknownCategory name entry.1] })
    fresh
  let byApplication := spec.applications.foldl
    (fun (tables : Tables) entry =>
      match catalog.appIndex entry.1.toLower with
      | some appId => tables.put entry.2 appId
      | none => { tables with
          warnings := tables.warnings ++ [.unknownApplication name entry.1] })
    byCategory
  { byApplication with
    verdicts := byApplication.verdicts.set 0 spec.defaultAction
    explicit := byApplication.explicit.set 0 false }

def compileAction (catalog : Catalog) (index : Nat)
    (entry : String × ActionSpec) : CompiledAction :=
  let tables := actionTables catalog entry.1 entry.2
  { name := entry.1
    actionId := (index + 1) % 2 ^ 8
    defaultAction := entry.2.defaultAction
    blockMode := entry.2.blockMode
    verdicts := tables.verdicts
    explicit := tables.explicit }

/-- The id of the first action of the binding's name; there is one once
`boundActions` has succeeded. -/
def compileBinding (actions : List CompiledAction) (binding : BindingSpec) :
    PolicyBinding :=
  { bindingId := binding.id
    actionId := ((actions.find? fun action =>
      action.name = binding.action).map CompiledAction.actionId).getD 0
    actionName := binding.action
    description := binding.description
    matchSpec := binding.matchSpec }

def compile (file : PolicyFile) (catalog : Catalog) (layout : Layout)
    (generation : Nat) : Except PolicyError Policy := do
  if file.version ≠ schemaVersion then throw (.version file.version)
  let bindings := file.bindings.insertionSort fun left right =>
    left.id ≤ right.id
  checkDistinct bindings
  bindings.forM (checkMatch isIpv4)
  let bound ← boundActions file.actions bindings []
  if bound.length > layout.maxActionId then
    throw (.tooManyActions bound.length layout.maxActionId)
  let actions := bound.mapIdx (compileAction catalog)
  return {
    generation := generation
    actions := actions
    bindings := bindings.map (compileBinding actions)
    warnings := bound.flatMap fun entry =>
      (actionTables catalog entry.1 entry.2).warnings }

/-! ## Ids and names agree -/

def action (policy : Policy) (actionId : Nat) : Option CompiledAction :=
  if actionId = 0 then none else policy.actions[actionId - 1]?

/-- Every binding's id fits its field and leads to the action it names. -/
structure WellFormed (policy : Policy) (layout : Layout) : Prop where
  actionId_le : ∀ binding ∈ policy.bindings,
    binding.actionId ≤ layout.maxActionId
  named : ∀ binding ∈ policy.bindings,
    ∃ action ∈ policy.actions, policy.action binding.actionId = some action ∧
      action.name = binding.actionName

theorem wellFormed_empty (layout : Layout) : empty.WellFormed layout where
  actionId_le := by simp [empty]
  named := by simp [empty]

theorem boundActions_covers {actions : List (String × ActionSpec)}
    {bindings : List BindingSpec} {bound result : List (String × ActionSpec)}
    (built : boundActions actions bindings bound = .ok result) :
    bound ⊆ result ∧
      ∀ binding ∈ bindings, ∃ entry ∈ result, entry.1 = binding.action := by
  induction bindings generalizing bound with
  | nil =>
      cases built
      exact ⟨List.Subset.refl _, by simp⟩
  | cons binding rest ih =>
      rw [boundActions] at built
      cases found : actions.find? fun entry => entry.1 = binding.action with
      | none => simp [found] at built
      | some entry =>
          simp only [found] at built
          obtain ⟨kept, covers⟩ := ih built
          split at kept
          · rename_i known
            refine ⟨kept, List.forall_mem_cons.mpr ⟨?_, covers⟩⟩
            obtain ⟨other, member, same⟩ := List.any_eq_true.mp known
            exact ⟨other, kept member, by simpa using same⟩
          · rw [List.append_subset] at kept
            refine ⟨kept.1, List.forall_mem_cons.mpr ⟨?_, covers⟩⟩
            exact ⟨entry, kept.2 (by simp), by
              simpa using List.find?_some found⟩

theorem maxActionId_lt (layout : Layout) : layout.maxActionId < 2 ^ 8 :=
  Nat.mod_lt _ (by decide)

/-- An action stands where its id says. -/
theorem compileAction_indexed (catalog : Catalog) {layout : Layout}
    {bound : List (String × ActionSpec)}
    (few : bound.length ≤ layout.maxActionId) {action : CompiledAction}
    (member : action ∈ bound.mapIdx (compileAction catalog)) :
    action.actionId ≠ 0 ∧ action.actionId ≤ layout.maxActionId ∧
      (bound.mapIdx (compileAction catalog))[action.actionId - 1]? =
        some action := by
  obtain ⟨index, inside, rfl⟩ := List.mem_iff_getElem.mp member
  have small := maxActionId_lt layout
  have id_eq : (bound.mapIdx (compileAction catalog))[index].actionId =
      index + 1 := by
    rw [List.length_mapIdx] at inside
    rw [List.getElem_mapIdx]
    exact Nat.mod_eq_of_lt (by omega)
  rw [List.length_mapIdx] at inside
  rw [id_eq]
  refine ⟨Nat.succ_ne_zero _, by omega, ?_⟩
  rw [Nat.add_sub_cancel]
  exact List.getElem?_eq_getElem _

theorem compile_wellFormed {file : PolicyFile} {catalog : Catalog}
    {layout : Layout} {generation : Nat} {policy : Policy}
    (compiles : compile isIpv4 file catalog layout generation = .ok policy) :
    policy.WellFormed layout ∧ policy.generation = generation := by
  simp only [compile] at compiles
  split at compiles
  · cases compiles
  generalize file.bindings.insertionSort (fun left right => left.id ≤ right.id) =
    bindings at compiles
  obtain ⟨_, _, compiles⟩ := bind_eq_ok.mp compiles
  obtain ⟨_, _, compiles⟩ := bind_eq_ok.mp compiles
  obtain ⟨bound, built, compiles⟩ := bind_eq_ok.mp compiles
  split at compiles
  · cases compiles
  rename_i few
  cases compiles
  have bound_few : bound.length ≤ layout.maxActionId := Nat.not_lt.mp few
  have found : ∀ binding ∈ bindings,
      ∃ action ∈ bound.mapIdx (compileAction catalog),
        (compileBinding (bound.mapIdx (compileAction catalog)) binding).actionId =
          action.actionId ∧ action.name = binding.action := by
    intro binding member
    obtain ⟨entry, entry_mem, same⟩ :=
      (boundActions_covers built).2 binding member
    obtain ⟨index, inside, rfl⟩ := List.mem_iff_getElem.mp entry_mem
    cases first : (bound.mapIdx (compileAction catalog)).find? fun action =>
        action.name = binding.action with
    | none =>
        have missing := List.find?_eq_none.mp first
          (compileAction catalog index bound[index])
          (List.mem_mapIdx.mpr ⟨index, inside, rfl⟩)
        exact absurd (decide_eq_true same) missing
    | some action =>
        refine ⟨action, List.mem_of_find?_eq_some first, ?_, ?_⟩
        · simp [compileBinding, first]
        · simpa using List.find?_some first
  refine ⟨⟨?_, ?_⟩, rfl⟩
  · intro binding member
    obtain ⟨spec, spec_mem, rfl⟩ := List.mem_map.mp member
    obtain ⟨action, action_mem, same, _⟩ := found spec spec_mem
    rw [same]
    exact (compileAction_indexed catalog bound_few action_mem).2.1
  · intro binding member
    obtain ⟨spec, spec_mem, rfl⟩ := List.mem_map.mp member
    obtain ⟨action, action_mem, same, name⟩ := found spec spec_mem
    have placed := compileAction_indexed catalog bound_few action_mem
    refine ⟨action, action_mem, ?_, name⟩
    rw [same, Policy.action, if_neg placed.1]
    exact placed.2.2

end Compile

end Policy

end QuartzFire.AppControl
