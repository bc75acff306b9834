import Mathlib.Data.List.Destutter
import Mathlib.Data.List.Sort
import QuartzFire.Foundation.ConfigCheck
import QuartzFire.Foundation.ConfigLeaf
import QuartzFire.Foundation.ConfigRebuild

/-!
# The lockout check

Before commands are applied the guard looks for ones that cut off the interface
the session rides on: a delete of the interface, of its addresses or of the
address of the session, and a write that disables it.
-/

namespace QuartzFire.Guard

open ConfigTree

/-- How addresses are read and printed. -/
structure IpText (Ip : Type) where
  parse : String → Option Ip
  text : Ip → String

variable {Ip : Type} [DecidableEq Ip] (ips : IpText Ip)

/-! ## The interfaces of the session -/

/-- `cidr_matches_ip` -/
def cidrMatchesIp (addr : String) (ip : Ip) : Bool :=
  ((addr.toList.splitOn '/').head?.bind fun text =>
    ips.parse (String.ofList text)) = some ip

/-- `node_addresses` -/
def nodeAddresses (cfg : ConfigTree String) : List String :=
  ((cfg.child "address").map texts).getD []

def carries (cfg : ConfigTree String) (ip : Ip) : Bool :=
  (nodeAddresses cfg).any fun addr => cidrMatchesIp ips addr ip

/-- `mgmt_interface_paths`, by the answer to `showConfig`, which may be wrapped
in the name of its node. -/
def mgmtInterfacePaths (data : ConfigTree String) (ip : Ip) :
    List (List String × String) :=
  let data := (data.child "interfaces").getD data
  data.entries.flatMap fun (kind, nodes) =>
    nodes.entries.flatMap fun (name, cfg) =>
      (if carries ips cfg ip then [(["interfaces", kind, name], name)]
        else []) ++
      (((cfg.child "vif").map entries).getD []).filterMap fun (vid, vcfg) =>
        if carries ips vcfg ip then
          some (["interfaces", kind, name, "vif", vid], name ++ "." ++ vid)
        else none

/-! ## The check -/

structure CmdCheck where
  op : String
  path : List String

def CmdCheck.ofCommand : Command String → CmdCheck
  | .set path => ⟨"set", path⟩
  | .delete path => ⟨"delete", path⟩

/-- What is said of a command and an interface. -/
def lockoutReason (ip : Ip) (cmd : CmdCheck)
    (mgmt : List String × String) : Option String :=
  let (start, display) := mgmt
  if cmd.op = "delete" ∧ cmd.path <+: start ∧ cmd.path ≠ [] then
    some ("deletes interface " ++ display ++
      ", which carries your management session (" ++ ips.text ip ++ ")")
  else
    match cmd.op, start.isPrefixOf? cmd.path with
    | "delete", some ["address"] =>
        some ("removes every address from interface " ++ display ++
          ", including the one your session uses (" ++ ips.text ip ++ ")")
    | "delete", some ["address", addr] =>
        if cidrMatchesIp ips addr ip then
          some ("removes address " ++ addr ++ " from interface " ++ display ++
            " — the address your session is connected to")
        else none
    | "set", some ["disable"] =>
        some ("administratively disables interface " ++ display ++
          ", which carries your management session (" ++ ips.text ip ++ ")")
    | _, _ => none

/-- `check_commands` -/
def checkCommands (cmds : List CmdCheck) (mgmt : List (List String × String))
    (ip : Ip) : List String :=
  let reasons := cmds.flatMap fun cmd =>
    mgmt.filterMap (lockoutReason ips ip cmd)
  (reasons.insertionSort (· ≤ ·)).destutter (· ≠ ·)

/-! ## Being cut off -/

/-- The path of an interface. -/
inductive InterfacePath : List String → Prop where
  | interface (kind name : String) : InterfacePath ["interfaces", kind, name]
  | vif (kind name vid : String) :
      InterfacePath ["interfaces", kind, name, "vif", vid]

/-- The configuration has no `disable` at an interface before the commands and
has it afterwards. -/
def Disables (interface : List String) (before after : ConfigTree String) :
    Prop :=
  subtree (interface ++ ["disable"]) before = none ∧
    subtree (interface ++ ["disable"]) after ≠ none

/-- How commands cut off the interface of a session. -/
inductive CutOff (ip : Ip) (path : List String)
    (before after : ConfigTree String) : Prop where
  | address {addr : String} (held : Holds (path ++ ["address"]) addr before)
      (own : cidrMatchesIp ips addr ip = true)
      (gone : ¬ Holds (path ++ ["address"]) addr after)
  | node {around : List String} (leads : around <+: path)
      (gone : subtree around after = none)
  | disabled {interface : List String} (isInterface : InterfacePath interface)
      (leads : interface <+: path) (disables : Disables interface before after)

/-- The commands that are looked for. -/
inductive Flagged (ip : Ip) (path : List String) : Command String → Prop where
  | around {target : List String} (proper : target ≠ [])
      (leads : target <+: path) : Flagged ip path (.delete target)
  | addresses : Flagged ip path (.delete (path ++ ["address"]))
  | address {addr : String} (own : cidrMatchesIp ips addr ip = true) :
      Flagged ip path (.delete (path ++ ["address", addr]))
  | disable : Flagged ip path (.set (path ++ ["disable"]))

/-- What `showConfig` answers, wrapped or not. -/
def Shown (root data : ConfigTree String) : Prop :=
  (∃ interfaces, root.child "interfaces" = some interfaces ∧
      data.child "interfaces" = some interfaces) ∨
    data.child "interfaces" = none ∧ root.child "interfaces" = some data

/-- The device has several addresses at an interface and a bare `disable`. -/
structure SessionKinds (kinds : Kinds String) (path : List String) : Prop where
  address : kinds (path ++ ["address"]) = .multi
  disable : kinds (path ++ ["disable"]) = .valueless

/-- Whenever commands cut a session off there is a reason not to apply them. -/
def CheckComplete (ip : Ip) (mgmt : List (List String × String))
    (commands : List (Command String)) (before after : ConfigTree String) :
    Prop :=
  (∃ entry ∈ mgmt, CutOff ips ip entry.1 before after) →
    checkCommands ips (commands.map CmdCheck.ofCommand) mgmt ip ≠ []

/-- The commands disable the interface around one of the session. -/
def ParentDisabled (mgmt : List (List String × String))
    (before after : ConfigTree String) : Prop :=
  ∃ entry ∈ mgmt, ∃ parent, InterfacePath parent ∧ parent <+: entry.1 ∧
    parent ≠ entry.1 ∧ Disables parent before after

/-! ## What is flagged -/

theorem isPrefixOf?_eq_some_iff {start path rest : List String} :
    start.isPrefixOf? path = some rest ↔ path = start ++ rest := by
  induction start generalizing path with
  | nil => simp [List.isPrefixOf?, eq_comm]
  | cons first start ih =>
      cases path with
      | nil => simp [List.isPrefixOf?]
      | cons other path =>
          by_cases same : first = other
          · simp [List.isPrefixOf?, same, ih]
          · simp [List.isPrefixOf?, same, Ne.symm same]

theorem lockoutReason_ne_none_iff {ip : Ip} {command : Command String}
    {mgmt : List String × String} :
    lockoutReason ips ip (.ofCommand command) mgmt ≠ none ↔
      Flagged ips ip mgmt.1 command := by
  obtain ⟨start, display⟩ := mgmt
  cases command with
  | set path =>
      change lockoutReason ips ip ⟨"set", path⟩ (start, display) ≠ none ↔ _
      unfold lockoutReason
      dsimp only
      rw [if_neg fun both => absurd both.1 (by decide)]
      constructor
      · intro told
        split at told
        · rename_i delete _
          exact absurd delete (by decide)
        · rename_i delete _
          exact absurd delete (by decide)
        · rename_i rest
          rw [isPrefixOf?_eq_some_iff.mp rest]
          exact .disable
        · exact absurd rfl told
      · intro flagged
        cases flagged
        rw [isPrefixOf?_eq_some_iff.mpr rfl]
        exact Option.some_ne_none _
  | delete path =>
      change lockoutReason ips ip ⟨"delete", path⟩ (start, display) ≠ none ↔ _
      unfold lockoutReason
      dsimp only
      by_cases around : path <+: start ∧ path ≠ []
      · rw [if_pos ⟨rfl, around⟩]
        constructor
        · intro _
          exact .around around.2 around.1
        · intro _
          exact Option.some_ne_none _
      · rw [if_neg fun both => around both.2]
        constructor
        · intro told
          split at told
          · rename_i rest
            rw [isPrefixOf?_eq_some_iff.mp rest]
            exact .addresses
          · rename_i addr rest
            split at told
            · rename_i own
              rw [isPrefixOf?_eq_some_iff.mp rest]
              exact .address own
            · exact absurd rfl told
          · rename_i set _
            exact absurd set (by decide)
          · exact absurd rfl told
        · intro flagged
          cases flagged with
          | around proper leads => exact absurd ⟨leads, proper⟩ around
          | addresses =>
              rw [isPrefixOf?_eq_some_iff.mpr rfl]
              exact Option.some_ne_none _
          | address own =>
              simp only [isPrefixOf?_eq_some_iff.mpr rfl, own, if_true]
              exact Option.some_ne_none _

theorem checkCommands_ne_nil_iff {ip : Ip} {commands : List (Command String)}
    {mgmt : List (List String × String)} :
    checkCommands ips (commands.map CmdCheck.ofCommand) mgmt ip ≠ [] ↔
      ∃ command ∈ commands, ∃ entry ∈ mgmt, Flagged ips ip entry.1 command := by
  have sorted (reasons : List String) :
      reasons.insertionSort (· ≤ ·) = [] ↔ reasons = [] := by
    rw [← List.length_eq_zero_iff, List.length_insertionSort,
      List.length_eq_zero_iff]
  rw [checkCommands, ne_eq, List.destutter_eq_nil, sorted]
  simp only [List.flatMap_eq_nil_iff, List.forall_mem_map,
    List.filterMap_eq_nil_iff, not_forall, exists_prop,
    ← lockoutReason_ne_none_iff]

/-! ## Nothing flagged, nothing cut off -/

variable {ips}

theorem Flagged.spares {ip : Ip} {path : List String} {kinds : Kinds String}
    (nodes : NodePath kinds path) (session : SessionKinds kinds path)
    {command : Command String} (unflagged : ¬ Flagged ips ip path command)
    {tree : ConfigTree String} {addr : String}
    (own : cidrMatchesIp ips addr ip = true)
    (held : Holds (path ++ ["address"]) addr tree) :
    Holds (path ++ ["address"]) addr (execute kinds tree command) := by
  have multi : kinds.below path ["address"] = .multi := session.address
  cases command with
  | set target => exact held.set nodes multi target
  | delete target =>
      apply held.delete
      · intro proper leads
        rcases List.prefix_concat_iff.mp leads with same | inside
        · exact unflagged (same ▸ .addresses)
        · exact unflagged (.around proper inside)
      · rintro rfl
        exact unflagged (.address own)

theorem Flagged.spares_all {ip : Ip} {path : List String} {kinds : Kinds String}
    (nodes : NodePath kinds path) (session : SessionKinds kinds path)
    {commands : List (Command String)}
    (unflagged : ∀ command ∈ commands, ¬ Flagged ips ip path command)
    {tree : ConfigTree String} {addr : String}
    (own : cidrMatchesIp ips addr ip = true)
    (held : Holds (path ++ ["address"]) addr tree) :
    Holds (path ++ ["address"]) addr (executeAll kinds commands tree) := by
  induction commands generalizing tree with
  | nil => exact held
  | cons command commands ih =>
      rw [List.forall_mem_cons] at unflagged
      exact ih unflagged.2
        (Flagged.spares nodes session unflagged.1 own held)

theorem Flagged.enabled_all {ip : Ip} {path : List String}
    {kinds : Kinds String} (nodes : NodePath kinds path)
    (session : SessionKinds kinds path) {commands : List (Command String)}
    (unflagged : ∀ command ∈ commands, ¬ Flagged ips ip path command)
    {tree : ConfigTree String}
    (enabled : subtree (path ++ ["disable"]) tree = none) :
    subtree (path ++ ["disable"]) (executeAll kinds commands tree) = none := by
  induction commands generalizing tree with
  | nil => exact enabled
  | cons command commands ih =>
      rw [List.forall_mem_cons] at unflagged
      apply ih unflagged.2
      have valueless : kinds.below path ["disable"] = .valueless :=
        session.disable
      cases command with
      | set target =>
          apply subtree_set_of_absent nodes valueless enabled
          rintro rfl
          exact unflagged.1 .disable
      | delete target => exact subtree_delete_of_absent enabled

/-! ## The interfaces that are found -/

/-- The interface has the address of the session. -/
structure OnSession (ips : IpText Ip) (ip : Ip) (root : ConfigTree String)
    (path : List String) : Prop where
  isInterface : InterfacePath path
  address : ∃ addr, Holds (path ++ ["address"]) addr root ∧
    cidrMatchesIp ips addr ip = true

theorem holds_of_carries {ip : Ip} {cfg : ConfigTree String}
    (carrying : carries ips cfg ip = true) :
    ∃ addr, Holds ["address"] addr cfg ∧ cidrMatchesIp ips addr ip = true := by
  obtain ⟨addr, among, own⟩ := List.any_eq_true.mp carrying
  rw [nodeAddresses] at among
  cases found : cfg.child "address" with
  | none =>
      rw [found] at among
      cases among
  | some leaf =>
      rw [found] at among
      exact ⟨addr, holds_cons.mpr ⟨leaf, found, holds_nil.mpr among⟩, own⟩

theorem Fits.mem_entries {kinds : Kinds String} {key name : String}
    {tree child : ConfigTree String} (fits : Fits kinds key tree)
    (among : (name, child) ∈ tree.entries) :
    tree.child name = some child ∧ Fits (kinds.below [key]) name child := by
  cases tree with
  | node entries =>
      exact ⟨fits.conforms.mem_entries.mp among, fits.conforms.fits _ among⟩
  | _ => cases among

theorem Shown.entries {root data : ConfigTree String} (shown : Shown root data) :
    ∃ interfaces, root.child "interfaces" = some interfaces ∧
      (data.child "interfaces").getD data = interfaces := by
  rcases shown with ⟨interfaces, atRoot, wrapped⟩ | ⟨bare, atRoot⟩
  · exact ⟨interfaces, atRoot, by rw [wrapped]; rfl⟩
  · exact ⟨data, atRoot, by rw [bare]; rfl⟩

theorem onSession_of_mem {kinds : Kinds String} {root data : ConfigTree String}
    (conforms : Conforms kinds root) (shown : Shown root data) {ip : Ip}
    {entry : List String × String}
    (among : entry ∈ mgmtInterfacePaths ips data ip) :
    OnSession ips ip root entry.1 := by
  obtain ⟨interfaces, atRoot, read⟩ := shown.entries
  rw [mgmtInterfacePaths, read] at among
  obtain ⟨⟨kind, nodes⟩, inKinds, among⟩ := List.mem_flatMap.mp among
  obtain ⟨⟨name, cfg⟩, inNodes, among⟩ := List.mem_flatMap.mp among
  have interfacesFit := conforms.fits _ (conforms.mem_entries.mpr atRoot)
  obtain ⟨atKind, kindFits⟩ := Fits.mem_entries interfacesFit inKinds
  obtain ⟨atName, nameFits⟩ := Fits.mem_entries kindFits inNodes
  have inside {path : List String} {addr : String}
      (held : Holds path addr cfg) :
      Holds ("interfaces" :: kind :: name :: path) addr root :=
    holds_cons.mpr ⟨_, atRoot, holds_cons.mpr ⟨_, atKind,
      holds_cons.mpr ⟨_, atName, held⟩⟩⟩
  rcases List.mem_append.mp among with own | own
  · split at own
    · rename_i carrying
      rw [List.mem_singleton.mp own]
      obtain ⟨addr, held, matching⟩ := holds_of_carries carrying
      exact ⟨.interface kind name, addr, inside held, matching⟩
    · cases own
  · obtain ⟨⟨vid, vcfg⟩, inVifs, told⟩ := List.mem_filterMap.mp own
    dsimp only at told
    split at told
    · rename_i carrying
      cases told
      cases atVif : cfg.child "vif" with
      | none =>
          rw [atVif] at inVifs
          cases inVifs
      | some vifs =>
          rw [atVif] at inVifs
          have inCfg : ("vif", vifs) ∈ cfg.entries := by
            cases cfg with
            | node entries => exact nameFits.conforms.mem_entries.mpr atVif
            | _ => cases atVif
          obtain ⟨_, vifsFit⟩ := Fits.mem_entries nameFits inCfg
          obtain ⟨atVid, _⟩ := Fits.mem_entries vifsFit inVifs
          obtain ⟨addr, held, matching⟩ := holds_of_carries carrying
          exact ⟨.vif kind name vid, addr, inside (holds_cons.mpr ⟨_, atVif,
            holds_cons.mpr ⟨_, atVid, held⟩⟩), matching⟩
    · cases told

/-- The nodes around a value are nodes of the schema. -/
theorem nodePath_of_holds {kinds : Kinds String} {base : List String}
    {key text : String} {tree : ConfigTree String}
    (conforms : Conforms kinds tree) (held : Holds (base ++ [key]) text tree) :
    NodePath kinds base := by
  induction base generalizing kinds tree with
  | nil => trivial
  | cons step base ih =>
      obtain ⟨child, found, below⟩ := holds_cons.mp held
      have fits := conforms.fits _ (conforms.mem_entries.mpr found)
      obtain ⟨entries, rfl⟩ := below.is_node (by simp)
      refine ⟨?_, ih fits.conforms below⟩
      cases fits with
      | node isNode _ _ => exact isNode
      | valueless _ =>
          obtain ⟨leaf, at_, _⟩ := below
          have none : subtree (base ++ [key]) (.node []) =
              (none : Option (ConfigTree String)) :=
            subtree_of_leaf rfl (by simp)
          cases none.symm.trans at_

/-- Commands that are not looked for cut an interface off by an enclosing one
only. -/
theorem CutOff.parent {kinds : Kinds String} {root : ConfigTree String}
    (conforms : Conforms kinds root) {ip : Ip} {path : List String}
    (onSession : OnSession ips ip root path)
    (session : SessionKinds kinds path) {commands : List (Command String)}
    (unflagged : ∀ command ∈ commands, ¬ Flagged ips ip path command)
    (cut : CutOff ips ip path root (executeAll kinds commands root)) :
    ∃ parent, InterfacePath parent ∧ parent <+: path ∧ parent ≠ path ∧
      Disables parent root (executeAll kinds commands root) := by
  obtain ⟨addr, held, own⟩ := onSession.address
  have nodes := nodePath_of_holds conforms held
  have stays := Flagged.spares_all nodes session unflagged own held
  cases cut with
  | address held own gone =>
      exact absurd (Flagged.spares_all nodes session unflagged own held) gone
  | node leads gone =>
      have present := stays.isSome (leads.trans (List.prefix_append _ _))
      rw [gone] at present
      cases present
  | @disabled interface isInterface leads disables =>
      refine ⟨interface, isInterface, leads, ?_, disables⟩
      rintro rfl
      exact disables.2
        (Flagged.enabled_all nodes session unflagged disables.1)

/-- The check finds every way of being cut off but that the interface around
one of the session is disabled. -/
theorem checkComplete_iff {kinds : Kinds String}
    {root data : ConfigTree String} (conforms : Conforms kinds root)
    (shown : Shown root data) {ip : Ip} {mgmt : List (List String × String)}
    (found : ∀ entry ∈ mgmt, entry ∈ mgmtInterfacePaths ips data ip)
    (session : ∀ entry ∈ mgmt, SessionKinds kinds entry.1)
    (commands : List (Command String)) :
    CheckComplete ips ip mgmt commands root
        (executeAll kinds commands root) ↔
      (ParentDisabled mgmt root (executeAll kinds commands root) →
        ∃ command ∈ commands, ∃ entry ∈ mgmt,
          Flagged ips ip entry.1 command) := by
  rw [CheckComplete, checkCommands_ne_nil_iff]
  constructor
  · rintro complete ⟨entry, among, parent, isInterface, leads, _, disables⟩
    exact complete ⟨entry, among, .disabled isInterface leads disables⟩
  · rintro flags ⟨entry, among, cut⟩
    by_contra none
    have unflagged : ∀ command ∈ commands, ¬ Flagged ips ip entry.1 command :=
      fun command inList flagged =>
        none ⟨command, inList, entry, among, flagged⟩
    obtain ⟨parent, isInterface, leads, other, disables⟩ := cut.parent conforms
      (onSession_of_mem conforms shown (found entry among))
      (session entry among) unflagged
    exact none (flags ⟨entry, among, parent, isInterface, leads, other,
      disables⟩)

/-! ### Two commands -/

/-- Addresses of digits and dots, as they are. -/
def dotted : IpText String where
  parse text :=
    if text.toList.all fun char => char.isDigit || char = '.' then some text
    else none
  text := id

/-- Addresses and `disable` at every interface. -/
def interfaceKinds : Kinds String := fun path =>
  if path.getLast? = some "address" then .multi
  else if path.getLast? = some "disable" then .valueless
  else .node

/-- The session is on a VLAN of `eth1`. -/
def vlanRoot : ConfigTree String :=
  .node [("interfaces", .node [("ethernet", .node [("eth1", .node
    [("vif", .node [("20", .node [("address", .value "10.0.0.1/24")])])])])])]

def vlanMgmt : List (List String × String) :=
  [(["interfaces", "ethernet", "eth1", "vif", "20"], "eth1.20")]

theorem vlanMgmt_found :
    ∀ entry ∈ vlanMgmt,
      entry ∈ mgmtInterfacePaths dotted vlanRoot "10.0.0.1" := by
  intro entry among
  rw [List.mem_singleton.mp among]
  decide

theorem vlanMgmt_kinds :
    ∀ entry ∈ vlanMgmt, SessionKinds interfaceKinds entry.1 := by
  intro entry among
  rw [List.mem_singleton.mp among]
  exact ⟨rfl, rfl⟩

theorem vlanRoot_conforms : Conforms interfaceKinds vlanRoot :=
  conforms_of_check rfl (by decide)

theorem vif_disable_flagged :
    CheckComplete dotted "10.0.0.1" vlanMgmt
      [.set ["interfaces", "ethernet", "eth1", "vif", "20", "disable"]]
      vlanRoot (executeAll interfaceKinds
        [.set ["interfaces", "ethernet", "eth1", "vif", "20", "disable"]]
        vlanRoot) :=
  (checkComplete_iff vlanRoot_conforms (.inl ⟨_, rfl, rfl⟩) vlanMgmt_found
    vlanMgmt_kinds _).mpr fun _ =>
      ⟨_, .head _, _, .head _, .disable⟩

/-- Disabling the interface that has the VLAN is not flagged. -/
theorem parent_disable_passes :
    ¬ ∀ (ips : IpText String) (kinds : Kinds String)
        (root data : ConfigTree String) (ip : String)
        (mgmt : List (List String × String)) (commands : List (Command String)),
      Conforms kinds root → Shown root data → mgmt ≠ [] →
      (∀ entry ∈ mgmt, entry ∈ mgmtInterfacePaths ips data ip) →
      (∀ entry ∈ mgmt, SessionKinds kinds entry.1) →
      CheckComplete ips ip mgmt commands root
        (executeAll kinds commands root) := by
  intro always
  have complete := always dotted interfaceKinds vlanRoot vlanRoot "10.0.0.1"
    vlanMgmt [.set ["interfaces", "ethernet", "eth1", "disable"]]
    vlanRoot_conforms (.inl ⟨_, rfl, rfl⟩) (List.cons_ne_nil _ _)
    vlanMgmt_found vlanMgmt_kinds
  have cut : CutOff dotted "10.0.0.1"
      ["interfaces", "ethernet", "eth1", "vif", "20"] vlanRoot
      (executeAll interfaceKinds
        [.set ["interfaces", "ethernet", "eth1", "disable"]] vlanRoot) :=
    .disabled (.interface "ethernet" "eth1") ⟨["vif", "20"], rfl⟩
      ⟨by decide, by decide⟩
  exact complete ⟨_, .head _, cut⟩ (by decide)

end QuartzFire.Guard
