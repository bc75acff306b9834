import Mathlib.Data.String.Basic
import QuartzFire.Foundation.ConfigCheck
import QuartzFire.Firewall.Placement

/-!
# The part of the command schema the console writes

A schema with the leaves the console sets, and a check that shows a concrete
configuration to be one a device renders.
-/

namespace QuartzFire.Firewall

open ConfigTree

/-- Leaves of a filter rule. -/
def ruleKind : Path → Kind
  | ["action"] | ["description"] | ["protocol"] | ["queue"]
  | ["connection-mark"] | ["set", "connection-mark"] => .single
  | ["disable"] | ["log"] => .valueless
  | ["state"] | ["queue-options"] => .multi
  | [side, "address"] =>
      if side = "source" ∨ side = "destination" then .single else .node
  | [side, "group", _] =>
      if side = "source" ∨ side = "destination" then .single else .node
  | [side, "name"] | [side, "group"] =>
      if side = "inbound-interface" ∨ side = "outbound-interface" then .single
      else .node
  | _ => .node

def vyosKind : Kinds String
  | "firewall" :: "ipv4" :: _ :: _ :: "rule" :: _ :: leaf => ruleKind leaf
  | ["firewall", "ipv4", _, _, "default-action"]
  | ["firewall", "ipv4", "name", _, "description"] => .single
  | ["firewall", "ipv4", _, _, "default-log"] => .valueless
  | ["firewall", "group", _, _, "description"] => .single
  | ["firewall", "group", _, _, _] => .multi
  | ["firewall", "zone", _, leaf] =>
      if leaf = "description" ∨ leaf = "default-action" then .single
      else if leaf = "local-zone" ∨ leaf = "default-log" then .valueless
      else .node
  | ["firewall", "zone", _, "member", "interface"] => .multi
  | ["firewall", "zone", _, "intra-zone-filtering", "action"]
  | ["firewall", "zone", _, "from", _, "firewall", "name"]
  | ["firewall", "global-options", "state-policy", _, "action"] => .single
  | "service" :: "geolocation" :: "policy" :: _ :: leaf =>
      if leaf = ["disable"] then .valueless
      else if leaf = [] then .node else .single
  | "service" :: "quartzfire" :: "ssl-inspection" :: "policy" :: _ :: leaf =>
      if leaf = ["disable"] then .valueless
      else if leaf = [] then .node else .single
  | _ => .node

def vyosSchema : Schema where
  kinds := vyosKind
  ruleNode := by
    intro chain number
    cases chain with
    | base chain =>
        cases chain <;> exact ⟨rfl, rfl, rfl, rfl, rfl, rfl, trivial⟩
    | name ruleset => exact ⟨rfl, rfl, rfl, rfl, rfl, rfl, trivial⟩
  ruleUniform := by
    intro chain number other path
    cases chain with
    | base chain => rfl
    | name ruleset => rfl
  geoNode _ := ⟨rfl, rfl, rfl, rfl, trivial⟩
  geoRule _ := rfl

/-- Every scope that has rules, read or not. -/
def allChains (root : Cfg) : List RuleChain :=
  [.base .forward, .base .input, .base .output] ++
    (nodeAt ["firewall", "ipv4", "name"] root).entries.map
      fun entry => .name entry.1

theorem mem_allChains {root : Cfg} {chain : RuleChain} {rest : Path} {body : Cfg}
    (found : subtree (filterBase chain ++ rest) root = some body) :
    chain ∈ allChains root := by
  cases chain with
  | base chain => cases chain <;> simp [allChains]
  | name ruleset =>
      have split : filterBase (.name ruleset) ++ rest =
          ["firewall", "ipv4", "name"] ++ (ruleset :: rest) := rfl
      rw [split, ← subtree_nodeAt (by simp), subtree,
        Option.bind_eq_some_iff] at found
      obtain ⟨tree, inside, _⟩ := found
      rw [allChains, List.mem_append, List.mem_map]
      exact .inr ⟨_, findEntry_mem inside, rfl⟩

/-- The rules under a scope, as entries of the configuration. -/
def ruleEntries (root : Cfg) (chain : RuleChain) : List (String × Cfg) :=
  (nodeAt (filterBase chain ++ ["rule"]) root).entries

theorem mem_ruleEntries {root : Cfg} {chain : RuleChain} {key : String}
    {body : Cfg}
    (found : subtree (filterBase chain ++ ["rule", key]) root = some body) :
    (key, body) ∈ ruleEntries root chain := by
  have split : filterBase chain ++ ["rule", key] =
      filterBase chain ++ ["rule"] ++ [key] := by simp
  rw [split, ← subtree_nodeAt (by simp), subtree_singleton] at found
  exact findEntry_mem found

/-- Whether a closed configuration is one a device renders. -/
def renderedCheck (root : Cfg) : Bool :=
  (root.entries.map Prod.fst).Nodup &&
    entriesCheck (· ≠ "") vyosKind root.entries &&
    ((allChains root).all fun chain =>
      (ruleEntries root chain).all fun entry =>
        entry.1 = toString (ruleNumber entry.1)) &&
    [geoBase, sslBase].all fun base =>
      (nodeAt base root).entries.all fun entry =>
        entry.1 = toString (ruleNumber entry.1)

theorem rendered_of_check {root : Cfg} (isNode : root = .node root.entries)
    (passes : renderedCheck root = true) : Rendered vyosSchema root := by
  simp only [renderedCheck, Bool.and_eq_true, decide_eq_true_eq,
    entriesCheck_iff, List.all_eq_true] at passes
  obtain ⟨⟨⟨distinct, fits⟩, decimal⟩, policies⟩ := passes
  refine ⟨⟨isNode, distinct, fun entry member =>
    (fitsCheck_sound (fits entry member)).1⟩, ?_, ?_, ?_⟩
  · intro path found
    cases path with
    | nil =>
        cases found
        cases isNode
    | cons key rest =>
        obtain ⟨tree, inside, atRest⟩ := Option.bind_eq_some_iff.mp found
        have filled := (fitsCheck_sound
          (fits (key, tree) (findEntry_mem inside))).2 rest "" atRest
        simp at filled
  · intro chain key body found
    exact decimal chain (mem_allChains found) (key, body)
      (mem_ruleEntries found)
  · intro base policy key body found
    refine policies base policy (key, body) (findEntry_mem ?_)
    rwa [← subtree_nodeAt (by simp), subtree_singleton] at found

/-- The order of code points, to evaluate concrete configurations with. -/
def codepoints : Locale where
  le left right := decide (left ≤ right)
  total left right := by simpa using le_total left right
  trans := by
    intro first second third forth back
    simp only [decide_eq_true_eq] at forth back ⊢
    exact le_trans forth back

end QuartzFire.Firewall
