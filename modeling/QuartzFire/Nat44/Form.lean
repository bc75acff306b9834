import QuartzFire.Foundation.Fallible
import QuartzFire.Nat44.Reading

/-!
# The NAT rule form

The state the form opens with, the update it submits, and when saving a rule
untouched leaves it alone.
-/

namespace QuartzFire.Nat44

open ConfigTree Editing
open Firewall (Cfg Path VyosCommand trimmed startsWith)

/-- The connected networks of a built-in interface alias. -/
structure InterfaceAlias where
  networks : List String
  deriving DecidableEq, Repr

/-- `NET_PREFIX` -/
def netPrefix : String := "network:"

inductive SourceMode where
  | address
  | alias
  deriving DecidableEq, Repr

structure NatRuleForm where
  rule : String
  description : String
  iface : String
  sourceMode : SourceMode
  sourceAddress : String
  sourceGroup : String
  sourcePort : String
  destAddress : String
  destPort : String
  masquerade : Bool
  translationAddress : String
  translationPort : String
  protocol : String
  enabled : Bool
  deriving DecidableEq, Repr

/-- A source address that is a built-in interface network opens as that
alias. -/
def initialNet (initial : Option NatRule) (builtins : List InterfaceAlias) :
    Option String :=
  (initial.bind NatRule.source).bind fun source =>
    if builtins.any fun b => source ∈ b.networks then some (netPrefix ++ source)
    else none

/-- The state the form opens with. -/
def initialForm (side : NatSection) (initial : Option NatRule)
    (interfaces : List String) (builtins : List InterfaceAlias) : NatRuleForm :=
  let net := initialNet initial builtins
  let group := initial.bind NatRule.sourceGroup
  let translation := initial.bind NatRule.translation
  { rule := (initial.map fun rule => toString rule.rule).getD ""
    description := (initial.bind NatRule.description).getD ""
    iface := ((initial.bind NatRule.interface).or interfaces.head?).getD ""
    sourceAddress := (initial.bind NatRule.source).getD ""
    sourceMode := if group.any (· ≠ "") || net.isSome then .alias else .address
    sourceGroup := (group.or net).getD ""
    sourcePort := (initial.bind NatRule.sourcePort).getD ""
    destAddress := (initial.bind NatRule.destination).getD ""
    destPort := (initial.bind NatRule.destinationPort).getD ""
    masquerade := side = .source &&
      (translation = some "masquerade" || translation = none)
    translationAddress :=
      if translation = some "masquerade" then "" else translation.getD ""
    translationPort := (initial.bind NatRule.translationPort).getD ""
    protocol := (initial.bind NatRule.protocol).getD "all"
    enabled := (initial.map NatRule.enabled).getD true }

/-- `toLowerCase() === "all"` -/
def saysAll (text : String) : Bool :=
  text.toList.map Char.toLower = "all".toList

/-- The network behind a built-in alias. -/
def netAlias (sourceGroup : String) : Option String :=
  if startsWith sourceGroup netPrefix then
    some (String.ofList (sourceGroup.toList.drop netPrefix.length))
  else none

/-- The update the form builds for a rule number. -/
def NatRuleForm.update (form : NatRuleForm) (side : NatSection)
    (initial : Option NatRule) (num : Nat) : NatRuleUpdate :=
  let net := netAlias form.sourceGroup
  { natSection := side
    rule := num
    description := trimmed form.description
    interface := trimmed form.iface
    sourceAddress :=
      if form.sourceMode = .address then trimmed form.sourceAddress else net
    sourceGroup :=
      if form.sourceMode = .alias ∧ (net = none ∨ net = some "") ∧
        form.sourceGroup ≠ "" then some form.sourceGroup else none
    sourcePort := trimmed form.sourcePort
    destinationAddress := trimmed form.destAddress
    destinationPort := trimmed form.destPort
    translationAddress :=
      some (if form.masquerade then "masquerade"
        else Firewall.trim form.translationAddress)
    translationPort :=
      if form.masquerade then none else trimmed form.translationPort
    -- All protocols is what an absent leaf stands for.
    protocol := (trimmed form.protocol).filter fun text => !saysAll text
    enabled := form.enabled
    originalRule := initial.map NatRule.rule }

/-- `submit`; `number` is `Number` where it gives a whole number. -/
def submit (number : String → Option Nat) (side : NatSection)
    (initial : Option NatRule) (existing : List NatRule)
    (takenRules : List Nat) (form : NatRuleForm) :
    Except String NatRuleUpdate :=
  let outside := "Rule number must be a whole number between 1 and 999999."
  match number form.rule with
  | none => .error outside
  | some num =>
      if num < 1 ∨ 999999 < num then .error outside
      else if existing.any fun r =>
          r.rule = num && !initial.any (·.rule = r.rule) then
        .error ("Rule " ++ toString num ++ " already exists in this section.")
      else if num ∈ takenRules then
        .error ("Rule " ++ toString num ++
          " is already used by a 1-to-1 NAT mapping.")
      else if ¬ form.masquerade ∧ Firewall.trim form.translationAddress = "" then
        .error (if side = .source then
          "Enter a translation address, or use masquerade."
        else "Enter a translation address.")
      else if form.sourceMode = .alias ∧ form.sourceGroup = "" then
        .error
          "Choose a source alias, or switch the source match to an address."
      else .ok (form.update side initial num)

/-- What the form lets through. -/
theorem submit_ok_iff {number : String → Option Nat} {side : NatSection}
    {initial : Option NatRule} {existing : List NatRule}
    {takenRules : List Nat} {form : NatRuleForm} {u : NatRuleUpdate} :
    submit number side initial existing takenRules form = .ok u ↔
      ∃ num, number form.rule = some num ∧ (1 ≤ num ∧ num ≤ 999999) ∧
        (∀ r ∈ existing, r.rule = num → initial.any (·.rule = r.rule) = true) ∧
        num ∉ takenRules ∧
        (form.masquerade = true ∨ Firewall.trim form.translationAddress ≠ "") ∧
        (form.sourceMode = .alias → form.sourceGroup ≠ "") ∧
        form.update side initial num = u := by
  unfold submit
  cases number form.rule with
  | none => simp
  | some num =>
      simp only [refuse_eq_ok, Option.some.injEq, exists_eq_left',
        Except.ok.injEq]
      have free : (¬ (existing.any fun r =>
            r.rule = num && !initial.any (·.rule = r.rule)) = true) ↔
          ∀ r ∈ existing, r.rule = num →
            initial.any (·.rule = r.rule) = true := by
        simp
      rw [free, not_or, not_lt, not_lt, not_and_or, not_not, not_and]

end QuartzFire.Nat44
