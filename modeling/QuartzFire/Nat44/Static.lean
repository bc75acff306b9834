import QuartzFire.Nat44.RuleEdit
import QuartzFire.Nat44.Untouched

/-!
# 1-to-1 mappings

A source rule and the destination rule of its number are lifted into a mapping
when their addresses mirror, whatever else they match; a save of the mapping
clears the rest.
-/

namespace QuartzFire.Nat44

open ConfigTree Editing
open Firewall (Cfg Path VyosCommand trimmed)

/-! ## The form -/

structure StaticNatForm where
  rule : String
  description : String
  iface : String
  internalAddress : String
  externalAddress : String
  enabled : Bool
  deriving DecidableEq, Repr

/-- The state the form opens with. -/
def initialStatic (initial : Option StaticNatMapping) : StaticNatForm :=
  { rule := (initial.map fun mapping => toString mapping.rule).getD ""
    description := (initial.bind StaticNatMapping.description).getD ""
    iface := (initial.bind StaticNatMapping.interface).getD ""
    internalAddress := (initial.map StaticNatMapping.internalAddress).getD ""
    externalAddress := (initial.map StaticNatMapping.externalAddress).getD ""
    enabled := (initial.map StaticNatMapping.enabled).getD true }

def StaticNatForm.update (form : StaticNatForm)
    (initial : Option StaticNatMapping) (num : Nat) : StaticNatUpdate :=
  { rule := num
    description := trimmed form.description
    interface := trimmed form.iface
    internalAddress := Firewall.trim form.internalAddress
    externalAddress := Firewall.trim form.externalAddress
    enabled := form.enabled
    originalRule := initial.map StaticNatMapping.rule }

/-- `submit` of the mapping form. -/
def submitStatic (number : String → Option Nat)
    (initial : Option StaticNatMapping) (existing : List StaticNatMapping)
    (takenRules : List Nat) (form : StaticNatForm) :
    Except String StaticNatUpdate :=
  let outside := "Rule number must be a whole number between 1 and 999999."
  match number form.rule with
  | none => .error outside
  | some num =>
      if num < 1 ∨ 999999 < num then .error outside
      else if Firewall.trim form.internalAddress = "" ∨
          Firewall.trim form.externalAddress = "" then
        .error "Internal and external addresses are both required."
      else if existing.any fun m =>
          m.rule = num && !initial.any (·.rule = m.rule) then
        .error ("Rule " ++ toString num ++ " already exists.")
      else if num ∈ takenRules then
        .error ("Rule " ++ toString num ++
          " is already used by a source or destination NAT rule.")
      else .ok (form.update initial num)

theorem submitStatic_ok_iff {number : String → Option Nat}
    {initial : Option StaticNatMapping} {existing : List StaticNatMapping}
    {takenRules : List Nat} {form : StaticNatForm} {u : StaticNatUpdate} :
    submitStatic number initial existing takenRules form = .ok u ↔
      ∃ num, number form.rule = some num ∧ (1 ≤ num ∧ num ≤ 999999) ∧
        (Firewall.trim form.internalAddress ≠ "" ∧
          Firewall.trim form.externalAddress ≠ "") ∧
        (∀ m ∈ existing, m.rule = num → initial.any (·.rule = m.rule) = true) ∧
        num ∉ takenRules ∧ form.update initial num = u := by
  unfold submitStatic
  cases number form.rule with
  | none => simp
  | some num =>
      simp only [refuse_eq_ok, Option.some.injEq, exists_eq_left',
        Except.ok.injEq]
      have free : (¬ (existing.any fun m =>
            m.rule = num && !initial.any (·.rule = m.rule)) = true) ↔
          ∀ m ∈ existing, m.rule = num →
            initial.any (·.rule = m.rule) = true := by
        simp
      rw [free, not_or, not_or, not_lt, not_lt]

/-! ## Lifting pairs -/

section Lifting

variable {source destination : List NatRule}

/-- The addresses of the two rules mirror. -/
def Mirrored (s d : NatRule) : Prop :=
  s.source ≠ none ∧ s.translation ≠ none ∧ d.destination = s.translation ∧
    d.translation = s.source

theorem staticOf_isSome_iff (s d : NatRule) :
    (∃ mapping, staticOf s d = some mapping) ↔ Mirrored s d := by
  unfold staticOf Mirrored
  cases s.source <;> cases s.translation <;> simp

theorem rule_staticOf {s d : NatRule} {mapping : StaticNatMapping}
    (lifted : staticOf s d = some mapping) : mapping.rule = s.rule := by
  unfold staticOf at lifted
  split at lifted
  · split at lifted
    · cases lifted
      rfl
    · cases lifted
  · cases lifted

/-- The destination rule a source rule is compared with is the one of its
number. -/
theorem find?_reverse_iff
    (distinct : (destination.map NatRule.rule).Nodup) {number : Nat}
    {d : NatRule} :
    destination.reverse.find? (·.rule = number) = some d ↔
      d ∈ destination ∧ d.rule = number := by
  constructor
  · intro found
    exact ⟨List.mem_reverse.mp (List.mem_of_find?_eq_some found),
      by simpa using List.find?_some found⟩
  · rintro ⟨member, rfl⟩
    refine find?_of_distinct ?_ (List.mem_reverse.mpr member)
    rwa [List.map_reverse, List.nodup_reverse]

theorem mem_staticNat_iff (distinct : (destination.map NatRule.rule).Nodup)
    {mapping : StaticNatMapping} :
    mapping ∈ (splitStatic source destination).staticNat ↔
      ∃ s ∈ source, ∃ d ∈ destination, d.rule = s.rule ∧
        staticOf s d = some mapping := by
  rw [splitStatic, List.mem_filterMap]
  refine exists_congr fun s => and_congr_right fun _ => ?_
  rw [Option.bind_eq_some_iff]
  simp only [find?_reverse_iff distinct, and_assoc]

theorem map_filterMap_sublist {Item Row Key : Type} {key : Item → Key}
    {rowKey : Row → Key} {make : Item → Option Row}
    (same : ∀ item row, make item = some row → rowKey row = key item)
    (items : List Item) :
    ((items.filterMap make).map rowKey).Sublist (items.map key) := by
  induction items with
  | nil => exact .slnil
  | cons item items ih =>
      cases made : make item with
      | none =>
          rw [List.filterMap_cons_none made]
          exact ih.cons _
      | some row =>
          rw [List.filterMap_cons_some made, List.map_cons, List.map_cons,
            same item row made]
          exact ih.cons_cons _

theorem nodup_rule_staticNat (distinct : (source.map NatRule.rule).Nodup) :
    ((splitStatic source destination).staticNat.map
      StaticNatMapping.rule).Nodup := by
  refine distinct.sublist (map_filterMap_sublist ?_ source)
  intro s mapping lifted
  obtain ⟨d, _, pair⟩ := Option.bind_eq_some_iff.mp lifted
  exact rule_staticOf pair

/-- The plain rules when rules of some numbers give way to ones that are
lifted. -/
theorem plain_perm {rows rows' fresh : List NatRule}
    {numbers paired paired' : List Nat}
    (perm : rows'.Perm (fresh ++ rows.filter (·.rule ∉ numbers)))
    (lifted : ∀ row ∈ fresh, row.rule ∈ paired')
    (same : ∀ number ∉ numbers, number ∈ paired' ↔ number ∈ paired)
    (outside : ∀ row ∈ rows, row.rule ∉ paired → row.rule ∉ numbers) :
    (rows'.filter (·.rule ∉ paired')).Perm
      (rows.filter (·.rule ∉ paired)) := by
  have gone : fresh.filter (·.rule ∉ paired') = [] := by
    simpa using lifted
  refine (perm.filter _).trans (.of_eq ?_)
  rw [List.filter_append, gone, List.nil_append, List.filter_filter]
  refine List.filter_congr fun row member => ?_
  rw [← Bool.decide_and, decide_eq_decide]
  constructor
  · rintro ⟨unpaired, unlisted⟩ paired
    exact unpaired ((same _ unlisted).mpr paired)
  · intro unpaired
    have unlisted := outside row member unpaired
    exact ⟨fun paired => unpaired ((same _ unlisted).mp paired), unlisted⟩

variable {source' destination' : List NatRule} {numbers : List Nat}

/-- The mappings when the rules of some numbers give way to one pair. -/
theorem staticNat_put (distinct : (source.map NatRule.rule).Nodup)
    (distinct' : (source'.map NatRule.rule).Nodup)
    (unique : (destination.map NatRule.rule).Nodup)
    (unique' : (destination'.map NatRule.rule).Nodup) {s d : NatRule}
    (sources : source'.Perm (s :: source.filter (·.rule ∉ numbers)))
    (destinations : destination'.Perm
      (d :: destination.filter (·.rule ∉ numbers)))
    (same : d.rule = s.rule) (among : s.rule ∈ numbers)
    {mapping : StaticNatMapping} (lifts : staticOf s d = some mapping) :
    (splitStatic source' destination').staticNat.Perm
      (mapping :: (splitStatic source destination).staticNat.filter
        (·.rule ∉ numbers)) := by
  have nodup : (splitStatic source destination).staticNat.Nodup :=
    (nodup_rule_staticNat distinct).of_map
  refine (List.perm_ext_iff_of_nodup (nodup_rule_staticNat distinct').of_map
    (List.nodup_cons.mpr ⟨?_, nodup.filter _⟩)).mpr fun other => ?_
  · intro member
    have outside := of_decide_eq_true (List.mem_filter.mp member).2
    rw [rule_staticOf lifts] at outside
    exact outside among
  · rw [List.mem_cons, List.mem_filter, mem_staticNat_iff unique',
      mem_staticNat_iff unique, decide_eq_true_eq]
    simp only [sources.mem_iff, destinations.mem_iff, List.mem_cons,
      List.mem_filter, decide_eq_true_eq]
    constructor
    · rintro ⟨first, rfl | ⟨inSource, outside⟩, second, own, pair, made⟩
      · rcases own with rfl | ⟨_, outside⟩
        · exact .inl (Option.some.inj (made.symm.trans lifts))
        · exact absurd (pair ▸ among) outside
      · rcases own with rfl | ⟨inDestination, _⟩
        · exact absurd (pair ▸ same ▸ among) outside
        · exact .inr ⟨⟨first, inSource, second, inDestination, pair, made⟩,
            rule_staticOf made ▸ outside⟩
    · rintro (rfl | ⟨⟨first, inSource, second, inDestination, pair, made⟩,
        outside⟩)
      · exact ⟨s, .inl rfl, d, .inl rfl, same, lifts⟩
      · rw [rule_staticOf made] at outside
        exact ⟨first, .inr ⟨inSource, outside⟩, second,
          .inr ⟨inDestination, pair ▸ outside⟩, pair, made⟩

/-- The mappings when the rules of some numbers go. -/
theorem staticNat_gone (distinct : (source.map NatRule.rule).Nodup)
    (distinct' : (source'.map NatRule.rule).Nodup)
    (unique : (destination.map NatRule.rule).Nodup)
    (unique' : (destination'.map NatRule.rule).Nodup)
    (sources : source'.Perm (source.filter (·.rule ∉ numbers)))
    (destinations : destination'.Perm
      (destination.filter (·.rule ∉ numbers))) :
    (splitStatic source' destination').staticNat.Perm
      ((splitStatic source destination).staticNat.filter
        (·.rule ∉ numbers)) := by
  have nodup : (splitStatic source destination).staticNat.Nodup :=
    (nodup_rule_staticNat distinct).of_map
  refine (List.perm_ext_iff_of_nodup (nodup_rule_staticNat distinct').of_map
    (nodup.filter _)).mpr fun other => ?_
  rw [List.mem_filter, mem_staticNat_iff unique', mem_staticNat_iff unique,
    decide_eq_true_eq]
  simp only [sources.mem_iff, destinations.mem_iff, List.mem_filter,
    decide_eq_true_eq]
  constructor
  · rintro ⟨first, ⟨inSource, outside⟩, second, ⟨inDestination, _⟩, pair, made⟩
    exact ⟨⟨first, inSource, second, inDestination, pair, made⟩,
      rule_staticOf made ▸ outside⟩
  · rintro ⟨⟨first, inSource, second, inDestination, pair, made⟩, outside⟩
    rw [rule_staticOf made] at outside
    exact ⟨first, ⟨inSource, outside⟩, second,
      ⟨inDestination, pair ▸ outside⟩, pair, made⟩

end Lifting

end QuartzFire.Nat44
