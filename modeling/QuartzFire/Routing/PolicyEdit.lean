import QuartzFire.Editing.RowForm
import QuartzFire.Routing.Policy

/-!
# What a save makes of one rule

Each rule of a prefix list or a route map is a row of its own.  Its fields are
as desired after a save, apart from what follows a match: the flag and the
target are compared with a live rule that shows only one of them.
-/

namespace QuartzFire.Routing

open ConfigTree Editing
open Firewall (Cfg Path VyosCommand trimmed childStr has)

variable {Num : Type} {numerals : Numerals Num}

/-! ## The forms -/

def prefixShape : List (Path × Kind) :=
  [(["action"], .single), (["prefix"], .single), (["ge"], .single),
    (["le"], .single), (["description"], .single)]

def routeMapShape : List (Path × Kind) :=
  [(["action"], .single), (["on-match", "next"], .valueless),
    (["description"], .single),
    (["match", "ip", "address", "prefix-list"], .single),
    (["match", "ipv6", "address", "prefix-list"], .single),
    (["match", "as-path"], .single),
    (["match", "community", "community-list"], .single),
    (["match", "interface"], .single), (["match", "metric"], .single),
    (["match", "origin"], .single), (["match", "peer"], .single),
    (["set", "as-path", "prepend"], .single), (["set", "community"], .single),
    (["set", "local-preference"], .single), (["set", "metric"], .single),
    (["set", "ip-next-hop"], .single), (["set", "origin"], .single),
    (["set", "weight"], .single), (["set", "tag"], .single),
    (["on-match", "goto"], .single), (["call"], .single)]

variable (numerals) in
def prefixForm : RowForm Num Nat (PrefixRule Num) where
  key := PrefixRule.seq
  parse := parsePrefixRule numerals
  pushes live u := actionPush (live.map (·.action)) u.action ::
    prefixPush live u :: prefixPushes live u
  shape := prefixShape
  keys _ _ := rfl
  shaped _ _ := rfl
  apart := of_decide_eq_true rfl
  proper := of_decide_eq_true rfl

variable (numerals) in
def routeMapForm : RowForm Num Nat (RouteMapRule Num) where
  key := RouteMapRule.seq
  parse := parseRouteMapRule numerals
  pushes live u := actionPush (live.map (·.action)) u.action ::
    nextPush live u :: routeMapPushes live u
  shape := routeMapShape
  keys _ _ := rfl
  shaped _ _ := rfl
  apart := of_decide_eq_true rfl
  proper := of_decide_eq_true rfl

theorem diff_prefixForm :
    (prefixForm numerals).diff numerals = diffPrefixRule numerals := rfl

theorem diff_routeMapForm :
    (routeMapForm numerals).diff numerals = diffRouteMapRule numerals := rfl

/-! ## Rules as they are saved -/

/-- A rule without white space around its texts. -/
def PrefixRule.normal (rule : PrefixRule Num) : PrefixRule Num :=
  { rule with
    prefixText := (trimmed rule.prefixText).getD ""
    description := rule.description.bind trimmed }

def RouteMapMatch.normal (m : RouteMapMatch Num) : RouteMapMatch Num :=
  { m with
    ip_prefix_list := m.ip_prefix_list.bind trimmed
    ipv6_prefix_list := m.ipv6_prefix_list.bind trimmed
    as_path := m.as_path.bind trimmed
    community_list := m.community_list.bind trimmed
    interface := m.interface.bind trimmed
    origin := m.origin.bind trimmed
    peer := m.peer.bind trimmed }

def RouteMapSet.normal (s : RouteMapSet Num) : RouteMapSet Num :=
  { s with
    as_path_prepend := s.as_path_prepend.bind trimmed
    community := s.community.bind trimmed
    metric := s.metric.bind trimmed
    ip_next_hop := s.ip_next_hop.bind trimmed
    origin := s.origin.bind trimmed }

def RouteMapRule.normal (rule : RouteMapRule Num) : RouteMapRule Num :=
  { rule with
    description := rule.description.bind trimmed
    «match» := rule.match.normal
    set := rule.set.normal
    call := rule.call.bind trimmed }

theorem PrefixRule.eq_normal_iff {row rule : PrefixRule Num}
    (same : row.seq = rule.seq) :
    row = rule.normal ↔ row.action = rule.action ∧
      row.prefixText = (trimmed rule.prefixText).getD "" ∧
      ∀ push ∈ prefixPushes (some row) rule, push.Same := by
  cases row
  cases rule
  simp only at same
  subst same
  simp [PrefixRule.normal, prefixPushes, Push.Same]

theorem RouteMapRule.eq_normal_iff {row rule : RouteMapRule Num}
    (same : row.seq = rule.seq) :
    row = rule.normal ↔ row.action = rule.action ∧
      row.on_match = rule.on_match ∧
      ∀ push ∈ routeMapPushes (some row) rule, push.Same := by
  obtain ⟨_, _, _, ⟨⟩, ⟨⟩, _, _⟩ := row
  obtain ⟨_, _, _, ⟨⟩, ⟨⟩, _, _⟩ := rule
  simp only at same
  subst same
  simp only [RouteMapRule.normal, RouteMapMatch.normal, RouteMapSet.normal,
    routeMapPushes, Push.Same, RouteMapRule.mk.injEq, RouteMapMatch.mk.injEq,
    RouteMapSet.mk.injEq, List.forall_mem_cons, List.not_mem_nil,
    IsEmpty.forall_iff, implies_true, Option.bind_some]
  constructor
  · rintro ⟨_, action, description, matches', sets, rfl, call⟩
    tauto
  · tauto

/-! ## Reading -/

theorem parseOnMatch_eq (raw : Cfg) :
    parseOnMatch numerals raw =
      match numberAt numerals (subtree ["on-match", "goto"] raw) with
      | some seq => .goto seq
      | none => if (subtree ["on-match", "next"] raw).isSome then .next
          else .none := by
  rw [← subtree_childNode, ← subtree_childNode, ← childNum_eq, ← has_eq]
  unfold parseOnMatch childNode
  cases childCfg raw "on-match" <;> rfl

theorem prefixPushes_live (seq : Nat) (raw : Cfg) (u : PrefixRule Num) :
    ∀ push ∈ prefixPushes (some (parsePrefixRule numerals seq raw)) u,
      push.Live numerals raw := by
  simp only [prefixPushes, List.forall_mem_cons, List.not_mem_nil,
    IsEmpty.forall_iff, implies_true, Push.Live, Option.bind_some,
    parsePrefixRule, childStr_eq, childNum_eq, and_self]

theorem target_parseOnMatch (raw : Cfg) :
    (parseOnMatch numerals raw).target =
      numberAt numerals (subtree ["on-match", "goto"] raw) := by
  rw [parseOnMatch_eq]
  cases numberAt numerals (subtree ["on-match", "goto"] raw) with
  | some seq => rfl
  | none => cases (subtree ["on-match", "next"] raw).isSome <;> rfl

theorem routeMapPushes_live (seq : Nat) (raw : Cfg) (u : RouteMapRule Num) :
    ∀ push ∈ routeMapPushes (some (parseRouteMapRule numerals seq raw)) u,
      push.Live numerals raw := by
  simp only [routeMapPushes, List.forall_mem_cons, List.not_mem_nil,
    IsEmpty.forall_iff, implies_true, Push.Live, Option.bind_some,
    parseRouteMapRule, childStr_eq, childNum_eq, subtree_childNode,
    target_parseOnMatch, and_self]

theorem prefixFields :
    (prefixForm numerals).Plain numerals prefixPushes where
  among _ _ _ member := List.mem_cons_of_mem _ (List.mem_cons_of_mem _ member)
  blanks _ _ := rfl
  reads := prefixPushes_live

theorem routeMapFields :
    (routeMapForm numerals).Plain numerals routeMapPushes where
  among _ _ _ member := List.mem_cons_of_mem _ (List.mem_cons_of_mem _ member)
  blanks _ _ := rfl
  reads := routeMapPushes_live

/-! ## Saving -/

section Saving

variable {kinds : Kinds String} {raw : Cfg}

theorem parseAction_eq (raw : Cfg) :
    parseAction raw = if textAt (subtree ["action"] raw) = some "deny" then
      .deny else .permit := by
  rw [parseAction, childStr_eq]

/-- The action is the desired one. -/
theorem parseAction_saved {Rule : Type} (form : RowForm Num Nat Rule)
    {live : Option Rule} {rule : Rule} {shown : Option PolicyAction}
    {u : PolicyAction} (field : FieldAt kinds ["action"] .single)
    (conforms : Conforms kinds raw)
    (member : actionPush shown u ∈ form.pushes live rule)
    (opened : shown = some (parseAction raw) ∨ shown = none) :
    parseAction (executeAll kinds (form.diff numerals live rule) raw) = u := by
  have wrote := @RowForm.push_yields _ _ _ numerals _ _ _ _ _ _ conforms
    member _ (leaf_writes field)
  have wants : (some u.text).bind trimmed = some u.text := by
    cases u <;> decide
  rw [wants] at wrote
  split at wrote
  · rename_i same
    rcases opened with rfl | rfl
    · rw [parseAction_eq, actionPush, Push.path] at *
      rw [wrote]
      generalize textAt (subtree ["action"] raw) = text at same ⊢
      split at same <;> cases u <;> simp_all [PolicyAction.text]
    · cases same
  · rw [parseAction_eq]
    rw [actionPush, Push.path] at wrote
    rw [wrote.1]
    cases u <;> decide

theorem leaves_prefixShape : ∀ field ∈ prefixShape, field.2 ≠ .node := by
  decide

theorem leaves_routeMapShape : ∀ field ∈ routeMapShape, field.2 ≠ .node := by
  decide

theorem prefixText_eq (seq : Nat) (raw : Cfg) :
    (parsePrefixRule numerals seq raw).prefixText =
      (textAt (subtree ["prefix"] raw)).getD "" := by
  rw [parsePrefixRule, childStr_eq]

theorem prefixText_saved {live : Option (PrefixRule Num)}
    {rule : PrefixRule Num} (shaped : Shaped kinds prefixShape)
    (conforms : Conforms kinds raw) {seq : Nat}
    (opened : (prefixForm numerals).Opened seq live raw) (other : Nat) :
    (parsePrefixRule numerals other (executeAll kinds
        (diffPrefixRule numerals live rule) raw)).prefixText =
      (trimmed rule.prefixText).getD "" := by
  have member : prefixPush live rule ∈
      (prefixForm numerals).pushes live rule :=
    List.mem_cons_of_mem _ List.mem_cons_self
  have wrote := @RowForm.push_yields _ _ _ numerals _ _ _ _ _ _ conforms
    member _ (leaf_writes (shaped (["prefix"], .single) (by decide)))
  rw [diff_prefixForm, prefixPush, Push.path, Option.bind_some] at wrote
  rw [prefixText_eq]
  split at wrote
  · rename_i same
    rw [wrote]
    rcases opened with rfl | ⟨rfl, rfl⟩
    · rw [same, Option.map_some, Option.getD_some]
      exact (prefixText_eq seq raw).symm
    · rw [same]
      rfl
  · rw [wrote.1]

/-- The rule of a prefix list that is read after a save is the desired one
exactly when its numbers read as themselves. -/
theorem prefixRule_saved_iff {live : Option (PrefixRule Num)}
    {rule : PrefixRule Num} (shaped : Shaped kinds prefixShape)
    (conforms : Conforms kinds raw)
    (opened : (prefixForm numerals).Opened rule.seq live raw) :
    parsePrefixRule numerals rule.seq (executeAll kinds
        (diffPrefixRule numerals live rule) raw) = rule.normal ↔
      ∀ push ∈ prefixPushes none rule, push.Whole numerals := by
  have action : (parsePrefixRule numerals rule.seq (executeAll kinds
      (diffPrefixRule numerals live rule) raw)).action = rule.action := by
    refine parseAction_saved (prefixForm numerals)
      (shaped (["action"], .single) (by decide)) conforms List.mem_cons_self ?_
    rcases opened with rfl | ⟨rfl, rfl⟩
    · exact .inl rfl
    · exact .inr rfl
  have same : (parsePrefixRule numerals rule.seq (executeAll kinds
      (diffPrefixRule numerals live rule) raw)).seq = rule.seq := rfl
  refine (PrefixRule.eq_normal_iff same).trans ?_
  rw [and_iff_right action,
    and_iff_right (prefixText_saved shaped conforms opened rule.seq)]
  exact prefixFields.same_iff shaped leaves_prefixShape conforms opened rule.seq

/-! ### What follows a match -/

/-- A rule leaves the flag or the target it does not show, if the node has
both. -/
structure OneForm (numerals : Numerals Num) (raw : Cfg)
    (rule : RouteMapRule Num) : Prop where
  next : (subtree ["on-match", "next"] raw).isSome = true →
    (numberAt numerals (subtree ["on-match", "goto"] raw)).isSome = true →
      rule.on_match = .next
  target : (subtree ["on-match", "goto"] raw).isSome = true →
    numberAt numerals (subtree ["on-match", "goto"] raw) = none →
      rule.on_match.target.isSome = true

/-- Only the chosen form is there. -/
structure InForce (saved : Cfg) (onMatch : OnMatch Num) : Prop where
  next : (subtree ["on-match", "next"] saved).isSome = onMatch.isNext
  target : (subtree ["on-match", "goto"] saved).isSome = onMatch.target.isSome

theorem isNext_parseOnMatch (raw : Cfg) :
    (parseOnMatch numerals raw).isNext =
      ((numberAt numerals (subtree ["on-match", "goto"] raw)).isNone &&
        (subtree ["on-match", "next"] raw).isSome) := by
  rw [parseOnMatch_eq]
  cases numberAt numerals (subtree ["on-match", "goto"] raw) with
  | some seq => rfl
  | none => cases (subtree ["on-match", "next"] raw).isSome <;> rfl

theorem isSome_of_numberAt {leaf : Option Cfg} {value : Num}
    (reads : numberAt numerals leaf = some value) : leaf.isSome = true := by
  cases leaf with
  | none => cases reads
  | some _ => rfl

/-- The flag is written where the live rule does not show what is desired. -/
theorem next_saved {live : Option (RouteMapRule Num)} {rule : RouteMapRule Num}
    (shaped : Shaped kinds routeMapShape) (conforms : Conforms kinds raw)
    {seq : Nat} (opened : (routeMapForm numerals).Opened seq live raw) :
    (subtree ["on-match", "next"] (executeAll kinds
        (diffRouteMapRule numerals live rule) raw)).isSome =
      if rule.on_match.isNext = (parseOnMatch numerals raw).isNext then
        (subtree ["on-match", "next"] raw).isSome
      else rule.on_match.isNext := by
  have member : nextPush live rule ∈ (routeMapForm numerals).pushes live rule :=
    List.mem_cons_of_mem _ List.mem_cons_self
  have wrote := @RowForm.push_yields _ _ _ numerals _ _ _ _ _ _ conforms
    member _ (flag_writes (.inl (shaped (["on-match", "next"], .valueless)
      (by decide))))
  have shown : (live.any fun rule => rule.on_match.isNext) =
      (parseOnMatch numerals raw).isNext := by
    rcases opened with rfl | ⟨rfl, rfl⟩ <;> rfl
  rw [diff_routeMapForm, nextPush, Push.path, shown] at wrote
  split at wrote
  · rename_i same
    rw [if_pos same, wrote]
  · rename_i differs
    rw [if_neg differs, wrote]

theorem gotoPush_mem (live : Option (RouteMapRule Num))
    (rule : RouteMapRule Num) :
    .number ["on-match", "goto"] (live.bind (·.on_match.target))
      rule.on_match.target ∈ routeMapPushes live rule := by
  simp [routeMapPushes]

/-- The target is what the desired one reads as. -/
theorem goto_saved {live : Option (RouteMapRule Num)} {rule : RouteMapRule Num}
    (shaped : Shaped kinds routeMapShape) (conforms : Conforms kinds raw)
    {seq : Nat} (opened : (routeMapForm numerals).Opened seq live raw) :
    numberAt numerals (subtree ["on-match", "goto"] (executeAll kinds
        (diffRouteMapRule numerals live rule) raw)) =
      rule.on_match.target.bind fun value =>
        numerals.number (numerals.string value) := by
  have member := gotoPush_mem live rule
  exact @RowForm.push_done _ _ _ numerals (routeMapForm numerals) _ _ _ _ _
    shaped leaves_routeMapShape conforms (routeMapFields.among _ _ _ member)
    (routeMapFields.opened_live opened rule _ member)

/-- A target that does not read as a number stays where none is desired. -/
theorem isSome_goto_saved {live : Option (RouteMapRule Num)}
    {rule : RouteMapRule Num} (shaped : Shaped kinds routeMapShape)
    (conforms : Conforms kinds raw) {seq : Nat}
    (opened : (routeMapForm numerals).Opened seq live raw) :
    (subtree ["on-match", "goto"] (executeAll kinds
        (diffRouteMapRule numerals live rule) raw)).isSome =
      (rule.on_match.target.isSome ||
        ((numberAt numerals (subtree ["on-match", "goto"] raw)).isNone &&
          (subtree ["on-match", "goto"] raw).isSome)) := by
  have member := gotoPush_mem live rule
  have reads : live.bind (·.on_match.target) =
      numberAt numerals (subtree ["on-match", "goto"] raw) :=
    routeMapFields.opened_live opened rule _ member
  have wrote := @RowForm.push_yields _ _ _ numerals _ _ _ _ _ _ conforms
    (@routeMapFields _ numerals |>.among live rule _ member) _
    (leaf_writes (shaped (["on-match", "goto"], .single) (by decide)))
  rw [diff_routeMapForm, Push.path, reads] at wrote
  cases given : rule.on_match.target with
  | some value =>
      have wants : ((some value).map numerals.string).bind trimmed =
          some (numerals.string value) := numerals.bind_trimmed (some value)
      rw [given, wants] at wrote
      rw [Option.isSome_some, Bool.true_or]
      split at wrote
      · rename_i same
        obtain ⟨shown, reads, _⟩ := Option.map_eq_some_iff.mp same.symm
        rw [wrote, isSome_of_numberAt reads]
      · cases saved : subtree ["on-match", "goto"] (executeAll kinds
          (diffRouteMapRule numerals live rule) raw) with
        | none =>
            rw [saved] at wrote
            cases wrote.1
        | some _ => rfl
  | none =>
      rw [given] at wrote
      cases shown : numberAt numerals (subtree ["on-match", "goto"] raw) with
      | none =>
          rw [shown, Option.map_none, Option.bind_none, if_pos rfl] at wrote
          rw [wrote]
          rfl
      | some value =>
          rw [shown, if_neg (by simp)] at wrote
          rw [wrote.2 rfl]
          rfl

theorem onMatch_saved_iff {live : Option (RouteMapRule Num)}
    {rule : RouteMapRule Num} (shaped : Shaped kinds routeMapShape)
    (conforms : Conforms kinds raw) {seq : Nat}
    (opened : (routeMapForm numerals).Opened seq live raw)
    (whole : ∀ value, rule.on_match.target = some value →
      numerals.number (numerals.string value) = some value) :
    parseOnMatch numerals (executeAll kinds
          (diffRouteMapRule numerals live rule) raw) = rule.on_match ∧
        InForce (executeAll kinds (diffRouteMapRule numerals live rule) raw)
          rule.on_match ↔
      OneForm numerals raw rule := by
  have next := @next_saved _ numerals _ _ _ rule shaped conforms _ opened
  have reads := @goto_saved _ numerals _ _ _ rule shaped conforms _ opened
  have there := @isSome_goto_saved _ numerals _ _ _ rule shaped conforms _ opened
  rw [isNext_parseOnMatch] at next
  generalize executeAll kinds (diffRouteMapRule numerals live rule) raw = saved
    at next reads there ⊢
  have parts : ∀ onMatch : OnMatch Num, InForce saved onMatch ↔
      (subtree ["on-match", "next"] saved).isSome = onMatch.isNext ∧
        (subtree ["on-match", "goto"] saved).isSome =
          onMatch.target.isSome := fun _ =>
    ⟨fun force => ⟨force.next, force.target⟩, fun both => ⟨both.1, both.2⟩⟩
  have forms : OneForm numerals raw rule ↔
      ((subtree ["on-match", "next"] raw).isSome = true →
        (numberAt numerals (subtree ["on-match", "goto"] raw)).isSome = true →
          rule.on_match = .next) ∧
      ((subtree ["on-match", "goto"] raw).isSome = true →
        numberAt numerals (subtree ["on-match", "goto"] raw) = none →
          rule.on_match.target.isSome = true) :=
    ⟨fun form => ⟨form.next, form.target⟩, fun both => ⟨both.1, both.2⟩⟩
  rw [parts, forms, parseOnMatch_eq, reads, next, there]
  cases wanted : rule.on_match with
  | none =>
      cases numberAt numerals (subtree ["on-match", "goto"] raw) <;>
        cases (subtree ["on-match", "next"] raw).isSome <;>
        cases (subtree ["on-match", "goto"] raw).isSome <;>
        simp [OnMatch.target, OnMatch.isNext]
  | next =>
      cases numberAt numerals (subtree ["on-match", "goto"] raw) <;>
        cases (subtree ["on-match", "next"] raw).isSome <;>
        cases (subtree ["on-match", "goto"] raw).isSome <;>
        simp [OnMatch.target, OnMatch.isNext]
  | goto value =>
      have read := whole value (by rw [wanted]; rfl)
      cases numberAt numerals (subtree ["on-match", "goto"] raw) <;>
        cases (subtree ["on-match", "next"] raw).isSome <;>
        cases (subtree ["on-match", "goto"] raw).isSome <;>
        simp [OnMatch.target, OnMatch.isNext, read]

/-- The rule of a route map that is read after a save is the desired one, with
only the chosen form of what follows a match, exactly when its numbers read as
themselves and no form is left that the live rule does not show. -/
theorem routeMapRule_saved_iff {live : Option (RouteMapRule Num)}
    {rule : RouteMapRule Num} (shaped : Shaped kinds routeMapShape)
    (conforms : Conforms kinds raw)
    (opened : (routeMapForm numerals).Opened rule.seq live raw) :
    (parseRouteMapRule numerals rule.seq (executeAll kinds
          (diffRouteMapRule numerals live rule) raw) = rule.normal ∧
        InForce (executeAll kinds (diffRouteMapRule numerals live rule) raw)
          rule.on_match) ↔
      (∀ push ∈ routeMapPushes none rule, push.Whole numerals) ∧
        OneForm numerals raw rule := by
  have action : (parseRouteMapRule numerals rule.seq (executeAll kinds
      (diffRouteMapRule numerals live rule) raw)).action = rule.action := by
    refine parseAction_saved (routeMapForm numerals)
      (shaped (["action"], .single) (by decide)) conforms List.mem_cons_self ?_
    rcases opened with rfl | ⟨rfl, rfl⟩
    · exact .inl rfl
    · exact .inr rfl
  have same : (parseRouteMapRule numerals rule.seq (executeAll kinds
      (diffRouteMapRule numerals live rule) raw)).seq = rule.seq := rfl
  have fields := @RowForm.Plain.same_iff _ _ _ numerals _ _ _ rule _ _
    routeMapFields shaped leaves_routeMapShape conforms _ opened rule.seq
  rw [RouteMapRule.eq_normal_iff same, and_iff_right action]
  have onMatch : (∀ push ∈ routeMapPushes none rule, push.Whole numerals) →
      (parseOnMatch numerals (executeAll kinds
          (diffRouteMapRule numerals live rule) raw) = rule.on_match ∧
        InForce (executeAll kinds (diffRouteMapRule numerals live rule) raw)
          rule.on_match ↔ OneForm numerals raw rule) := fun whole =>
    onMatch_saved_iff shaped conforms opened
      (whole _ (gotoPush_mem none rule))
  rw [and_right_comm, show (routeMapForm numerals).diff numerals =
    diffRouteMapRule numerals from rfl] at *
  constructor
  · rintro ⟨force, fields'⟩
    have whole := fields.mp fields'
    exact ⟨whole, (onMatch whole).mp force⟩
  · rintro ⟨whole, form⟩
    exact ⟨(onMatch whole).mpr form, fields.mpr whole⟩

end Saving

end QuartzFire.Routing
