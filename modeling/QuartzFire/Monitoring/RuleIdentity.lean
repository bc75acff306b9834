import QuartzFire.Monitoring.LogEntry

/-!
# Which rule a log line or a comment names

The prefix of a log line and the comment of a rule join the family, the hook,
the chain and the rule with dashes, which the name of a ruleset may contain as
well.  Both readers peel the other pieces off the ends.
-/

namespace QuartzFire.Monitoring

/-! ## Rules -/

inductive Family where
  | ipv4
  | ipv6
  deriving DecidableEq

def Family.text : Family → List Char
  | .ipv4 => "ipv4".toList
  | .ipv6 => "ipv6".toList

/-- A base chain of the firewall. -/
inductive BaseChain where
  | forward
  | input
  | output
  deriving DecidableEq

def BaseChain.hook : BaseChain → List Char
  | .forward => "FWD".toList
  | .input => "INP".toList
  | .output => "OUT".toList

def BaseChain.text : BaseChain → List Char
  | .forward => "forward".toList
  | .input => "input".toList
  | .output => "output".toList

/-- The bracket that closes a prefix is in no name of a ruleset. -/
abbrev RulesetName := { name : List Char // ']' ∉ name }

inductive Scope where
  | base (chain : BaseChain)
  | named (name : RulesetName)
  deriving DecidableEq

def Scope.hook : Scope → List Char
  | .base chain => chain.hook
  | .named _ => "NAM".toList

def Scope.chain : Scope → List Char
  | .base _ => "filter".toList
  | .named name => name.val

/-- The scope as the log shows it. -/
def Scope.text : Scope → List Char
  | .base chain => chain.text
  | .named name => "name:".toList ++ name.val

/-- A numbered rule, or the default action of a chain. -/
structure FirewallRule where
  family : Family
  scope : Scope
  number : Option UInt32
  deriving DecidableEq

def ruleText : Option UInt32 → List Char
  | some number => (toString number.toNat).toList
  | none => "default".toList

inductive RuleAction where
  | accept
  | queue
  | drop
  | reject
  deriving DecidableEq

/-- The first letter of the action. -/
def RuleAction.letter : RuleAction → List Char
  | .accept => ['A']
  | .queue => ['Q']
  | .drop => ['D']
  | .reject => ['R']

/-- The action as the log shows it: what is queued goes to the inspection. -/
def RuleAction.shown : RuleAction → List Char × Bool
  | .accept => ("accept".toList, false)
  | .queue => ("accept".toList, true)
  | .drop => ("drop".toList, false)
  | .reject => ("reject".toList, false)

def FirewallRule.comment (rule : FirewallRule) : List Char :=
  ['-'].intercalate
    [rule.family.text, rule.scope.hook, rule.scope.chain, ruleText rule.number]

def FirewallRule.logPrefix (rule : FirewallRule) (action : RuleAction) :
    List Char :=
  ['-'].intercalate
    [rule.family.text, rule.scope.hook, rule.scope.chain, ruleText rule.number,
      action.letter]

/-- The node of a rule in the configuration. -/
def FirewallRule.path (rule : FirewallRule) (number : UInt32) :
    List (List Char) :=
  match rule.scope with
  | .base chain =>
      ["firewall".toList, rule.family.text, chain.text, "filter".toList,
        "rule".toList, (toString number.toNat).toList]
  | .named name =>
      ["firewall".toList, rule.family.text, "name".toList, name.val,
        "rule".toList, (toString number.toNat).toList]

/-! ## The reader of comments -/

def baseChain (family chain rule : List Char) : List (List Char) :=
  ["firewall".toList, family, chain, "filter".toList, "rule".toList, rule]

def ruleConfigPath (comment : List Char) : Option (List (List Char)) :=
  let parts := comment.splitOn '-'
  if parts.length < 4 then none
  else
    let family := parts.headD []
    if family ≠ "ipv4".toList ∧ family ≠ "ipv6".toList then none
    else
      let rule := parts.getD (parts.length - 1) []
      if parseUnsigned 32 rule = none then none
      else
        match parts[1]?.map String.ofList with
        | some "FWD" => some (baseChain family "forward".toList rule)
        | some "INP" => some (baseChain family "input".toList rule)
        | some "OUT" => some (baseChain family "output".toList rule)
        | some "NAM" => some
            ["firewall".toList, family, "name".toList,
              ['-'].intercalate ((parts.take (parts.length - 1)).drop 2),
              "rule".toList, rule]
        | _ => none

/-! ## Pieces -/

/-- A piece that is joined whole. -/
def Piece (text : List Char) : Prop := '-' ∉ text ∧ ']' ∉ text

instance (text : List Char) : Decidable (Piece text) :=
  inferInstanceAs (Decidable ('-' ∉ text ∧ ']' ∉ text))

theorem Family.piece (family : Family) : Piece family.text := by
  cases family with
  | ipv4 => decide
  | ipv6 => decide

theorem Scope.piece_hook (scope : Scope) : Piece scope.hook := by
  cases scope with
  | base chain => cases chain <;> decide
  | named name => exact (by decide : Piece "NAM".toList)

theorem Scope.closed_chain (scope : Scope) : ']' ∉ scope.chain := by
  cases scope with
  | base chain => exact (by decide : ']' ∉ "filter".toList)
  | named name => exact name.property

theorem RuleAction.piece (action : RuleAction) : Piece action.letter := by
  cases action <;> decide

theorem piece_ruleText (number : Option UInt32) : Piece (ruleText number) := by
  cases number with
  | none => decide
  | some number =>
      change Piece (toString number.toNat).toList
      rw [toList_toString]
      constructor
      · exact not_mem_digits rfl number.toNat
      · exact not_mem_digits rfl number.toNat

/-- What a rule's text is read as. -/
theorem parseUnsigned_toString (number : UInt32) :
    parseUnsigned 32 (toString number.toNat).toList = some number.toNat := by
  rw [toList_toString]
  exact parseUnsigned_toDigits number.toNat_lt

theorem ruleOf_ruleText (number : Option UInt32) :
    ruleOf (ruleText number) = some (number.map UInt32.toNat) := by
  cases number with
  | none => rfl
  | some number =>
      have other : (toString number.toNat).toList ≠ "default".toList := by
        intro same
        have digits := all_isDigit_digits number.toNat
        rw [← toList_toString, same] at digits
        cases digits
      change ruleOf (toString number.toNat).toList = _
      rw [ruleOf, if_neg other]
      exact congrArg (Option.map some) (parseUnsigned_toString number)

theorem splitOn_comment (rule : FirewallRule) :
    rule.comment.splitOn '-' =
      rule.family.text :: rule.scope.hook ::
        (rule.scope.chain.splitOn '-' ++ [ruleText rule.number]) := by
  have joined : rule.comment =
      rule.family.text ++ '-' :: (rule.scope.hook ++ '-' ::
        (rule.scope.chain ++ '-' :: ruleText rule.number)) := by
    simp [FirewallRule.comment, List.intercalate, List.intersperse]
  rw [joined, List.splitOn_append_cons_self_of_not_mem rule.family.piece.1,
    List.splitOn_append_cons_self_of_not_mem rule.scope.piece_hook.1,
    List.splitOn_append_cons_self,
    List.splitOn_eq_singleton (piece_ruleText rule.number).1]

theorem FirewallRule.logPrefix_eq (rule : FirewallRule) (action : RuleAction) :
    rule.logPrefix action =
      rule.family.text ++ '-' :: (rule.scope.hook ++ '-' ::
        (rule.scope.chain ++ '-' :: (ruleText rule.number ++ '-' ::
          action.letter))) := by
  simp [FirewallRule.logPrefix, List.intercalate, List.intersperse]

theorem splitOn_logPrefix (rule : FirewallRule) (action : RuleAction) :
    (rule.logPrefix action).splitOn '-' =
      rule.family.text :: rule.scope.hook ::
        (rule.scope.chain.splitOn '-' ++
          [ruleText rule.number, action.letter]) := by
  rw [rule.logPrefix_eq,
    List.splitOn_append_cons_self_of_not_mem rule.family.piece.1,
    List.splitOn_append_cons_self_of_not_mem rule.scope.piece_hook.1,
    List.splitOn_append_cons_self,
    List.splitOn_append_cons_self_of_not_mem (piece_ruleText rule.number).1,
    List.splitOn_eq_singleton action.piece.1]

theorem closed_logPrefix (rule : FirewallRule) (action : RuleAction) :
    ']' ∉ rule.logPrefix action := by
  have dash : ']' ≠ '-' := by decide
  simp only [rule.logPrefix_eq, List.mem_append, List.mem_cons, not_or]
  exact ⟨rule.family.piece.2, dash, rule.scope.piece_hook.2, dash,
    rule.scope.closed_chain, dash, (piece_ruleText rule.number).2, dash,
    action.piece.2⟩

/-! ## The pieces of a split text -/

section Parts

variable (front hook : List Char) (names : List (List Char))

theorem middle_two (rule letter : List Char) :
    ((front :: hook :: (names ++ [rule, letter])).take
      ((front :: hook :: (names ++ [rule, letter])).length - 2)).drop 2 =
        names := by
  have length : (front :: hook :: (names ++ [rule, letter])).length - 2 =
      (front :: hook :: names).length := by
    simp
  rw [length, ← List.cons_append, ← List.cons_append, List.take_left]
  rfl

theorem middle_one (rule : List Char) :
    ((front :: hook :: (names ++ [rule])).take
      ((front :: hook :: (names ++ [rule])).length - 1)).drop 2 = names := by
  have length : (front :: hook :: (names ++ [rule])).length - 1 =
      (front :: hook :: names).length := by
    simp
  rw [length, ← List.cons_append, ← List.cons_append, List.take_left]
  rfl

theorem getLastD_two (rule letter : List Char) :
    (front :: hook :: (names ++ [rule, letter])).getLastD [] = letter := by
  have last : front :: hook :: (names ++ [rule, letter]) =
      (front :: hook :: names ++ [rule]) ++ [letter] := by
    simp
  rw [last, List.getLastD_concat]

theorem getD_two (rule letter : List Char) :
    (front :: hook :: (names ++ [rule, letter])).getD
      ((front :: hook :: (names ++ [rule, letter])).length - 2) [] = rule := by
  simp [List.getD_eq_getElem?_getD]

theorem getD_one (rule : List Char) :
    (front :: hook :: (names ++ [rule])).getD
      ((front :: hook :: (names ++ [rule])).length - 1) [] = rule := by
  simp [List.getD_eq_getElem?_getD]

end Parts

theorem chainOf_logPrefix (rule : FirewallRule) (action : RuleAction) :
    chainOf ((rule.logPrefix action).splitOn '-') = some rule.scope.text := by
  rw [splitOn_logPrefix]
  unfold chainOf
  rw [middle_two]
  cases scope : rule.scope with
  | base chain => cases chain <;> rfl
  | named name =>
      show some ("name:".toList ++ ['-'].intercalate (name.val.splitOn '-')) = _
      rw [List.intercalate_splitOn]
      rfl

theorem actionOf_letter (action : RuleAction) :
    actionOf action.letter = some action.shown := by
  cases action <;> rfl

/-! ## Both readers give the rule back -/

/-- What the log says of a rule that let a packet through or stopped it. -/
structure LogEntry.Names (entry : LogEntry) (rule : FirewallRule)
    (action : RuleAction) : Prop where
  family : entry.family = rule.family.text
  chain : entry.chain = rule.scope.text
  rule : entry.rule = rule.number.map UInt32.toNat
  action : (entry.action, entry.ips) = action.shown

theorem LogEntry.Names.field {entry : LogEntry} {rule : FirewallRule}
    {action : RuleAction} (names : entry.Names rule action)
    (token : List Char) : (entry.field token).Names rule action := by
  obtain ⟨family, chain, rule, action⟩ := names
  unfold LogEntry.field
  split
  · exact ⟨family, chain, rule, action⟩
  · exact ⟨family, chain, rule, action⟩
  · split
    case h_8 =>
      split_ifs <;> exact ⟨family, chain, rule, action⟩
    all_goals exact ⟨family, chain, rule, action⟩

theorem LogEntry.Names.fields {entry : LogEntry} {rule : FirewallRule}
    {action : RuleAction} (names : entry.Names rule action)
    (tokens : List (List Char)) :
    (tokens.foldl LogEntry.field entry).Names rule action := by
  induction tokens generalizing entry with
  | nil => exact names
  | cons token tokens ih => exact ih (names.field token)

/-- The line of a rule, with whatever fields. -/
def FirewallRule.line (rule : FirewallRule) (action : RuleAction)
    (fields : List Char) : List Char :=
  '[' :: (rule.logPrefix action ++ ']' :: fields)

theorem parseMessage_line (rule : FirewallRule) (action : RuleAction)
    (fields : List Char) (ts : Nat) :
    ∃ entry, parseMessage (rule.line action fields) ts = some entry ∧
      entry.Names rule action := by
  have parts := splitOn_logPrefix rule action
  have many : 5 ≤ ((rule.logPrefix action).splitOn '-').length := by
    have some' := List.length_pos_iff.mpr
      (List.splitOn_ne_nil '-' rule.scope.chain)
    rw [parts]
    simp only [List.length_cons, List.length_append, List.length_nil]
    omega
  have family : ((rule.logPrefix action).splitOn '-').headD [] =
      rule.family.text := by
    rw [parts, List.headD_cons]
  have known : rule.family.text = "ipv4".toList ∨
      rule.family.text = "ipv6".toList := by
    cases rule.family with
    | ipv4 => exact .inl rfl
    | ipv6 => exact .inr rfl
  have letter : ((rule.logPrefix action).splitOn '-').getLastD [] =
      action.letter := by
    rw [parts, getLastD_two]
  have number : ((rule.logPrefix action).splitOn '-').getD
      (((rule.logPrefix action).splitOn '-').length - 2) [] =
        ruleText rule.number := by
    rw [parts, getD_two]
  have opened : stripPrefix ['[']
      ((rule.line action fields).dropWhile isWhitespace) =
        some (rule.logPrefix action ++ ']' :: fields) :=
    stripPrefix_eq_some.mpr rfl
  have closed : splitOnce ']' (rule.logPrefix action ++ ']' :: fields) =
      some (rule.logPrefix action, fields) :=
    splitOnce_eq_some.mpr ⟨rfl, closed_logPrefix rule action⟩
  let entry : LogEntry :=
    ⟨ts, rule.family.text, rule.scope.text, rule.number.map UInt32.toNat,
      action.shown.1, action.shown.2, none, none, none, none, none, none, none,
      none, none⟩
  have names : entry.Names rule action := ⟨rfl, rfl, rfl, rfl⟩
  refine ⟨_, ?_, names.fields (splitWhitespace fields)⟩
  unfold parseMessage
  simp only [opened, closed, many, family, known, letter, number,
    chainOf_logPrefix, actionOf_letter, ruleOf_ruleText, guard,
    Option.bind_eq_bind, Option.bind_some, if_true, Option.pure_def]
  rfl

theorem parseUnsigned_ruleText (number : Option UInt32) :
    parseUnsigned 32 (ruleText number) = none ↔ number = none := by
  cases number with
  | none =>
      constructor
      · intro _
        rfl
      · intro _
        decide
  | some number =>
      change parseUnsigned 32 (toString number.toNat).toList = none ↔ _
      rw [parseUnsigned_toString]
      constructor
      · intro absent
        cases absent
      · intro absent
        cases absent

theorem ruleConfigPath_comment (rule : FirewallRule) :
    ruleConfigPath rule.comment = rule.number.map rule.path := by
  have some' := List.length_pos_iff.mpr
    (List.splitOn_ne_nil '-' rule.scope.chain)
  have many : ¬ (rule.comment.splitOn '-').length < 4 := by
    rw [splitOn_comment]
    simp only [List.length_cons, List.length_append, List.length_nil]
    omega
  have known : ¬ (rule.family.text ≠ "ipv4".toList ∧
      rule.family.text ≠ "ipv6".toList) := by
    cases rule.family <;> decide
  unfold ruleConfigPath
  dsimp only
  rw [if_neg many, splitOn_comment, List.headD_cons, if_neg known, getD_one,
    middle_one, List.intercalate_splitOn]
  cases number : rule.number with
  | none => rw [if_pos ((parseUnsigned_ruleText none).mpr rfl), Option.map_none]
  | some numbered =>
      rw [if_neg (by rw [parseUnsigned_ruleText]; exact Option.some_ne_none _),
        Option.map_some, FirewallRule.path]
      cases rule.scope with
      | base chain => cases chain <;> rfl
      | named name => rfl

/-! ## No two rules share a key -/

theorem Family.text_injective {left right : Family}
    (same : left.text = right.text) : left = right := by
  cases left <;> cases right <;> first | rfl | cases same

theorem Scope.text_injective {left right : Scope}
    (same : left.text = right.text) : left = right := by
  have apart : ∀ (chain : BaseChain) (name : RulesetName),
      (Scope.base chain).text ≠ (Scope.named name).text := by
    intro chain name same
    cases chain <;> cases same
  cases left with
  | base chain =>
      cases right with
      | base other => cases chain <;> cases other <;> first | rfl | cases same
      | named name => exact absurd same (apart chain name)
  | named name =>
      cases right with
      | base chain => exact absurd same.symm (apart chain name)
      | named other =>
          exact congrArg Scope.named
            (Subtype.ext (List.append_cancel_left same))

theorem FirewallRule.eq_of_key {left right : FirewallRule}
    (family : left.family = right.family)
    (scope : left.scope.text = right.scope.text)
    (number : left.number.map UInt32.toNat = right.number.map UInt32.toNat) :
    left = right := by
  have scopes := Scope.text_injective scope
  have numbers := Option.map_injective
    (fun first second => UInt32.toNat_inj.mp) number
  cases left
  cases right
  cases family
  cases scopes
  cases numbers
  rfl

theorem FirewallRule.eq_of_path {left right : FirewallRule}
    {first second : UInt32} (own : left.number = some first)
    (other : right.number = some second)
    (same : left.path first = right.path second) : left = right := by
  obtain ⟨family, scope, number⟩ := left
  obtain ⟨family', scope', number'⟩ := right
  cases own
  cases other
  have numbers : ∀ {first second : UInt32},
      (toString first.toNat).toList = (toString second.toNat).toList →
        first = second := by
    intro first second same
    exact UInt32.toNat_inj.mp
      (toString_injective (String.toList_injective same))
  cases scope with
  | base chain =>
      cases scope' with
      | base chain' =>
          simp only [FirewallRule.path, List.cons.injEq, true_and,
            and_true] at same
          obtain ⟨family, chain, number⟩ := same
          rw [Family.text_injective family, numbers number,
            @Scope.text_injective (.base _) (.base _) chain]
      | named name =>
          simp only [FirewallRule.path, List.cons.injEq, true_and] at same
          cases chain <;> cases same.2.1
  | named name =>
      cases scope' with
      | base chain' =>
          simp only [FirewallRule.path, List.cons.injEq, true_and] at same
          cases chain' <;> cases same.2.1
      | named name' =>
          simp only [FirewallRule.path, List.cons.injEq, true_and,
            and_true] at same
          obtain ⟨family, name, number⟩ := same
          rw [Family.text_injective family, numbers number, Subtype.ext name]

end QuartzFire.Monitoring
