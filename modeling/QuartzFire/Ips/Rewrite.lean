import QuartzFire.Ips.Ruleset

/-!
# Rewriting the ruleset

The helper makes the active ruleset from the pristine copy: each signature gets
the action of its threat level, signatures of a disabled level are commented
out, and exceptions are kept but never block.
-/

namespace QuartzFire.Ips

/-! ## The desired state -/

/-- A level of the document, with the keys that are there. -/
structure PolicyDocument where
  action : Option LevelAction
  alarm : Option Bool
  log : Option Bool
  deriving DecidableEq

structure SettingsDocument where
  enabled : Option Bool
  scanMode : Option ScanMode
  levels : Level → Option PolicyDocument
  exceptions : Option (List Nat)
  updateUrl : Option (Option String)
  updateSeq : Option Nat

def LevelPolicy.merge (policy : LevelPolicy) (desired : PolicyDocument) :
    LevelPolicy where
  action := desired.action.getD policy.action
  alarm := desired.alarm.getD policy.alarm
  log := desired.log.getD policy.log

def SettingsDocument.policy (document : SettingsDocument) (level : Level) :
    LevelPolicy :=
  match document.levels level with
  | some desired => (IpsSettings.default.policy level).merge desired
  | none => IpsSettings.default.policy level

/-- `load_settings` of the helper -/
def loadDesired : Option SettingsDocument → IpsSettings
  | none => .default
  | some document =>
      { enabled := document.enabled.getD IpsSettings.default.enabled
        scanMode := document.scanMode.getD IpsSettings.default.scanMode
        critical := document.policy .critical
        high := document.policy .high
        medium := document.policy .medium
        low := document.policy .low
        information := document.policy .information
        exceptions := document.exceptions.getD []
        updateUrl := document.updateUrl.getD none
        updateSeq := document.updateSeq.getD 0 }

/-! ## The files -/

structure RuleFiles where
  pristine : Option (List Char)
  rules : Option (List Char)
  /-- `classification.config` of the downloaded ruleset and of the package. -/
  classification : Option (List Char)
  packaged : Option (List Char)
  deriving DecidableEq

namespace RuleFiles

/-- The pristine copy, which is seeded from an active ruleset. -/
def pristineText (files : RuleFiles) : List Char :=
  files.pristine.getD (files.rules.getD [])

def pristineLines (files : RuleFiles) : List Line :=
  textLines (universalNewlines files.pristineText)

variable (classes : CharClasses)

/-- `classification_priorities` -/
def priorities (files : RuleFiles) : Priorities :=
  readClassification classes files.classification ++
    readClassification classes files.packaged

/-- The classifications of the engine: its configuration names one file. -/
def enginePriorities (files : RuleFiles) : Priorities :=
  if files.classification.isSome then
    readClassification classes files.classification
  else readClassification classes files.packaged

end RuleFiles

/-! ## Rewriting -/

def disabledMark : String := "# [qz-disabled] "

structure RuleCounts where
  level : Level → Nat
  disabled : Nat
  excepted : Nat

def IpsSettings.excepted (settings : IpsSettings) (sid : Option Nat) : Bool :=
  sid.any (· ∈ settings.exceptions)

section Rewriting

variable (classes : CharClasses) (settings : IpsSettings)

def rewriteLine (priorities : Priorities) (line : Line) : Line :=
  match ruleRest line with
  -- comments, blanks, multi-line tails
  | none => line
  | some rest =>
      let action := (settings.policy (lineLevel classes priorities line)).action
      if action = .disable then disabledMark.toList ++ line
      else
        let desired :=
          if settings.excepted (lineSid classes line) then "alert"
          else if action = .drop then "drop"
          else "alert"
        desired.toList ++ ' ' :: rest

def countLine (priorities : Priorities) (counts : RuleCounts) (line : Line) :
    RuleCounts :=
  match ruleRest line with
  | none => counts
  | some _ =>
      let level := lineLevel classes priorities line
      if (settings.policy level).action = .disable then
        { counts with disabled := counts.disabled + 1 }
      else
        { counts with
          level := fun other =>
            if other = level then counts.level other + 1 else counts.level other
          excepted := counts.excepted +
            if settings.excepted (lineSid classes line) then 1 else 0 }

def rewriteRules (files : RuleFiles) : RuleFiles × RuleCounts :=
  let priorities := files.priorities classes
  ({ files with
      pristine := some files.pristineText
      rules := some (joinLines
        (files.pristineLines.map (rewriteLine classes settings priorities))) },
    files.pristineLines.foldl (countLine classes settings priorities)
      ⟨fun _ => 0, 0, 0⟩)

end Rewriting

/-! ## What becomes of a signature -/

inductive Fate where
  | drop
  | alert
  | off
  deriving DecidableEq, Repr

/-- What the settings prescribe. -/
def IpsSettings.fate (settings : IpsSettings) (level : Level)
    (excepted : Bool) : Fate :=
  if excepted then .alert
  else
    match (settings.policy level).action with
    | .drop => .drop
    | .allow => .alert
    | .disable => .off

namespace Fate

/-- A rule line with another action, or commented out. -/
def write (fate : Fate) (line : Line) : Line :=
  match fate with
  | .drop => "drop".toList ++ ' ' :: (line.dropWhile (!isSpace ·)).tail
  | .alert => "alert".toList ++ ' ' :: (line.dropWhile (!isSpace ·)).tail
  | .off => disabledMark.toList ++ line

/-- A whole signature: its action stands in the first line, and each line is
commented out by itself. -/
def prescribed (fate : Fate) : List Line → List Line
  | [] => []
  | first :: others =>
      fate.write first ::
        if fate = .off then others.map fate.write else others

end Fate

section Prescribed

variable (settings : IpsSettings) (priorities : Priorities)
  (unclassified : Nat)

def signatureFate (lines : List Line) : Fate :=
  settings.fate (signatureLevel priorities unclassified lines)
    (settings.excepted (signatureSid lines))

/-- What becomes of a signature or of a remark. -/
def prescribedEntry (lines : List Line) : List Line :=
  if lines.head?.all isRemark then lines
  else (signatureFate settings priorities unclassified lines).prescribed lines

def prescribedRules (lines : List Line) : List Line :=
  (entries [] lines).flatMap
    (prescribedEntry settings priorities unclassified)

end Prescribed

/-! ## What one line says -/

/-- The level and the SID that are read off a rule line lead to this fate. -/
def Says (classes : CharClasses) (settings : IpsSettings)
    (priorities : Priorities) (line : Line) (fate : Fate) : Prop :=
  let action := (settings.policy (lineLevel classes priorities line)).action
  let excepted := settings.excepted (lineSid classes line)
  match fate with
  | .off => action = .disable
  | .drop => action = .drop ∧ excepted = false
  | .alert => action ≠ .disable ∧ (action = .drop → excepted = true)

/-- The first line has one of the four actions and says by itself what is
prescribed; the other lines of a signature that is off say the same, and those
of one that is live do not look like a rule, or like one that is as it should
be. -/
def Heeded (classes : CharClasses) (settings : IpsSettings)
    (priorities : Priorities) (fate : Fate) : List Line → Prop
  | [] => True
  | first :: others =>
      (ruleRest first).isSome ∧ Says classes settings priorities first fate ∧
        ∀ line ∈ others,
          if fate = .off then
            (ruleRest line).isSome ∧ Says classes settings priorities line .off
          else (ruleRest line).isSome →
            ∃ given, Says classes settings priorities line given ∧
              given.write line = line

/-! ### One line -/

theorem ruleRest_some {line : Line} {rest : List Char}
    (matched : ruleRest line = some rest) :
    ∃ action : String, action ∈ ["alert", "drop", "pass", "reject"] ∧
      ∃ blank, isSpace blank = true ∧ line = action.toList ++ blank :: rest := by
  obtain ⟨action, member, found⟩ := List.exists_of_findSome?_eq_some matched
  refine ⟨action, member, ?_⟩
  split at found
  case h_1 blank after stripped =>
    split at found
    case isTrue space =>
      cases found
      exact ⟨blank, space, stripPrefix_eq_some.mp stripped⟩
    case isFalse => cases found
  case h_2 => cases found

/-- No action has a blank in it. -/
theorem dropWhile_rule {line : Line} {rest : List Char}
    (matched : ruleRest line = some rest) :
    (line.dropWhile (!isSpace ·)).tail = rest := by
  obtain ⟨action, member, blank, space, rfl⟩ := ruleRest_some matched
  have word : action.toList.all (!isSpace ·) = true := by
    revert member
    simp only [List.mem_cons, List.not_mem_nil, or_false]
    rintro (rfl | rfl | rfl | rfl) <;> decide
  rw [List.dropWhile_append_of_pos (List.all_eq_true.mp word)]
  simp [space]

theorem ruleRest_write {fate : Fate} (line : Line) (live : fate ≠ .off) :
    (ruleRest (fate.write line)).isSome = true := by
  cases fate with
  | off => exact (live rfl).elim
  | drop => rfl
  | alert => rfl

theorem ruleRest_remark {line : Line} (remark : isRemark line = true) :
    ruleRest line = none := by
  cases matched : ruleRest line with
  | none => rfl
  | some rest =>
      obtain ⟨action, member, blank, _, rfl⟩ := ruleRest_some matched
      simp only [List.mem_cons, List.not_mem_nil, or_false] at member
      obtain rfl | rfl | rfl | rfl := member <;>
        simp [isRemark] at remark

theorem Fate.write_injective {line : Line} {fate other : Fate}
    (same : fate.write line = other.write line) : fate = other := by
  cases fate <;> cases other <;> first
    | rfl
    | simp [write, disabledMark] at same

theorem Fate.write_off_ne (line : Line) : Fate.off.write line ≠ line := by
  intro same
  have lengths := congrArg List.length same
  simp only [write, disabledMark, List.length_append] at lengths
  simp at lengths

section Lines

variable {classes : CharClasses} {settings : IpsSettings}
  {priorities : Priorities} {line : Line} {fate : Fate}

/-- A rule line is written as it says. -/
theorem rewriteLine_of_reads (matched : (ruleRest line).isSome)
    (reads : Says classes settings priorities line fate) :
    rewriteLine classes settings priorities line = fate.write line := by
  obtain ⟨rest, found⟩ := Option.isSome_iff_exists.mp matched
  unfold rewriteLine
  rw [found]
  cases fate with
  | off =>
      simp only [Says] at reads
      simp [reads, Fate.write]
  | drop =>
      simp only [Says] at reads
      simp [reads.1, reads.2, Fate.write, dropWhile_rule found]
  | alert =>
      obtain ⟨live, blocks⟩ := reads
      simp only [if_neg live, Fate.write, dropWhile_rule found]
      by_cases excepted : settings.excepted (lineSid classes line) = true
      · rw [if_pos excepted]
      · rw [if_neg excepted, if_neg fun drops => excepted (blocks drops)]

/-- Every line says something, whether it is a rule or not. -/
theorem exists_says (classes : CharClasses) (settings : IpsSettings)
    (priorities : Priorities) (line : Line) :
    ∃ fate, Says classes settings priorities line fate := by
  by_cases disabled :
      (settings.policy (lineLevel classes priorities line)).action = .disable
  · exact ⟨.off, disabled⟩
  by_cases blocks :
      (settings.policy (lineLevel classes priorities line)).action = .drop ∧
        settings.excepted (lineSid classes line) = false
  · exact ⟨.drop, blocks⟩
  · exact ⟨.alert, disabled, fun drops => by simpa [drops] using blocks⟩

theorem rewriteLine_eq_write (matched : (ruleRest line).isSome) :
    rewriteLine classes settings priorities line = fate.write line ↔
      Says classes settings priorities line fate := by
  refine ⟨fun same => ?_, rewriteLine_of_reads matched⟩
  obtain ⟨given, reads⟩ := exists_says classes settings priorities line
  rw [rewriteLine_of_reads matched reads] at same
  exact Fate.write_injective same ▸ reads

theorem rewriteLine_of_none (unmatched : ruleRest line = none) :
    rewriteLine classes settings priorities line = line := by
  rw [rewriteLine, unmatched]

/-- A line that is no rule is not written as one. -/
theorem write_ne_of_none (unmatched : ruleRest line = none) :
    line ≠ fate.write line := by
  intro same
  by_cases off : fate = .off
  · subst off
    exact Fate.write_off_ne line same.symm
  · have matched := ruleRest_write line off
    rw [← same, unmatched] at matched
    cases matched

theorem rewriteLine_write_iff :
    rewriteLine classes settings priorities line = fate.write line ↔
      (ruleRest line).isSome ∧
        Says classes settings priorities line fate := by
  cases matched : ruleRest line with
  | none =>
      simp only [rewriteLine_of_none matched, Option.isSome_none,
        Bool.false_eq_true, false_and, iff_false]
      exact write_ne_of_none matched
  | some rest =>
      rw [rewriteLine_eq_write (by rw [matched]; rfl)]
      simp

/-- A rule line stays when it is as it should be. -/
theorem rewriteLine_self_iff :
    rewriteLine classes settings priorities line = line ↔
      ((ruleRest line).isSome →
        ∃ given, Says classes settings priorities line given ∧
          given.write line = line) := by
  cases matched : ruleRest line with
  | none => simp [rewriteLine_of_none matched]
  | some rest =>
      have starts : (ruleRest line).isSome := by rw [matched]; rfl
      simp only [Option.isSome_some, forall_const]
      constructor
      · intro same
        obtain ⟨given, reads⟩ := exists_says classes settings priorities line
        exact ⟨given, reads, (rewriteLine_of_reads starts reads).symm.trans same⟩
      · rintro ⟨given, reads, same⟩
        rw [rewriteLine_of_reads starts reads, same]

end Lines

/-! ### One signature -/

section Groups

variable {classes : CharClasses} {settings : IpsSettings}
  {priorities : Priorities}

theorem map_rewriteLine_prescribed (fate : Fate) (lines : List Line) :
    lines.map (rewriteLine classes settings priorities) =
        fate.prescribed lines ↔
      Heeded classes settings priorities fate lines := by
  cases lines with
  | nil => simp [Fate.prescribed, Heeded]
  | cons first others =>
      simp only [List.map_cons, Fate.prescribed, List.cons.injEq, Heeded,
        rewriteLine_write_iff, and_assoc]
      refine and_congr_right fun _ => and_congr_right fun _ => ?_
      split
      case isTrue off =>
        subst off
        rw [List.map_inj_left]
        simp only [rewriteLine_write_iff]
      case isFalse =>
        have pointwise := List.map_inj_left (l := others)
          (f := rewriteLine classes settings priorities) (g := id)
        rw [List.map_id] at pointwise
        rw [pointwise]
        simp only [id, rewriteLine_self_iff]

theorem length_prescribedEntry (unclassified : Nat) (lines : List Line) :
    (prescribedEntry settings priorities unclassified lines).length =
      lines.length := by
  unfold prescribedEntry
  split
  · rfl
  · cases lines with
    | nil => rfl
    | cons first others =>
        simp only [Fate.prescribed, List.length_cons]
        split <;> simp

theorem entries_flatten (opened lines : List Line) :
    (entries opened lines).flatten = opened ++ lines := by
  induction lines generalizing opened with
  | nil => cases opened <;> simp [entries]
  | cons line rest ih =>
      rw [entries]
      split
      case isTrue alone =>
        have none : opened = [] := by
          simp only [Bool.and_eq_true, List.isEmpty_iff] at alone
          exact alone.1
        simp [none, ih]
      case isFalse =>
        split <;> simp [ih]

/-- A remark is a group of its own. -/
theorem entries_remark {opened lines group : List Line}
    (signature : ∀ line ∈ opened.head?, isRemark line = false)
    (member : group ∈ entries opened lines)
    (remark : group.head?.all isRemark) :
    ∃ line, group = [line] ∧ isRemark line = true := by
  induction lines generalizing opened with
  | nil =>
      cases opened with
      | nil => cases member
      | cons first others =>
          cases List.mem_singleton.mp member
          have first := signature first rfl
          simp [first] at remark
  | cons line rest ih =>
      -- The first of the lines gathered so far is never a remark.
      have gathered : ∀ first ∈ (opened ++ [line]).head?,
          ¬ (opened.isEmpty && isRemark line) = true →
            isRemark first = false := by
        intro first here alone
        cases opened with
        | nil =>
            cases here
            simpa using alone
        | cons => exact signature first here
      rw [entries] at member
      split at member
      case isTrue alone =>
        obtain rfl | member := List.mem_cons.mp member
        · simp only [Bool.and_eq_true] at alone
          exact ⟨line, rfl, alone.2⟩
        · exact ih (by simp) member
      case isFalse alone =>
        split at member
        · exact ih (fun first here => gathered first here alone) member
        · obtain rfl | member := List.mem_cons.mp member
          · cases opened with
            | nil =>
                have this := gathered line rfl alone
                simp [this] at remark
            | cons first others =>
                have this := gathered first rfl alone
                simp [this] at remark
          · exact ih (by simp) member

end Groups

/-- Two rewritings of groups agree on the whole when they agree on each group,
if they keep the number of lines. -/
theorem flatMap_eq_iff {groups : List (List Line)}
    {left right : List Line → List Line}
    (count : ∀ group ∈ groups, (left group).length = (right group).length) :
    groups.flatMap left = groups.flatMap right ↔
      ∀ group ∈ groups, left group = right group := by
  constructor
  · intro same
    induction groups with
    | nil => simp
    | cons group groups ih =>
        obtain ⟨first, others⟩ := List.append_inj same
          (count group List.mem_cons_self)
        rintro other (_ | ⟨_, member⟩)
        · exact first
        · exact ih (fun group member =>
            count group (List.mem_cons_of_mem _ member)) others other member
  · exact fun each => List.flatMap_congr each

/-! ### Newlines -/

theorem newline_notMem_write {line : Line} (inside : '\n' ∉ line)
    (fate : Fate) : '\n' ∉ fate.write line := by
  have rest : '\n' ∉ (line.dropWhile (!isSpace ·)).tail := fun member =>
    inside ((List.dropWhile_sublist _).mem (List.mem_of_mem_tail member))
  cases fate <;> simp [Fate.write, disabledMark, rest, inside]

theorem newline_notMem_rewriteLine {classes : CharClasses}
    {settings : IpsSettings} {priorities : Priorities} {line : Line}
    (inside : '\n' ∉ line) :
    '\n' ∉ rewriteLine classes settings priorities line := by
  cases matched : ruleRest line with
  | none => rwa [rewriteLine_of_none matched]
  | some rest =>
      obtain ⟨given, reads⟩ := exists_says classes settings priorities line
      rw [rewriteLine_of_reads (by rw [matched]; rfl) reads]
      exact newline_notMem_write inside given

theorem newline_notMem_prescribedEntry {settings : IpsSettings}
    {priorities : Priorities} {unclassified : Nat} {group : List Line}
    (inside : ∀ line ∈ group, '\n' ∉ line) :
    ∀ line ∈ prescribedEntry settings priorities unclassified group,
      '\n' ∉ line := by
  unfold prescribedEntry
  split
  · exact inside
  · cases group with
    | nil => simp [Fate.prescribed]
    | cons first others =>
        obtain ⟨head, tail⟩ := List.forall_mem_cons.mp inside
        refine List.forall_mem_cons.mpr ⟨newline_notMem_write head _, ?_⟩
        split
        · intro line member
          obtain ⟨before, here, rfl⟩ := List.mem_map.mp member
          exact newline_notMem_write (tail before here) _
        · exact tail

/-! ## The whole file -/

section File

variable {classes : CharClasses} {settings : IpsSettings}
  {priorities shown : Priorities} {unclassified : Nat}

/-- Every signature of these lines is heeded: `priorities` are those of the
helper, `shown` those of the engine. -/
def AllHeeded (classes : CharClasses) (settings : IpsSettings)
    (priorities shown : Priorities) (unclassified : Nat)
    (lines : List Line) : Prop :=
  ∀ group ∈ entries [] lines, group.head?.all isRemark = false →
    Heeded classes settings priorities
      (signatureFate settings shown unclassified group) group

theorem map_rewriteLine_entry {group lines : List Line}
    (member : group ∈ entries [] lines) :
    group.map (rewriteLine classes settings priorities) =
        prescribedEntry settings shown unclassified group ↔
      (group.head?.all isRemark = false →
        Heeded classes settings priorities
          (signatureFate settings shown unclassified group) group) := by
  unfold prescribedEntry
  cases remark : group.head?.all isRemark with
  | true =>
      obtain ⟨line, rfl, blank⟩ := entries_remark (by simp) member remark
      simp [rewriteLine_of_none (ruleRest_remark blank)]
  | false => simp [map_rewriteLine_prescribed]

theorem map_rewriteLine_iff (lines : List Line) :
    lines.map (rewriteLine classes settings priorities) =
        prescribedRules settings shown unclassified lines ↔
      AllHeeded classes settings priorities shown unclassified lines := by
  have whole := entries_flatten [] lines
  simp only [List.nil_append] at whole
  conv_lhs => lhs; rw [← whole, List.map_flatten, ← List.flatMap_def]
  rw [prescribedRules, flatMap_eq_iff fun group _ => by
    rw [List.length_map, length_prescribedEntry]]
  exact forall₂_congr fun group member => map_rewriteLine_entry member

/-- The text that is written is the one prescribed exactly when its lines
are. -/
theorem joinLines_rewrite_iff {lines : List Line}
    (inside : ∀ line ∈ lines, '\n' ∉ line) :
    joinLines (lines.map (rewriteLine classes settings priorities)) =
        joinLines (prescribedRules settings shown unclassified lines) ↔
      lines.map (rewriteLine classes settings priorities) =
        prescribedRules settings shown unclassified lines := by
  have whole := entries_flatten [] lines
  simp only [List.nil_append] at whole
  refine ⟨joinLines_injective ?_ ?_ ?_, congrArg joinLines⟩
  · conv_lhs => rw [List.length_map, ← whole, List.length_flatten]
    simp only [prescribedRules, List.length_flatMap, length_prescribedEntry]
  · intro line member
    obtain ⟨before, here, rfl⟩ := List.mem_map.mp member
    exact newline_notMem_rewriteLine (inside before here)
  · intro line member
    obtain ⟨group, known, here⟩ := List.mem_flatMap.mp member
    refine newline_notMem_prescribedEntry (fun before there => ?_) line here
    exact inside before (whole ▸ List.mem_flatten_of_mem known there)

end File

/-- The rewriting under each of these settings in turn. -/
def applied (classes : CharClasses) (history : List IpsSettings)
    (files : RuleFiles) : RuleFiles :=
  history.foldl (fun files settings => (rewriteRules classes settings files).1)
    files

/-- Every signature has the prescribed fate, and nothing but the pristine copy,
the classifications and the settings counts. -/
structure Rewritten (classes : CharClasses) (unclassified : Nat)
    (settings : IpsSettings) (files : RuleFiles) : Prop where
  whole : (rewriteRules classes settings files).1.rules =
    some (joinLines (prescribedRules settings (files.enginePriorities classes)
      unclassified files.pristineLines))
  again : ∀ history,
    rewriteRules classes settings (applied classes history files) =
      rewriteRules classes settings files
  only : ∀ other : RuleFiles, other.pristineText = files.pristineText →
    other.priorities classes = files.priorities classes →
      (rewriteRules classes settings other).1.rules =
        (rewriteRules classes settings files).1.rules

section History

variable (classes : CharClasses)

theorem rewriteRules_rewriteRules (settings earlier : IpsSettings)
    (files : RuleFiles) :
    rewriteRules classes settings (rewriteRules classes earlier files).1 =
      rewriteRules classes settings files := rfl

theorem rewriteRules_applied (settings : IpsSettings)
    (history : List IpsSettings) (files : RuleFiles) :
    rewriteRules classes settings (applied classes history files) =
      rewriteRules classes settings files := by
  induction history generalizing files with
  | nil => rfl
  | cons earlier history ih =>
      exact (ih (rewriteRules classes earlier files).1).trans
        (rewriteRules_rewriteRules classes settings earlier files)

theorem rewriteRules_congr (settings : IpsSettings)
    {files other : RuleFiles}
    (pristine : other.pristineText = files.pristineText)
    (priorities : other.priorities classes = files.priorities classes) :
    (rewriteRules classes settings other).1.rules =
      (rewriteRules classes settings files).1.rules := by
  simp only [rewriteRules, RuleFiles.pristineLines, pristine, priorities]

/-- The ruleset that is written for a document is the prescribed one exactly
when each signature is heeded. -/
theorem rewritten_iff_heeded (unclassified : Nat)
    (document : Option SettingsDocument) (files : RuleFiles) :
    Rewritten classes unclassified (loadDesired document) files ↔
      AllHeeded classes (loadDesired document) (files.priorities classes)
        (files.enginePriorities classes) unclassified files.pristineLines := by
  have lines : ∀ line ∈ files.pristineLines, '\n' ∉ line :=
    newline_notMem_textLines (universalNewlines files.pristineText)
  rw [← map_rewriteLine_iff, ← joinLines_rewrite_iff lines]
  constructor
  · intro rewritten
    exact Option.some.inj rewritten.whole
  · intro same
    exact ⟨congrArg some same,
      fun history => rewriteRules_applied classes _ history files,
      fun other pristine priorities =>
        rewriteRules_congr classes _ pristine priorities⟩

end History

/-! ## An exception at a disabled level -/

/-- The character classes as far as ASCII goes. -/
def asciiClasses : CharClasses where
  isWord char := char.isAlphanum || char = '_'
  decimal char := if char.isDigit then some (char.toNat - 48) else none

def sampleSignature : String :=
  "alert tcp any any -> any any (msg:\"probe\"; priority:4; sid:2001;)"

def sampleFiles : RuleFiles where
  pristine := some (sampleSignature ++ "\n").toList
  rules := none
  classification := none
  packaged := none

/-- Signatures of a low level are disabled, and one of them is excepted. -/
def sampleDocument : SettingsDocument where
  enabled := some true
  scanMode := none
  levels := fun level =>
    if level = .low then some ⟨some .disable, none, none⟩ else none
  exceptions := some [2001]
  updateUrl := none
  updateSeq := none

theorem sample_rules :
    (rewriteRules asciiClasses (loadDesired (some sampleDocument))
      sampleFiles).1.rules =
        some (disabledMark ++ sampleSignature ++ "\n").toList := by
  decide +kernel

theorem exception_disabled :
    ¬ Rewritten asciiClasses 3 (loadDesired (some sampleDocument))
      sampleFiles := by
  intro rewritten
  have whole := sample_rules.symm.trans rewritten.whole
  revert whole
  decide +kernel

end QuartzFire.Ips
