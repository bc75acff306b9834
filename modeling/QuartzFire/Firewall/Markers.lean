import Mathlib.Data.List.TakeWhile
import QuartzFire.Firewall.Objects
import QuartzFire.Firewall.Schema
import QuartzFire.Firewall.Placement

/-!
# Names and descriptions through a group's description

A name with spaces is kept in a marker before the description, and groups the
rule editor owns carry a mark of their own there.  What is typed into a form is
read back unless it looks like one of the two and no marker stands before it.
-/

namespace QuartzFire.Firewall

/-! ## What the forms accept -/

/-- Every run of white space becomes one character. -/
def joinSpaces (separator : Char) : Bool → List Char → List Char
  | _, [] => []
  | inRun, char :: rest =>
      if isSpace char = true then
        if inRun = true then joinSpaces separator true rest
        else separator :: joinSpaces separator true rest
      else char :: joinSpaces separator false rest

/-- `text.replace(/\s+/g, separator)` -/
def replaceSpaces (separator : Char) (text : String) : String :=
  String.ofList (joinSpaces separator false text.toList)

def sanitizeAliasName (display : String) : String :=
  replaceSpaces '-' (trim display)

/-- `NAME_RE` -/
def isFriendlyName (display : String) : Bool :=
  match display.toList with
  | [] => false
  | first :: rest => first.isAlpha && rest.all fun char =>
      char.isAlphanum || char = ' ' || char = '_' || char = '-'

/-- The device name and the display name the forms make of what is typed. -/
def formNames (typed : String) : Option (String × String) :=
  let display := replaceSpaces ' ' (trim typed)
  if isFriendlyName display = true then
    some (sanitizeAliasName display, display)
  else none

theorem getLast?_joinSpaces {separator last : Char} {chars : List Char}
    (ends : chars.getLast? = some last) (proper : isSpace last = false)
    (inRun : Bool) :
    (joinSpaces separator inRun chars).getLast? = some last := by
  induction chars generalizing inRun with
  | nil => cases ends
  | cons char rest ih =>
      cases rest with
      | nil =>
          rw [List.getLast?_singleton, Option.some.injEq] at ends
          subst ends
          rw [joinSpaces, proper, if_neg Bool.false_ne_true]
          rfl
      | cons next rest =>
          rw [List.getLast?_cons_cons] at ends
          rw [joinSpaces]
          split_ifs
          · exact ih ends true
          · rw [List.getLast?_cons, ih ends true]
            rfl
          · rw [List.getLast?_cons, ih ends false]
            rfl

/-- What a form makes of a name is a proper display name. -/
structure Friendly (display : String) : Prop where
  trims : trim display = display
  proper : display ≠ ""
  closes : ']' ∉ display.toList

theorem isSpace_getLast_trim (text : String) :
    ∀ char ∈ (trim text).toList.getLast?, isSpace char = false := by
  intro char last
  rw [trim, String.toList_ofList, List.getLast?_reverse] at last
  exact isSpace_head_dropWhile _ char last

theorem friendly_of_isFriendlyName {display : String}
    (named : isFriendlyName display = true)
    (finish : ∀ char ∈ display.toList.getLast?, isSpace char = false) :
    Friendly display := by
  rw [isFriendlyName] at named
  split at named
  · cases named
  · rename_i first rest same
    rw [Bool.and_eq_true, List.all_eq_true] at named
    obtain ⟨letter, others⟩ := named
    refine ⟨trim_of_ends ?_ finish, ?_, ?_⟩
    · rw [same]
      rintro char ⟨⟩
      apply not_isSpace_of_zoneName
      simp [Char.isAlphanum, letter]
    · rintro rfl
      cases same
    · rw [same, List.mem_cons]
      rintro (rfl | closes)
      · cases letter
      · have allowed := others ']' closes
        cases allowed

theorem friendly_of_formNames {typed name display : String}
    (accepts : formNames typed = some (name, display)) : Friendly display := by
  rw [formNames, Option.ite_none_right_eq_some] at accepts
  obtain ⟨named, same⟩ := accepts
  simp only [Option.some.injEq, Prod.mk.injEq] at same
  obtain ⟨-, rfl⟩ := same
  apply friendly_of_isFriendlyName named
  rw [replaceSpaces, String.toList_ofList]
  intro char last
  cases ends : (trim typed).toList.getLast? with
  | none =>
      rw [List.getLast?_eq_none_iff.mp ends] at last
      cases last
  | some final =>
      have proper := isSpace_getLast_trim typed final ends
      rw [getLast?_joinSpaces ends proper false] at last
      cases last
      exact proper

/-! ## What is written and read -/

/-- A description as a form hands it on. -/
def Described (description : Option String) : Prop :=
  description.bind trimmed = description

theorem described_some {text : String} :
    Described (some text) ↔ trimmed text = some text := by
  rw [Described, Option.bind_some]

theorem described_trimmed (typed : String) : Described (trimmed typed) := by
  cases kept : trimmed typed with
  | none => rfl
  | some text => exact described_some.mpr (trimmed_trimmed kept)

theorem described_of_typed {description : Option String}
    (typed : ∃ typed, description = trimmed typed) : Described description := by
  obtain ⟨text, rfl⟩ := typed
  exact described_trimmed text

theorem length_trim_le (text : String) :
    (trim text).toList.length ≤ text.toList.length := by
  rw [trim, String.toList_ofList, List.length_reverse]
  refine (List.length_dropWhile_le _ _).trans ?_
  rw [List.length_reverse]
  exact List.length_dropWhile_le _ _

theorem trimmed_space (text : String) :
    trimmed (" " ++ text) = trimmed text := by
  have chars : (" " ++ text).toList = ' ' :: text.toList := by simp
  have same : trim (" " ++ text) = trim text := by
    rw [trim, trim, chars, List.dropWhile_cons_of_pos (by decide)]
  rw [trimmed, trimmed, same]

theorem trimmed_eq_some {text kept : String} :
    trimmed text = some kept ↔ trim text = kept ∧ kept ≠ "" := by
  rw [trimmed, Option.ite_none_left_eq_some, Option.some.injEq]
  constructor
  · rintro ⟨proper, rfl⟩
    exact ⟨rfl, proper⟩
  · rintro ⟨rfl, proper⟩
    exact ⟨proper, rfl⟩

section Written

variable {name display : String} {description : Option String}

theorem encode_of_eq (friendly : Friendly display) (same : display = name)
    (described : Described description) :
    encodeAliasDescription name display description = description := by
  rw [encodeAliasDescription, friendly.trims, if_pos same, List.nil_append,
    described]
  cases description with
  | none => rfl
  | some text => rfl

theorem encode_of_ne (friendly : Friendly display) (differs : display ≠ name)
    (described : Described description) :
    encodeAliasDescription name display description =
      some ("[dn:" ++ display ++ "]" ++
        (description.map fun text => " " ++ text).getD "") := by
  rw [encodeAliasDescription, friendly.trims, if_neg differs, described]
  cases description with
  | none => simp
  | some text =>
      rw [Option.toList_some, List.singleton_append,
        if_neg (List.cons_ne_nil _ _)]
      exact congrArg some (String.append_assoc ..)

/-- The marker ends at the first bracket. -/
theorem displayMark_eq_some {text shown rest : String} :
    displayMark text = some (shown, rest) ↔
      text.toList = "[dn:".toList ++ (shown.toList ++ ']' :: rest.toList) ∧
        shown ≠ "" ∧ ']' ∉ shown.toList := by
  have isOpen : ∀ chars : List Char, ']' ∉ chars →
      ∀ char ∈ chars, decide (char ≠ ']') = true := by
    intro chars closed char member
    rw [decide_eq_true_eq]
    rintro rfl
    exact closed member
  unfold displayMark
  simp only [List.span_eq_takeWhile_dropWhile]
  constructor
  · intro marks
    split at marks
    case isFalse => cases marks
    rename_i starts
    obtain ⟨body, same⟩ := List.isPrefixOf_iff_prefix.mp starts
    have dropped : text.toList.drop 4 = body := by
      rw [← same]
      rfl
    rw [dropped] at marks
    have whole := @List.takeWhile_append_dropWhile _ (· ≠ ']') body
    split at marks
    · cases marks
    · cases marks
    · rename_i front bracket back some' cut
      simp only [Prod.mk.injEq] at cut
      obtain ⟨before, after⟩ := cut
      cases marks
      have closing := List.head?_dropWhile_not (· ≠ ']') body
      rw [before, after] at whole
      rw [after] at closing
      have bracketed : bracket = ']' := by simpa using closing
      refine ⟨?_, ?_, ?_⟩
      · rw [← same, ← whole, bracketed]
        simp
      · intro empty
        have none' := congrArg String.toList empty
        rw [String.toList_ofList] at none'
        exact some' none'
      · rw [String.toList_ofList, ← before]
        intro member
        have kept := List.mem_takeWhile_imp member
        cases kept
  · rintro ⟨chars, proper, closed⟩
    have starts : startsWith text "[dn:" = true := by
      rw [startsWith, chars, List.isPrefixOf_iff_prefix]
      exact List.prefix_append _ _
    have dropped : text.toList.drop 4 = shown.toList ++ ']' :: rest.toList := by
      rw [chars]
      rfl
    have front : (shown.toList ++ ']' :: rest.toList).takeWhile (· ≠ ']') =
        shown.toList := by
      rw [List.takeWhile_append_of_pos (isOpen _ closed)]
      simp
    have back : (shown.toList ++ ']' :: rest.toList).dropWhile (· ≠ ']') =
        ']' :: rest.toList := by
      rw [List.dropWhile_append_of_pos (isOpen _ closed)]
      simp
    rw [if_pos starts, dropped, front, back]
    cases named : shown.toList with
    | nil => exact absurd (String.toList_injective named) proper
    | cons first others =>
        dsimp only
        rw [← named, String.ofList_toList, String.ofList_toList]

theorem displayMark_marked (friendly : Friendly display) (rest : String) :
    displayMark ("[dn:" ++ display ++ "]" ++ rest) = some (display, rest) := by
  apply displayMark_eq_some.mpr
  exact ⟨by simp, friendly.proper, friendly.closes⟩

/-- A marker is no part of what follows it. -/
theorem displayMark_shortens {text shown rest : String}
    (marks : displayMark text = some (shown, rest)) :
    rest.toList.length < text.toList.length := by
  have chars := (displayMark_eq_some.mp marks).1
  rw [chars]
  simp only [List.length_append, List.length_cons]
  omega

/-- What is read of what is written. -/
theorem decode_encode (friendly : Friendly display)
    (described : Described description) :
    decodeAliasDescription name
        (encodeAliasDescription name display description) =
      (display, description) ↔
    display ≠ name ∨ ∀ text ∈ description, displayMark text = none := by
  by_cases same : display = name
  · rw [encode_of_eq friendly same described, or_iff_right (not_not.mpr same)]
    cases description with
    | none => simp [decodeAliasDescription, same]
    | some text =>
        cases marks : displayMark text with
        | none => simp [decodeAliasDescription, marks, same]
        | some found =>
            obtain ⟨shown, rest⟩ := found
            constructor
            · intro reads
              simp only [decodeAliasDescription, marks, Prod.mk.injEq] at reads
              have kept := (trimmed_eq_some.mp reads.2).1
              have shorter := length_trim_le rest
              have shortens := displayMark_shortens marks
              rw [kept] at shorter
              omega
            · intro plain
              rw [plain text rfl] at marks
              cases marks
  · rw [encode_of_ne friendly same described, decodeAliasDescription,
      displayMark_marked friendly]
    refine iff_of_true ?_ (.inl same)
    cases description with
    | none => rfl
    | some text =>
        have kept := described_some.mp described
        simp [trimmed_space, kept]

/-- A marker hides what comes after it from the search for another. -/
theorem shown_encode (friendly : Friendly display)
    (described : Described description) :
    (encodeAliasDescription name display description).any
        (startsWith · autoMark) = false ↔
      display ≠ name ∨
        ∀ text ∈ description, startsWith text autoMark = false := by
  by_cases same : display = name
  · rw [encode_of_eq friendly same described, or_iff_right (not_not.mpr same)]
    cases description with
    | none => simp
    | some text => simp
  · rw [encode_of_ne friendly same described]
    refine iff_of_true ?_ (.inl same)
    rw [Option.any_some, startsWith, String.toList_append, String.toList_append,
      String.toList_append]
    rfl

/-- What is stored is trimmed already. -/
theorem trimmed_encode (friendly : Friendly display)
    (described : Described description) :
    (encodeAliasDescription name display description).bind trimmed =
      encodeAliasDescription name display description := by
  by_cases same : display = name
  · rw [encode_of_eq friendly same described]
    exact described
  · rw [encode_of_ne friendly same described, Option.bind_some]
    generalize ends : (description.map fun text => " " ++ text).getD "" = tail
    have chars : ("[dn:" ++ display ++ "]" ++ tail).toList =
        '[' :: ("dn:".toList ++ display.toList ++ [']'] ++ tail.toList) := by
      simp
    apply trimmed_eq_some.mpr
    refine ⟨trim_of_ends ?_ ?_, ?_⟩
    · rw [chars]
      rintro char ⟨⟩
      decide
    · rw [chars, ← List.cons_append, ← List.cons_append]
      cases description with
      | none =>
          subst ends
          rw [Option.map_none, Option.getD_none, String.toList_empty,
            List.append_nil, List.getLast?_concat]
          rintro char ⟨⟩
          decide
      | some text =>
          subst ends
          obtain ⟨kept, proper⟩ := trimmed_eq_some.mp (described_some.mp described)
          have finish := isSpace_getLast_trim text
          rw [kept] at finish
          have spaced : (" " ++ text).toList = [' '] ++ text.toList := by simp
          rw [Option.map_some, Option.getD_some, spaced, ← List.append_assoc,
            List.getLast?_append_of_ne_nil]
          · exact finish
          · intro empty
            exact proper (String.toList_injective empty)
    · intro empty
      rw [empty] at chars
      cases chars

end Written

/-! ### Policies -/

theorem protoMark_marked (protocol : PolicyProtocol) (rest : String) :
    protoMark ("[" ++ protocol.text ++ "]" ++ rest) = some (protocol, rest) := by
  have chars : ("[" ++ protocol.text ++ "]" ++ rest).toList =
      ("[" ++ protocol.text ++ "]").toList ++ rest.toList :=
    String.toList_append
  have kept : String.ofList rest.toList = rest := String.ofList_toList
  -- The marks differ before the shortest of them ends.
  cases protocol with
  | tcp | udp | tcpUdp =>
      simp only [protoMark, List.findSome?, startsWith, chars]
      simp [PolicyProtocol.text]
      exact kept

/-- What is written of a policy is read back. -/
theorem decode_encodePolicy {protocol : PolicyProtocol}
    {description : Option String} (described : Described description) :
    decodePolicyDescription
        (some (encodePolicyDescription protocol description)) =
      (protocol, description) := by
  rw [encodePolicyDescription, described]
  cases description with
  | none =>
      have marks := protoMark_marked protocol ""
      rw [String.append_empty] at marks
      simp only [decodePolicyDescription, marks]
      rfl
  | some text =>
      have kept := described_some.mp described
      have marks := protoMark_marked protocol (" " ++ text)
      have same : "[" ++ protocol.text ++ "]" ++ (" " ++ text) =
          "[" ++ protocol.text ++ "] " ++ text :=
        String.toList_injective (by simp)
      rw [same] at marks
      simp only [decodePolicyDescription, marks, trimmed_space, kept]

theorem described_decodePolicy {stored : Option String}
    (trims : stored.bind trimmed = stored) :
    Described (decodePolicyDescription stored).2 := by
  cases stored with
  | none => rfl
  | some text =>
      rw [decodePolicyDescription]
      cases protoMark text with
      | none =>
          dsimp only
          exact trims
      | some found =>
          dsimp only
          exact described_trimmed found.2

theorem trimmed_encodePolicy {protocol : PolicyProtocol}
    {description : Option String} (described : Described description) :
    trimmed (encodePolicyDescription protocol description) =
      some (encodePolicyDescription protocol description) := by
  rw [encodePolicyDescription, described]
  cases description with
  | none => cases protocol <;> decide
  | some text =>
      dsimp only
      obtain ⟨kept, proper⟩ := trimmed_eq_some.mp (described_some.mp described)
      have chars : ("[" ++ protocol.text ++ "] " ++ text).toList =
          '[' :: (protocol.text.toList ++ ("] ".toList ++ text.toList)) := by
        simp
      have finish := isSpace_getLast_trim text
      rw [kept] at finish
      refine trimmed_eq_some.mpr ⟨trim_of_ends ?_ ?_, ?_⟩
      · rw [chars]
        rintro char ⟨⟩
        decide
      · rw [chars, ← List.append_assoc, ← List.cons_append,
          List.getLast?_append_of_ne_nil]
        · exact finish
        · exact fun empty => proper (String.toList_injective empty)
      · intro empty
        rw [empty] at chars
        cases chars

/-! ## Whole groups and zones -/

/-- The entry holds what is to be stored of a description. -/
def Stores (entries : List (String × Cfg)) (name : String)
    (description : Option String) : Prop :=
  (entries.map Prod.fst).Nodup ∧ ∃ cfg, (name, cfg) ∈ entries ∧
    cfg.child "description" = description.map .value

theorem childStr_description {cfg : Cfg} {description : Option String}
    (holds : cfg.child "description" = description.map .value)
    (trims : description.bind trimmed = description) :
    childStr cfg "description" = description := by
  rw [childStr, holds]
  cases description with
  | none => rfl
  | some text =>
      rw [Option.bind_some] at trims
      exact trims

theorem mem_parseAliases {locale : Locale} {group : Cfg}
    {known : FirewallAlias} :
    known ∈ parseAliases locale group ↔ ∃ cfg,
      (known.name, cfg) ∈ (childNode group known.type.node).entries ∧
      (childStr cfg "description").any (startsWith · autoMark) = false ∧
      decodeAliasDescription known.name (childStr cfg "description") =
        (known.display, known.description) ∧
      known.members = childList cfg known.type.memberLeaf := by
  have listed : known.type ∈ AliasType.all := by
    cases known.type <;> decide
  rw [parseAliases, (sortBy_perm _ _ _).mem_iff, List.mem_flatMap]
  constructor
  · rintro ⟨type, _, member⟩
    obtain ⟨⟨name, cfg⟩, inGroup, made⟩ := List.mem_filterMap.mp member
    rw [Option.ite_none_left_eq_some, Option.some.injEq] at made
    obtain ⟨shown, rfl⟩ := made
    exact ⟨cfg, inGroup, Bool.eq_false_iff.mpr shown, rfl, rfl⟩
  · rintro ⟨cfg, inGroup, shown, reads, members⟩
    refine ⟨known.type, listed, List.mem_filterMap.mpr
      ⟨(known.name, cfg), inGroup, ?_⟩⟩
    dsimp only
    rw [if_neg (Bool.eq_false_iff.mp shown), reads, ← members]

theorem exists_zone_iff {locale : Locale} {fw : Cfg} {name display : String}
    {description : Option String} :
    (∃ zone ∈ parseZones locale fw, zone.name = name ∧
      zone.display = display ∧ zone.description = description) ↔
    ∃ cfg, (name, cfg) ∈ (childNode fw "zone").entries ∧
      decodeAliasDescription name (childStr cfg "description") =
        (display, description) := by
  constructor
  · rintro ⟨zone, member, rfl, rfl, rfl⟩
    rw [parseZones, (sortBy_perm _ _ _).mem_iff, List.mem_map] at member
    obtain ⟨⟨name, cfg⟩, inNode, rfl⟩ := member
    exact ⟨cfg, inNode, rfl⟩
  · rintro ⟨cfg, inNode, reads⟩
    rw [parseZones]
    refine ⟨_, (sortBy_perm _ _ _).mem_iff.mpr
      (List.mem_map_of_mem inNode), rfl, ?_, ?_⟩
    · exact congrArg Prod.fst reads
    · exact congrArg Prod.snd reads

/-- The only entry of a name is the one that is read. -/
theorem Stores.exists_iff {entries : List (String × Cfg)} {name : String}
    {description : Option String} (stores : Stores entries name description)
    (trims : description.bind trimmed = description)
    (reads : Option String → Prop) :
    (∃ cfg, (name, cfg) ∈ entries ∧ reads (childStr cfg "description")) ↔
      reads description := by
  obtain ⟨distinct, cfg, member, holds⟩ := stores
  have found := (ConfigTree.findEntry_eq_some_iff distinct).mpr member
  have kept := childStr_description holds trims
  constructor
  · rintro ⟨other, inEntries, reads⟩
    have same := (ConfigTree.findEntry_eq_some_iff distinct).mpr inEntries
    rw [found] at same
    cases same
    rw [← kept]
    exact reads
  · intro reads
    exact ⟨cfg, member, kept.symm ▸ reads⟩

/-- A description that no marker precedes and that looks like one. -/
def Imitates (name display : String) (description : Option String)
    (looks : String → Bool) : Prop :=
  display = name ∧ ∃ text ∈ description, looks text = true

theorem not_imitates_iff {name display : String} {description : Option String}
    {looks : String → Bool} :
    ¬ Imitates name display description looks ↔
      display ≠ name ∨ ∀ text ∈ description, looks text = false := by
  rw [Imitates, not_and_or, not_exists]
  simp only [not_and, Bool.not_eq_true]

theorem exists_alias_iff {locale : Locale} {group : Cfg} {type : AliasType}
    {name display : String} {description : Option String} :
    (∃ known ∈ parseAliases locale group, known.type = type ∧
      known.name = name ∧ known.display = display ∧
        known.description = description) ↔
    ∃ cfg, (name, cfg) ∈ (childNode group type.node).entries ∧
      (childStr cfg "description").any (startsWith · autoMark) = false ∧
      decodeAliasDescription name (childStr cfg "description") =
        (display, description) := by
  constructor
  · rintro ⟨known, member, rfl, rfl, rfl, rfl⟩
    obtain ⟨cfg, inGroup, shown, reads, _⟩ := mem_parseAliases.mp member
    exact ⟨cfg, inGroup, shown, reads⟩
  · rintro ⟨cfg, inGroup, shown, reads⟩
    exact ⟨⟨name, display, type, description, childList cfg type.memberLeaf⟩,
      mem_parseAliases.mpr ⟨cfg, inGroup, shown, reads, rfl⟩, rfl, rfl, rfl,
      rfl⟩

/-- What is written of an alias is shown and read back, unless it looks like a
mark. -/
theorem reads_encode_alias {name display : String} {description : Option String}
    (friendly : Friendly display) (described : Described description) :
    ((encodeAliasDescription name display description).any
          (startsWith · autoMark) = false ∧
        decodeAliasDescription name
            (encodeAliasDescription name display description) =
          (display, description)) ↔
      ¬ Imitates name display description fun text =>
        (displayMark text).isSome || startsWith text autoMark := by
  rw [shown_encode friendly described, decode_encode friendly described,
    not_imitates_iff, ← or_and_left]
  refine or_congr_right ?_
  rw [← forall₂_and]
  refine forall₂_congr fun text _ => ?_
  rw [Bool.or_eq_false_iff, Option.isSome_eq_false_iff,
    Option.isNone_iff_eq_none, and_comm]

theorem reads_encode_zone {name display : String} {description : Option String}
    (friendly : Friendly display) (described : Described description) :
    decodeAliasDescription name
          (encodeAliasDescription name display description) =
        (display, description) ↔
      ¬ Imitates name display description fun text =>
        (displayMark text).isSome := by
  rw [decode_encode friendly described, not_imitates_iff]
  refine or_congr_right (forall₂_congr fun text _ => ?_)
  rw [Option.isSome_eq_false_iff, Option.isNone_iff_eq_none]

/-- What the forms write of an alias or a zone is what is read back, if the
description does not imitate a marker. -/
theorem markers_round_trip (locale : Locale) (typedName typed : String)
    {name display : String}
    (accepts : formNames typedName = some (name, display)) :
    (∀ group type, Stores (childNode group type.node).entries name
        (encodeAliasDescription name display (trimmed typed)) →
      ((∃ known ∈ parseAliases locale group, known.type = type ∧
          known.name = name ∧ known.display = display ∧
            known.description = trimmed typed) ↔
        ¬ Imitates name display (trimmed typed) fun text =>
          (displayMark text).isSome || startsWith text autoMark)) ∧
    ∀ fw, Stores (childNode fw "zone").entries name
        (encodeAliasDescription name display (trimmed typed)) →
      ((∃ zone ∈ parseZones locale fw, zone.name = name ∧
          zone.display = display ∧ zone.description = trimmed typed) ↔
        ¬ Imitates name display (trimmed typed) fun text =>
          (displayMark text).isSome) := by
  have friendly := friendly_of_formNames accepts
  have described := described_trimmed typed
  have trims := @trimmed_encode name display _ friendly described
  constructor
  · intro group type stores
    rw [exists_alias_iff, stores.exists_iff trims fun stored =>
      stored.any (startsWith · autoMark) = false ∧
        decodeAliasDescription name stored = (display, trimmed typed),
      reads_encode_alias friendly described]
  · intro fw stores
    rw [exists_zone_iff, stores.exists_iff trims fun stored =>
      decodeAliasDescription name stored = (display, trimmed typed),
      reads_encode_zone friendly described]

/-- An alias of two words, with a description that looks like a marker. -/
def webServers : Cfg :=
  .node [("address-group", .node [("Web-Servers", .node
    [("address", .value "10.0.0.1"),
      ("description", .value "[dn:Web Servers] [dn:DMZ] lab")])])]

theorem webServers_round_trip :
    ∃ known ∈ parseAliases codepoints webServers, known.type = .host ∧
      known.name = "Web-Servers" ∧ known.display = "Web Servers" ∧
        known.description = trimmed "[dn:DMZ] lab" := by
  refine ((markers_round_trip codepoints " Web  Servers " "[dn:DMZ] lab"
    (by decide)).1 webServers .host ?_).mpr ?_
  · exact ⟨by decide, _, List.mem_singleton_self _, by decide⟩
  · exact fun imitates => absurd imitates.1 (by decide)

/-- A description is taken for a name, or hides its alias. -/
theorem description_imitates :
    formNames "LAN" = some ("LAN", "LAN") ∧
      decodeAliasDescription "LAN"
          (encodeAliasDescription "LAN" "LAN" (trimmed "[dn:WAN] lab")) =
        ("WAN", some "lab") ∧
      (encodeAliasDescription "LAN" "LAN" (trimmed "[qz-rule] lab")).any
        (startsWith · autoMark) = true := by
  refine ⟨?_, ?_, ?_⟩
  · decide
  · decide
  · decide

end QuartzFire.Firewall
