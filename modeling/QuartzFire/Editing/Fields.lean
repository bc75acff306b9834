import Mathlib.Data.List.Sort
import Mathlib.Data.String.Basic
import QuartzFire.Foundation.ConfigSlice
import QuartzFire.Firewall.Parse

/-!
# The fields of a form

The data layers of the console read a configuration node into a record and
write a changed record back as `set` and `delete` commands, field by field.
Each layer has the same few helpers for that; what a helper pushes for a field
brings the field from what is read there to what is wanted.
-/

namespace QuartzFire.Editing

open ConfigTree
open Firewall (Cfg Path VyosCommand trim trimmed childStr has)

/-- Numbers and their texts: `Number(text)` where a layer keeps the result
(where it is an integer, in one layer where it is finite), and
`String(number)`, which `Number` reads as the same number. -/
structure Numerals (Num : Type) where
  number : String → Option Num
  string : Num → String
  number_string : ∀ {text value}, number text = some value →
    number (string value) = some value
  trimmed_string : ∀ value, trimmed (string value) = some (string value)

theorem Numerals.bind_trimmed {Num : Type} (numerals : Numerals Num)
    (value : Option Num) :
    (value.map numerals.string).bind trimmed = value.map numerals.string := by
  cases value with
  | none => rfl
  | some value =>
      rw [Option.map_some, Option.bind_some, numerals.trimmed_string]

theorem digits_toString (value : Nat) :
    (toString value).toList.all Char.isDigit ∧ toString value ≠ "" := by
  constructor
  · rw [toList_toString]
    exact all_isDigit_digits value
  · intro empty
    have none := Firewall.trimmed_toString value
    rw [empty, Firewall.trimmed_empty] at none
    cases none

/-- The numbers of the configuration, which are decimal. -/
def decimals : Numerals Nat where
  number text := if text.toList.all Char.isDigit ∧ text ≠ "" then
    some (Firewall.ruleNumber text) else none
  string value := toString value
  number_string := by
    intro text value _
    rw [if_pos (digits_toString value), Firewall.ruleNumber_toString]
  trimmed_string value := Firewall.trimmed_toString value

theorem decimals_number (value : Nat) :
    decimals.number (toString value) = some value := by
  dsimp only [decimals]
  rw [if_pos (digits_toString value), Firewall.ruleNumber_toString]

/-- All texts alike, to evaluate a list of one row with. -/
def anyOrder : Firewall.Locale where
  le _ _ := true
  total _ _ := rfl
  trans _ _ := rfl

/-! ## Reading -/

/-- `childCfg`: an array is an object as well. -/
def childCfg (cfg : Cfg) (key : String) : Option Cfg :=
  match cfg.child key with
  | some (.node entries) => some (.node entries)
  | some (.values texts) => some (.values texts)
  | _ => none

/-- `childCfg(cfg, key) ?? {}` -/
def childNode (cfg : Cfg) (key : String) : Cfg :=
  (childCfg cfg key).getD (.node [])

/-- `Object.keys`: an array has its indices. -/
def objectKeys : Cfg → List String
  | .node entries => entries.map Prod.fst
  | .values texts => (List.range texts.length).map toString
  | _ => []

/-- The order of `sort()`. -/
def sorted (texts : List String) : List String :=
  texts.insertionSort (· ≤ ·)

/-- `Object.entries` -/
def objectEntries : Cfg → List (String × Cfg)
  | .node entries => entries
  | .values texts => texts.mapIdx fun index text =>
      (toString index, .value text)
  | _ => []

theorem mem_sorted {texts : List String} {text : String} :
    text ∈ sorted texts ↔ text ∈ texts :=
  (List.perm_insertionSort _ texts).mem_iff

def keysOf (node : Option Cfg) : List String :=
  sorted ((node.map objectKeys).getD [])

/-- What `childStr` makes of what is under a name. -/
def textAt : Option Cfg → Option String
  | some (.value text) => trimmed text
  | _ => none

theorem childStr_eq (cfg : Cfg) (key : String) :
    childStr cfg key = textAt (subtree [key] cfg) := by
  rw [subtree_singleton]
  cases found : cfg.child key with
  | none => simp [childStr, textAt, found]
  | some leaf => cases leaf <;> simp [childStr, textAt, found]

theorem has_eq (cfg : Cfg) (key : String) :
    has cfg key = (subtree [key] cfg).isSome := by
  rw [subtree_singleton]
  rfl

theorem subtree_childNode (cfg : Cfg) (name key : String) (path : Path) :
    subtree (key :: path) (childNode cfg name) =
      subtree (name :: key :: path) cfg := by
  rw [subtree, childNode, childCfg]
  conv => rhs; rw [subtree]
  cases cfg.child name with
  | none => rfl
  | some leaf => cases leaf <;> rfl

theorem childNode_slice (cfg : Cfg) (name : String) {kinds : Kinds String}
    (conforms : Conforms kinds cfg) (isNode : kinds [name] = .node) :
    childNode cfg name = slice [name] cfg := by
  rw [childNode, childCfg, slice, subtree_singleton]
  cases found : cfg.child name with
  | none => rfl
  | some leaf =>
      have fits := conforms.fits_child found
      cases fits <;> simp_all

theorem mem_objectEntries {cfg : Cfg} {kinds : Kinds String}
    (conforms : Conforms kinds cfg) {key : String} {entry : Cfg} :
    (key, entry) ∈ objectEntries cfg ↔ cfg.child key = some entry := by
  rw [conforms.isNode, objectEntries, ← conforms.isNode, conforms.mem_entries]

theorem nodup_objectEntries {cfg : Cfg} {kinds : Kinds String}
    (conforms : Conforms kinds cfg) : (objectEntries cfg).Nodup := by
  rw [conforms.isNode, objectEntries]
  exact conforms.distinct.of_map

section Numbers

variable {Num : Type} (numerals : Numerals Num)

/-- What `childNum` makes of what is under a name. -/
def numberAt (leaf : Option Cfg) : Option Num :=
  (textAt leaf).bind numerals.number

def childNum (cfg : Cfg) (key : String) : Option Num :=
  (childStr cfg key).bind numerals.number

theorem childNum_eq (cfg : Cfg) (key : String) :
    childNum numerals cfg key = numberAt numerals (subtree [key] cfg) := by
  rw [childNum, childStr_eq, numberAt]

end Numbers

/-! ## Trimmed texts -/

/-- Without white space around it, and not blank. -/
def Plain (text : String) : Prop := trimmed text = some text

instance (text : String) : Decidable (Plain text) :=
  inferInstanceAs (Decidable (trimmed text = some text))

theorem textAt_bind_trimmed (leaf : Option Cfg) :
    (textAt leaf).bind trimmed = textAt leaf := by
  cases shown : textAt leaf with
  | none => rfl
  | some text =>
      unfold textAt at shown
      split at shown
      · rw [Option.bind_some]
        exact Firewall.trimmed_trimmed shown
      · cases shown

/-- A text that is read is not blank. -/
theorem textAt_ne_blank (leaf : Option Cfg) : textAt leaf ≠ some "" := by
  intro blank
  have trims := textAt_bind_trimmed leaf
  rw [blank, Option.bind_some, Firewall.trimmed_empty] at trims
  cases trims

theorem trimmed_of_wants {desired : Option String} {text : String}
    (wants : desired.bind trimmed = some text) : trimmed text = some text := by
  obtain ⟨given, _, trims⟩ := Option.bind_eq_some_iff.mp wants
  exact Firewall.trimmed_trimmed trims

/-- `desired.map((s) => s.trim()).filter(Boolean)` -/
def wanted (desired : List String) : List String :=
  desired.filterMap trimmed

theorem plain_of_wanted {desired : List String} {text : String}
    (member : text ∈ wanted desired) : Plain text := by
  obtain ⟨_, _, trims⟩ := List.mem_filterMap.mp member
  exact Firewall.trimmed_trimmed trims

theorem wanted_of_plain {desired : List String}
    (plain : ∀ text ∈ desired, Plain text) : wanted desired = desired := by
  rw [wanted, ← List.filterMap_some (l := desired), List.filterMap_some]
  exact (List.filterMap_congr plain).trans List.filterMap_some

/-- What a text field that is opened with a text, or else empty, gives back. -/
theorem trimmed_getD {shown : Option String}
    (legible : shown.bind trimmed = shown) :
    trimmed (shown.getD "") = shown := by
  cases shown with
  | none => exact Firewall.trimmed_empty
  | some text =>
      rw [Option.bind_some] at legible
      rw [Option.getD_some, legible]

/-! ## Writing -/

/-- Single-value leaf: set when it changed to a value, delete when cleared. -/
def leaf (path : Path) (live desired : Option String) : List VyosCommand :=
  let wanted := desired.bind trimmed
  if wanted = live then []
  else match wanted with
    | some text => [.set (path ++ [text])]
    | none => [.delete path]

/-- Valueless flag leaf: presence toggle. -/
def flag (path : Path) (live desired : Bool) : List VyosCommand :=
  if desired = live then []
  else if desired then [.set path] else [.delete path]

/-- Multi-value leaf: add and remove children. -/
def multi (path : Path) (live desired : List String) : List VyosCommand :=
  (((wanted desired).filter (· ∉ live)).map fun text => .set (path ++ [text])) ++
    (live.filter (· ∉ wanted desired)).map fun text => .delete (path ++ [text])

section Pushing

variable {Num : Type} (numerals : Numerals Num)

/-- `numLeaf`, or `leaf` of two `numStr`. -/
def numLeaf (path : Path) (live desired : Option Num) : List VyosCommand :=
  leaf path (live.map numerals.string) (desired.map numerals.string)

/-- One call of a helper, on a path below the node that is edited. -/
inductive Push (Num : Type) where
  | leaf (path : Path) (live desired : Option String)
  | number (path : Path) (live desired : Option Num)
  | flag (path : Path) (live desired : Bool)
  /-- `multi` on a node whose names are the values. -/
  | names (path : Path) (live desired : List String)
  /-- `multi` on a leaf of several values. -/
  | values (path : Path) (live desired : List String)

namespace Push

def path : Push Num → Path
  | .leaf path .. | .number path .. | .flag path .. | .names path ..
  | .values path .. => path

def commands : Push Num → List VyosCommand
  | .leaf path live desired => Editing.leaf path live desired
  | .number path live desired => numLeaf numerals path live desired
  | .flag path live desired => Editing.flag path live desired
  | .names path live desired | .values path live desired =>
      multi path live desired

def block (push : Push Num) : Block String :=
  ⟨[push.path], push.commands numerals⟩

end Push

theorem leaf_local (path : Path) (live desired : Option String) :
    Below path (leaf path live desired) := by
  dsimp only [leaf]
  split
  · exact .nil
  · split
    · exact .single (List.prefix_append _ _)
    · exact .single (List.prefix_refl _)

theorem flag_local (path : Path) (live desired : Bool) :
    Below path (flag path live desired) := by
  unfold flag
  split
  · exact .nil
  · split <;> exact .single (List.prefix_refl _)

theorem multi_local (path : Path) (live desired : List String) :
    Below path (multi path live desired) :=
  .append (.map fun _ _ => List.prefix_append _ _)
    (.map fun _ _ => List.prefix_append _ _)

/-- The commands of a push write at its path or below. -/
theorem Push.local (push : Push Num) : (push.block numerals).Local := by
  have below : Below push.path (push.commands numerals) := by
    cases push with
    | leaf path live desired => exact leaf_local path live desired
    | number path live desired => exact leaf_local path _ _
    | flag path live desired => exact flag_local path live desired
    | names path live desired => exact multi_local path live desired
    | values path live desired => exact multi_local path live desired
  exact Along.mono (fun path placed => ⟨push.path, by simp [block], placed⟩) below

/-- Pushes at paths that diverge write apart from each other. -/
theorem separate_pushes {pushes : List (Push Num)}
    (apart : (pushes.map Push.path).Pairwise Diverges) :
    Separate (pushes.map (Push.block numerals)) where
  diverge := by
    rw [List.pairwise_map] at apart
    rw [List.map_map, List.pairwise_map]
    refine apart.imp fun diverges leaf one other two => ?_
    rw [List.mem_singleton.mp one, List.mem_singleton.mp two]
    exact diverges
  each := by
    intro block member
    obtain ⟨push, _, rfl⟩ := List.mem_map.mp member
    exact push.local numerals

theorem written_pushes (pushes : List (Push Num)) :
    written (pushes.map (Push.block numerals)) = pushes.map Push.path := by
  induction pushes with
  | nil => rfl
  | cons push pushes ih => exact congrArg (push.path :: ·) ih

end Pushing

/-! ## What a field becomes -/

section Leaves

variable {kinds : Kinds String} {path : Path} {start : Option Cfg}

theorem leaf_same {live desired : Option String}
    (same : desired.bind trimmed = live) : leaf path live desired = [] :=
  if_pos same

theorem leaf_eq_nil_iff {live desired : Option String} :
    leaf path live desired = [] ↔ desired.bind trimmed = live := by
  constructor
  · intro quiet
    dsimp only [leaf] at quiet
    split at quiet
    · assumption
    · split at quiet <;> simp at quiet
  · exact leaf_same

theorem flag_eq_nil_iff {live desired : Bool} :
    flag path live desired = [] ↔ desired = live := by
  constructor
  · intro quiet
    unfold flag at quiet
    split at quiet
    · assumption
    · split at quiet <;> simp at quiet
  · exact fun same => if_pos same

theorem leaf_set {live desired : Option String} {text : String}
    (wants : desired.bind trimmed = some text) (differs : live ≠ some text) :
    leaf path live desired = [.set (path ++ [text])] := by
  dsimp only [leaf]
  rw [wants, if_neg differs.symm]

theorem leaf_delete {live desired : Option String}
    (wants : desired.bind trimmed = none) (present : live ≠ none) :
    leaf path live desired = [.delete path] := by
  dsimp only [leaf]
  rw [wants, if_neg present.symm]

/-- A leaf that is set to a trimmed text reads as the text. -/
theorem write_yields (field : FieldAt kinds path .single) {text : String}
    (plain : trimmed text = some text) :
    Yields kinds path start (fun after => textAt after = some text)
      [.set (path ++ [text])] := by
  obtain ⟨base, key, rfl, nodes, isSingle⟩ := field.split
  refine (Yields.write nodes isSingle text).mono ?_
  rintro _ rfl
  exact plain

/-- A text leaf is written where the wanted text differs from the live side,
whatever that says. -/
theorem leaf_writes (field : FieldAt kinds path .single)
    {live desired : Option String} :
    Yields kinds path start
      (fun after => if desired.bind trimmed = live then after = start
        else textAt after = desired.bind trimmed ∧
          (desired.bind trimmed = none → after = none))
      (leaf path live desired) := by
  by_cases same : desired.bind trimmed = live
  · rw [leaf_same same]
    exact .nil (by rw [if_pos same])
  · simp only [if_neg same]
    cases wants : desired.bind trimmed with
    | some text =>
        rw [leaf_set wants fun equal => same (wants.trans equal.symm)]
        refine (write_yields field (trimmed_of_wants wants)).mono ?_
        exact fun after wrote => ⟨wrote, fun none => by cases none⟩
    | none =>
        rw [leaf_delete wants fun equal => same (wants.trans equal.symm)]
        refine (Yields.clear field.proper).mono ?_
        rintro _ rfl
        exact ⟨rfl, fun _ => rfl⟩

/-- A text leaf holds the wanted text, trimmed. -/
theorem leaf_yields (field : FieldAt kinds path .single)
    {live desired : Option String} (shown : live = textAt start) :
    Yields kinds path start (fun after => textAt after = desired.bind trimmed)
      (leaf path live desired) := by
  refine (leaf_writes field).mono fun after wrote => ?_
  split at wrote
  · rename_i same
    rw [wrote, same, shown]
  · exact wrote.1

/-- A flag that is set is there. -/
theorem raise_yields (field : FieldAt kinds path .valueless ∨
      FieldAt kinds path .node) :
    Yields kinds path start (fun after => after.isSome = true)
      [.set path] := by
  rcases field with valueless | node
  · obtain ⟨base, key, rfl, nodes, isValueless⟩ := valueless.split
    refine (Yields.raise nodes isValueless).mono ?_
    rintro _ rfl
    rfl
  · intro tree _ _
    have created := subtree_set_append node.nodePath [] tree
    rw [List.append_nil] at created
    rw [executeAll, List.foldl_cons, List.foldl_nil, execute, created]
    rfl

/-- A flag is written where the desired state differs from the live side. -/
theorem flag_writes (field : FieldAt kinds path .valueless ∨
      FieldAt kinds path .node) {live desired : Bool} :
    Yields kinds path start
      (fun after => if desired = live then after = start
        else after.isSome = desired)
      (flag path live desired) := by
  unfold flag
  split
  · exact .nil rfl
  · split
    · rename_i on
      rw [on]
      exact raise_yields field
    · rename_i off
      have proper : path ≠ [] := field.elim FieldAt.proper FieldAt.proper
      refine (Yields.clear proper).mono ?_
      rintro _ rfl
      simpa using off

theorem flag_yields (field : FieldAt kinds path .valueless ∨
      FieldAt kinds path .node) {live desired : Bool}
    (shown : live = start.isSome) :
    Yields kinds path start (fun after => after.isSome = desired)
      (flag path live desired) := by
  refine (flag_writes field).mono fun after wrote => ?_
  split at wrote
  · rename_i same
    rw [wrote, same, shown]
  · exact wrote

theorem mem_multi {live desired : List String} {holds : String → Prop}
    (shown : ∀ text, text ∈ live ↔ holds text) (text : String) :
    (text ∉ live.filter (· ∉ wanted desired) ∧
        (text ∈ (wanted desired).filter (· ∉ live) ∨ holds text)) ↔
      text ∈ wanted desired := by
  simp only [List.mem_filter, decide_eq_true_eq, ← shown text]
  tauto

/-- The values collected at a path are the wanted ones. -/
theorem multi_yields {holds : Option Cfg → String → Prop}
    (collects : ValueSet kinds path holds) {live desired : List String}
    (shown : ∀ text, text ∈ live ↔ holds start text) :
    Yields kinds path start
      (fun after => ∀ text, holds after text ↔ text ∈ wanted desired)
      (multi path live desired) := by
  refine (collects.exchange _ _).mono fun after exchanged text => ?_
  rw [exchanged text]
  exact mem_multi shown text

end Leaves

section Fields

variable {Num : Type} (numerals : Numerals Num) {kinds : Kinds String}

/-- The number field holds the wanted number if its text reads as it. -/
theorem numLeaf_yields {path : Path} {start : Option Cfg}
    (field : FieldAt kinds path .single) {live desired : Option Num}
    (shown : live = numberAt numerals start) :
    Yields kinds path start
      (fun after => numberAt numerals after =
        desired.bind fun value => numerals.number (numerals.string value))
      (numLeaf numerals path live desired) := by
  -- The texts compared are those of the numbers, not the one that is stored.
  by_cases same : desired.map numerals.string = live.map numerals.string
  · have trims : (desired.map numerals.string).bind trimmed =
        live.map numerals.string := by
      rw [same, numerals.bind_trimmed]
    rw [numLeaf, leaf_same trims]
    refine .nil ?_
    rw [← shown]
    cases live with
    | none =>
        cases desired with
        | none => rfl
        | some value => cases same
    | some number =>
        cases desired with
        | none => cases same
        | some value =>
            obtain ⟨text, _, reads⟩ := Option.bind_eq_some_iff.mp shown.symm
            simp only [Option.map_some, Option.some.injEq] at same
            rw [Option.bind_some, same, numerals.number_string reads]
  · obtain ⟨base, key, rfl, nodes, isSingle⟩ := field.split
    cases desired with
    | none =>
        rw [numLeaf, leaf_delete rfl (Ne.symm same)]
        refine (Yields.clear field.proper).mono ?_
        rintro _ rfl
        rfl
    | some value =>
        have wants : ((some value).map numerals.string).bind trimmed =
            some (numerals.string value) := numerals.bind_trimmed (some value)
        rw [numLeaf, leaf_set wants (Ne.symm same)]
        refine (Yields.write nodes isSingle _).mono ?_
        rintro _ rfl
        simp [numberAt, textAt, numerals.trimmed_string]

/-- The schema has what the field needs at its path. -/
def Push.Fits (kinds : Kinds String) : Push Num → Prop
  | .leaf path .. | .number path .. => FieldAt kinds path .single
  | .flag path .. => FieldAt kinds path .valueless ∨ FieldAt kinds path .node
  | .names path .. => FieldAt kinds path .node ∧
      ∀ name, kinds (path ++ [name]) = .node
  | .values path .. => FieldAt kinds path .multi

/-- The kind of what a push writes. -/
def Push.kind : Push Num → Kind
  | .leaf .. | .number .. => .single
  | .flag .. => .valueless
  | .names .. => .node
  | .values .. => .multi

theorem Push.fits_of_kind {push : Push Num}
    (field : FieldAt kinds push.path push.kind)
    (names : push.kind = .node →
      ∀ name, kinds (push.path ++ [name]) = .node) : push.Fits kinds := by
  cases push with
  | leaf path live desired => exact field
  | number path live desired => exact field
  | flag path live desired => exact .inl field
  | names path live desired => exact ⟨field, names rfl⟩
  | values path live desired => exact field

/-- The paths and kinds of some pushes. -/
abbrev shapeOf (pushes : List (Push Num)) : List (Path × Kind) :=
  pushes.map fun push => (push.path, push.kind)

/-- The live side is what is read at the path. -/
def Push.Live (cfg : Cfg) : Push Num → Prop
  | .leaf path live _ => live = textAt (subtree path cfg)
  | .number path live _ => live = numberAt numerals (subtree path cfg)
  | .flag path live _ => live = (subtree path cfg).isSome
  | .names path live _ => ∀ name, name ∈ live ↔
      ((subtree path cfg).bind fun node => node.child name).isSome = true
  | .values path live _ => ∀ text, text ∈ live ↔
      text ∈ leafValues (subtree path cfg)

/-- What is read at the path is the desired side. -/
def Push.Done (after : Cfg) : Push Num → Prop
  | .leaf path _ desired => textAt (subtree path after) = desired.bind trimmed
  | .number path _ desired => numberAt numerals (subtree path after) =
      desired.bind fun value => numerals.number (numerals.string value)
  | .flag path _ desired => (subtree path after).isSome = desired
  | .names path _ desired => ∀ name,
      ((subtree path after).bind fun node => node.child name).isSome = true ↔
        name ∈ wanted desired
  | .values path _ desired => ∀ text,
      text ∈ leafValues (subtree path after) ↔ text ∈ wanted desired

/-- A push among blocks that write apart from it does its field. -/
theorem Push.done {push : Push Num} {blocks : List (Block String)}
    (separate : Separate blocks) (member : push.block numerals ∈ blocks)
    (fits : push.Fits kinds) {cfg : Cfg} (conforms : Conforms kinds cfg)
    (live : push.Live numerals cfg) :
    push.Done numerals (executeAll kinds (laid blocks) cfg) := by
  have inside : push.path ∈ (push.block numerals).leaves := by simp [block]
  have above : push.path <+: push.path := List.prefix_refl _
  cases push with
  | leaf path shown desired =>
      exact (leaf_yields fits live).laid separate member inside above cfg
        conforms rfl
  | number path shown desired =>
      exact (numLeaf_yields numerals fits live).laid separate member inside
        above cfg conforms rfl
  | flag path shown desired =>
      exact (flag_yields fits live).laid separate member inside above cfg
        conforms rfl
  | names path shown desired =>
      exact (multi_yields (.ofNames fits.1.nodePath fits.2) live).laid separate
        member inside above cfg conforms rfl
  | values path shown desired =>
      obtain ⟨base, key, rfl, nodes, isMulti⟩ := FieldAt.split fits
      exact (multi_yields (.ofMulti nodes isMulti) live).laid separate member
        inside above cfg conforms rfl

end Fields

/-! ## A field that is left as it is -/

theorem leaf_unchanged (path : Path) (start : Option Cfg) :
    leaf path (textAt start) (textAt start) = [] :=
  leaf_same (textAt_bind_trimmed start)

theorem leaf_unchanged_none (path : Path) : leaf path none none = [] :=
  leaf_same rfl

theorem numLeaf_unchanged {Num : Type} (numerals : Numerals Num) (path : Path)
    (live : Option Num) : numLeaf numerals path live live = [] := by
  refine leaf_same ?_
  cases live <;> simp [numerals.trimmed_string]

theorem flag_unchanged (path : Path) (live : Bool) : flag path live live = [] :=
  if_pos rfl

/-- Values are written back only if one of them has white space around it. -/
theorem multi_unchanged_iff (path : Path) (live : List String) :
    multi path live live = [] ↔ ∀ text ∈ live, Plain text := by
  rw [multi, List.append_eq_nil_iff, List.map_eq_nil_iff, List.map_eq_nil_iff]
  simp only [List.filter_eq_nil_iff, decide_eq_true_eq, not_not]
  constructor
  · rintro ⟨_, all⟩ text member
    exact plain_of_wanted (all text member)
  · intro plain
    rw [wanted_of_plain plain]
    exact ⟨fun _ member => member, fun _ member => member⟩

section Untouched

variable {Num : Type} {numerals : Numerals Num}

/-- What is live is desired. -/
def Push.Untouched : Push Num → Prop
  | .leaf _ live desired => desired = live
  | .number _ live desired => desired = live
  | .flag _ live desired => desired = live
  | .names _ live desired | .values _ live desired => desired = live

/-- No value has white space around it. -/
def Push.Tidy : Push Num → Prop
  | .names _ live _ | .values _ live _ => ∀ text ∈ live, Plain text
  | _ => True

theorem Push.quiet_iff {push : Push Num} {cfg : Cfg}
    (live : push.Live numerals cfg) (untouched : push.Untouched) :
    push.commands numerals = [] ↔ push.Tidy := by
  cases push with
  | leaf path shown desired =>
      have untouched : desired = shown := untouched
      subst untouched
      refine iff_of_true ?_ trivial
      rw [Push.commands, show desired = _ from live]
      exact leaf_unchanged path _
  | number path shown desired =>
      have untouched : desired = shown := untouched
      subst untouched
      exact iff_of_true (numLeaf_unchanged numerals path desired) trivial
  | flag path shown desired =>
      have untouched : desired = shown := untouched
      subst untouched
      exact iff_of_true (flag_unchanged path desired) trivial
  | names path shown desired | values path shown desired =>
      have untouched : desired = shown := untouched
      subst untouched
      exact multi_unchanged_iff path desired

theorem laid_pushes_eq_nil_iff {pushes : List (Push Num)} :
    laid (pushes.map (Push.block numerals)) = [] ↔
      ∀ push ∈ pushes, push.commands numerals = [] := by
  simp [List.flatMap_eq_nil_iff, Push.block]

end Untouched

end QuartzFire.Editing
