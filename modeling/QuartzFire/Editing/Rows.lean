import QuartzFire.Editing.Overwriting
import QuartzFire.Foundation.Keyed

/-!
# Lists of rows

A node whose children are named by the keys of rows is edited as a list: each
desired row has its own commands below its key, and the keys that are no longer
wanted are deleted.
-/

namespace QuartzFire.Editing

open ConfigTree
open Firewall (Cfg Path VyosCommand ruleNumber)

/-- The commands of one row, below its key. -/
structure RowEdit where
  key : String
  commands : List VyosCommand

/-- The rows one after another, then the keys that go. -/
def editRows (slot : String) (edits : List RowEdit) (dropped : List String) :
    List VyosCommand :=
  (edits.flatMap fun edit =>
    edit.commands.map (Command.under [slot, edit.key])) ++
    dropped.map fun key => .delete [slot, key]

section Rows

variable {kinds : Kinds String} {slot : String} {edits : List RowEdit}
  {dropped : List String} {cfg : Cfg}

theorem keys_diverge {key other : String} (different : key ≠ other) :
    Diverges [slot, key] [slot, other] :=
  diverges_of_length rfl (by simpa using different)

/-- What diverges from the rows is as it was. -/
theorem subtree_editRows_of_diverges {probe : Path}
    (edited : ∀ edit ∈ edits, Diverges [slot, edit.key] probe)
    (deleted : ∀ key ∈ dropped, Diverges [slot, key] probe) :
    subtree probe (executeAll kinds (editRows slot edits dropped) cfg) =
      subtree probe cfg := by
  have spared : Spares probe (editRows slot edits dropped) := by
    refine .append (.flatMap fun edit member => ?_)
      (.map fun key member => deleted key member)
    exact spares_under (edited edit member) _
  exact spared.subtree_eq cfg

theorem subtree_editRows_other {key : String}
    (edited : key ∉ edits.map RowEdit.key) (deleted : key ∉ dropped) :
    subtree [slot, key] (executeAll kinds (editRows slot edits dropped) cfg) =
      subtree [slot, key] cfg := by
  refine subtree_editRows_of_diverges (fun edit member => ?_)
    fun other member => ?_
  · exact keys_diverge fun same => edited (same ▸ List.mem_map_of_mem member)
  · exact keys_diverge fun same => deleted (same ▸ member)

theorem subtree_editRows_dropped {key : String}
    (edited : key ∉ edits.map RowEdit.key) (deleted : key ∈ dropped) :
    subtree [slot, key] (executeAll kinds (editRows slot edits dropped) cfg) =
      none := by
  have wanes : Wanes [slot, key] (editRows slot edits dropped) := by
    refine .append (.flatMap fun edit member => ?_)
      (.map fun other _ => .inr ⟨_, rfl⟩)
    refine (spares_under (keys_diverge fun same => ?_) _).imp fun _ => .inl
    exact edited (same ▸ List.mem_map_of_mem member)
  refine wanes.gone (List.cons_ne_nil slot [key]) (List.prefix_refl _) ?_
  exact List.mem_append_right _ (List.mem_map_of_mem deleted)

/-- A row that is edited once holds what its commands make of it. -/
theorem subtree_editRows_edited (nodes : ∀ key, NodePath kinds [slot, key])
    (conforms : Conforms kinds cfg)
    (distinct : (edits.map RowEdit.key).Nodup) {edit : RowEdit}
    (member : edit ∈ edits) (kept : edit.key ∉ dropped)
    (proper : ∀ command ∈ edit.commands, command ≠ .delete [])
    (there : (subtree [slot, edit.key] cfg).isSome = true ∨
      edit.commands.any Command.isSet = true) :
    subtree [slot, edit.key]
        (executeAll kinds (editRows slot edits dropped) cfg) =
      some (executeAll (kinds.below [slot, edit.key]) edit.commands
        (slice [slot, edit.key] cfg)) := by
  obtain ⟨front, back, rfl⟩ := List.append_of_mem member
  rw [List.map_append, List.map_cons, List.nodup_middle,
    List.nodup_cons] at distinct
  have elsewhere : ∀ other ∈ front ++ back,
      Diverges [slot, other.key] [slot, edit.key] := by
    intro other inside
    refine keys_diverge fun same => distinct.1 ?_
    rw [← List.map_append, ← same]
    exact List.mem_map_of_mem inside
  have spared : ∀ others : List RowEdit,
      (∀ other ∈ others, other ∈ front ++ back) →
      Spares [slot, edit.key] (others.flatMap fun other =>
        other.commands.map (Command.under [slot, other.key])) :=
    fun others among => .flatMap fun other inside =>
      spares_under (elsewhere other (among other inside)) _
  have before := spared front fun other inside =>
    List.mem_append_left _ inside
  have after : Spares [slot, edit.key] ((back.flatMap fun other =>
      other.commands.map (Command.under [slot, other.key])) ++
        dropped.map fun key => .delete [slot, key]) := by
    refine .append (spared back fun other inside =>
      List.mem_append_right _ inside) (.map fun key inside => ?_)
    exact keys_diverge fun same => kept (same ▸ inside)
  have start := @Spares.subtree_eq _ _ kinds _ _ before cfg
  rw [editRows, List.flatMap_append, List.flatMap_cons, List.append_assoc,
    List.append_assoc, executeAll_append, executeAll_append, after.subtree_eq,
    subtree_executeAll_under (nodes edit.key) proper conforms.executeAll
      (by rwa [start]), slice, start]
  rfl

end Rows

/-! ## Rows with numbers -/

section Numbered

variable {Row : Type} (parse : Nat → Cfg → Row) (number : Row → Nat)

/-- The rows of a node whose children are numbered, in the order of their
numbers. -/
def numberedRows (node : Cfg) : List Row :=
  ((objectEntries node).map fun (key, raw) => parse (ruleNumber key) raw)
    |>.insertionSort fun left right => number left ≤ number right

variable {parse number} {kinds : Kinds String} {node : Cfg}

theorem mem_numberedRows (numbers : ∀ num raw, number (parse num raw) = num)
    (conforms : Conforms kinds node)
    (decimal : ∀ key raw, node.child key = some raw →
      key = toString (ruleNumber key)) (row : Row) :
    row ∈ numberedRows parse number node ↔
      ∃ raw, node.child (toString (number row)) = some raw ∧
        parse (number row) raw = row := by
  rw [numberedRows, List.mem_insertionSort, List.mem_map]
  constructor
  · rintro ⟨⟨key, raw⟩, member, rfl⟩
    have found := (mem_objectEntries conforms).mp member
    rw [numbers, ← decimal key raw found]
    exact ⟨raw, found, rfl⟩
  · rintro ⟨raw, found, same⟩
    refine ⟨(toString (number row), raw), (mem_objectEntries conforms).mpr
      found, ?_⟩
    show parse (ruleNumber (toString (number row))) raw = row
    rw [Firewall.ruleNumber_toString, same]

theorem nodup_numberedRows (numbers : ∀ num raw, number (parse num raw) = num)
    (conforms : Conforms kinds node)
    (decimal : ∀ key raw, node.child key = some raw →
      key = toString (ruleNumber key)) :
    ((numberedRows parse number node).map number).Nodup := by
  rw [numberedRows, ((List.perm_insertionSort _ _).map _).nodup_iff,
    List.map_map]
  refine (nodup_objectEntries conforms).map_on ?_
  rintro ⟨left, first⟩ one ⟨right, second⟩ other same
  have one := (mem_objectEntries conforms).mp one
  have other := (mem_objectEntries conforms).mp other
  rw [Function.comp_apply, Function.comp_apply, numbers, numbers] at same
  have canonical := decimal left first one
  rw [same, ← decimal right second other] at canonical
  subst canonical
  rw [one, Option.some.injEq] at other
  rw [other]

/-- The rows that are read are the desired ones in the order of their numbers
if each is where its number says, and no others are. -/
theorem numberedRows_eq_iff
    (numbers : ∀ num raw, number (parse num raw) = num)
    (conforms : Conforms kinds node)
    (decimal : ∀ key raw, node.child key = some raw →
      key = toString (ruleNumber key))
    {desired : List Row} (distinct : (desired.map number).Nodup) :
    numberedRows parse number node =
        desired.insertionSort (fun left right => number left ≤ number right) ↔
      (∀ row ∈ desired, ∃ raw,
        node.child (toString (number row)) = some raw ∧
          parse (number row) raw = row) ∧
      ∀ num raw, node.child (toString num) = some raw →
        num ∈ desired.map number := by
  have listed := mem_numberedRows numbers conforms decimal
  have unique := nodup_numberedRows numbers conforms decimal
  constructor
  · intro same
    have among : ∀ row, row ∈ numberedRows parse number node ↔
        row ∈ desired := by
      intro row
      rw [same, List.mem_insertionSort]
    refine ⟨fun row member => (listed row).mp ((among row).mpr member), ?_⟩
    intro num raw found
    have member : parse num raw ∈ desired := by
      rw [← among, listed, numbers]
      exact ⟨raw, found, rfl⟩
    rw [← numbers num raw]
    exact List.mem_map_of_mem member
  · rintro ⟨there, only⟩
    have among : ∀ row, row ∈ numberedRows parse number node ↔
        row ∈ desired := by
      intro row
      rw [listed]
      refine ⟨fun ⟨raw, found, same⟩ => ?_, there row⟩
      obtain ⟨wanted, member, num⟩ :=
        List.mem_map.mp (only (number row) raw found)
      obtain ⟨raw', found', same'⟩ := there wanted member
      rw [num, found, Option.some.injEq] at found'
      rw [← same, ← num, found', same']
      exact member
    have perm : (numberedRows parse number node).Perm desired :=
      (List.perm_ext_iff_of_nodup unique.of_map distinct.of_map).mpr among
    have total : ∀ left right : Row,
        number left ≤ number right ∨ number right ≤ number left :=
      fun left right => Nat.le_total _ _
    have trans : ∀ first second third : Row, number first ≤ number second →
        number second ≤ number third → number first ≤ number third :=
      fun _ _ _ => Nat.le_trans
    have : Std.Total fun left right : Row => number left ≤ number right :=
      ⟨total⟩
    have : IsTrans Row fun left right => number left ≤ number right := ⟨trans⟩
    refine List.Perm.eq_of_pairwise ?_ (List.pairwise_insertionSort _ _)
      (List.pairwise_insertionSort _ _)
      (perm.trans (List.perm_insertionSort _ _).symm)
    intro left right one other first second
    rw [among] at one
    rw [List.mem_insertionSort] at other
    exact eq_of_key distinct one other (Nat.le_antisymm first second)

end Numbered

/-! ## Rows with names -/

section Named

variable {Row : Type} (locale : Firewall.Locale) (parse : String → Cfg → Row)
  (name : Row → String)

/-- The rows of a node whose children are named, in the order of their
names. -/
def namedRows (node : Cfg) : List Row :=
  locale.sortBy name ((objectEntries node).map fun (key, raw) => parse key raw)

variable {locale parse name} {kinds : Kinds String} {node : Cfg}

theorem mem_namedRows (names : ∀ key raw, name (parse key raw) = key)
    (conforms : Conforms kinds node) (row : Row) :
    row ∈ namedRows locale parse name node ↔
      (node.child (name row)).map (parse (name row)) = some row := by
  rw [namedRows, Firewall.Locale.sortBy, List.mem_insertionSort, List.mem_map]
  constructor
  · rintro ⟨⟨key, raw⟩, member, rfl⟩
    rw [names, (mem_objectEntries conforms).mp member, Option.map_some]
  · intro shown
    obtain ⟨raw, found, same⟩ := Option.map_eq_some_iff.mp shown
    exact ⟨(name row, raw), (mem_objectEntries conforms).mpr found, same⟩

theorem nodup_namedRows (names : ∀ key raw, name (parse key raw) = key)
    (conforms : Conforms kinds node) :
    ((namedRows locale parse name node).map name).Nodup := by
  rw [namedRows, Firewall.Locale.sortBy,
    ((List.perm_insertionSort _ _).map _).nodup_iff, List.map_map,
    conforms.isNode]
  refine conforms.distinct.of_map.map_on ?_
  rintro ⟨left, first⟩ one ⟨right, second⟩ other same
  rw [Function.comp_apply, Function.comp_apply, names, names] at same
  subst same
  have one := conforms.mem_entries.mp one
  rw [conforms.mem_entries.mp other, Option.some.injEq] at one
  rw [one]

/-- The row of a name. -/
theorem find_namedRows (names : ∀ key raw, name (parse key raw) = key)
    (conforms : Conforms kinds node) (key : String) :
    (namedRows locale parse name node).find? (name · = key) =
      (node.child key).map (parse key) := by
  have listed := @mem_namedRows _ locale _ _ _ _ names conforms
  cases shown : (node.child key).map (parse key) with
  | none =>
      rw [List.find?_eq_none]
      intro row member
      rw [decide_eq_true_eq]
      rintro rfl
      rw [(listed row).mp member] at shown
      cases shown
  | some row =>
      obtain ⟨raw, _, same⟩ := Option.map_eq_some_iff.mp shown
      have named : name row = key := by rw [← same, names]
      subst named
      exact find?_of_distinct (nodup_namedRows names conforms)
        ((listed row).mpr shown)

end Named

/-! ## A list that is saved -/

section Diffing

variable {Row Key : Type} [DecidableEq Key]

/-- Diff each desired row with the live one of its key, then delete the rows
that are no longer desired.  A `Map` has the last of equal keys. -/
def diffRows (slot : String) (key : Row → Key) (text : Key → String)
    (diffRow : Option Row → Row → List VyosCommand)
    (live desired : List Row) : List VyosCommand :=
  editRows slot
    (desired.map fun row =>
      ⟨text (key row), diffRow (live.reverse.find? (key · = key row)) row⟩)
    ((live.filter (key · ∉ desired.map key)).map fun row => text (key row))

/-- The rows are what is read below the keys of a slot, each once. -/
structure Lists (slot : String) (key : Row → Key) (text : Key → String)
    (parse : Key → Cfg → Row) (cfg : Cfg) (rows : List Row) : Prop where
  distinct : (rows.map key).Nodup
  mem : ∀ row, row ∈ rows ↔
    (subtree [slot, text (key row)] cfg).map (parse (key row)) = some row

variable {slot : String} {key : Row → Key} {text : Key → String}
  {parse : Key → Cfg → Row} {cfg : Cfg} {live desired : List Row}
  {diffRow : Option Row → Row → List VyosCommand} {kinds : Kinds String}

/-- The live row of a key. -/
theorem Lists.find (lists : Lists slot key text parse cfg live)
    (keys : ∀ k raw, key (parse k raw) = k) (k : Key) :
    live.reverse.find? (key · = k) =
      (subtree [slot, text k] cfg).map (parse k) := by
  cases shown : (subtree [slot, text k] cfg).map (parse k) with
  | none =>
      rw [List.find?_eq_none]
      intro row member
      rw [decide_eq_true_eq]
      rintro rfl
      rw [(lists.mem row).mp (List.mem_reverse.mp member)] at shown
      cases shown
  | some row =>
      obtain ⟨raw, _, same⟩ := Option.map_eq_some_iff.mp shown
      have keyed : key row = k := by rw [← same, keys]
      subst keyed
      refine find?_of_distinct ?_
        (List.mem_reverse.mpr ((lists.mem row).mpr shown))
      rw [List.map_reverse, List.nodup_reverse]
      exact lists.distinct

theorem mem_keys_diffRows {rows : List Row} :
    (rows.map fun row => (⟨text (key row), diffRow
      (live.reverse.find? (key · = key row)) row⟩ : RowEdit)).map RowEdit.key =
        (rows.map key).map text := by
  rw [List.map_map, List.map_map]
  rfl

theorem dropped_diffRows {k : Key} (injective : Function.Injective text)
    (member : text k ∈ (live.filter (key · ∉ desired.map key)).map fun row =>
      text (key row)) : k ∈ live.map key ∧ k ∉ desired.map key := by
  obtain ⟨row, inside, same⟩ := List.mem_map.mp member
  obtain ⟨listed, outside⟩ := List.mem_filter.mp inside
  rw [← injective same]
  exact ⟨List.mem_map_of_mem listed, of_decide_eq_true outside⟩

/-- A row that is desired holds what its own diff makes of it. -/
theorem Lists.subtree_desired (lists : Lists slot key text parse cfg live)
    (keys : ∀ k raw, key (parse k raw) = k)
    (injective : Function.Injective text)
    (nodes : ∀ name, NodePath kinds [slot, name])
    (conforms : Conforms kinds cfg) (distinct : (desired.map key).Nodup)
    (proper : ∀ before row, ∀ command ∈ diffRow before row,
      command ≠ .delete [])
    (creates : ∀ row, (diffRow none row).any Command.isSet = true)
    {row : Row} (member : row ∈ desired) :
    subtree [slot, text (key row)]
        (executeAll kinds (diffRows slot key text diffRow live desired) cfg) =
      some (executeAll (kinds.below [slot, text (key row)])
        (diffRow ((subtree [slot, text (key row)] cfg).map
          (parse (key row))) row) (slice [slot, text (key row)] cfg)) := by
  rw [← lists.find keys]
  refine @subtree_editRows_edited kinds slot
    (desired.map fun row => ⟨text (key row), diffRow
      (live.reverse.find? (key · = key row)) row⟩) _ cfg nodes conforms ?_
    ⟨text (key row), _⟩ (List.mem_map_of_mem member) ?_ (proper _ row) ?_
  · rw [mem_keys_diffRows]
    exact distinct.map injective
  · intro inside
    exact (dropped_diffRows injective inside).2 (List.mem_map_of_mem member)
  · cases found : live.reverse.find? (key · = key row) with
    | none => exact .inr (creates row)
    | some before =>
        rw [lists.find keys] at found
        obtain ⟨raw, there, _⟩ := Option.map_eq_some_iff.mp found
        exact .inl (by rw [there]; rfl)

/-- A row that is not desired is gone. -/
theorem Lists.subtree_dropped (lists : Lists slot key text parse cfg live)
    (keys : ∀ k raw, key (parse k raw) = k)
    (injective : Function.Injective text) {k : Key}
    (outside : k ∉ desired.map key) :
    subtree [slot, text k]
        (executeAll kinds (diffRows slot key text diffRow live desired) cfg) =
      none := by
  have edited : text k ∉ (desired.map fun row => (⟨text (key row), diffRow
      (live.reverse.find? (key · = key row)) row⟩ : RowEdit)).map
        RowEdit.key := by
    rw [mem_keys_diffRows, List.mem_map_of_injective injective]
    exact outside
  cases found : subtree [slot, text k] cfg with
  | some raw =>
      refine subtree_editRows_dropped edited ?_
      have listed : parse k raw ∈ live := by
        rw [lists.mem, keys, found, Option.map_some]
      refine List.mem_map.mpr ⟨parse k raw, List.mem_filter.mpr ⟨listed, ?_⟩,
        by rw [keys]⟩
      rw [keys]
      exact decide_eq_true outside
  | none =>
      rw [diffRows, subtree_editRows_other edited, found]
      intro dropped
      obtain ⟨listed, _⟩ := dropped_diffRows injective dropped
      obtain ⟨row, member, rfl⟩ := List.mem_map.mp listed
      have shown := (lists.mem row).mp member
      rw [found] at shown
      cases shown

theorem subtree_diffRows_of_diverges {probe : Path}
    (diverges : ∀ k, Diverges [slot, text k] probe) :
    subtree probe
        (executeAll kinds (diffRows slot key text diffRow live desired) cfg) =
      subtree probe cfg := by
  refine subtree_editRows_of_diverges (fun edit member => ?_)
    fun other member => ?_
  · obtain ⟨row, _, rfl⟩ := List.mem_map.mp member
    exact diverges _
  · obtain ⟨row, _, rfl⟩ := List.mem_map.mp member
    exact diverges _

end Diffing

/-! ## Numbered rows that are saved -/

section Saved

/-- Numbered children are named by their numbers. -/
def Canonical (node : Cfg) : Prop :=
  ∀ key raw, node.child key = some raw → key = toString (ruleNumber key)

variable {Row : Type} {slot : String} {number : Row → Nat}
  {parse : Nat → Cfg → Row} {cfg : Cfg} {desired : List Row}
  {diffRow : Option Row → Row → List VyosCommand} {kinds : Kinds String}

theorem conforms_childNode (conforms : Conforms kinds cfg)
    (isNode : kinds [slot] = .node) :
    Conforms (kinds.below [slot]) (childNode cfg slot) := by
  rw [childNode_slice cfg slot conforms isNode]
  exact conforms.slice ⟨isNode, trivial⟩

theorem child_childNode (cfg : Cfg) (slot key : String) :
    (childNode cfg slot).child key = subtree [slot, key] cfg := by
  rw [← subtree_singleton, subtree_childNode]

theorem Lists.ofNumbered (numbers : ∀ num raw, number (parse num raw) = num)
    (conforms : Conforms kinds cfg) (isNode : kinds [slot] = .node)
    (canonical : Canonical (childNode cfg slot)) :
    Lists slot number toString parse cfg
      (numberedRows parse number (childNode cfg slot)) where
  distinct := nodup_numberedRows numbers (conforms_childNode conforms isNode)
    canonical
  mem row := by
    rw [mem_numberedRows numbers (conforms_childNode conforms isNode) canonical,
      child_childNode, Option.map_eq_some_iff]

/-- The children stay named by their numbers. -/
theorem Canonical.diffRows {live : List Row}
    (canonical : Canonical (childNode cfg slot)) :
    Canonical (childNode (executeAll kinds
      (diffRows slot number toString diffRow live desired) cfg) slot) := by
  intro key raw found
  by_contra odd
  rw [child_childNode, subtree_diffRows_of_diverges, ← child_childNode] at found
  · exact odd (canonical key raw found)
  · refine fun num => keys_diverge fun same => odd ?_
    rw [← same, Firewall.ruleNumber_toString]

/-- A numbered list that is saved reads as desired exactly when each row's own
diff does its row. -/
theorem numberedRows_diffRows_iff
    (numbers : ∀ num raw, number (parse num raw) = num)
    (nodes : ∀ name, NodePath kinds [slot, name])
    (conforms : Conforms kinds cfg)
    (canonical : Canonical (childNode cfg slot))
    (distinct : (desired.map number).Nodup)
    (proper : ∀ before row, ∀ command ∈ diffRow before row,
      command ≠ .delete [])
    (creates : ∀ row, (diffRow none row).any Command.isSet = true)
    {normal : Row → Row} (keeps : ∀ row, number (normal row) = number row) :
    numberedRows parse number (childNode (executeAll kinds
        (diffRows slot number toString diffRow
          (numberedRows parse number (childNode cfg slot)) desired) cfg) slot) =
        (desired.map normal).insertionSort
          (fun left right => number left ≤ number right) ↔
      ∀ row ∈ desired, parse (number row)
        (executeAll (kinds.below [slot, toString (number row)])
          (diffRow ((subtree [slot, toString (number row)] cfg).map
            (parse (number row))) row)
          (slice [slot, toString (number row)] cfg)) = normal row := by
  have isNode : kinds [slot] = .node := (nodes "").1
  have names : (desired.map normal).map number = desired.map number := by
    rw [List.map_map]
    exact List.map_congr_left fun row _ => keeps row
  have lists := Lists.ofNumbered numbers conforms isNode canonical
  have desires := fun row => @Lists.subtree_desired _ _ _ _ _ _ _ _ _ desired
    diffRow kinds lists numbers (fun _ _ => toString_injective) nodes conforms
    distinct proper creates row
  rw [numberedRows_eq_iff numbers
    (conforms_childNode conforms.executeAll isNode) canonical.diffRows
    (by rwa [names]), names, List.forall_mem_map]
  simp only [child_childNode, keeps]
  constructor
  · rintro ⟨there, _⟩ row member
    obtain ⟨raw, found, reads⟩ := there row member
    rw [desires row member, Option.some.injEq] at found
    rw [found, reads]
  · intro done
    refine ⟨fun row member => ⟨_, desires row member, done row member⟩, ?_⟩
    intro num raw found
    by_contra outside
    rw [lists.subtree_dropped numbers (fun _ _ => toString_injective)
      outside] at found
    cases found

end Saved

end QuartzFire.Editing
