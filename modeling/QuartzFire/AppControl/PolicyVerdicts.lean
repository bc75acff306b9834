import Mathlib.Data.List.Dedup
import QuartzFire.Foundation.LastKnown
import QuartzFire.AppControl.Policy

/-!
# What a policy file compiles to

Compilation looks names up in the catalog and writes verdicts into a table by
application id.  The declared verdict of an application is that of the last rule
of its own name, else of its category's, else the default.
-/

namespace QuartzFire.AppControl

/-! ## Verdict tables -/

/-- The verdict of a rule for the names that are spelled like it. -/
def ruleFor (text : String) (rule : String × Verdict) : Option Verdict :=
  if rule.1.toLower = text.toLower then some rule.2 else none

/-- Application before category before default. -/
def ActionSpec.declared (spec : ActionSpec) (app : AppEntry) : Verdict :=
  ((lastKnown (ruleFor app.name) spec.applications).or
    (lastKnown (ruleFor app.category) spec.categories)).getD spec.defaultAction

namespace Catalog

variable (catalog : Catalog)

/-- What a rule of an application has for an id. -/
def appRule (appId : Nat) (rule : String × Verdict) : Option Verdict :=
  if catalog.appIndex rule.1.toLower = some appId then some rule.2 else none

/-- What a rule of a category has for an id. -/
def categoryRule (appId : Nat) (rule : String × Verdict) : Option Verdict :=
  if appId ∈ (catalog.categoryIndex rule.1.toLower).getD [] then some rule.2
  else none

/-- Names and ids lead to each other: the index finds every application by its
name, and entries of one id are of one name and category. -/
structure Unambiguous : Prop where
  found : ∀ app ∈ catalog.applications, app.id ≠ 0 →
    catalog.appIndex app.name.toLower = some app.id
  single : ∀ app ∈ catalog.applications, ∀ other ∈ catalog.applications,
    app.id ≠ 0 → other.id = app.id → other.name.toLower = app.name.toLower ∧
      other.category.toLower = app.category.toLower

variable {catalog}

theorem lt_tableLen {app : AppEntry} (member : app ∈ catalog.applications) :
    app.id < catalog.tableLen := by
  have bound : ∀ (lengths : List Nat) (start : Nat),
      start ≤ lengths.foldl max start ∧
        ∀ length ∈ lengths, length ≤ lengths.foldl max start := by
    intro lengths
    induction lengths with
    | nil => exact fun start => ⟨le_refl start, by simp⟩
    | cons length lengths ih =>
        intro start
        obtain ⟨more, all⟩ := ih (max start length)
        rw [List.foldl_cons]
        refine ⟨(le_max_left _ _).trans more, ?_⟩
        intro other among
        rcases List.mem_cons.mp among with rfl | later
        · exact (le_max_right _ _).trans more
        · exact all other later
  exact (bound _ 0).2 _ (List.mem_map_of_mem member)

theorem appIndex_eq_some {name : String} {appId : Nat}
    (found : catalog.appIndex name = some appId) :
    ∃ app ∈ catalog.applications, app.name.toLower = name ∧ app.id = appId := by
  obtain ⟨app, first, rfl⟩ := Option.map_eq_some_iff.mp found
  have named := List.find?_some first
  rw [beq_iff_eq] at named
  exact ⟨app, List.mem_reverse.mp (List.mem_of_find?_eq_some first), named, rfl⟩

theorem mem_categoryIndex {name : String} {appId : Nat} :
    appId ∈ (catalog.categoryIndex name).getD [] ↔
      ∃ app ∈ catalog.applications, app.category.toLower = name ∧
        app.id = appId := by
  unfold categoryIndex
  dsimp only
  constructor
  · intro member
    split at member
    · cases member
    · obtain ⟨app, among, rfl⟩ := List.mem_map.mp member
      obtain ⟨inside, named⟩ := List.mem_filter.mp among
      exact ⟨app, inside, eq_of_beq named, rfl⟩
  · rintro ⟨app, inside, named, rfl⟩
    have among : app ∈ catalog.applications.filter fun app =>
        app.category.toLower == name :=
      List.mem_filter.mpr ⟨inside, beq_iff_eq.mpr named⟩
    rw [if_neg]
    · exact List.mem_map_of_mem among
    · rw [List.isEmpty_iff]
      exact List.ne_nil_of_mem among

end Catalog

namespace Policy

section Tables

variable (catalog : Catalog)

def categoryWrites (rule : String × Verdict) : List (Nat × Verdict) :=
  ((catalog.categoryIndex rule.1.toLower).getD []).map fun appId =>
    (appId, rule.2)

def applicationWrites (rule : String × Verdict) : List (Nat × Verdict) :=
  (catalog.appIndex rule.1.toLower).toList.map fun appId => (appId, rule.2)

/-- All writes into the table of an action, in their order. -/
def tableWrites (spec : ActionSpec) : List (Nat × Verdict) :=
  spec.categories.flatMap (categoryWrites catalog) ++
    spec.applications.flatMap (applicationWrites catalog)

theorem verdicts_puts (verdict : Verdict) (ids : List Nat) (tables : Tables) :
    (ids.foldl (fun tables appId => tables.put verdict appId) tables).verdicts =
      (ids.map fun appId => (appId, verdict)).foldl
        (fun values write => values.set write.1 write.2) tables.verdicts := by
  induction ids generalizing tables with
  | nil => rfl
  | cons appId ids ih =>
      rw [List.foldl_cons, ih]
      rfl

theorem verdicts_foldl {step : Tables → String × Verdict → Tables}
    {writes : String × Verdict → List (Nat × Verdict)}
    (puts : ∀ tables rule, (step tables rule).verdicts =
      (writes rule).foldl (fun values write => values.set write.1 write.2)
        tables.verdicts)
    (rules : List (String × Verdict)) (tables : Tables) :
    (rules.foldl step tables).verdicts =
      (rules.flatMap writes).foldl
        (fun values write => values.set write.1 write.2) tables.verdicts := by
  induction rules generalizing tables with
  | nil => rfl
  | cons rule rules ih =>
      rw [List.foldl_cons, ih, List.flatMap_cons, List.foldl_append, puts]

theorem actionTables_verdicts (name : String) (spec : ActionSpec) :
    (actionTables catalog name spec).verdicts =
      ((tableWrites catalog spec).foldl
        (fun values write => values.set write.1 write.2)
        (List.replicate catalog.tableLen spec.defaultAction)).set 0
          spec.defaultAction := by
  unfold actionTables tableWrites
  dsimp only
  rw [List.foldl_append, @verdicts_foldl _ (applicationWrites catalog) ?apps,
    @verdicts_foldl _ (categoryWrites catalog) ?categories]
  case apps =>
    intro tables rule
    unfold applicationWrites
    cases catalog.appIndex rule.1.toLower with
    | none => rfl
    | some appId => rfl
  case categories =>
    intro tables rule
    unfold categoryWrites
    cases catalog.categoryIndex rule.1.toLower with
    | none => rfl
    | some ids => exact verdicts_puts rule.2 ids tables

theorem lastKnown_categoryWrites (appId : Nat) (rule : String × Verdict) :
    lastKnown (writtenAt appId) (categoryWrites catalog rule) =
      catalog.categoryRule appId rule := by
  unfold categoryWrites Catalog.categoryRule
  generalize (catalog.categoryIndex rule.1.toLower).getD [] = ids
  induction ids using List.reverseRecOn with
  | nil => rfl
  | append_singleton ids id ih =>
      rw [List.map_append, List.map_singleton, lastKnown_concat, ih, writtenAt]
      by_cases same : id = appId
      · simp [same]
      · simp [same, Ne.symm same]

theorem lastKnown_applicationWrites (appId : Nat) (rule : String × Verdict) :
    lastKnown (writtenAt appId) (applicationWrites catalog rule) =
      catalog.appRule appId rule := by
  unfold applicationWrites Catalog.appRule
  cases catalog.appIndex rule.1.toLower with
  | none => rfl
  | some id =>
      by_cases same : id = appId
      · simp [lastKnown, writtenAt, same]
      · simp [lastKnown, writtenAt, same]

/-- The rule that decides for an id is the last one of an application that leads
there, else the last one of a category. -/
theorem lastKnown_tableWrites (spec : ActionSpec) (appId : Nat) :
    lastKnown (writtenAt appId) (tableWrites catalog spec) =
      (lastKnown (catalog.appRule appId) spec.applications).or
        (lastKnown (catalog.categoryRule appId) spec.categories) := by
  rw [tableWrites, lastKnown_append, lastKnown_flatMap, lastKnown_flatMap,
    lastKnown_congr _ fun rule _ => lastKnown_applicationWrites catalog appId rule,
    lastKnown_congr _ fun rule _ => lastKnown_categoryWrites catalog appId rule]

/-- A rule leads only to ids of the catalog. -/
theorem listed_of_lastKnown {spec : ActionSpec} {appId : Nat}
    {verdict : Verdict}
    (known : lastKnown (writtenAt appId) (tableWrites catalog spec) =
      some verdict) :
    ∃ app ∈ catalog.applications, app.id = appId := by
  rw [lastKnown_tableWrites, Option.or_eq_some_iff] at known
  rcases known with known | ⟨_, known⟩
  · obtain ⟨rule, _, leads⟩ := lastKnown_eq_some _ known
    obtain ⟨found, _⟩ := Option.ite_none_right_eq_some.mp leads
    obtain ⟨app, member, _, same⟩ := Catalog.appIndex_eq_some found
    exact ⟨app, member, same⟩
  · obtain ⟨rule, _, leads⟩ := lastKnown_eq_some _ known
    obtain ⟨found, _⟩ := Option.ite_none_right_eq_some.mp leads
    obtain ⟨app, member, _, same⟩ := Catalog.mem_categoryIndex.mp found
    exact ⟨app, member, same⟩

theorem verdict_compileAction (index : Nat) (entry : String × ActionSpec)
    {appId : Nat} (known : appId ≠ 0) :
    (compileAction catalog index entry).verdict appId =
      ((lastKnown (catalog.appRule appId) entry.2.applications).or
        (lastKnown (catalog.categoryRule appId) entry.2.categories)).getD
          entry.2.defaultAction := by
  have table : (compileAction catalog index entry).verdicts =
      (actionTables catalog entry.1 entry.2).verdicts := rfl
  rw [CompiledAction.verdict, table, actionTables_verdicts,
    List.getElem?_set_ne (Ne.symm known), getElem?_foldl_set,
    ← lastKnown_tableWrites, List.getElem?_replicate]
  split
  · rfl
  · rename_i outside
    cases found : lastKnown (writtenAt appId) (tableWrites catalog entry.2) with
    | none => rfl
    | some verdict =>
        obtain ⟨app, member, same⟩ := listed_of_lastKnown catalog found
        exact absurd (same ▸ Catalog.lt_tableLen member) outside

/-- The unknown application and ids the catalog does not list. -/
theorem verdict_unlisted (index : Nat) (entry : String × ActionSpec)
    {appId : Nat}
    (unlisted : appId = 0 ∨ ∀ app ∈ catalog.applications, app.id ≠ appId) :
    (compileAction catalog index entry).verdict appId =
      entry.2.defaultAction := by
  by_cases zero : appId = 0
  · have table : (compileAction catalog index entry).verdicts =
        (actionTables catalog entry.1 entry.2).verdicts := rfl
    rw [CompiledAction.verdict, table, actionTables_verdicts, zero,
      List.getElem?_set]
    split
    · split <;> rfl
    · contradiction
  · have absent := unlisted.resolve_left zero
    rw [verdict_compileAction catalog index entry zero,
      ← lastKnown_tableWrites]
    cases found : lastKnown (writtenAt appId) (tableWrites catalog entry.2) with
    | none => rfl
    | some verdict =>
        obtain ⟨app, member, same⟩ := listed_of_lastKnown catalog found
        exact absurd same (absent app member)

/-- With an unambiguous catalog the table agrees with the declaration. -/
theorem verdict_declared {catalog : Catalog}
    (unambiguous : catalog.Unambiguous) (index : Nat)
    (entry : String × ActionSpec) {app : AppEntry}
    (member : app ∈ catalog.applications) (known : app.id ≠ 0) :
    (compileAction catalog index entry).verdict app.id =
      entry.2.declared app := by
  have apps : ∀ rule : String × Verdict,
      catalog.appRule app.id rule = ruleFor app.name rule := by
    intro rule
    unfold Catalog.appRule ruleFor
    congr 1
    apply propext
    constructor
    · intro leads
      obtain ⟨other, among, named, same⟩ := Catalog.appIndex_eq_some leads
      exact named.symm.trans
        (unambiguous.single app member other among known same).1
    · intro named
      rw [named]
      exact unambiguous.found app member known
  have categories : ∀ rule : String × Verdict,
      catalog.categoryRule app.id rule = ruleFor app.category rule := by
    intro rule
    unfold Catalog.categoryRule ruleFor
    congr 1
    apply propext
    rw [Catalog.mem_categoryIndex]
    constructor
    · rintro ⟨other, among, named, same⟩
      exact named.symm.trans
        (unambiguous.single app member other among known same).2
    · intro named
      exact ⟨app, member, named.symm, rfl⟩
  rw [verdict_compileAction catalog index entry known, ActionSpec.declared,
    lastKnown_congr _ fun rule _ => apps rule,
    lastKnown_congr _ fun rule _ => categories rule]

end Tables

end Policy

end QuartzFire.AppControl
