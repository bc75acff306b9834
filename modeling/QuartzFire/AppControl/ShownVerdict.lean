import QuartzFire.AppControl.PolicyCompile
import QuartzFire.Firewall.Placement

/-!
# The verdict the editor shows

The editor resolves an application by the exact spelling of names and
categories, the daemon by their spelling up to case.
-/

namespace QuartzFire.AppControl

/-! ## The editor -/

/-- Group a catalog by category, in the order of the categories' names; the
unknown application is left out. -/
def groupByCategory (locale : Firewall.Locale) (catalog : Catalog) :
    List (String × List AppEntry) :=
  let shown := catalog.applications.filter fun app => app.name ≠ "Unknown"
  locale.sortBy Prod.fst ((Firewall.distinct (shown.map AppEntry.category)).map
    fun category => (category, locale.sortBy AppEntry.name
      (shown.filter fun app => app.category = category)))

/-- What every record has by way of its prototype. -/
def inheritedKeys : List String :=
  ["constructor", "hasOwnProperty", "isPrototypeOf", "propertyIsEnumerable",
    "toLocaleString", "toString", "valueOf", "__proto__", "__defineGetter__",
    "__defineSetter__", "__lookupGetter__", "__lookupSetter__"]

/-- The verdict of a rule for the names that are spelled exactly like it. -/
def exactRule (text : String) (rule : String × Verdict) : Option Verdict :=
  if rule.1 = text then some rule.2 else none

/-- `key in record`, and then what is there: no verdict, if it is inherited. -/
def inRecord (rules : List (String × Verdict)) (key : String) :
    Option (Option Verdict) :=
  match lastKnown (exactRule key) rules with
  | some verdict => some (some verdict)
  | none => if key ∈ inheritedKeys then some none else none

/-- App, then category, then default; nothing if what is found is no verdict. -/
def effectiveVerdict (action : ActionSpec) (app : AppEntry) : Option Verdict :=
  match inRecord action.applications app.name with
  | some found => found
  | none =>
      match inRecord action.categories app.category with
      | some found => found
      | none => some action.defaultAction

theorem mem_groupByCategory {locale : Firewall.Locale} {catalog : Catalog}
    {app : AppEntry} :
    (∃ group ∈ groupByCategory locale catalog, app ∈ group.2) ↔
      app ∈ catalog.applications ∧ app.name ≠ "Unknown" := by
  simp only [groupByCategory, Firewall.Locale.sortBy, List.mem_insertionSort,
    List.mem_map, Firewall.mem_distinct, exists_exists_and_eq_and,
    List.mem_filter, decide_eq_true_eq]
  constructor
  · rintro ⟨_, _, shown, _⟩
    exact shown
  · intro shown
    exact ⟨app, shown, shown, rfl⟩

/-! ## When both agree -/

namespace Catalog

/-- The application is the last one of its name up to case. -/
def LastOfName (catalog : Catalog) (app : AppEntry) : Prop :=
  ((catalog.applications.filter fun other =>
    other.name.toLower == app.name.toLower).map AppEntry.id).getLast? =
      some app.id

instance (catalog : Catalog) (app : AppEntry) :
    Decidable (catalog.LastOfName app) :=
  inferInstanceAs (Decidable (_ = _))

variable {catalog : Catalog}

theorem eq_of_id (distinct : (catalog.applications.map AppEntry.id).Nodup)
    {app other : AppEntry} (member : app ∈ catalog.applications)
    (among : other ∈ catalog.applications) (same : other.id = app.id) :
    other = app :=
  List.inj_on_of_nodup_map distinct among member same

theorem appIndex_eq_getLast? (name : String) :
    catalog.appIndex name = ((catalog.applications.filter fun other =>
      other.name.toLower == name).map AppEntry.id).getLast? := by
  rw [appIndex, ← List.head?_filter, List.filter_reverse, List.head?_reverse,
    List.getLast?_map]

theorem appIndex_iff (distinct : (catalog.applications.map AppEntry.id).Nodup)
    {app : AppEntry} (member : app ∈ catalog.applications) {name : String} :
    catalog.appIndex name = some app.id ↔
      name = app.name.toLower ∧ catalog.LastOfName app := by
  constructor
  · intro leads
    obtain ⟨other, among, named, same⟩ := appIndex_eq_some leads
    obtain rfl := eq_of_id distinct member among same
    rw [← named, appIndex_eq_getLast?] at leads
    exact ⟨named.symm, leads⟩
  · rintro ⟨rfl, last⟩
    rw [appIndex_eq_getLast?]
    exact last

/-- Rules reach an application by its name up to case, if it is the last one of
that name. -/
theorem appRule_eq (distinct : (catalog.applications.map AppEntry.id).Nodup)
    {app : AppEntry} (member : app ∈ catalog.applications)
    (rule : String × Verdict) :
    catalog.appRule app.id rule =
      if catalog.LastOfName app then ruleFor app.name rule else none := by
  rw [appRule, ruleFor]
  simp only [appIndex_iff distinct member]
  by_cases last : catalog.LastOfName app
  · simp only [last, and_true, if_true]
  · simp only [last, and_false, if_false]

theorem categoryRule_eq
    (distinct : (catalog.applications.map AppEntry.id).Nodup) {app : AppEntry}
    (member : app ∈ catalog.applications) (rule : String × Verdict) :
    catalog.categoryRule app.id rule = ruleFor app.category rule := by
  unfold categoryRule ruleFor
  congr 1
  apply propext
  rw [mem_categoryIndex]
  constructor
  · rintro ⟨other, among, named, same⟩
    rw [← eq_of_id distinct member among same]
    exact named.symm
  · intro named
    exact ⟨app, member, named.symm, rfl⟩

end Catalog

/-- The verdict in the rules of the exact spelling. -/
def ActionSpec.exact (spec : ActionSpec) (app : AppEntry) : Option Verdict :=
  (lastKnown (exactRule app.name) spec.applications).or
    (lastKnown (exactRule app.category) spec.categories)

/-- The verdict in the rules of the spelling up to case. -/
def ActionSpec.folded (spec : ActionSpec) (catalog : Catalog) (app : AppEntry) :
    Option Verdict :=
  (if catalog.LastOfName app then
      lastKnown (ruleFor app.name) spec.applications
    else none).or (lastKnown (ruleFor app.category) spec.categories)

/-- Neither name nor category is found in a record without a rule of its own. -/
def ActionSpec.Plain (spec : ActionSpec) (app : AppEntry) : Prop :=
  lastKnown (exactRule app.name) spec.applications = none →
    app.name ∉ inheritedKeys ∧
      (lastKnown (exactRule app.category) spec.categories = none →
        app.category ∉ inheritedKeys)

theorem effectiveVerdict_eq_some_iff {spec : ActionSpec} {app : AppEntry}
    {verdict : Verdict} :
    effectiveVerdict spec app = some verdict ↔
      spec.Plain app ∧ (spec.exact app).getD spec.defaultAction = verdict := by
  rw [effectiveVerdict, inRecord, inRecord, ActionSpec.exact, ActionSpec.Plain]
  cases lastKnown (exactRule app.name) spec.applications with
  | some own => simp
  | none =>
      by_cases name : app.name ∈ inheritedKeys
      · simp [name]
      · cases lastKnown (exactRule app.category) spec.categories with
        | some own => simp [name]
        | none =>
            by_cases category : app.category ∈ inheritedKeys
            · simp [name, category]
            · simp [name, category]

theorem verdict_folded {catalog : Catalog}
    (distinct : (catalog.applications.map AppEntry.id).Nodup) (index : Nat)
    (entry : String × ActionSpec) {app : AppEntry}
    (member : app ∈ catalog.applications) (known : app.id ≠ 0) :
    (Policy.compileAction catalog index entry).verdict app.id =
      (entry.2.folded catalog app).getD entry.2.defaultAction := by
  have unreached : lastKnown (fun _ => none) entry.2.applications =
      (none : Option Verdict) := by
    rw [lastKnown_eq_getLast?, List.filterMap_eq_nil_iff.mpr fun _ _ => rfl]
    rfl
  rw [Policy.verdict_compileAction catalog index entry known, ActionSpec.folded,
    lastKnown_congr _ fun rule _ => Catalog.appRule_eq distinct member rule,
    lastKnown_congr _ fun rule _ =>
      Catalog.categoryRule_eq distinct member rule]
  by_cases last : catalog.LastOfName app
  · simp only [last, if_true]
  · simp only [last, if_false, unreached]

def chatCatalog : Catalog := ⟨[⟨244, "ChatGPT", "AI"⟩]⟩

end QuartzFire.AppControl
