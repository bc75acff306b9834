import QuartzFire.ContentFiltering.Model
import QuartzFire.Foundation.TransitionSystem
import QuartzFire.Inspection.Resync

/-!
# Two services of one Squid

Content Filtering needs SSL inspection, and its owner checks that when Content
Filtering changes.  Nobody checks it when SSL inspection is turned off.  The
Squid fragment follows whichever service changes, by the view of the session
inside a commit and by the active configuration outside.
-/

namespace QuartzFire.ContentFiltering

open SslInspection (Part squidFragment standaloneApply)

/-! ## The box -/

structure Box where
  /-- The committed configuration. -/
  config : ConfigTree String
  /-- What SSL inspection saved. -/
  inspection : Option SslInspection.Desired
  /-- What Content Filtering saved. -/
  filtering : Option Model
  /-- The fragment in Squid's configuration. -/
  fragment : Option (List Part)

/-- What the installed Squid can do, if it was asked. -/
structure Squid where
  bump : Option Bool
  icap : Option Bool

inductive Event where
  /-- A commit, and which of the two owners it runs. -/
  | commit (proposed : ConfigTree String) (inspectionRuns filteringRuns : Bool)
      (squid : Squid)
  /-- `qzssl-apply` outside a commit, with a view or without. -/
  | inspectionResync (readable : Bool)
  /-- `qfcf-apply` outside a commit. -/
  | filteringResync (readable : Bool)

namespace Box

/-- `qzssl-apply`; without a snapshot there is nothing to do. -/
def reconcileSquid (box : Box) (conf : ConfigRead) : Box :=
  match box.inspection with
  | none => box
  | some desired =>
      let after := standaloneApply desired conf
      { box with
        inspection := some after
        fragment := some (squidFragment after.model) }

def inspectionOwner (box : Box) (conf : ConfigRead) (squid : Squid) :
    Option Box :=
  (SslInspection.commit conf squid.bump squid.icap).map fun desired =>
    { box with
      inspection := some desired
      fragment := some (squidFragment desired.model) }

/-- `apply_model`, which saves the default where the service is off. -/
def applyModel (box : Box) (model : Model) (conf : ConfigRead) : Box :=
  reconcileSquid
    { box with filtering := some (if model.enabled then model else {}) } conf

def filteringOwner (box : Box) (conf : ConfigRead) : Option Box :=
  let model := readService conf
  if validate model = [] then some (box.applyModel model conf) else none

def activeView (box : Box) (readable : Bool) : ConfigRead :=
  if readable then .ofTree box.config else .unavailable

/-- The owner of SSL inspection has the higher priority. -/
def next (box : Box) : Event → Option Box
  | .commit proposed inspectionRuns filteringRuns squid =>
      (if inspectionRuns then box.inspectionOwner (.ofTree proposed) squid
        else some box).bind fun box =>
      (if filteringRuns then box.filteringOwner (.ofTree proposed)
        else some box).map fun box => { box with config := proposed }
  | .inspectionResync readable =>
      some (box.reconcileSquid (box.activeView readable))
  | .filteringResync readable =>
      match box.filtering with
      | none => some box
      | some model => some (box.applyModel model (box.activeView readable))

end Box

/-- Neither service was ever configured. -/
def Fresh (box : Box) : Prop :=
  (box.config.subtree SslInspection.base = none ∧
    box.config.subtree base = none) ∧
  box.inspection = none ∧ box.filtering = none ∧ box.fragment = none

def system : TransitionSystem Box Event where
  Initial := Fresh
  next := Box.next

/-- An owner is run exactly when its subtree changes. -/
def Triggered (box : Box) : Event → Prop
  | .commit proposed inspectionRuns filteringRuns _ =>
      (inspectionRuns = true ↔ proposed.subtree SslInspection.base ≠
        box.config.subtree SslInspection.base) ∧
      (filteringRuns = true ↔
        proposed.subtree base ≠ box.config.subtree base)
  | _ => True

/-! ## Consistency -/

def inspectionOn (config : ConfigTree String) : Bool :=
  (ConfigRead.ofTree config).existsAt sslEnable

def filteringOn (config : ConfigTree String) : Bool :=
  (ConfigRead.ofTree config).existsAt (base ++ ["enable"])

def explicitFilter (config : ConfigTree String) : Bool :=
  (ConfigRead.ofTree config).existsAt
    (SslInspection.base ++ ["content-filter"])

/-- Squid is to have a filter. -/
def filtered (config : ConfigTree String) : Bool :=
  inspectionOn config && (explicitFilter config || filteringOn config)

/-- The port of the service that filters. -/
def filterPort (config : ConfigTree String) : Nat :=
  let conf := ConfigRead.ofTree config
  if explicitFilter config then
    SslInspection.readPort conf
      (SslInspection.base ++ ["content-filter", "icap-port"]) 1344
  else (readService conf).listenPort

/-- Squid is given a filter exactly where there is one to be given. -/
structure Consistent (box : Box) : Prop where
  dependency : filteringOn box.config = true → inspectionOn box.config = true
  block : (∃ parts ∈ box.fragment, ∃ filter, .icap filter ∈ parts) ↔
    filtered box.config = true
  port : ∀ parts ∈ box.fragment, ∀ filter, .icap filter ∈ parts →
    filter.icapPort = filterPort box.config

/-- A commit that leaves Content Filtering enabled as it was does not turn SSL
inspection off; and a view fails only while Squid is to have no filter. -/
def KeepsDependency (box : Box) : Event → Prop
  | .commit proposed _ _ _ =>
      proposed.subtree base = box.config.subtree base →
        filteringOn box.config = true → inspectionOn box.config = true →
          inspectionOn proposed = true
  | .inspectionResync readable =>
      readable = true ∨ filtered box.config = false
  | .filteringResync readable =>
      readable = true ∨ box.filtering = none ∨ filtered box.config = false

/-! ## What is read of a configuration -/

section Reading

variable {config proposed : ConfigTree String}

theorem enabled_readService :
    (SslInspection.readService (.ofTree config)).enabled =
      inspectionOn config := by
  unfold SslInspection.readService
  cases present : (ConfigRead.ofTree config).existsAt SslInspection.base with
  | true => rfl
  | false =>
      rw [Bool.not_false, if_pos rfl]
      symm
      rw [Bool.eq_false_iff]
      intro on
      have there := ConfigRead.existsAt_of_append SslInspection.base ["enable"] on
      rw [present] at there
      cases there

theorem enabled_of_filteringOn (on : filteringOn config = true) :
    (readService (.ofTree config)).enabled = true := by
  have present := ConfigRead.existsAt_of_append base ["enable"] on
  rw [readService, present]
  exact on

theorem sslInspectionEnabled_readService :
    (readService (.ofTree config)).sslInspectionEnabled =
      inspectionOn config := by
  unfold readService
  split <;> rfl

theorem readContentFilter_eq_some :
    (∃ filter, SslInspection.readContentFilter (.ofTree config) = some filter) ↔
      (explicitFilter config || filteringOn config) = true := by
  unfold SslInspection.readContentFilter
  split
  · rename_i explicit
    have chosen : explicitFilter config = true := explicit
    simp [chosen]
  · rename_i implicit
    have unset : explicitFilter config = false := Bool.eq_false_iff.mpr implicit
    rw [unset, Bool.false_or]
    split
    · rename_i on
      exact ⟨fun _ => on, fun _ => ⟨_, rfl⟩⟩
    · rename_i off
      exact ⟨fun found => absurd found.choose_spec (by simp),
        fun on => absurd on off⟩

theorem port_readContentFilter {filter : SslInspection.ContentFilter}
    (found : SslInspection.readContentFilter (.ofTree config) = some filter) :
    filter.icapPort = filterPort config := by
  unfold SslInspection.readContentFilter at found
  split at found
  · rename_i explicit
    have chosen : explicitFilter config = true := explicit
    cases found
    rw [filterPort, chosen]
    rfl
  · rename_i implicit
    have unset : explicitFilter config = false := Bool.eq_false_iff.mpr implicit
    have own : filterPort config = (readService (.ofTree config)).listenPort := by
      rw [filterPort, unset]
      rfl
    split at found
    · rename_i on
      have present := ConfigRead.existsAt_of_append base ["enable"] on
      cases found
      rw [own, readService, present]
      rfl
    · cases found

theorem readContentFilter_congr
    (inspection : proposed.subtree SslInspection.base =
      config.subtree SslInspection.base)
    (filtering : proposed.subtree base = config.subtree base) :
    SslInspection.readContentFilter (.ofTree proposed) =
      SslInspection.readContentFilter (.ofTree config) := by
  have first := ConfigRead.agreeBelow_ofTree inspection
  have second := ConfigRead.agreeBelow_ofTree filtering
  have known : SslInspection.filteringBase = base := rfl
  simp only [SslInspection.readContentFilter, SslInspection.readPort, known,
    first.existsAt, first.returnValue, second.existsAt, second.returnValue]

theorem inspectionOn_congr
    (same : proposed.subtree SslInspection.base =
      config.subtree SslInspection.base) :
    inspectionOn proposed = inspectionOn config :=
  (ConfigRead.agreeBelow_ofTree same).existsAt ["enable"]

theorem filteringOn_congr
    (same : proposed.subtree base = config.subtree base) :
    filteringOn proposed = filteringOn config :=
  (ConfigRead.agreeBelow_ofTree same).existsAt ["enable"]

end Reading

/-! ## What is kept of a configuration -/

/-- The snapshot is of the configuration but for the content filter, and the
fragment of the snapshot. -/
structure Loaded (config : ConfigTree String) (box : Box) : Prop where
  unconfigured : box.inspection = none →
    config.subtree SslInspection.base = none ∧ box.fragment = none
  snapshot : ∀ desired ∈ box.inspection,
    (∃ filter, desired.model =
      (SslInspection.readService (.ofTree config)).attach filter) ∧
      box.fragment = some (squidFragment desired.model)

/-- Where it matters the content filter is of the configuration, too. -/
def Attached (config : ConfigTree String) (box : Box) : Prop :=
  ∀ desired ∈ box.inspection, inspectionOn config = true →
    desired.model.contentFilter =
      SslInspection.readContentFilter (.ofTree config)

structure Settled (box : Box) : Prop where
  loaded : Loaded box.config box
  attached : Attached box.config box

section Keeping

variable {config proposed : ConfigTree String} {box after : Box}
  {conf : ConfigRead}

theorem Loaded.reconcileSquid (loaded : Loaded config box) :
    Loaded config (box.reconcileSquid conf) := by
  unfold Box.reconcileSquid
  cases saved : box.inspection with
  | none => exact loaded
  | some desired =>
      obtain ⟨⟨filter, model⟩, _⟩ := loaded.snapshot desired saved
      refine ⟨by simp, ?_⟩
      rintro desired ⟨⟩
      refine ⟨⟨SslInspection.readContentFilter conf, ?_⟩, rfl⟩
      rw [standaloneApply, model]
      rfl

theorem contentFilter_reconcileSquid {desired : SslInspection.Desired}
    (saved : desired ∈ (box.reconcileSquid conf).inspection) :
    desired.model.contentFilter = SslInspection.readContentFilter conf := by
  unfold Box.reconcileSquid at saved
  split at saved
  · rename_i unsaved
    rw [unsaved] at saved
    cases saved
  · cases saved
    rfl

theorem attached_reconcileSquid :
    Attached config (box.reconcileSquid (.ofTree config)) :=
  fun _ saved _ => contentFilter_reconcileSquid saved

theorem Loaded.congr (loaded : Loaded config box)
    (same : proposed.subtree SslInspection.base =
      config.subtree SslInspection.base) : Loaded proposed box := by
  have agree : SslInspection.SameService (.ofTree config) (.ofTree proposed) :=
    ConfigRead.agreeBelow_ofTree same.symm
  refine ⟨fun unsaved => ?_, fun desired saved => ?_⟩
  · rw [same]
    exact loaded.unconfigured unsaved
  · obtain ⟨⟨filter, model⟩, fragment⟩ := loaded.snapshot desired saved
    exact ⟨⟨filter, model.trans (SslInspection.attach_readService agree filter)⟩,
      fragment⟩

theorem Attached.congr (attached : Attached config box)
    (inspection : proposed.subtree SslInspection.base =
      config.subtree SslInspection.base)
    (filtering : proposed.subtree base = config.subtree base) :
    Attached proposed box := by
  intro desired saved on
  rw [readContentFilter_congr inspection filtering]
  exact attached desired saved (inspectionOn_congr inspection ▸ on)

theorem loaded_inspectionOwner {squid : Squid}
    (owned : box.inspectionOwner (.ofTree config) squid = some after) :
    Loaded config after ∧ Attached config after := by
  obtain ⟨desired, committed, rfl⟩ := Option.map_eq_some_iff.mp owned
  obtain ⟨_, same⟩ := Option.ite_none_right_eq_some.mp committed
  cases same
  refine ⟨⟨by simp, ?_⟩, ?_⟩
  · rintro desired ⟨⟩
    exact ⟨⟨_, rfl⟩, rfl⟩
  · rintro desired ⟨⟩ on
    exact SslInspection.contentFilter_readService
      (ConfigRead.existsAt_of_append SslInspection.base ["enable"] on)

theorem Loaded.applyModel (loaded : Loaded config box) (model : Model) :
    Loaded config (box.applyModel model conf) :=
  Loaded.reconcileSquid ⟨loaded.unconfigured, loaded.snapshot⟩

/-- A valid Content Filtering has the dependency. -/
theorem filteringOwner_valid
    (owned : box.filteringOwner (.ofTree config) = some after) :
    after = box.applyModel (readService (.ofTree config)) (.ofTree config) ∧
      (filteringOn config = true → inspectionOn config = true) := by
  obtain ⟨valid, same⟩ := Option.ite_none_right_eq_some.mp owned
  refine ⟨(Option.some.inj same).symm, fun on => ?_⟩
  rw [← sslInspectionEnabled_readService]
  exact sslInspectionEnabled_of_valid valid (enabled_of_filteringOn on)

end Keeping

/-! ## Steps -/

section Steps

variable {box after : Box}

theorem next_commit {proposed : ConfigTree String}
    {inspectionRuns filteringRuns : Bool} {squid : Squid}
    (stepped : box.next (.commit proposed inspectionRuns filteringRuns squid) =
      some after) :
    ∃ middle last,
      (if inspectionRuns then box.inspectionOwner (.ofTree proposed) squid
        else some box) = some middle ∧
      (if filteringRuns then middle.filteringOwner (.ofTree proposed)
        else some middle) = some last ∧
      after = { last with config := proposed } := by
  obtain ⟨middle, first, rest⟩ := Option.bind_eq_some_iff.mp stepped
  obtain ⟨last, second, same⟩ := Option.map_eq_some_iff.mp rest
  exact ⟨middle, last, first, second, same.symm⟩

/-- Whichever owners a commit runs, the snapshot and the fragment are of the
new configuration. -/
theorem settled_commit {proposed : ConfigTree String}
    {inspectionRuns filteringRuns : Bool} {squid : Squid}
    (settled : Settled box)
    (triggered : Triggered box
      (.commit proposed inspectionRuns filteringRuns squid))
    (stepped : box.next (.commit proposed inspectionRuns filteringRuns squid) =
      some after) :
    Settled after ∧ after.config = proposed ∧
      (filteringRuns = true →
        filteringOn proposed = true → inspectionOn proposed = true) := by
  obtain ⟨middle, last, first, second, rfl⟩ := next_commit stepped
  obtain ⟨inspection, filtering⟩ := triggered
  have loaded : Loaded proposed middle ∧
      (filteringRuns = false → Attached proposed middle) := by
    cases inspectionRuns with
    | true =>
        obtain ⟨loaded, attached⟩ := loaded_inspectionOwner first
        exact ⟨loaded, fun _ => attached⟩
    | false =>
        cases first
        have same : proposed.subtree SslInspection.base =
            box.config.subtree SslInspection.base := by
          simpa using inspection
        refine ⟨settled.loaded.congr same, fun unrun => ?_⟩
        have kept : proposed.subtree base = box.config.subtree base := by
          simpa [unrun] using filtering
        exact settled.attached.congr same kept
  cases filteringRuns with
  | true =>
      obtain ⟨rfl, dependency⟩ := filteringOwner_valid second
      have applied : Loaded proposed (middle.applyModel
          (readService (.ofTree proposed)) (.ofTree proposed)) :=
        loaded.1.applyModel _
      exact ⟨⟨⟨applied.unconfigured, applied.snapshot⟩,
        attached_reconcileSquid⟩, rfl, fun _ => dependency⟩
  | false =>
      cases second
      exact ⟨⟨⟨loaded.1.unconfigured, loaded.1.snapshot⟩, loaded.2 rfl⟩, rfl,
        fun run => by cases run⟩

end Steps

end QuartzFire.ContentFiltering
