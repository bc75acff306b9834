import QuartzFire.ContentFiltering.Consistency

/-!
# Runs of commits and resyncs

A settled box gives Squid the filter of its configuration.  It stays settled
and its services stay consistent in exactly the runs in which nobody turns SSL
inspection off under Content Filtering, and no view fails while it is needed.
-/

namespace QuartzFire.ContentFiltering

open SslInspection (Part squidFragment standaloneApply)

variable {config : ConfigTree String} {box after : Box} {conf : ConfigRead}

/-! ## The filter in the fragment -/

theorem inspectionOn_absent
    (absent : config.subtree SslInspection.base = none) :
    inspectionOn config = false := by
  rw [Bool.eq_false_iff]
  intro on
  have there := ConfigRead.existsAt_of_append SslInspection.base ["enable"] on
  simp [ConfigRead.ofTree, absent] at there

theorem mem_fragment (loaded : Loaded config box)
    {filter : SslInspection.ContentFilter} :
    (∃ parts ∈ box.fragment, .icap filter ∈ parts) ↔
      inspectionOn config = true ∧ ∃ desired ∈ box.inspection,
        desired.model.contentFilter = some filter := by
  cases saved : box.inspection with
  | none => simp [(loaded.unconfigured saved).2]
  | some desired =>
      obtain ⟨⟨_, model⟩, fragment⟩ := loaded.snapshot desired saved
      have enabled : desired.model.enabled = inspectionOn config := by
        rw [model, ← enabled_readService]
        rfl
      simp [fragment, SslInspection.icap_mem_squidFragment, enabled]

theorem filtered_of_block (loaded : Loaded config box)
    (attached : Attached config box) {filter : SslInspection.ContentFilter}
    (present : ∃ parts ∈ box.fragment, .icap filter ∈ parts) :
    filtered config = true ∧ filter.icapPort = filterPort config := by
  obtain ⟨on, desired, saved, found⟩ := (mem_fragment loaded).mp present
  rw [attached desired saved on] at found
  refine ⟨?_, port_readContentFilter found⟩
  rw [filtered, on, readContentFilter_eq_some.mp ⟨filter, found⟩]
  rfl

theorem block_of_filtered (loaded : Loaded config box)
    (attached : Attached config box) (wanted : filtered config = true) :
    ∃ parts ∈ box.fragment, ∃ filter, .icap filter ∈ parts := by
  obtain ⟨on, chosen⟩ := Bool.and_eq_true_iff.mp wanted
  obtain ⟨filter, found⟩ := readContentFilter_eq_some.mpr chosen
  cases saved : box.inspection with
  | none =>
      rw [inspectionOn_absent (loaded.unconfigured saved).1] at on
      cases on
  | some desired =>
      have kept := attached desired saved on
      obtain ⟨parts, there, listed⟩ := (mem_fragment loaded).mpr
        ⟨on, desired, saved, kept.trans found⟩
      exact ⟨parts, there, filter, listed⟩

/-- A settled box is consistent but for the dependency. -/
theorem Settled.consistent (settled : Settled box)
    (dependency : filteringOn box.config = true →
      inspectionOn box.config = true) : Consistent box where
  dependency := dependency
  block := by
    constructor
    · rintro ⟨parts, there, filter, listed⟩
      exact (filtered_of_block settled.loaded settled.attached
        ⟨parts, there, listed⟩).1
    · exact block_of_filtered settled.loaded settled.attached
  port parts there filter listed :=
    (filtered_of_block settled.loaded settled.attached
      ⟨parts, there, listed⟩).2

theorem settled_fresh (fresh : Fresh box) : Settled box := by
  obtain ⟨⟨absent, _⟩, unsaved, _, unwritten⟩ := fresh
  refine ⟨⟨fun _ => ⟨absent, unwritten⟩, ?_⟩, ?_⟩
  · intro desired saved
    rw [unsaved] at saved
    cases saved
  · intro desired saved
    rw [unsaved] at saved
    cases saved

theorem consistent_fresh (fresh : Fresh box) : Consistent box := by
  refine (settled_fresh fresh).consistent fun on => ?_
  have there := ConfigRead.existsAt_of_append base ["enable"] on
  simp [ConfigRead.ofTree, fresh.1.2] at there

/-! ## Resyncs -/

theorem config_reconcileSquid :
    (box.reconcileSquid conf).config = box.config := by
  unfold Box.reconcileSquid
  split <;> rfl

/-- A view that fails takes the filter out. -/
theorem unattached_of_unavailable (loaded : Loaded config box) :
    ¬ ∃ parts ∈ (box.reconcileSquid .unavailable).fragment, ∃ filter,
      .icap filter ∈ parts := by
  rintro ⟨parts, there, filter, listed⟩
  obtain ⟨_, desired, saved, found⟩ :=
    (mem_fragment loaded.reconcileSquid).mp ⟨parts, there, listed⟩
  rw [contentFilter_reconcileSquid saved] at found
  cases found

/-- A reconciliation with the active configuration, where it can be read or
need not be. -/
theorem reconcileSquid_iff (settled : Settled box)
    (dependency : filteringOn box.config = true →
      inspectionOn box.config = true) (readable : Bool) :
    (Consistent (box.reconcileSquid (box.activeView readable)) ↔
      readable = true ∨ filtered box.config = false) ∧
    (Consistent (box.reconcileSquid (box.activeView readable)) →
      Settled (box.reconcileSquid (box.activeView readable))) := by
  have config := @config_reconcileSquid box (box.activeView readable)
  have loaded : Loaded (box.reconcileSquid (box.activeView readable)).config
      (box.reconcileSquid (box.activeView readable)) := by
    rw [config]
    exact settled.loaded.reconcileSquid
  cases readable with
  | true =>
      have kept : Settled (box.reconcileSquid (box.activeView true)) := by
        refine ⟨loaded, ?_⟩
        rw [config]
        exact attached_reconcileSquid
      exact ⟨iff_of_true (kept.consistent (by rwa [config])) (.inl rfl),
        fun _ => kept⟩
  | false =>
      have dropped := unattached_of_unavailable settled.loaded
      have unneeded : Consistent (box.reconcileSquid (box.activeView false)) →
          filtered box.config = false := by
        intro consistent
        rw [Bool.eq_false_iff]
        intro wanted
        rw [← config] at wanted
        exact dropped (consistent.block.mpr wanted)
      have kept : filtered box.config = false →
          Settled (box.reconcileSquid (box.activeView false)) := by
        intro unwanted
        refine ⟨loaded, ?_⟩
        rw [config]
        intro desired saved on
        rw [contentFilter_reconcileSquid saved]
        cases found : SslInspection.readContentFilter (.ofTree box.config) with
        | none => rfl
        | some filter =>
            have chosen := readContentFilter_eq_some.mp ⟨filter, found⟩
            rw [filtered, on, chosen] at unwanted
            cases unwanted
      refine ⟨⟨fun consistent => .inr (unneeded consistent), ?_⟩,
        fun consistent => kept (unneeded consistent)⟩
      rintro (readable | unwanted)
      · cases readable
      · exact (kept unwanted).consistent (by rwa [config])

/-! ## Runs -/

theorem consistent_commit_iff {proposed : ConfigTree String}
    {inspectionRuns filteringRuns : Bool} {squid : Squid}
    (settled : Settled box) (consistent : Consistent box)
    (triggered : Triggered box
      (.commit proposed inspectionRuns filteringRuns squid))
    (stepped : box.next (.commit proposed inspectionRuns filteringRuns squid) =
      some after) :
    (Consistent after ↔ KeepsDependency box
      (.commit proposed inspectionRuns filteringRuns squid)) ∧
      Settled after := by
  obtain ⟨kept, rfl, validated⟩ := settled_commit settled triggered stepped
  refine ⟨⟨?_, ?_⟩, kept⟩
  · intro still same on _
    exact still.dependency ((filteringOn_congr same).trans on)
  · intro keeps
    refine kept.consistent fun on => ?_
    by_cases same : after.config.subtree base = box.config.subtree base
    · have before : filteringOn box.config = true :=
        (filteringOn_congr same).symm.trans on
      exact keeps same before (consistent.dependency before)
    · exact validated (triggered.2.mpr same) on

theorem consistent_next_iff {event : Event} (settled : Settled box)
    (consistent : Consistent box) (triggered : Triggered box event)
    (stepped : box.next event = some after) :
    (Consistent after ↔ KeepsDependency box event) ∧
      (Consistent after → Settled after) := by
  cases event with
  | commit proposed inspectionRuns filteringRuns squid =>
      obtain ⟨same, kept⟩ :=
        consistent_commit_iff settled consistent triggered stepped
      exact ⟨same, fun _ => kept⟩
  | inspectionResync readable =>
      cases stepped
      exact reconcileSquid_iff settled consistent.dependency readable
  | filteringResync readable =>
      unfold Box.next at stepped
      cases saved : box.filtering with
      | none =>
          simp only [saved, Option.some.injEq] at stepped
          subst stepped
          exact ⟨iff_of_true consistent (.inr (.inl saved)), fun _ => settled⟩
      | some model =>
          simp only [saved, Option.some.injEq] at stepped
          subst stepped
          have resaved : Settled { box with
              filtering := some (if model.enabled then model else {}) } :=
            ⟨⟨settled.loaded.unconfigured, settled.loaded.snapshot⟩,
              settled.attached⟩
          have result := reconcileSquid_iff resaved consistent.dependency
            readable
          refine ⟨result.1.trans ?_, result.2⟩
          simp [KeepsDependency, saved]

/-- Whatever the event leads to is consistent. -/
def ConsistentAfter (box : Box) (event : Event) : Prop :=
  ∀ after ∈ box.next event, Consistent after

theorem consistentAlong_iff_of_settled {last : Box} {events : List Event}
    (settled : Settled box) (consistent : Consistent box)
    (replay : system.run box events = some last)
    (triggered : system.AdmittedAlong Triggered box events) :
    system.AdmittedAlong ConsistentAfter box events ↔
      system.AdmittedAlong KeepsDependency box events := by
  induction events generalizing box with
  | nil => exact Iff.rfl
  | cons event events ih =>
      obtain ⟨after, stepped, rest⟩ := Option.bind_eq_some_iff.mp replay
      obtain ⟨here, later⟩ := triggered
      obtain ⟨same, kept⟩ := consistent_next_iff settled consistent here stepped
      have reaches : ∀ admitted : Box → Event → Prop,
          system.AdmittedAlong admitted box (event :: events) ↔
            admitted box event ∧ system.AdmittedAlong admitted after events := by
        intro admitted
        refine and_congr_right fun _ => ?_
        rw [stepped]
        simp
      have now : ConsistentAfter box event ↔ Consistent after := by
        rw [ConsistentAfter, show box.next event = some after from stepped]
        simp
      rw [reaches, reaches, now, ← same]
      exact and_congr_right fun still =>
        ih (kept still) still rest (later after stepped)

/-- In a run of successful commits and of resyncs the services are consistent
after every step if and only if every step keeps the dependency. -/
theorem consistentAlong_iff {start last : Box} {events : List Event}
    (fresh : Fresh start) (replay : system.run start events = some last)
    (triggered : system.AdmittedAlong Triggered start events) :
    system.AdmittedAlong ConsistentAfter start events ↔
      system.AdmittedAlong KeepsDependency start events :=
  consistentAlong_iff_of_settled (settled_fresh fresh) (consistent_fresh fresh)
    replay triggered

section Examples

/-- One enabled policy, and Content Filtering on top of it. -/
def servicesWith (inspection : List (String × ConfigTree String)) :
    ConfigTree String :=
  .node [
    ("service", .node [
      ("quartzfire", .node [("ssl-inspection", .node (inspection ++
        [("policy", .node [("20", .node [])])]))]),
      ("content-filtering", .node [
        ("enable", .node []), ("listen-port", .value "1345")])]),
    ("firewall", .node [("ipv4", .node [("forward", .node [("filter", .node
      [("rule", .node [("20", .node [("protocol", .value "tcp")])])])])])])]

def bothOn : ConfigTree String :=
  servicesWith [("enable", .node [])]

def freshBox : Box :=
  ⟨.node [], none, none, none⟩

theorem freshBox_fresh : Fresh freshBox :=
  ⟨⟨rfl, rfl⟩, rfl, rfl, rfl⟩

def enableBoth : Event :=
  .commit bothOn true true ⟨none, none⟩

def resyncTrace : List Event :=
  [enableBoth, .filteringResync true, .inspectionResync true]

theorem enableBoth_triggered : Triggered freshBox enableBoth :=
  ⟨iff_of_true rfl (by rintro ⟨⟩), iff_of_true rfl (by rintro ⟨⟩)⟩

theorem resyncTrace_consistent :
    system.AdmittedAlong ConsistentAfter freshBox resyncTrace := by
  have replayed : (system.run freshBox resyncTrace).isSome = true := by
    decide +kernel
  obtain ⟨last, replay⟩ := Option.isSome_iff_exists.mp replayed
  refine (consistentAlong_iff freshBox_fresh replay
    ⟨enableBoth_triggered, fun _ _ =>
      ⟨trivial, fun _ _ => ⟨trivial, fun _ _ => trivial⟩⟩⟩).mpr ?_
  refine ⟨fun _ on => ?_, fun _ _ => ⟨.inl rfl, fun _ _ =>
    ⟨.inl rfl, fun _ _ => trivial⟩⟩⟩
  exact absurd on (by decide)

/-- SSL inspection is turned off, and Content Filtering is not asked. -/
def turnOffTrace : List Event :=
  [enableBoth, .commit (servicesWith []) true false ⟨none, none⟩]

theorem filtering_without_inspection :
    system.AdmittedAlong Triggered freshBox turnOffTrace ∧
      ∃ last, system.run freshBox turnOffTrace = some last ∧
        filteringOn last.config = true ∧ inspectionOn last.config = false ∧
        ¬ system.AdmittedAlong ConsistentAfter freshBox turnOffTrace := by
  have replayed : (system.run freshBox turnOffTrace).map
      (fun box => (filteringOn box.config, inspectionOn box.config)) =
        some (true, false) := by decide +kernel
  obtain ⟨last, replay, observed⟩ := Option.map_eq_some_iff.mp replayed
  obtain ⟨on, off⟩ := Prod.mk.inj observed
  obtain ⟨middle, first, rest⟩ := Option.bind_eq_some_iff.mp replay
  obtain ⟨final, second, done⟩ := Option.bind_eq_some_iff.mp rest
  cases done
  have enabled : middle.config = bothOn := by
    obtain ⟨_, _, _, _, rfl⟩ := next_commit first
    rfl
  refine ⟨⟨enableBoth_triggered, fun after stepped => ?_⟩, last, replay, on,
    off, fun along => ?_⟩
  · have same : after = middle :=
      Option.some.inj ((Option.mem_def.mp stepped).symm.trans first)
    refine ⟨⟨iff_of_true rfl ?_, iff_of_false Bool.false_ne_true ?_⟩,
      fun _ _ => trivial⟩
    · rw [same, enabled]
      intro equal
      have names := congrArg
        (Option.map fun tree => tree.entries.map Prod.fst) equal
      exact absurd names (by decide)
    · rw [same, enabled]
      exact fun changed => changed rfl
  · have consistent := (along.2 middle first).1 last second
    rw [consistent.dependency on] at off
    cases off

end Examples

end QuartzFire.ContentFiltering
