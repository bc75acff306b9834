import Mathlib.Algebra.Ring.Int.Defs
import QuartzFire.Foundation.Tally
import QuartzFire.Foundation.TransitionSystem
import Mathlib.Algebra.Order.Group.Int
import Mathlib.Algebra.Order.Monoid.Prod

/-!
# Usage buckets

Byte deltas are added up per device in buckets of five minutes, and those of
classified flows also per application in buckets of an hour.  Aged buckets and
the buckets of forgotten devices are pruned from both tables.
-/

namespace QuartzFire.Devices

open TransitionSystem

/-! ## The database -/

def bucketSecs : Int := 300

def appBucketSecs : Int := 3600

def bucketOf (ts : Int) : Int := ts - ts % bucketSecs

def appBucketOf (ts : Int) : Int := ts - ts % appBucketSecs

/-- Bytes in and bytes out. -/
abbrev Bytes := Int × Int

/-- Primary key of `usage_buckets`. -/
structure UsageKey where
  mac : String
  bucketTs : Int
  deriving DecidableEq

/-- Primary key of `app_usage_buckets`. -/
structure AppUsageKey where
  mac : String
  bucketTs : Int
  appId : Nat
  deriving DecidableEq

/-- The tables accounting is about; of a device when it was last seen. -/
structure Db where
  devices : List (String × Int)
  usage : Tally UsageKey Bytes
  appUsage : Tally AppUsageKey Bytes

/-- `u64 as i64` -/
def asI64 (number : Nat) : Int := Int.bmod number (2 ^ 64)

/-- `add_usage`, and whether its statement succeeds. -/
def Db.addUsage (db : Db) (mac : String) (bucketTs : Int)
    (bytesIn bytesOut : Nat) (succeeds : Bool) : Db :=
  if bytesIn = 0 ∧ bytesOut = 0 ∨ succeeds = false then db
  else { db with
    usage := db.usage.post ⟨mac, bucketTs⟩ (asI64 bytesIn, asI64 bytesOut) }

/-- `add_app_usage` -/
def Db.addAppUsage (db : Db) (mac : String) (bucketTs : Int) (appId : Nat)
    (bytesIn bytesOut : Nat) (succeeds : Bool) : Db :=
  if bytesIn = 0 ∧ bytesOut = 0 ∨ succeeds = false then db
  else { db with
    appUsage := db.appUsage.post ⟨mac, bucketTs, appId⟩
      (asI64 bytesIn, asI64 bytesOut) }

/-! ## Marks -/

/-- Where the fields of a conntrack mark are that accounting reads. -/
structure MarkLayout where
  classifiedBit : Nat
  appShift : Nat
  appBits : Nat
  deriving DecidableEq

def MarkLayout.default : MarkLayout where
  classifiedBit := 31
  appShift := 19
  appBits := 11

def MarkLayout.fieldMask (bits : Nat) : BitVec 32 :=
  if 32 ≤ bits then BitVec.allOnes 32 else (1#32 <<< bits) - 1#32

/-- The application a flow's mark names, if the flow is classified. -/
def MarkLayout.appId (layout : MarkLayout) (mark : BitVec 32) : Option Nat :=
  if mark &&& (1#32 <<< layout.classifiedBit) = 0#32 then none
  else some ((mark >>> layout.appShift &&&
    MarkLayout.fieldMask layout.appBits).toNat % 2 ^ 16)

/-! ## Writing and pruning -/

/-- A byte delta of a device. -/
structure Delta where
  mac : String
  bytesIn : Nat
  bytesOut : Nat
  mark : BitVec 32
  deriving DecidableEq

/-- Which of the two statements of a delta succeed; a failure is logged. -/
structure Written where
  usage : Bool
  app : Bool
  deriving DecidableEq

def Db.commitDelta (layout : MarkLayout) (bucket : Int) (db : Db)
    (entry : Delta × Written) : Db :=
  let (d, written) := entry
  let db := db.addUsage d.mac bucket d.bytesIn d.bytesOut written.usage
  match layout.appId d.mark with
  | none => db
  | some appId =>
      db.addAppUsage d.mac (appBucketOf bucket) appId d.bytesIn d.bytesOut
        written.app

/-- `commit_deltas` -/
def Db.commitDeltas (layout : MarkLayout) (bucket : Int)
    (deltas : List (Delta × Written)) (db : Db) : Db :=
  deltas.foldl (Db.commitDelta layout bucket) db

/-- `prune`, of whose statements `done` succeed before one fails. -/
def Db.prune (db : Db) (now usageDays deviceDays : Int) (done : Nat) : Db :=
  let usageCutoff := now - usageDays * 86400
  let devCutoff := now - deviceDays * 86400
  let devices := db.devices.filter fun device => devCutoff ≤ device.2
  let known := fun mac => devices.any fun device => device.1 = mac
  let usage := db.usage.keep fun key => usageCutoff ≤ key.bucketTs
  let appUsage := db.appUsage.keep fun key => usageCutoff ≤ key.bucketTs
  match done with
  | 0 => db
  | 1 => { db with usage := usage }
  | past + 2 =>
      if deviceDays ≤ 0 then { db with usage := usage, appUsage := appUsage }
      else
        match past with
        | 0 => { db with usage := usage, appUsage := appUsage }
        | 1 => ⟨devices, usage, appUsage⟩
        | 2 => ⟨devices, usage.keep fun key => known key.mac, appUsage⟩
        | _ + 3 => ⟨devices, usage.keep fun key => known key.mac,
            appUsage.keep fun key => known key.mac⟩

inductive DbAction where
  /-- A collector or the WebUI writes the devices. -/
  | sight (devices : List (String × Int))
  | commitDeltas (now : Int) (deltas : List (Delta × Written))
  | prune (now usageDays deviceDays : Int) (done : Nat)
  deriving DecidableEq

def usageDb (layout : MarkLayout) : TransitionSystem Db DbAction where
  Initial db := db.usage = [] ∧ db.appUsage = []
  next db
    | .sight devices => some { db with devices := devices }
    | .commitDeltas now deltas =>
        some (db.commitDeltas layout (bucketOf now) deltas)
    | .prune now usageDays deviceDays done =>
        some (db.prune now usageDays deviceDays done)

/-! ## The breakdown -/

/-- The bytes of a device from a bucket on. -/
def Db.bytesSince (db : Db) (mac : String) (window : Int) : Bytes :=
  db.usage.total fun key => key.mac = mac && window ≤ key.bucketTs

/-- The bytes of a device its applications account for. -/
def Db.appBytesSince (db : Db) (mac : String) (window : Int) : Bytes :=
  db.appUsage.total fun key => key.mac = mac && window ≤ key.bucketTs

/-- Over no window do the applications of a device exceed its total, in either
direction. -/
def Breakdown (db : Db) : Prop :=
  ∀ mac window, db.appBytesSince mac window ≤ db.bytesSince mac window

/-- The bytes of a batch by device. -/
def batchBytes (deltas : List (Delta × Written)) : Tally String Bytes :=
  deltas.map fun entry => (entry.1.mac, (entry.1.bytesIn, entry.1.bytesOut))

theorem batchBytes_nonneg (deltas : List (Delta × Written)) :
    ∀ row ∈ batchBytes deltas, 0 ≤ row.2 := by
  intro row member
  obtain ⟨entry, _, rfl⟩ := List.mem_map.mp member
  exact ⟨Int.natCast_nonneg _, Int.natCast_nonneg _⟩

/-- Where a delta counts for an application it counts for its device, pruning
does not stop between the two tables, and the bytes of a device stay within the
signed 64-bit integers of the database. -/
def Booked (layout : MarkLayout) (db : Db) : DbAction → Prop
  | .sight _ => True
  | .commitDeltas _ deltas =>
      (∀ entry ∈ deltas, layout.appId entry.1.mark ≠ none →
        entry.2.app = true → entry.2.usage = true) ∧
      ∀ mac ∈ deltas.map (·.1.mac),
        db.usage.total (fun key => key.mac = mac) +
          (batchBytes deltas).total (· = mac) ≤ (2 ^ 63 - 1, 2 ^ 63 - 1)
  | .prune _ _ deviceDays done =>
      done ≠ 1 ∧ (0 < deviceDays → done ≠ 4)

theorem asI64_of_lt {number : Nat} (small : number < 2 ^ 63) :
    asI64 number = number := by
  refine Int.bmod_eq_of_le ?_ ?_
  · omega
  · omega

theorem appBucketOf_le (ts : Int) : appBucketOf ts ≤ ts := by
  have positive : 0 ≤ ts % appBucketSecs :=
    Int.emod_nonneg ts (by simp [appBucketSecs])
  rw [appBucketOf]
  omega

/-- What a statement adds to its row. -/
def posted (bytesIn bytesOut : Nat) (succeeds : Bool) : Bytes :=
  if succeeds then (asI64 bytesIn, asI64 bytesOut) else 0

theorem posted_nonneg {bytesIn bytesOut : Nat} (received : bytesIn < 2 ^ 63)
    (sent : bytesOut < 2 ^ 63) (succeeds : Bool) :
    0 ≤ posted bytesIn bytesOut succeeds := by
  rw [posted, asI64_of_lt received, asI64_of_lt sent]
  split
  · exact ⟨Int.natCast_nonneg _, Int.natCast_nonneg _⟩
  · exact le_refl _

/-- Nothing is skipped but amounts of zero and failed statements. -/
theorem posted_skipped {bytesIn bytesOut : Nat} {succeeds : Bool}
    (skipped : bytesIn = 0 ∧ bytesOut = 0 ∨ succeeds = false) :
    posted bytesIn bytesOut succeeds = 0 := by
  rcases skipped with ⟨rfl, rfl⟩ | rfl
  · cases succeeds <;> rfl
  · rfl

section Adding

variable (db : Db) (mac : String) (bucketTs : Int) (appId : Nat)
  (bytesIn bytesOut : Nat) (succeeds : Bool)

theorem bytesSince_addUsage (other : String) (window : Int) :
    (db.addUsage mac bucketTs bytesIn bytesOut succeeds).bytesSince other
        window =
      db.bytesSince other window + if mac = other ∧ window ≤ bucketTs then
        posted bytesIn bytesOut succeeds else 0 := by
  rw [Db.addUsage]
  split
  · rw [posted_skipped ‹_›, ite_self, add_zero]
  · rename_i taken
    obtain ⟨_, rfl⟩ : _ ∧ succeeds = true := by simpa using taken
    rw [Db.bytesSince, Tally.total_post]
    simp [Db.bytesSince, posted]

theorem appBytesSince_addAppUsage (other : String) (window : Int) :
    (db.addAppUsage mac bucketTs appId bytesIn bytesOut
        succeeds).appBytesSince other window =
      db.appBytesSince other window + if mac = other ∧ window ≤ bucketTs then
        posted bytesIn bytesOut succeeds else 0 := by
  rw [Db.addAppUsage]
  split
  · rw [posted_skipped ‹_›, ite_self, add_zero]
  · rename_i taken
    obtain ⟨_, rfl⟩ : _ ∧ succeeds = true := by simpa using taken
    rw [Db.appBytesSince, Tally.total_post]
    simp [Db.appBytesSince, posted]

@[simp] theorem appUsage_addUsage :
    (db.addUsage mac bucketTs bytesIn bytesOut succeeds).appUsage =
      db.appUsage := by
  rw [Db.addUsage]
  split <;> rfl

@[simp] theorem usage_addAppUsage :
    (db.addAppUsage mac bucketTs appId bytesIn bytesOut succeeds).usage =
      db.usage := by
  rw [Db.addAppUsage]
  split <;> rfl

theorem positive_addUsage (positive : ∀ row ∈ db.usage, 0 ≤ row.2)
    (received : bytesIn < 2 ^ 63) (sent : bytesOut < 2 ^ 63) :
    ∀ row ∈ (db.addUsage mac bucketTs bytesIn bytesOut succeeds).usage,
      0 ≤ row.2 := by
  rw [Db.addUsage]
  split
  · exact positive
  · exact Tally.nonneg_post positive (posted_nonneg received sent true)

end Adding

/-- What both tables keep to. -/
structure Kept (db : Db) : Prop where
  breakdown : Breakdown db
  positive : ∀ row ∈ db.usage, 0 ≤ row.2

namespace Kept

variable {db : Db} (kept : Kept db)
include kept

/-- An hour starts no later than the five minutes in it, so a delta that counts
for an application over a window counts for its device. -/
theorem commitDelta {layout : MarkLayout} {entry : Delta × Written}
    (bucket : Int) (received : entry.1.bytesIn < 2 ^ 63)
    (sent : entry.1.bytesOut < 2 ^ 63)
    (booked : layout.appId entry.1.mark ≠ none → entry.2.app = true →
      entry.2.usage = true) :
    Kept (db.commitDelta layout bucket entry) := by
  obtain ⟨d, written⟩ := entry
  have positive := positive_addUsage db d.mac bucket d.bytesIn d.bytesOut
    written.usage kept.positive received sent
  cases classified : layout.appId d.mark with
  | none =>
      simp only [Db.commitDelta, classified]
      refine ⟨fun mac window => ?_, positive⟩
      rw [bytesSince_addUsage, Db.appBytesSince, appUsage_addUsage]
      have grows : 0 ≤ if d.mac = mac ∧ window ≤ bucket then
          posted d.bytesIn d.bytesOut written.usage else 0 := by
        split
        · exact posted_nonneg received sent _
        · exact le_refl _
      exact (kept.breakdown mac window).trans (le_add_of_nonneg_right grows)
  | some appId =>
      simp only [Db.commitDelta, classified]
      refine ⟨fun mac window => ?_, by simpa using positive⟩
      rw [appBytesSince_addAppUsage, Db.bytesSince, usage_addAppUsage,
        ← Db.bytesSince, bytesSince_addUsage, Db.appBytesSince,
        appUsage_addUsage, ← Db.appBytesSince]
      refine add_le_add (kept.breakdown mac window) ?_
      have covered : posted d.bytesIn d.bytesOut written.app ≤
          posted d.bytesIn d.bytesOut written.usage := by
        cases app : written.app with
        | false => exact posted_nonneg received sent _
        | true =>
            rw [booked (by simp [classified]) app]
      split_ifs with counts late
      · exact covered
      · exact absurd ⟨counts.1, counts.2.trans (appBucketOf_le bucket)⟩ late
      · exact posted_nonneg received sent _
      · exact le_refl _

theorem commitDeltas {layout : MarkLayout} (bucket : Int)
    {deltas : List (Delta × Written)}
    (small : ∀ entry ∈ deltas,
      entry.1.bytesIn < 2 ^ 63 ∧ entry.1.bytesOut < 2 ^ 63)
    (booked : ∀ entry ∈ deltas, layout.appId entry.1.mark ≠ none →
      entry.2.app = true → entry.2.usage = true) :
    Kept (db.commitDeltas layout bucket deltas) := by
  induction deltas generalizing db with
  | nil => exact kept
  | cons entry rest ih =>
      obtain ⟨received, sent⟩ := small entry (by simp)
      have first := kept.commitDelta bucket received sent
        (booked entry (by simp))
      exact ih first (fun other member => small other (by simp [member]))
        (fun other member => booked other (by simp [member]))

/-- A cutoff moves the window, the same in both tables. -/
theorem keepSince (devices : List (String × Int)) (cutoff : Int) :
    Kept ⟨devices, db.usage.keep fun key => cutoff ≤ key.bucketTs,
      db.appUsage.keep fun key => cutoff ≤ key.bucketTs⟩ where
  breakdown mac window := by
    have before := kept.breakdown mac (max cutoff window)
    rw [Db.appBytesSince, Db.bytesSince] at before
    rw [Db.appBytesSince, Db.bytesSince, Tally.total_keep, Tally.total_keep]
    simpa [Bool.and_left_comm] using before
  positive row member := kept.positive row (List.mem_of_mem_filter member)

/-- A device goes with its buckets of both tables. -/
theorem keepKnown (devices : List (String × Int)) :
    Kept ⟨devices,
      db.usage.keep fun key => devices.any fun device => device.1 = key.mac,
      db.appUsage.keep fun key =>
        devices.any fun device => device.1 = key.mac⟩ where
  breakdown mac window := by
    have within : ∀ holder ts,
        ((devices.any fun device => decide (device.1 = holder)) &&
          (decide (holder = mac) && decide (window ≤ ts))) =
        ((devices.any fun device => decide (device.1 = mac)) &&
          (decide (holder = mac) && decide (window ≤ ts))) := by
      intro holder ts
      by_cases same : holder = mac
      · rw [same]
      · simp [same]
    rw [Db.appBytesSince, Db.bytesSince, Tally.total_keep, Tally.total_keep]
    simp only [within]
    cases devices.any fun device => decide (device.1 = mac) with
    | true => exact kept.breakdown mac window
    | false => simp
  positive row member := kept.positive row (List.mem_of_mem_filter member)

theorem withDevices (devices : List (String × Int)) :
    Kept { db with devices := devices } :=
  ⟨kept.breakdown, kept.positive⟩

/-- Pruning that does not stop between the two tables. -/
theorem prune (now usageDays deviceDays : Int) {done : Nat}
    (first : done ≠ 1) (second : 0 < deviceDays → done ≠ 4) :
    Kept (db.prune now usageDays deviceDays done) := by
  unfold Db.prune
  dsimp only
  split
  · exact kept
  · exact absurd rfl first
  · rename_i past
    split_ifs with forever
    · exact kept.keepSince _ _
    · split
      · exact kept.keepSince _ _
      · exact kept.keepSince _ _
      · exact absurd rfl (second (not_le.mp forever))
      · exact (kept.keepSince db.devices _).keepKnown _

/-- A step that books both tables keeps the breakdown. -/
theorem next {layout : MarkLayout} {action : DbAction} {after : Db}
    (booked : Booked layout db action)
    (stepped : (usageDb layout).next db action = some after) : Kept after := by
  cases action with
  | sight devices =>
      cases stepped
      exact kept.withDevices devices
  | commitDeltas now deltas =>
      cases stepped
      refine kept.commitDeltas _ (fun entry member => ?_) booked.1
      have room := booked.2 entry.1.mac
        (List.mem_map.mpr ⟨entry, member, rfl⟩)
      have stored : 0 ≤ db.usage.total fun key => key.mac = entry.1.mac :=
        Tally.total_nonneg kept.positive
      have inBatch : ((entry.1.bytesIn : Int), (entry.1.bytesOut : Int)) ≤
          (batchBytes deltas).total (· = entry.1.mac) :=
        Tally.le_total (batchBytes_nonneg deltas)
          (List.mem_map.mpr ⟨entry, member, rfl⟩) (by simp)
      have bounds := (le_add_of_nonneg_of_le stored inBatch).trans room
      obtain ⟨received, sent⟩ := bounds
      constructor
      · have received : (entry.1.bytesIn : Int) ≤ 2 ^ 63 - 1 := received
        omega
      · have sent : (entry.1.bytesOut : Int) ≤ 2 ^ 63 - 1 := sent
        omega
  | prune now usageDays deviceDays done =>
      cases stepped
      exact kept.prune now usageDays deviceDays booked.1 booked.2

end Kept

/-- In every run that books both tables the applications of a device never
exceed its total. -/
theorem breakdown_of_booked {layout : MarkLayout} {db : Db}
    (reached : (usageDb layout).ReachableUnder (Booked layout) db) :
    Breakdown db := by
  have kept : Kept db := by
    refine reached.invariant ?_ fun _ _ _ kept booked stepped =>
      kept.next booked stepped
    intro db empty
    obtain ⟨usage, appUsage⟩ : db.usage = [] ∧ db.appUsage = [] := empty
    constructor
    · intro mac window
      simp [Db.appBytesSince, Db.bytesSince, usage, appUsage]
    · simp [usage]
  exact kept.breakdown

/-! ## A statement that fails -/

instance (layout : MarkLayout) (db : Db) :
    (action : DbAction) → Decidable (Booked layout db action)
  | .sight _ => .isTrue trivial
  | .commitDeltas _ _ => inferInstanceAs (Decidable (_ ∧ _))
  | .prune _ _ _ _ => inferInstanceAs (Decidable (_ ∧ _))

def emptyDb : Db := ⟨[], [], []⟩

theorem emptyDb_initial : (usageDb .default).Initial emptyDb := ⟨rfl, rfl⟩

/-- A kilobyte of a flow classified as application 7. -/
def classifiedDelta : Delta where
  mac := "aa:bb"
  bytesIn := 1000
  bytesOut := 24
  mark := 0x80380000#32

/-- Both statements succeed, and later a cutoff falls into the hour. -/
def bookedActions : List DbAction :=
  [.commitDeltas 4000 [(classifiedDelta, ⟨true, true⟩)],
    .prune 90300 1 0 5]

def bookedDb : Option Db :=
  (usageDb .default).run emptyDb bookedActions

theorem bookedDb_taken : bookedDb.isSome = true := by decide +kernel

theorem bookedDb_breakdown : Breakdown (bookedDb.get bookedDb_taken) := by
  have reached : (usageDb .default).ReachableUnder (Booked .default)
      (bookedDb.get bookedDb_taken) :=
    .run (.initial emptyDb_initial) bookedActions (by decide +kernel)
      (Option.some_get _).symm
  exact breakdown_of_booked reached

/-- The row of the device cannot be written, that of the application can. -/
def unbookedDb : Option Db :=
  (usageDb .default).run emptyDb
    [.commitDeltas 4000 [(classifiedDelta, ⟨false, true⟩)]]

theorem unbookedDb_taken : unbookedDb.isSome = true := by decide +kernel

theorem failed_total_exceeded :
    ∃ db, (usageDb .default).Reachable db ∧ ¬ Breakdown db := by
  refine ⟨unbookedDb.get unbookedDb_taken, ?_, fun kept => ?_⟩
  · exact reachable_of_run emptyDb_initial _ (Option.some_get _).symm
  · have exceeded : ¬ (unbookedDb.get unbookedDb_taken).appBytesSince "aa:bb" 0 ≤
        (unbookedDb.get unbookedDb_taken).bytesSince "aa:bb" 0 := by
      decide +kernel
    exact exceeded (kept "aa:bb" 0)

end QuartzFire.Devices
