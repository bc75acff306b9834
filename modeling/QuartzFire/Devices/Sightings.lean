import Mathlib.Data.List.Induction
import Mathlib.Logic.Function.Basic
import QuartzFire.Foundation.LastKnown

/-!
# Sightings of devices

The collectors report sightings of a device, and a sighting is merged into the
row of the device: what it has no value for is left as it was.  Of interface
and VLAN the sightings that carry an IPv4 address decide.
-/

namespace QuartzFire.Devices

/-- `Sighting` -/
structure Sighting where
  mac : String
  seenAt : Int
  currentIp : Option String := none
  currentIpv6 : Option String := none
  hostname : Option String := none
  vendor : Option String := none
  clientType : Option String := none
  osGuess : Option String := none
  interface : Option String := none
  vlan : Option String := none
  dhcpStatic : Option Bool := none
  leaseExpiry : Option Int := none
  neighState : Option String := none
  /-- Without a value the online flag stays. -/
  online : Option Bool := none

/-- A row of the table `devices`. -/
structure DeviceRow where
  description : Option String
  firstSeen : Int
  lastSeen : Int
  hostname : Option String
  vendor : Option String
  clientType : Option String
  osGuess : Option String
  currentIp : Option String
  currentIpv6 : Option String
  interface : Option String
  vlan : Option String
  dhcpStatic : Option Int
  leaseExpiry : Option Int
  neighState : Option String
  online : Int

/-- The table `devices` by its primary key, the MAC address. -/
abbrev DeviceTable := String → Option DeviceRow

/-! ## Merging a sighting -/

/-- `INSERT INTO devices … VALUES …` -/
def DeviceRow.ofSighting (s : Sighting) : DeviceRow where
  description := none
  firstSeen := s.seenAt
  lastSeen := s.seenAt
  hostname := s.hostname
  vendor := s.vendor
  clientType := s.clientType
  osGuess := s.osGuess
  currentIp := s.currentIp
  currentIpv6 := s.currentIpv6
  interface := s.interface
  vlan := s.vlan
  dhcpStatic := s.dhcpStatic.map Bool.toInt
  leaseExpiry := s.leaseExpiry
  neighState := s.neighState
  online := (s.online.map Bool.toInt).getD 0

/-- The `CASE` of the columns `interface` and `vlan`. -/
def DeviceRow.located (row : DeviceRow) (s : Sighting)
    {Value : Type} (excluded held : Value) : Value :=
  if s.interface.isNone then held
  else if s.currentIp.isSome then excluded
  else if row.interface.isNone then excluded
  else held

/-- `ON CONFLICT(mac) DO UPDATE SET …` -/
def DeviceRow.merge (row : DeviceRow) (s : Sighting) : DeviceRow where
  description := row.description
  firstSeen := row.firstSeen
  lastSeen := max row.lastSeen s.seenAt
  hostname := s.hostname.or row.hostname
  vendor := s.vendor.or row.vendor
  clientType := s.clientType.or row.clientType
  osGuess := s.osGuess.or row.osGuess
  currentIp := s.currentIp.or row.currentIp
  currentIpv6 := s.currentIpv6.or row.currentIpv6
  interface := row.located s s.interface row.interface
  vlan := row.located s s.vlan row.vlan
  dhcpStatic := (s.dhcpStatic.map Bool.toInt).or row.dhcpStatic
  leaseExpiry := s.leaseExpiry.or row.leaseExpiry
  neighState := s.neighState.or row.neighState
  online := (s.online.map Bool.toInt).getD row.online

namespace DeviceTable

/-- `upsert_sighting` -/
def upsertSighting (devices : DeviceTable) (s : Sighting) : DeviceTable :=
  Function.update devices s.mac
    (some ((devices s.mac).elim (.ofSighting s) fun row => row.merge s))

/-- `UPDATE devices SET description = … WHERE mac = …` of the web UI. -/
def describe (devices : DeviceTable) (mac : String)
    (description : Option String) : DeviceTable :=
  Function.update devices mac
    ((devices mac).map fun row => { row with description })

end DeviceTable

/-- What writes to the rows of devices. -/
inductive DeviceWrite where
  | sighting (s : Sighting)
  | description (mac : String) (text : Option String)

def DeviceTable.write (devices : DeviceTable) : DeviceWrite → DeviceTable
  | .sighting s => devices.upsertSighting s
  | .description mac text => devices.describe mac text

/-- The table after writes to an empty one. -/
def DeviceTable.written (writes : List DeviceWrite) : DeviceTable :=
  writes.foldl DeviceTable.write fun _ => none

/-! ## What a row is to be -/

/-- The sightings of a device among the writes. -/
def sightingsOf (mac : String) : List DeviceWrite → List Sighting
  | [] => []
  | .sighting s :: writes =>
      if s.mac = mac then s :: sightingsOf mac writes
      else sightingsOf mac writes
  | .description _ _ :: writes => sightingsOf mac writes

/-- The description if sightings do no more than make the row. -/
def describedBy (mac : String) (described : Option (Option String)) :
    DeviceWrite → Option (Option String)
  | .sighting s =>
      if s.mac = mac then described.or (some none) else described
  | .description edited text =>
      if edited = mac then described.map fun _ => text else described

/-- The sighting that tells where the device is. -/
def placing (sightings : List Sighting) : Option Sighting :=
  (sightings.reverse.find? fun s => s.currentIp.isSome && s.interface.isSome).or
    (sightings.find? fun s => s.interface.isSome)

/-- The columns of a row but for `first_seen`. -/
structure Gathered (sightings : List Sighting) (row : DeviceRow) : Prop where
  lastSeen : IsGreatest (valuesOf Sighting.seenAt sightings) row.lastSeen
  hostname : row.hostname = lastKnown Sighting.hostname sightings
  vendor : row.vendor = lastKnown Sighting.vendor sightings
  clientType : row.clientType = lastKnown Sighting.clientType sightings
  osGuess : row.osGuess = lastKnown Sighting.osGuess sightings
  currentIp : row.currentIp = lastKnown Sighting.currentIp sightings
  currentIpv6 : row.currentIpv6 = lastKnown Sighting.currentIpv6 sightings
  dhcpStatic : row.dhcpStatic =
    lastKnown (fun s => s.dhcpStatic.map Bool.toInt) sightings
  leaseExpiry : row.leaseExpiry = lastKnown Sighting.leaseExpiry sightings
  neighState : row.neighState = lastKnown Sighting.neighState sightings
  interface : row.interface = (placing sightings).bind Sighting.interface
  vlan : ∀ s, placing sightings = some s → row.vlan = s.vlan

/-- A row nothing sighted is lost from. -/
structure MergedFrom (sightings : List Sighting) (row : DeviceRow) : Prop where
  firstSeen : IsLeast (valuesOf Sighting.seenAt sightings) row.firstSeen
  gathered : Gathered sightings row

/-! ## Merging step by step -/

/-- Whether a sighting says where the device is, over what its row has. -/
def DeviceRow.moves (row : DeviceRow) (s : Sighting) : Bool :=
  s.interface.isSome && (s.currentIp.isSome || row.interface.isNone)

theorem DeviceRow.located_eq (row : DeviceRow) (s : Sighting) {Value : Type}
    (excluded held : Value) :
    row.located s excluded held = if row.moves s then excluded else held := by
  cases placed : s.interface with
  | none => simp [located, moves, placed]
  | some interface =>
      cases addressed : s.currentIp with
      | none => simp [located, moves, placed, addressed]
      | some ip => simp [located, moves, placed, addressed]

theorem placing_singleton (s : Sighting) :
    placing [s] = if s.interface.isSome then some s else none := by
  cases placed : s.interface with
  | none => simp [placing, placed]
  | some interface =>
      cases addressed : s.currentIp with
      | none => simp [placing, placed, addressed]
      | some ip => simp [placing, placed, addressed]

theorem placing_concat (sightings : List Sighting) (s : Sighting) :
    placing (sightings ++ [s]) =
      if s.interface.isNone then placing sightings
      else if s.currentIp.isSome then some s
      else (placing sightings).or (some s) := by
  cases placed : s.interface with
  | none => simp [placing, placed, List.find?_append]
  | some interface =>
      cases addressed : s.currentIp with
      | none =>
          simp [placing, placed, addressed, List.find?_append]
      | some ip => simp [placing, placed, addressed]

theorem placing_interface {sightings : List Sighting} {s : Sighting}
    (found : placing sightings = some s) : s.interface.isSome := by
  rcases Option.or_eq_some_iff.mp found with located | ⟨_, placed⟩
  · have both := List.find?_some located
    exact (Bool.and_eq_true_iff.mp both).2
  · have interface := List.find?_some placed
    exact interface

/-- A row without an interface is one no sighting placed. -/
theorem Gathered.nowhere {sightings : List Sighting} {row : DeviceRow}
    (gathered : Gathered sightings row) :
    row.interface.isNone = (placing sightings).isNone := by
  rw [gathered.interface]
  cases found : placing sightings with
  | none => rfl
  | some placed =>
      have interface := placing_interface found
      rw [Option.isSome_iff_exists] at interface
      obtain ⟨name, named⟩ := interface
      simp [named]

theorem Gathered.placing_concat {sightings : List Sighting} {row : DeviceRow}
    (gathered : Gathered sightings row) (s : Sighting) :
    placing (sightings ++ [s]) =
      if row.moves s then some s else placing sightings := by
  rw [Devices.placing_concat, DeviceRow.moves, gathered.nowhere]
  cases s.interface with
  | none => rfl
  | some interface =>
      cases s.currentIp with
      | some ip => rfl
      | none =>
          cases placing sightings with
          | none => rfl
          | some placed => rfl

theorem Gathered.ofSighting (s : Sighting) :
    Gathered [s] (.ofSighting s) := by
  constructor
  case lastSeen => exact isGreatest_singleton _ s
  case interface =>
    rw [placing_singleton]
    cases placed : s.interface with
    | none => simp [DeviceRow.ofSighting, placed]
    | some interface => simp [DeviceRow.ofSighting, placed]
  case vlan =>
    intro found placing
    rw [placing_singleton] at placing
    split at placing
    · cases placing
      rfl
    · cases placing
  all_goals simp [DeviceRow.ofSighting, lastKnown]

theorem Gathered.merge {sightings : List Sighting} {row : DeviceRow}
    (gathered : Gathered sightings row) (s : Sighting) :
    Gathered (sightings ++ [s]) (row.merge s) := by
  constructor
  case lastSeen =>
    have greatest := isGreatest_concat gathered.lastSeen s
    rwa [max_comm] at greatest
  case interface =>
    show row.located s s.interface row.interface = _
    rw [gathered.placing_concat, DeviceRow.located_eq]
    split
    · rfl
    · exact gathered.interface
  case vlan =>
    intro found placing
    rw [gathered.placing_concat] at placing
    show row.located s s.vlan row.vlan = found.vlan
    rw [DeviceRow.located_eq]
    split at placing
    · rename_i moved
      cases placing
      rw [if_pos moved]
    · rename_i stays
      rw [if_neg stays]
      exact gathered.vlan found placing
  all_goals
    simp only [lastKnown_concat, DeviceRow.merge, gathered.hostname,
      gathered.vendor, gathered.clientType, gathered.osGuess,
      gathered.currentIp, gathered.currentIpv6, gathered.dhcpStatic,
      gathered.leaseExpiry, gathered.neighState]

/-! ## Any sequence of writes -/

theorem sightingsOf_append (mac : String) (earlier later : List DeviceWrite) :
    sightingsOf mac (earlier ++ later) =
      sightingsOf mac earlier ++ sightingsOf mac later := by
  induction earlier with
  | nil => rfl
  | cons write earlier ih =>
      cases write with
      | description edited text => exact ih
      | sighting s =>
          simp only [List.cons_append, sightingsOf]
          split
          · rw [ih, List.cons_append]
          · exact ih

/-- What holds of a device's row as long as there are sightings of it. -/
structure RowKept (sightings : List Sighting) (described : Option (Option String))
    (row : DeviceRow) : Prop where
  first : sightings.head?.map Sighting.seenAt = some row.firstSeen
  gathered : Gathered sightings row
  description : described = some row.description

/-- The row of a device follows the sightings of it. -/
inductive Follows : List Sighting → Option (Option String) →
    Option DeviceRow → Prop where
  | unknown : Follows [] none none
  | known {sightings : List Sighting} {described : Option (Option String)}
      {row : DeviceRow} (kept : RowKept sightings described row) :
      Follows sightings described (some row)

theorem Follows.write {mac : String} {earlier : List DeviceWrite}
    {described : Option (Option String)} {devices : DeviceTable}
    (follows : Follows (sightingsOf mac earlier) described (devices mac))
    (write : DeviceWrite) :
    Follows (sightingsOf mac (earlier ++ [write]))
      (describedBy mac described write) (devices.write write mac) := by
  rw [sightingsOf_append]
  cases write with
  | sighting s =>
      by_cases same : s.mac = mac
      · subst same
        simp only [sightingsOf, if_true, describedBy, DeviceTable.write,
          DeviceTable.upsertSighting, Function.update_self]
        generalize devices s.mac = held at follows
        generalize sightingsOf s.mac earlier = sightings at follows
        cases follows with
        | unknown =>
            exact .known ⟨rfl, .ofSighting s, rfl⟩
        | @known _ _ row kept =>
            apply Follows.known
            constructor
            · rw [List.head?_append, Option.map_or, kept.first]
              rfl
            · exact kept.gathered.merge s
            · rw [kept.description]
              rfl
      · have other : mac ≠ s.mac := fun equal => same equal.symm
        simp only [sightingsOf, if_neg same, List.append_nil, describedBy,
          DeviceTable.write, DeviceTable.upsertSighting,
          Function.update_of_ne other]
        exact follows
  | description edited text =>
      rw [sightingsOf, sightingsOf, List.append_nil]
      by_cases same : edited = mac
      · subst same
        simp only [describedBy, if_true, DeviceTable.write,
          DeviceTable.describe, Function.update_self]
        generalize devices edited = held at follows
        generalize sightingsOf edited earlier = sightings at follows
        cases follows with
        | unknown => exact .unknown
        | @known _ _ row kept =>
            apply Follows.known
            constructor
            · exact kept.first
            · obtain ⟨gathered⟩ := kept.gathered
              constructor <;> assumption
            · rw [kept.description]
              rfl
      · have other : mac ≠ edited := fun equal => same equal.symm
        simp only [describedBy, if_neg same, DeviceTable.write,
          DeviceTable.describe, Function.update_of_ne other]
        exact follows

theorem follows_written (mac : String) (writes : List DeviceWrite) :
    Follows (sightingsOf mac writes) (writes.foldl (describedBy mac) none)
      (DeviceTable.written writes mac) := by
  induction writes using List.reverseRecOn with
  | nil => exact .unknown
  | append_singleton writes write ih =>
      rw [DeviceTable.written, List.foldl_append, List.foldl_append]
      exact ih.write write

/-- The first sighting is the earliest. -/
def FirstEarliest : List Sighting → Prop
  | [] => True
  | first :: later => ∀ s ∈ later, first.seenAt ≤ s.seenAt

/-- The row a device is to have after the writes. -/
def Merged (writes : List DeviceWrite) (mac : String) : Prop :=
  ∃ row, DeviceTable.written writes mac = some row ∧
    MergedFrom (sightingsOf mac writes) row ∧
    writes.foldl (describedBy mac) none = some row.description

theorem merged_iff (writes : List DeviceWrite) (mac : String)
    (sighted : sightingsOf mac writes ≠ []) :
    Merged writes mac ↔ FirstEarliest (sightingsOf mac writes) := by
  have follows := follows_written mac writes
  rw [Merged]
  generalize DeviceTable.written writes mac = held at follows
  generalize writes.foldl (describedBy mac) none = described at follows
  generalize sightingsOf mac writes = sightings at follows sighted
  cases follows with
  | unknown => exact absurd rfl sighted
  | @known _ _ row kept =>
      cases sightings with
      | nil => exact absurd rfl sighted
      | cons first later =>
          have firstSeen : first.seenAt = row.firstSeen :=
            Option.some.inj kept.first
          rw [FirstEarliest, ← isLeast_head_iff, firstSeen]
          constructor
          · rintro ⟨_, ⟨⟩, merged, _⟩
            exact merged.firstSeen
          · intro least
            exact ⟨row, rfl, ⟨least, kept.gathered⟩, kept.description⟩

theorem merged_of_two :
    Merged [.sighting { mac := "aa", seenAt := 100 },
      .sighting { mac := "aa", seenAt := 200 }] "aa" :=
  (merged_iff _ "aa" (by decide)).mpr fun _ later => by
    rw [List.mem_singleton.mp later]
    decide

/-- An earlier time that is sighted later does not become `first_seen`. -/
theorem first_seen_stays :
    ¬ ∀ (writes : List DeviceWrite) (mac : String),
      sightingsOf mac writes ≠ [] → Merged writes mac := by
  intro always
  have merged := always [.sighting { mac := "aa", seenAt := 200 },
    .sighting { mac := "aa", seenAt := 100 }] "aa" (by decide)
  obtain ⟨row, found, merged, _⟩ := merged
  have stays : row.firstSeen = 200 := by
    cases found
    rfl
  have least := merged.firstSeen.2 ⟨_, .tail _ (.head _), rfl⟩
  rw [stays] at least
  exact absurd least (by decide)

end QuartzFire.Devices
