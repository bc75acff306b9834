import QuartzFire.ContentFiltering.Model
import QuartzFire.Devices.Sightings
import QuartzFire.Foundation.Text

/-!
# Who is online

The neighbor table and the leases are polled, and what they list are sightings.
After a neighbor poll the online flags are set anew, from the neighbor state
that was recorded last of a device and from when it was last seen.
-/

namespace QuartzFire.Devices

/-! ## The collectors -/

/-- `Neighbor` -/
structure Neighbor where
  ip : String
  mac : String
  dev : String
  state : String
  deriving DecidableEq

/-- `Lease` -/
structure Lease where
  ip : String
  mac : String
  hostname : Option String
  /-- When the lease expires. -/
  expire : Int
  isStatic : Bool
  deriving DecidableEq

/-- The settings of the daemon, and what it knows of makers and kinds of
devices: `vendor`, and `classify` of vendor and host name. -/
structure Collectors where
  lanInterfacePrefixes : List String
  onlineTimeoutSecs : Int
  vendor : String → Option String
  classify : Option String → Option String → Option String × Option String

/-- `is_lan_interface` -/
def Collectors.isLanInterface (cfg : Collectors) (iface : String) : Bool :=
  if iface = "" ∨ iface = "lo" then false
  else if cfg.lanInterfacePrefixes = [] then true
  else cfg.lanInterfacePrefixes.any fun start =>
    start ≠ "" && start.toList.isPrefixOf iface.toList

/-- The VLAN id is what follows the dot. -/
def vlanOf (iface : String) : Option String :=
  (splitOnce '.' iface.toList).map fun parts => String.ofList parts.2

/-- `REACHABLE`, `DELAY` or `PROBE` -/
def isLive (state : String) : Bool :=
  state = "REACHABLE" || state = "DELAY" || state = "PROBE"

def Collectors.neighborSighting (cfg : Collectors) (now : Int)
    (n : Neighbor) : Sighting :=
  let isIpv4 := ContentFiltering.ipv4Ok n.ip.toList
  { mac := n.mac
    seenAt := now
    currentIp := if isIpv4 then some n.ip else none
    currentIpv6 := if isIpv4 then none else some n.ip
    vendor := cfg.vendor n.mac
    interface := some n.dev
    vlan := vlanOf n.dev
    neighState := some n.state
    online := some (isLive n.state) }

def Collectors.leaseSighting (cfg : Collectors) (now : Int) (l : Lease) :
    Sighting where
  mac := l.mac
  seenAt := now
  currentIp := some l.ip
  hostname := l.hostname
  vendor := cfg.vendor l.mac
  dhcpStatic := some l.isStatic
  leaseExpiry := some l.expire

namespace DeviceTable

/-- `refresh_online` -/
def refreshOnline (devices : DeviceTable) (now timeoutSecs : Int) :
    DeviceTable := fun mac =>
  (devices mac).map fun row => { row with
    online :=
      if row.neighState.any isLive then 1
      else if now - row.lastSeen ≤ timeoutSecs then 1
      else 0 }

/-- `fingerprint_device`, by `identity` and `set_fingerprint` -/
def fingerprintDevice (cfg : Collectors) (devices : DeviceTable)
    (mac : String) : DeviceTable :=
  Function.update devices mac ((devices mac).map fun row =>
    let fp := cfg.classify row.vendor row.hostname
    { row with clientType := fp.1, osGuess := fp.2 })

/-- `apply_neighbors` -/
def applyNeighbors (cfg : Collectors) (now : Int) (neighbors : List Neighbor)
    (devices : DeviceTable) : DeviceTable :=
  let seen := neighbors.filter fun n => cfg.isLanInterface n.dev
  let devices := (seen.map (cfg.neighborSighting now)).foldl upsertSighting
    devices
  let devices := devices.refreshOnline now cfg.onlineTimeoutSecs
  (seen.map Neighbor.mac).foldl (fingerprintDevice cfg) devices

/-- `apply_leases` -/
def applyLeases (cfg : Collectors) (now : Int) (leases : List Lease)
    (devices : DeviceTable) : DeviceTable :=
  let devices := (leases.map (cfg.leaseSighting now)).foldl upsertSighting
    devices
  (leases.map Lease.mac).foldl (fingerprintDevice cfg) devices

end DeviceTable

/-- What the daemon is told, and when. -/
inductive Report where
  | neighbors (now : Int) (listed : List Neighbor)
  | leases (now : Int) (listed : List Lease)
  /-- Bytes of a device are credited from conntrack. -/
  | traffic (now : Int) (mac : String)

def Report.now : Report → Int
  | .neighbors now _ | .leases now _ | .traffic now _ => now

/-- Credited bytes go to the usage tables, not to the devices. -/
def DeviceTable.handle (cfg : Collectors) (devices : DeviceTable) :
    Report → DeviceTable
  | .neighbors now listed => devices.applyNeighbors cfg now listed
  | .leases now listed => devices.applyLeases cfg now listed
  | .traffic _ _ => devices

def DeviceTable.reported (cfg : Collectors) (reports : List Report) :
    DeviceTable :=
  reports.foldl (DeviceTable.handle cfg) fun _ => none

def DeviceTable.isOnline (devices : DeviceTable) (mac : String) : Prop :=
  ∃ row, devices mac = some row ∧ row.online = 1

/-! ## When a device is to be online -/

/-- The sightings a report is. -/
def Report.sightings (cfg : Collectors) : Report → List Sighting
  | .neighbors now listed =>
      (listed.filter fun n => cfg.isLanInterface n.dev).map
        (cfg.neighborSighting now)
  | .leases now listed => listed.map (cfg.leaseSighting now)
  | .traffic _ _ => []

/-- The states a neighbor table lists the device in. -/
def Report.states (cfg : Collectors) (mac : String) : Report → List String
  | .neighbors _ listed =>
      (listed.filter fun n => cfg.isLanInterface n.dev && n.mac = mac).map
        Neighbor.state
  | .leases _ _ | .traffic _ _ => []

/-- A neighbor table lists the device, in whatever state. -/
def Report.Lists (cfg : Collectors) (mac : String) : Report → Prop
  | .neighbors _ listed =>
      ∃ n ∈ listed, cfg.isLanInterface n.dev = true ∧ n.mac = mac
  | .leases _ _ | .traffic _ _ => False

/-- A neighbor table lists the device in a live state. -/
def Report.ListsLive (cfg : Collectors) (mac : String) : Report → Prop
  | .neighbors _ listed => ∃ n ∈ listed,
      cfg.isLanInterface n.dev = true ∧ n.mac = mac ∧ isLive n.state = true
  | .leases _ _ | .traffic _ _ => False

/-- The device has a lease. -/
def Report.Leases (mac : String) : Report → Prop
  | .leases _ listed => ∃ l ∈ listed, l.mac = mac
  | .neighbors _ _ | .traffic _ _ => False

/-- Traffic of the device is credited. -/
def Report.Carries (mac : String) : Report → Prop
  | .traffic _ seen => seen = mac
  | .neighbors _ _ | .leases _ _ => False

/-- There is evidence that the device is up. -/
def Report.Shows (cfg : Collectors) (mac : String) (report : Report) : Prop :=
  report.ListsLive cfg mac ∨ report.Leases mac ∨ report.Carries mac

/-- The device is sighted. -/
def Report.Sights (cfg : Collectors) (mac : String) (report : Report) : Prop :=
  report.Lists cfg mac ∨ report.Leases mac

/-- The latest state the device was listed in is a live one. -/
def LastListedLive (cfg : Collectors) (mac : String) (told : List Report) :
    Prop :=
  (told.flatMap (Report.states cfg mac)).getLast?.any isLive = true

/-- Some report of the kind is no older than the timeout. -/
def Lately (cfg : Collectors) (now : Int) (told : List Report)
    (kind : Report → Prop) : Prop :=
  ∃ report ∈ told, kind report ∧ now - report.now ≤ cfg.onlineTimeoutSecs

def ListedLive (mac : String) (listed : List Neighbor) : Prop :=
  ∃ n ∈ listed, n.mac = mac ∧ isLive n.state = true

/-- The freshness rule, right after a poll. -/
def Fresh (cfg : Collectors) (mac : String) (told : List Report) (now : Int)
    (listed : List Neighbor) : Prop :=
  ListedLive mac listed ∨ Lately cfg now told (Report.Shows cfg mac)

/-! ## What the rows record -/

/-- The columns that the online flag is made of. -/
inductive Tracked (sightings : List Sighting) : Option DeviceRow → Prop where
  | unknown (unseen : sightings = []) : Tracked sightings none
  | known {row : DeviceRow}
      (lastSeen : IsGreatest (valuesOf Sighting.seenAt sightings) row.lastSeen)
      (neighState : row.neighState = lastKnown Sighting.neighState sightings) :
      Tracked sightings (some row)

/-- Of every device the table has what the sightings of it say. -/
def TracksAll (sightings : List Sighting) (devices : DeviceTable) : Prop :=
  ∀ mac, Tracked (sightings.filter fun s => s.mac = mac) (devices mac)

theorem TracksAll.upsertSighting {sightings : List Sighting}
    {devices : DeviceTable} (tracks : TracksAll sightings devices)
    (s : Sighting) :
    TracksAll (sightings ++ [s]) (devices.upsertSighting s) := by
  intro mac
  have tracked := tracks mac
  rw [List.filter_append]
  by_cases same : s.mac = mac
  · subst same
    rw [List.filter_singleton, decide_eq_true rfl, cond_true,
      DeviceTable.upsertSighting, Function.update_self]
    generalize devices s.mac = held at tracked
    generalize (sightings.filter fun other => other.mac = s.mac) = seen
      at tracked
    cases tracked with
    | unknown unseen =>
        subst unseen
        apply Tracked.known
        · exact isGreatest_singleton _ s
        · rw [List.nil_append]
          simp [DeviceRow.ofSighting, lastKnown]
    | known lastSeen neighState =>
        apply Tracked.known
        · have greatest := isGreatest_concat lastSeen s
          rwa [max_comm] at greatest
        · rw [lastKnown_concat, ← neighState]
          rfl
  · rw [List.filter_singleton, decide_eq_false same, cond_false,
      List.append_nil, DeviceTable.upsertSighting,
      Function.update_of_ne fun equal => same equal.symm]
    exact tracked

theorem TracksAll.upsertAll (added : List Sighting) :
    ∀ {sightings : List Sighting} {devices : DeviceTable},
      TracksAll sightings devices →
      TracksAll (sightings ++ added)
        (added.foldl DeviceTable.upsertSighting devices) := by
  induction added with
  | nil =>
      intro sightings devices tracks
      rw [List.append_nil]
      exact tracks
  | cons s added ih =>
      intro sightings devices tracks
      have later := ih (tracks.upsertSighting s)
      rwa [List.append_assoc, List.singleton_append] at later

theorem TracksAll.fingerprintAll (cfg : Collectors) (macs : List String) :
    ∀ {sightings : List Sighting} {devices : DeviceTable},
      TracksAll sightings devices →
      TracksAll sightings
        (macs.foldl (DeviceTable.fingerprintDevice cfg) devices) := by
  induction macs with
  | nil =>
      intro sightings devices tracks
      exact tracks
  | cons touched macs ih =>
      intro sightings devices tracks
      apply ih
      intro mac
      have tracked := tracks mac
      by_cases same : mac = touched
      · subst same
        rw [DeviceTable.fingerprintDevice, Function.update_self]
        generalize devices mac = held at tracked
        cases tracked with
        | unknown unseen => exact .unknown unseen
        | known lastSeen neighState => exact .known lastSeen neighState
      · rw [DeviceTable.fingerprintDevice, Function.update_of_ne same]
        exact tracked

theorem TracksAll.refreshOnline {sightings : List Sighting}
    {devices : DeviceTable} (tracks : TracksAll sightings devices)
    (now timeoutSecs : Int) :
    TracksAll sightings (devices.refreshOnline now timeoutSecs) := by
  intro mac
  have tracked := tracks mac
  rw [DeviceTable.refreshOnline]
  generalize devices mac = held at tracked
  cases tracked with
  | unknown unseen => exact .unknown unseen
  | known lastSeen neighState => exact .known lastSeen neighState

theorem TracksAll.handle {cfg : Collectors} {sightings : List Sighting}
    {devices : DeviceTable} (tracks : TracksAll sightings devices)
    (report : Report) :
    TracksAll (sightings ++ report.sightings cfg)
      (devices.handle cfg report) := by
  cases report with
  | neighbors now listed =>
      apply TracksAll.fingerprintAll
      apply TracksAll.refreshOnline
      exact TracksAll.upsertAll _ tracks
  | leases now listed =>
      apply TracksAll.fingerprintAll
      exact TracksAll.upsertAll _ tracks
  | traffic now mac =>
      rw [Report.sightings, List.append_nil]
      exact tracks

theorem tracksAll_reported (cfg : Collectors) (told : List Report) :
    TracksAll (told.flatMap (Report.sightings cfg))
      (DeviceTable.reported cfg told) := by
  induction told using List.reverseRecOn with
  | nil =>
      intro mac
      exact .unknown rfl
  | append_singleton told report ih =>
      rw [List.flatMap_append, List.flatMap_singleton, DeviceTable.reported,
        List.foldl_append]
      exact ih.handle report

/-! ## After a poll -/

theorem isOnline_fingerprintAll (cfg : Collectors) (macs : List String)
    (mac : String) :
    ∀ devices : DeviceTable,
      (macs.foldl (DeviceTable.fingerprintDevice cfg) devices).isOnline mac ↔
        devices.isOnline mac := by
  induction macs with
  | nil =>
      intro devices
      exact Iff.rfl
  | cons touched macs ih =>
      intro devices
      rw [List.foldl_cons, ih]
      by_cases same : mac = touched
      · subst same
        simp [DeviceTable.isOnline, DeviceTable.fingerprintDevice]
      · simp [DeviceTable.isOnline, DeviceTable.fingerprintDevice,
          Function.update_of_ne same]

theorem Tracked.isOnline_refresh {sightings : List Sighting}
    {devices : DeviceTable} {mac : String}
    (tracked : Tracked sightings (devices mac)) (now timeoutSecs : Int) :
    (devices.refreshOnline now timeoutSecs).isOnline mac ↔
      (lastKnown Sighting.neighState sightings).any isLive = true ∨
        ∃ s ∈ sightings, now - s.seenAt ≤ timeoutSecs := by
  rw [DeviceTable.isOnline, DeviceTable.refreshOnline]
  generalize devices mac = held at tracked
  cases tracked with
  | unknown unseen =>
      subst unseen
      simp
  | @known row lastSeen neighState =>
      have within : now - row.lastSeen ≤ timeoutSecs ↔
          ∃ s ∈ sightings, now - s.seenAt ≤ timeoutSecs := by
        constructor
        · intro recent
          obtain ⟨s, seen, same⟩ := lastSeen.1
          exact ⟨s, seen, same ▸ recent⟩
        · rintro ⟨s, seen, recent⟩
          have bound := lastSeen.2 ⟨s, seen, rfl⟩
          omega
      rw [← within, ← neighState]
      simp only [Option.map_some, Option.some.injEq, exists_eq_left']
      by_cases live : row.neighState.any isLive = true
      · simp [live]
      · by_cases recent : now - row.lastSeen ≤ timeoutSecs
        · simp [live, recent]
        · simp [live, recent]

/-- The sightings of a device in the reports. -/
def seenIn (cfg : Collectors) (mac : String) (told : List Report) :
    List Sighting :=
  (told.flatMap (Report.sightings cfg)).filter fun s => s.mac = mac

theorem isOnline_poll (cfg : Collectors) {told earlier : List Report}
    {now : Int} {listed : List Neighbor}
    (poll : told = earlier ++ [.neighbors now listed]) (mac : String) :
    (DeviceTable.reported cfg told).isOnline mac ↔
      (lastKnown Sighting.neighState (seenIn cfg mac told)).any isLive ∨
        ∃ s ∈ seenIn cfg mac told, now - s.seenAt ≤ cfg.onlineTimeoutSecs := by
  subst poll
  have tracks := TracksAll.upsertAll
    (Report.sightings cfg (.neighbors now listed))
    (tracksAll_reported cfg earlier)
  rw [DeviceTable.reported, List.foldl_append, List.foldl_cons, List.foldl_nil,
    DeviceTable.handle, DeviceTable.applyNeighbors, isOnline_fingerprintAll,
    seenIn, List.flatMap_append, List.flatMap_singleton]
  exact (tracks mac).isOnline_refresh now cfg.onlineTimeoutSecs

/-! ## In terms of the reports -/

theorem filterMap_neighState (cfg : Collectors) (mac : String)
    (report : Report) :
    ((report.sightings cfg).filter fun s => s.mac = mac).filterMap
      Sighting.neighState = report.states cfg mac := by
  cases report with
  | neighbors now listed =>
      rw [Report.sightings, Report.states, List.filter_map, List.filter_filter,
        List.filterMap_map, ← List.filterMap_eq_map]
      congr 1
      apply List.filter_congr
      intro n _
      exact Bool.and_comm _ _
  | leases now listed =>
      rw [Report.states, List.filterMap_eq_nil_iff]
      intro s seen
      obtain ⟨l, _, rfl⟩ := List.mem_map.mp (List.mem_filter.mp seen).1
      rfl
  | traffic now seen => rfl

theorem lastKnown_neighState (cfg : Collectors) (mac : String)
    (told : List Report) :
    lastKnown Sighting.neighState (seenIn cfg mac told) =
      (told.flatMap (Report.states cfg mac)).getLast? := by
  rw [lastKnown_eq_getLast?, seenIn, List.filter_flatMap,
    List.filterMap_flatMap]
  simp only [filterMap_neighState]

theorem mac_mem_sightings {cfg : Collectors} {mac : String} {report : Report} :
    (∃ s ∈ report.sightings cfg, s.mac = mac) ↔ report.Sights cfg mac := by
  cases report with
  | neighbors now listed =>
      constructor
      · rintro ⟨s, seen, same⟩
        obtain ⟨n, kept, rfl⟩ := List.mem_map.mp seen
        obtain ⟨among, lan⟩ := List.mem_filter.mp kept
        exact .inl ⟨n, among, lan, same⟩
      · rintro (⟨n, among, lan, same⟩ | leased)
        · exact ⟨_, List.mem_map_of_mem (List.mem_filter.mpr ⟨among, lan⟩),
            same⟩
        · cases leased
  | leases now listed =>
      constructor
      · rintro ⟨s, seen, same⟩
        obtain ⟨l, among, rfl⟩ := List.mem_map.mp seen
        exact .inr ⟨l, among, same⟩
      · rintro (listed | ⟨l, among, same⟩)
        · cases listed
        · exact ⟨_, List.mem_map_of_mem among, same⟩
  | traffic now seen =>
      constructor
      · rintro ⟨s, ⟨⟩, _⟩
      · rintro (listed | leased)
        · cases listed
        · cases leased

theorem seenAt_eq_now {cfg : Collectors} {report : Report} {s : Sighting}
    (seen : s ∈ report.sightings cfg) : s.seenAt = report.now := by
  cases report with
  | neighbors now listed =>
      obtain ⟨n, _, rfl⟩ := List.mem_map.mp seen
      rfl
  | leases now listed =>
      obtain ⟨l, _, rfl⟩ := List.mem_map.mp seen
      rfl
  | traffic now mac => cases seen

theorem lately_sights_iff {cfg : Collectors} {mac : String} {now : Int}
    {told : List Report} :
    (∃ s ∈ seenIn cfg mac told, now - s.seenAt ≤ cfg.onlineTimeoutSecs) ↔
      Lately cfg now told (Report.Sights cfg mac) := by
  constructor
  · rintro ⟨s, seen, recent⟩
    obtain ⟨among, same⟩ := List.mem_filter.mp seen
    obtain ⟨report, inTold, inReport⟩ := List.mem_flatMap.mp among
    rw [seenAt_eq_now inReport] at recent
    exact ⟨report, inTold,
      mac_mem_sightings.mp ⟨s, inReport, of_decide_eq_true same⟩, recent⟩
  · rintro ⟨report, inTold, sights, recent⟩
    obtain ⟨s, inReport, same⟩ := mac_mem_sightings.mpr sights
    refine ⟨s, List.mem_filter.mpr
      ⟨List.mem_flatMap.mpr ⟨report, inTold, inReport⟩, by simpa using same⟩,
      ?_⟩
    rwa [seenAt_eq_now inReport]

theorem lately_or {cfg : Collectors} {now : Int} {told : List Report}
    {left right : Report → Prop} :
    Lately cfg now told (fun report => left report ∨ right report) ↔
      Lately cfg now told left ∨ Lately cfg now told right := by
  simp only [Lately, or_and_right, and_or_left, exists_or]

theorem lately_mono {cfg : Collectors} {now : Int} {told : List Report}
    {left right : Report → Prop} (weaker : ∀ report, left report → right report)
    (lately : Lately cfg now told left) : Lately cfg now told right := by
  obtain ⟨report, inTold, holds, recent⟩ := lately
  exact ⟨report, inTold, weaker report holds, recent⟩

theorem ListsLive.lists {cfg : Collectors} {mac : String} (report : Report)
    (live : report.ListsLive cfg mac) : report.Lists cfg mac := by
  cases report with
  | neighbors now listed =>
      obtain ⟨n, among, lan, same, _⟩ := live
      exact ⟨n, among, lan, same⟩
  | leases now listed => cases live
  | traffic now seen => cases live

/-- The flag is set if the state listed last is a live one, or if the device is
sighted lately. -/
theorem isOnline_poll_iff (cfg : Collectors) {told earlier : List Report}
    {now : Int} {listed : List Neighbor}
    (poll : told = earlier ++ [.neighbors now listed]) (mac : String) :
    (DeviceTable.reported cfg told).isOnline mac ↔
      LastListedLive cfg mac told ∨
        Lately cfg now told (Report.Sights cfg mac) := by
  rw [isOnline_poll cfg poll, lastKnown_neighState, lately_sights_iff,
    LastListedLive]

/-- What is remembered of a device is not all there is for its being up, and
what there is for its being up is remembered. -/
structure Remembered (cfg : Collectors) (mac : String) (told : List Report)
    (now : Int) (listed : List Neighbor) : Prop where
  fresh : LastListedLive cfg mac told ∨
      Lately cfg now told (Report.Lists cfg mac) →
    ListedLive mac listed ∨ Lately cfg now told (Report.Shows cfg mac)
  sighted : ListedLive mac listed ∨
      Lately cfg now told (Report.Carries mac) →
    LastListedLive cfg mac told ∨ Lately cfg now told (Report.Sights cfg mac)

/-- Nothing is known of makers and kinds, every interface is a LAN. -/
def homeCollectors : Collectors where
  lanInterfacePrefixes := []
  onlineTimeoutSecs := 300
  vendor _ := none
  classify _ _ := (none, none)

end QuartzFire.Devices
