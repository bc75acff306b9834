import Mathlib.Algebra.Group.Prod
import Mathlib.Algebra.GroupWithZero.Nat
import Mathlib.Data.List.Induction
import QuartzFire.Foundation.Table
import QuartzFire.Foundation.Tally
import QuartzFire.Monitoring.LogEntry

/-!
# The attribution cache

The log says which rule a packet met, conntrack how many bytes its flow has.
The follower of the journal keeps the latest verdict of each service tuple, and
sums over what was blocked in buckets of five minutes.
-/

namespace QuartzFire.Monitoring

/-- Service tuple the two sides join on. -/
structure AttrKey where
  proto : List Char
  src : List Char
  dst : List Char
  dport : UInt16
  deriving DecidableEq

/-- What one logged packet taught about the rule of its flow. -/
structure Attr where
  chain : List Char
  rule : Option Nat
  action : List Char
  ips : Bool
  inIf : Option (List Char)
  outIf : Option (List Char)
  ts : Nat
  deriving DecidableEq

/-- Bytes and packets that were blocked. -/
abbrev BlockedSums := Nat × Nat

abbrev AttrMap := Table AttrKey Attr

abbrev BlockedMap := Table (Int × AttrKey) BlockedSums

def attrCap : Nat := 100000

def blockedCap : Nat := 100000

def blockedRetentionSecs : Int := 3900

def flowBucketSecs : Int := 300

def sighting (row : AttrKey × Attr) : Nat := row.2.ts

def bucketTs (row : (Int × AttrKey) × BlockedSums) : Int := row.1.1

def pruneOldestHalf (map : AttrMap) : AttrMap := map.prune sighting

def pruneBlockedOldestHalf (map : BlockedMap) : BlockedMap :=
  map.prune bucketTs

structure Attribution where
  map : AttrMap
  blocked : BlockedMap

/-- A move of a reorder: the old number of a chain's rule and the new one. -/
structure RenumberMove where
  chain : List Char
  source : Nat
  target : Nat
  deriving DecidableEq

namespace LogEntry

/-- None where the line names no source or no destination. -/
def attrKey (entry : LogEntry) : Option AttrKey :=
  match entry.src, entry.dst with
  | some src, some dst =>
      some ⟨entry.proto.getD [], src, dst, UInt16.ofNat (entry.dpt.getD 0)⟩
  | _, _ => none

def attr (entry : LogEntry) : Attr :=
  ⟨entry.chain, entry.rule, entry.action, entry.ips, entry.inIf, entry.outIf,
    entry.ts⟩

def blocks (entry : LogEntry) : Bool :=
  entry.action = "drop".toList || entry.action = "reject".toList

def bucket (entry : LogEntry) : Int :=
  let secs : Int := entry.ts / 1000
  secs - secs % flowBucketSecs

end LogEntry

namespace Attribution

def empty : Attribution := ⟨.empty, .empty⟩

/-- Fold one parsed firewall log entry into the cache. -/
def record (cache : Attribution) (entry : LogEntry) : Attribution :=
  match entry.attrKey with
  | none => cache
  | some key =>
      { map := cache.map.writeBounded sighting attrCap key fun _ => entry.attr
        blocked :=
          if entry.blocks then
            cache.blocked.writeBounded bucketTs blockedCap (entry.bucket, key)
              fun sums => sums.getD 0 + (entry.len.getD 0, 1)
          else cache.blocked }

def lookup (cache : Attribution) (key : AttrKey) : Option Attr :=
  cache.map.get key

/-- Sums over the buckets of the window.  Buckets past retention go. -/
def blockedInWindow (cache : Attribution) (since now : Int) :
    Tally AttrKey BlockedSums × Attribution :=
  let blocked := cache.blocked.retain fun row =>
    decide (now - blockedRetentionSecs ≤ bucketTs row)
  let sums := Tally.postAll (fun row => row.1.2) Prod.snd
    (blocked.rows.filter fun row => decide (since ≤ bucketTs row))
  (sums, { cache with blocked })

/-- The move of an entry, by the number it has now. -/
def moveOf (moves : List RenumberMove) (attr : Attr) : Option RenumberMove :=
  attr.rule.bind fun rule =>
    moves.find? fun move => move.chain = attr.chain ∧ move.source = rule

def renumberAttr (moves : List RenumberMove) (attr : Attr) : Attr :=
  match moveOf moves attr with
  | none => attr
  | some move => { attr with rule := some move.target }

/-- Re-point cached entries, and say how many. -/
def renumber (cache : Attribution) (moves : List RenumberMove) :
    Nat × Attribution :=
  (cache.map.rows.countP fun row => (moveOf moves row.2).isSome,
    { cache with map := cache.map.mapValues (renumberAttr moves) })

end Attribution

/-! ## Runs of the cache -/

inductive CacheAction where
  | record (entry : LogEntry)
  | blockedInWindow (since now : Int)
  | renumber (moves : List RenumberMove)

namespace Attribution

def step (cache : Attribution) : CacheAction → Attribution
  | .record entry => cache.record entry
  | .blockedInWindow since now => (cache.blockedInWindow since now).2
  | .renumber moves => (cache.renumber moves).2

/-- The cache after a sequence of actions. -/
def run (actions : List CacheAction) : Attribution :=
  actions.foldl step empty

/-- Both maps keep to their caps. -/
structure Within (cache : Attribution) : Prop where
  map : cache.map.size ≤ attrCap
  blocked : cache.blocked.size ≤ blockedCap

/-- A new tuple meets a full map most rows of which are as old as the oldest. -/
def Clogs (cache : Attribution) : CacheAction → Prop
  | .record entry =>
      ∃ key, entry.attrKey = some key ∧
        (cache.map.Clogged sighting attrCap key ∨
          entry.blocks = true ∧
            cache.blocked.Clogged bucketTs blockedCap (entry.bucket, key))
  | _ => False

theorem within_empty : empty.Within :=
  ⟨Nat.zero_le _, Nat.zero_le _⟩

theorem within_record {cache : Attribution} (within : cache.Within)
    (entry : LogEntry) :
    (cache.record entry).Within ↔ ¬ cache.Clogs (.record entry) := by
  change _ ↔ ¬ ∃ key, entry.attrKey = some key ∧ _
  unfold record
  cases named : entry.attrKey with
  | none =>
      refine iff_of_true within ?_
      rintro ⟨key, absent, _⟩
      cases absent
  | some key =>
      have map := @Table.size_writeBounded_le _ _ _ _ sighting _ attrCap _
        (by decide) within.map key fun _ => entry.attr
      have blocked := @Table.size_writeBounded_le _ _ _ _ bucketTs _ blockedCap
        _ (by decide) within.blocked (entry.bucket, key)
        fun sums => sums.getD 0 + (entry.len.getD 0, 1)
      constructor
      · rintro after ⟨_, same, clogs⟩
        cases same
        rcases clogs with clogs | ⟨blocks, clogs⟩
        · exact map.mp after.map clogs
        · have bound := after.blocked
          dsimp only at bound
          rw [if_pos blocks] at bound
          exact blocked.mp bound clogs
      · intro free
        refine ⟨map.mpr fun clogs => free ⟨key, rfl, .inl clogs⟩, ?_⟩
        dsimp only
        split
        · rename_i blocks
          exact blocked.mpr fun clogs => free ⟨key, rfl, .inr ⟨blocks, clogs⟩⟩
        · exact within.blocked

theorem within_step {cache : Attribution} (within : cache.Within)
    (action : CacheAction) :
    (cache.step action).Within ↔ ¬ cache.Clogs action := by
  cases action with
  | record entry => exact within_record within entry
  | blockedInWindow since now =>
      refine iff_of_true ⟨within.map, ?_⟩ not_false
      exact (Table.size_retain_le _ _).trans within.blocked
  | renumber moves =>
      refine iff_of_true ⟨?_, within.blocked⟩ not_false
      exact (Table.size_mapValues _ _).trans_le within.map

theorem run_snoc (actions : List CacheAction) (action : CacheAction) :
    run (actions ++ [action]) = (run actions).step action := by
  rw [run, List.foldl_append]
  rfl

/-- While no step clogs, every state keeps to the caps. -/
theorem within_run {actions : List CacheAction}
    (free : ∀ front action, front ++ [action] <+: actions →
      ¬ (run front).Clogs action) :
    (run actions).Within := by
  induction actions using List.reverseRecOn with
  | nil => exact within_empty
  | append_singleton actions action ih =>
      have before := ih fun front action starts =>
        free front action (starts.trans (List.prefix_append _ _))
      rw [run_snoc]
      exact (within_step before action).mpr
        (free actions action (List.prefix_refl _))

/-- Every state of a run keeps to the caps exactly if no step clogs, and what a
prune takes is older than all it leaves. -/
theorem caches_bounded (actions : List CacheAction) :
    ((∀ front, front <+: actions → (run front).Within) ↔
      ∀ front action, front ++ [action] <+: actions →
        ¬ (run front).Clogs action) ∧
    (∀ (map : AttrMap) (row other : AttrKey × Attr), row ∈ map.rows →
      row ∉ (pruneOldestHalf map).rows → other ∈ (pruneOldestHalf map).rows →
        sighting row < sighting other) ∧
    (∀ (map : BlockedMap) (row other : (Int × AttrKey) × BlockedSums),
      row ∈ map.rows → row ∉ (pruneBlockedOldestHalf map).rows →
        other ∈ (pruneBlockedOldestHalf map).rows →
          bucketTs row < bucketTs other) := by
  refine ⟨?_, fun _ _ _ => Table.prune_recent, fun _ _ _ => Table.prune_recent⟩
  constructor
  · intro within front action starts
    have before := within front ((List.prefix_append _ _).trans starts)
    have after := within _ starts
    rw [run_snoc] at after
    exact (within_step before action).mp after
  · intro free front starts
    apply within_run
    intro earlier action first
    exact free earlier action (first.trans starts)

/-! ## A flood -/

/-- Packets of one moment, the ports of one destination after the other's. -/
def flooding (index : Nat) : LogEntry where
  ts := 1700000000000
  family := "ipv4".toList
  chain := "forward".toList
  rule := some 10
  action := "accept".toList
  ips := false
  inIf := some "eth1".toList
  outIf := some "eth0".toList
  src := some "10.0.0.5".toList
  dst := some (if index < 65536 then "1.1.1.1".toList else "2.2.2.2".toList)
  proto := some "udp".toList
  spt := some 5353
  dpt := some (index % 65536)
  len := some 60
  icmpType := none

def floodKey (index : Nat) : AttrKey where
  proto := "udp".toList
  src := "10.0.0.5".toList
  dst := if index < 65536 then "1.1.1.1".toList else "2.2.2.2".toList
  dport := UInt16.ofNat (index % 65536)

theorem floodKey_injective {left right : Nat} (low : left < 131072)
    (high : right < 131072) (same : floodKey left = floodKey right) :
    left = right := by
  have hosts := congrArg AttrKey.dst same
  have ports := congrArg (fun key => key.dport.toNat) same
  simp only [floodKey, UInt16.toNat_ofNat'] at hosts ports
  split at hosts <;> split at hosts
  · omega
  · simp at hosts
  · simp at hosts
  · omega

def flood (packets : Nat) : List CacheAction :=
  (List.range packets).map fun index => .record (flooding index)

/-- All packets of a flood are in the map. -/
theorem run_flood {packets : Nat} (few : packets ≤ 131072) :
    (run (flood packets)).map.size = packets ∧
      ∀ row ∈ (run (flood packets)).map.rows, sighting row = 1700000000000 ∧
        ∃ index < packets, row.1 = floodKey index := by
  induction packets with
  | zero => exact ⟨rfl, fun row member => absurd member List.not_mem_nil⟩
  | succ packets ih =>
      obtain ⟨size, rows⟩ := ih (by omega)
      have last : flood (packets + 1) =
          flood packets ++ [.record (flooding packets)] := by
        rw [flood, List.range_succ, List.map_append]
        rfl
      have absent : (run (flood packets)).map.holds (floodKey packets) =
          false := by
        rw [← Bool.not_eq_true, Table.holds_iff]
        rintro ⟨value, member⟩
        obtain ⟨_, index, earlier, same⟩ := rows _ member
        have equal := floodKey_injective (by omega) (by omega) same
        omega
      have written : (run (flood (packets + 1))).map =
          (run (flood packets)).map.writeBounded sighting attrCap
            (floodKey packets) fun _ => (flooding packets).attr := by
        rw [last, run_snoc]
        rfl
      rw [written]
      constructor
      · rw [Table.size_writeBounded_uniform
          (fun row member => (rows row member).1) absent, size]
      · intro row member
        rcases Table.mem_writeBounded member with ⟨_, same⟩ | before
        · rw [same]
          exact ⟨rfl, packets, Nat.lt_succ_self _, rfl⟩
        · obtain ⟨stamp, index, earlier, same⟩ := rows row before
          exact ⟨stamp, index, Nat.lt_succ_of_lt earlier, same⟩

theorem flood_exceeds : ¬ (run (flood 100001)).Within := by
  intro within
  have size := (run_flood (by decide : 100001 ≤ 131072)).1
  have bound := within.map
  rw [size] at bound
  exact absurd bound (by decide)

end Attribution

end QuartzFire.Monitoring
