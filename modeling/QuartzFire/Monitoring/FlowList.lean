import Mathlib.Data.List.Dedup
import QuartzFire.Monitoring.Attribution

/-!
# The flow list

The flows of a window are the tuples conntrack counted, the heaviest first, and
the tuples the log says were blocked.  Both are ranked together and cut off, and
the response says what the whole window sums up to.
-/

namespace QuartzFire.Monitoring

/-- A row of `flow_buckets`. -/
structure FlowBucket where
  bucketTs : Int
  key : AttrKey
  bytesOrig : Nat
  bytesReply : Nat
  conns : Nat

/-- A tuple of the window with its sums. -/
structure TupleRow where
  key : AttrKey
  bytesOrig : Nat
  bytesReply : Nat
  conns : Nat
  deriving DecidableEq

structure FlowsQuery where
  window : Option (List Char)
  limit : Option Nat
  metric : Option (List Char)

/-- One aggregated flow; no chain where it never logged. -/
structure FlowRecord where
  key : AttrKey
  bytesOrig : Nat
  bytesReply : Nat
  bytes : Nat
  conns : Nat
  srcName : Option (List Char)
  dstName : Option (List Char)
  chain : Option (List Char)
  rule : Option Nat
  action : Option (List Char)
  ips : Bool
  inIf : Option (List Char)
  outIf : Option (List Char)
  deriving DecidableEq

structure FlowsResponse where
  flows : List FlowRecord
  totalBytes : Nat
  totalConns : Nat
  flowCount : Nat
  truncated : Bool
  attributedBytes : Nat
  attributedConns : Nat
  available : Bool
  window : List Char
  now : Int

def windowSecs (window : Option (List Char)) : Int :=
  match String.ofList (window.getD "5m".toList) with
  | "15m" => 900
  | "1h" => 3600
  | _ => 300

/-- Aligned down to a bucket. -/
def windowSince (now winSecs : Int) : Int :=
  let raw := now - winSecs
  raw - raw % flowBucketSecs

namespace FlowsQuery

def byHits (query : FlowsQuery) : Bool := query.metric = some "hits".toList

def cap (query : FlowsQuery) : Nat := min (max (query.limit.getD 400) 1) 2000

def since (query : FlowsQuery) (now : Int) : Int :=
  windowSince now (windowSecs query.window)

end FlowsQuery

def TupleRow.bytes (row : TupleRow) : Nat := row.bytesOrig + row.bytesReply

def TupleRow.rank (byHits : Bool) (row : TupleRow) : Nat :=
  if byHits then row.conns else row.bytes

def FlowRecord.rank (byHits : Bool) (flow : FlowRecord) : Nat :=
  if byHits then flow.conns else flow.bytes

/-- The tuples of the window with their sums. -/
def tupleRows (buckets : List FlowBucket) (since : Int) : List TupleRow :=
  (Tally.postAll FlowBucket.key
    (fun bucket => (bucket.bytesOrig, bucket.bytesReply, bucket.conns))
    (buckets.filter fun bucket => decide (since ≤ bucket.bucketTs))).map
      fun (key, orig, reply, conns) => ⟨key, orig, reply, conns⟩

/-- An answer of the database: the tuples, heaviest first, in the order it
leaves ties. -/
structure Answers (buckets : List FlowBucket) (since : Int) (byHits : Bool)
    (tuples : List TupleRow) : Prop where
  rows : tuples.Perm (tupleRows buckets since)
  ranked : tuples.Pairwise fun left right =>
    right.rank byHits ≤ left.rank byHits

section List

variable (names : List Char → Option (List Char)) (cache : Attribution)

def liveRecord (row : TupleRow) : FlowRecord :=
  let attr := cache.lookup row.key
  { key := row.key
    bytesOrig := row.bytesOrig
    bytesReply := row.bytesReply
    bytes := row.bytes
    conns := row.conns
    srcName := names row.key.src
    dstName := names row.key.dst
    chain := attr.map Attr.chain
    rule := attr.bind Attr.rule
    action := attr.map Attr.action
    ips := attr.any Attr.ips
    inIf := attr.bind Attr.inIf
    outIf := attr.bind Attr.outIf }

/-- None where the latest verdict is not there or accepts. -/
def blockedRecord (row : AttrKey × BlockedSums) : Option FlowRecord :=
  match cache.lookup row.1 with
  | none => none
  | some attr =>
      if attr.action = "accept".toList then none
      else some
        { key := row.1
          bytesOrig := row.2.1
          bytesReply := 0
          bytes := row.2.1
          conns := row.2.2
          srcName := names row.1.src
          dstName := names row.1.dst
          chain := some attr.chain
          rule := attr.rule
          action := some attr.action
          ips := attr.ips
          inIf := attr.inIf
          outIf := attr.outIf }

/-- The records of blocked tuples that are not among those seen. -/
def blockedRecords (seen : List AttrKey) (blocked : Tally AttrKey BlockedSums) :
    List FlowRecord :=
  (blocked.filter fun row => decide (row.1 ∉ seen)).filterMap
    (blockedRecord names cache)

def FlowRecord.attributed (flow : FlowRecord) : Bool := flow.chain.isSome

def bytesOf (flows : List FlowRecord) : Nat := (flows.map FlowRecord.bytes).sum

def connsOf (flows : List FlowRecord) : Nat := (flows.map FlowRecord.conns).sum

/-- `sort_by_key` is stable. -/
def rankFlows (byHits : Bool) (flows : List FlowRecord) : List FlowRecord :=
  flows.insertionSort fun left right => right.rank byHits ≤ left.rank byHits

/-- Every flow of the response before the cap is applied to it. -/
def mergedFlows (query : FlowsQuery) (tuples : List TupleRow)
    (blocked : Tally AttrKey BlockedSums) : List FlowRecord :=
  let rows := tuples.take query.cap
  rankFlows query.byHits (rows.map (liveRecord names cache) ++
    blockedRecords names cache (rows.map TupleRow.key) blocked)

/-- `tuples` is what the database answers, none where there is none yet;
`blocked` is what the log counted in the window, in the order it is met. -/
def list (query : FlowsQuery) (now : Int) (tuples : Option (List TupleRow))
    (blocked : Tally AttrKey BlockedSums) : FlowsResponse :=
  let all := tuples.getD []
  let rows := all.take query.cap
  let live := rows.map (liveRecord names cache)
  let dropped := blockedRecords names cache (rows.map TupleRow.key) blocked
  let flows := (mergedFlows names cache query all blocked).take query.cap
  let flowCount := all.length + dropped.length
  { flows
    totalBytes := (all.map TupleRow.bytes).sum + bytesOf dropped
    totalConns := (all.map TupleRow.conns).sum + connsOf dropped
    flowCount
    truncated := flows.length < flowCount
    attributedBytes :=
      bytesOf (live.filter FlowRecord.attributed) + bytesOf dropped
    attributedConns :=
      connsOf (live.filter FlowRecord.attributed) + connsOf dropped
    available := tuples.isSome
    window := query.window.getD "5m".toList
    now }

/-! ## What the sums are of -/

/-- The tuples that are there: live ones, and blocked ones by their latest
verdict. -/
def presentKeys (tuples : List TupleRow) (blocked : Tally AttrKey BlockedSums) :
    List AttrKey :=
  (tuples.map TupleRow.key ++
    (blockedRecords names cache [] blocked).map FlowRecord.key).dedup

/-- The sums are over what is shown, and each tuple counts once: as a live one,
or else as a blocked one. -/
structure Accounts (tuples : List TupleRow)
    (blocked : Tally AttrKey BlockedSums) (response : FlowsResponse) :
    Prop where
  attributedBytes : response.attributedBytes =
    bytesOf (response.flows.filter FlowRecord.attributed)
  attributedConns : response.attributedConns =
    connsOf (response.flows.filter FlowRecord.attributed)
  flowCount : response.flowCount = (presentKeys names cache tuples blocked).length
  totalBytes : response.totalBytes = (tuples.map TupleRow.bytes).sum +
    bytesOf (blockedRecords names cache (tuples.map TupleRow.key) blocked)
  totalConns : response.totalConns = (tuples.map TupleRow.conns).sum +
    connsOf (blockedRecords names cache (tuples.map TupleRow.key) blocked)

/-- What is cut off and attributed weighs nothing. -/
def CutsUnattributed (query : FlowsQuery) (tuples : List TupleRow)
    (blocked : Tally AttrKey BlockedSums) : Prop :=
  ∀ flow ∈ (mergedFlows names cache query tuples blocked).drop query.cap,
    flow.attributed = true → flow.bytes = 0 ∧ flow.conns = 0

/-- No blocked tuple is one of the live tuples that were cut off. -/
def BlocksUncut (query : FlowsQuery) (tuples : List TupleRow)
    (blocked : Tally AttrKey BlockedSums) : Prop :=
  ∀ flow ∈ blockedRecords names cache [] blocked,
    flow.key ∉ (tuples.drop query.cap).map TupleRow.key

/-! ### The pieces -/

theorem blockedRecord_eq_some {row : AttrKey × BlockedSums} {flow : FlowRecord}
    (made : blockedRecord names cache row = some flow) :
    flow.key = row.1 ∧ flow.attributed = true := by
  unfold blockedRecord at made
  split at made
  · cases made
  · split at made
    · cases made
    · cases made
      exact ⟨rfl, rfl⟩

theorem blockedRecords_nil (blocked : Tally AttrKey BlockedSums) :
    blockedRecords names cache [] blocked =
      blocked.filterMap (blockedRecord names cache) := by
  rw [blockedRecords,
    List.filter_eq_self.mpr fun row _ => decide_eq_true List.not_mem_nil]

theorem blockedRecords_eq (seen : List AttrKey)
    (blocked : Tally AttrKey BlockedSums) :
    blockedRecords names cache seen blocked =
      (blockedRecords names cache [] blocked).filter fun flow =>
        decide (flow.key ∉ seen) := by
  rw [blockedRecords_nil, blockedRecords]
  induction blocked with
  | nil => rfl
  | cons row rest ih =>
      rw [List.filterMap_cons]
      cases made : blockedRecord names cache row with
      | none =>
          by_cases among : row.1 ∈ seen
          · rw [List.filter_cons_of_neg (by simp [among]), ih]
          · rw [List.filter_cons_of_pos (by simp [among]),
              List.filterMap_cons_none made, ih]
      | some flow =>
          have key := (blockedRecord_eq_some names cache made).1
          by_cases among : row.1 ∈ seen
          · rw [List.filter_cons_of_neg (by simp [among]),
              List.filter_cons_of_neg (by simp [key, among]), ih]
          · rw [List.filter_cons_of_pos (by simp [among]),
              List.filter_cons_of_pos (by simp [key, among]),
              List.filterMap_cons_some made, ih]

theorem attributed_blockedRecords {seen : List AttrKey}
    {blocked : Tally AttrKey BlockedSums} {flow : FlowRecord}
    (member : flow ∈ blockedRecords names cache seen blocked) :
    flow.attributed = true := by
  obtain ⟨row, _, made⟩ := List.mem_filterMap.mp member
  exact (blockedRecord_eq_some names cache made).2

/-- The records of distinct tuples are of distinct tuples. -/
theorem nodup_blockedRecords {blocked : Tally AttrKey BlockedSums}
    (distinct : (blocked.map Prod.fst).Nodup) :
    ((blockedRecords names cache [] blocked).map FlowRecord.key).Nodup := by
  have fewer : ((blockedRecords names cache [] blocked).map
      FlowRecord.key).Sublist (blocked.map Prod.fst) := by
    rw [blockedRecords_nil]
    clear distinct
    induction blocked with
    | nil => exact .slnil
    | cons row rest ih =>
        rw [List.filterMap_cons]
        cases made : blockedRecord names cache row with
        | none => exact ih.cons _
        | some flow =>
            rw [List.map_cons, List.map_cons,
              (blockedRecord_eq_some names cache made).1]
            exact ih.cons_cons _
  exact fewer.nodup distinct

end List

section Exact

variable {names : List Char → Option (List Char)} {cache : Attribution}
  {query : FlowsQuery} {tuples : List TupleRow}
  {blocked : Tally AttrKey BlockedSums}

/-- What is attributed before the cut and what is attributed after it weigh the
same exactly if nothing of weight is cut off. -/
theorem attributed_sum (weight : FlowRecord → Nat) :
    ((((tuples.take query.cap).map (liveRecord names cache)).filter
        FlowRecord.attributed).map weight).sum +
      ((blockedRecords names cache ((tuples.take query.cap).map TupleRow.key)
        blocked).map weight).sum =
      ((((mergedFlows names cache query tuples blocked).take query.cap).filter
        FlowRecord.attributed).map weight).sum ↔
      ∀ flow ∈ (mergedFlows names cache query tuples blocked).drop query.cap,
        flow.attributed = true → weight flow = 0 := by
  have same : (mergedFlows names cache query tuples blocked).Perm _ :=
    List.perm_insertionSort _ _
  have whole := ((same.filter FlowRecord.attributed).map weight).sum_nat
  rw [List.filter_append, List.map_append, List.sum_append_nat,
    List.filter_eq_self.mpr fun flow member =>
      attributed_blockedRecords names cache member] at whole
  rw [← whole]
  generalize mergedFlows names cache query tuples blocked = merged
  have parts := congrArg (fun flows =>
    ((flows.filter FlowRecord.attributed).map weight).sum)
      (List.take_append_drop query.cap merged)
  rw [List.filter_append, List.map_append, List.sum_append_nat] at parts
  rw [← parts, Nat.add_eq_left, List.sum_eq_zero_iff_forall_eq_nat]
  constructor
  · intro nothing flow member attributed
    exact nothing _ (List.mem_map_of_mem (List.mem_filter.mpr
      ⟨member, attributed⟩))
  · intro nothing amount member
    obtain ⟨flow, inside, rfl⟩ := List.mem_map.mp member
    obtain ⟨among, attributed⟩ := List.mem_filter.mp inside
    exact nothing flow among attributed

/-- Filters of which one is stronger leave equally many exactly if both leave
the same. -/
theorem length_filter_eq_iff {Item : Type} {items : List Item}
    {strong weak : Item → Bool}
    (implies : ∀ item ∈ items, strong item = true → weak item = true) :
    (items.filter weak).length = (items.filter strong).length ↔
      ∀ item ∈ items, weak item = true → strong item = true := by
  have within : (items.filter strong) =
      (items.filter weak).filter strong := by
    rw [List.filter_filter]
    apply List.filter_congr
    intro item member
    cases holds : strong item with
    | false => rfl
    | true => rw [implies item member holds, Bool.and_self]
  rw [within]
  constructor
  · intro lengths item member holds
    have whole := List.filter_sublist.eq_of_length lengths.symm
    have inside := List.mem_filter.mpr ⟨member, holds⟩
    rw [← whole] at inside
    exact (List.mem_filter.mp inside).2
  · intro all
    congr 1
    symm
    apply List.filter_eq_self.mpr
    intro item member
    obtain ⟨inside, holds⟩ := List.mem_filter.mp member
    exact all item inside holds

theorem length_presentKeys (distinct : (tuples.map TupleRow.key).Nodup)
    (apart : (blocked.map Prod.fst).Nodup) :
    (presentKeys names cache tuples blocked).length =
      tuples.length + (blockedRecords names cache (tuples.map TupleRow.key)
        blocked).length := by
  rw [blockedRecords_eq]
  have keys := nodup_blockedRecords names cache apart
  unfold presentKeys
  generalize blockedRecords names cache [] blocked = records at keys
  have same : (tuples.map TupleRow.key ++ records.map FlowRecord.key).dedup.Perm
      (tuples.map TupleRow.key ++ (records.filter fun flow =>
        decide (flow.key ∉ tuples.map TupleRow.key)).map FlowRecord.key) := by
    rw [List.perm_ext_iff_of_nodup (List.nodup_dedup _)]
    · intro key
      simp only [List.mem_dedup, List.mem_append, List.mem_map,
        List.mem_filter, decide_eq_true_eq]
      constructor
      · rintro (live | ⟨flow, member, rfl⟩)
        · exact .inl live
        · by_cases live : ∃ row ∈ tuples, row.key = flow.key
          · exact .inl live
          · exact .inr ⟨flow, ⟨member, live⟩, rfl⟩
      · rintro (live | ⟨flow, ⟨member, _⟩, rfl⟩)
        · exact .inl live
        · exact .inr ⟨flow, member, rfl⟩
    · rw [List.nodup_append]
      refine ⟨distinct, (List.filter_sublist.map _).nodup keys, ?_⟩
      rintro key live _ cut rfl
      obtain ⟨flow, member, rfl⟩ := List.mem_map.mp cut
      exact of_decide_eq_true (List.mem_filter.mp member).2 live
  rw [same.length_eq, List.length_append, List.length_map, List.length_map]

/-- Blocked tuples that are not among the heaviest are no live ones at all. -/
theorem blocksUncut_iff (distinct : (tuples.map TupleRow.key).Nodup) :
    BlocksUncut names cache query tuples blocked ↔
      ∀ flow ∈ blockedRecords names cache [] blocked,
        flow.key ∉ (tuples.take query.cap).map TupleRow.key →
          flow.key ∉ tuples.map TupleRow.key := by
  have parts := List.take_append_drop query.cap tuples
  have split : tuples.map TupleRow.key =
      (tuples.take query.cap).map TupleRow.key ++
        (tuples.drop query.cap).map TupleRow.key := by
    rw [← List.map_append, parts]
  rw [split] at distinct ⊢
  rw [List.nodup_append] at distinct
  constructor
  · intro uncut flow member outside live
    rcases List.mem_append.mp live with inside | cut
    · exact outside inside
    · exact uncut flow member cut
  · intro uncut flow member cut
    have outside : flow.key ∉ (tuples.take query.cap).map TupleRow.key :=
      fun inside => distinct.2.2 _ inside _ cut rfl
    exact uncut flow member outside (List.mem_append_right _ cut)

theorem accounts_iff (now : Int) (answer : Option (List TupleRow))
    (distinct : ((answer.getD []).map TupleRow.key).Nodup)
    (apart : (blocked.map Prod.fst).Nodup) :
    Accounts names cache (answer.getD []) blocked
      (list names cache query now answer blocked) ↔
      CutsUnattributed names cache query (answer.getD []) blocked ∧
        BlocksUncut names cache query (answer.getD []) blocked := by
  have bytes := @attributed_sum names cache query (answer.getD []) blocked
    FlowRecord.bytes
  have conns := @attributed_sum names cache query (answer.getD []) blocked
    FlowRecord.conns
  have counted := @length_presentKeys names cache _ _ distinct apart
  have uncut := @blocksUncut_iff names cache query _ blocked distinct
  have top := blockedRecords_eq names cache
    (((answer.getD []).take query.cap).map TupleRow.key) blocked
  have all := blockedRecords_eq names cache
    ((answer.getD []).map TupleRow.key) blocked
  have lengths := @length_filter_eq_iff _
    (blockedRecords names cache [] blocked)
    (fun flow => decide (flow.key ∉ (answer.getD []).map TupleRow.key))
    (fun flow => decide
      (flow.key ∉ ((answer.getD []).take query.cap).map TupleRow.key))
    (fun flow _ outside => by
      rw [decide_eq_true_eq] at outside ⊢
      intro inside
      exact outside ((List.take_sublist _ _).map _ |>.subset inside))
  rw [← top, ← all] at lengths
  constructor
  · intro accounts
    refine ⟨fun flow cut attributed =>
      ⟨bytes.mp accounts.attributedBytes flow cut attributed,
        conns.mp accounts.attributedConns flow cut attributed⟩, ?_⟩
    have count := accounts.flowCount
    rw [counted] at count
    have equal := lengths.mp (Nat.add_left_cancel count)
    refine uncut.mpr fun flow member outside => ?_
    exact of_decide_eq_true (equal flow member (decide_eq_true outside))
  · rintro ⟨cuts, blocks⟩
    have equal : blockedRecords names cache
        (((answer.getD []).take query.cap).map TupleRow.key) blocked =
          blockedRecords names cache ((answer.getD []).map TupleRow.key)
            blocked := by
      rw [top, all]
      apply List.filter_congr
      intro flow member
      rw [decide_eq_decide]
      constructor
      · exact uncut.mp blocks flow member
      · intro outside inside
        exact outside ((List.take_sublist _ _).map _ |>.subset inside)
    refine ⟨?_, ?_, ?_, ?_, ?_⟩
    · exact bytes.mpr fun flow cut attributed => (cuts flow cut attributed).1
    · exact conns.mpr fun flow cut attributed => (cuts flow cut attributed).2
    · rw [counted, ← equal]
      rfl
    · rw [← equal]
      rfl
    · rw [← equal]
      rfl

/-- For every answer of the database and every order in which the blocked
tuples are met. -/
theorem list_accounts_iff {database : Option (List FlowBucket)} {now : Int}
    {answer : Option (List TupleRow)}
    (answers : Option.Rel (fun buckets tuples =>
      Answers buckets (query.since now) query.byHits tuples) database answer)
    (met : blocked.Perm (cache.blockedInWindow (query.since now) now).1) :
    Accounts names cache (answer.getD []) blocked
      (list names cache query now answer blocked) ↔
      CutsUnattributed names cache query (answer.getD []) blocked ∧
        BlocksUncut names cache query (answer.getD []) blocked := by
  apply accounts_iff
  · cases answers with
    | none => exact List.nodup_nil
    | some rows =>
        rw [Option.getD_some, (rows.rows.map _).nodup_iff, tupleRows,
          List.map_map]
        exact Tally.nodup_postAll _ _ _
  · rw [(met.map _).nodup_iff]
    exact Tally.nodup_postAll _ _ _

end Exact

/-! ## A tuple that is blocked and live -/

def webKey : AttrKey :=
  ⟨"tcp".toList, "10.0.0.5".toList, "1.1.1.1".toList, 443⟩

def dnsKey : AttrKey :=
  ⟨"udp".toList, "10.0.0.5".toList, "2.2.2.2".toList, 53⟩

/-- The web tuple is let through, the name server's is stopped by now. -/
def mixedCache : Attribution :=
  let entry : LogEntry :=
    ⟨1699999900000, "ipv4".toList, "forward".toList, some 10, "accept".toList,
      false, some "eth1".toList, some "eth0".toList, some "10.0.0.5".toList,
      some "1.1.1.1".toList, some "tcp".toList, none, some 443, some 60, none⟩
  Attribution.run
    [.record entry,
      .record { entry with
        rule := some 20
        action := "drop".toList
        dst := some "2.2.2.2".toList
        proto := some "udp".toList
        dpt := some 53 }]

def mixedBuckets : List FlowBucket :=
  [⟨1699999800, webKey, 900, 100, 1⟩, ⟨1699999800, dnsKey, 6, 4, 1⟩]

def mixedTuples : List TupleRow :=
  [⟨webKey, 900, 100, 1⟩, ⟨dnsKey, 6, 4, 1⟩]

def mixedBlocked : Tally AttrKey BlockedSums := [(dnsKey, (60, 1))]

def limited (limit : Nat) : FlowsQuery := ⟨none, some limit, none⟩

def mixedResponse (limit : Nat) : FlowsResponse :=
  list (fun _ => none) mixedCache (limited limit) 1700000000 (some mixedTuples)
    mixedBlocked

theorem mixed_answers :
    Answers mixedBuckets ((limited 2).since 1700000000) (limited 2).byHits
      mixedTuples ∧
    mixedBlocked.Perm (mixedCache.blockedInWindow
      ((limited 2).since 1700000000) 1700000000).1 := by
  refine ⟨⟨?_, ?_⟩, ?_⟩
  · decide +kernel
  · decide +kernel
  · decide +kernel

/-- With both tuples shown the sums are right. -/
theorem mixed_accounts :
    Accounts (fun _ => none) mixedCache mixedTuples mixedBlocked
      (mixedResponse 2) := by
  apply (list_accounts_iff (.some mixed_answers.1) mixed_answers.2).mpr
  constructor
  · unfold CutsUnattributed
    decide +kernel
  · unfold BlocksUncut
    decide +kernel

/-- With one shown, the other is counted twice, and as if it were shown. -/
theorem mixed_miscounts :
    Answers mixedBuckets ((limited 1).since 1700000000) (limited 1).byHits
      mixedTuples ∧
    mixedBlocked.Perm (mixedCache.blockedInWindow
      ((limited 1).since 1700000000) 1700000000).1 ∧
    (mixedResponse 1).attributedBytes ≠
      bytesOf ((mixedResponse 1).flows.filter FlowRecord.attributed) ∧
    (mixedResponse 1).flowCount = 3 ∧
    (presentKeys (fun _ => none) mixedCache mixedTuples
      mixedBlocked).length = 2 := by
  refine ⟨mixed_answers.1, mixed_answers.2, ?_, ?_, ?_⟩
  · decide +kernel
  · decide +kernel
  · decide +kernel

end QuartzFire.Monitoring
