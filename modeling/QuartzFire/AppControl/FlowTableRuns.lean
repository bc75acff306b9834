import QuartzFire.AppControl.FlowTable
import QuartzFire.Foundation.Lru
import QuartzFire.Nft.Address
import Mathlib.Order.Defs.LinearOrder
import Mathlib.Data.Prod.Lex
import Mathlib.Data.List.Induction

/-!
# Runs of the flow table

The flow table over any cache by recency of use, and what holds after any
operations while the clock does not go back: the order of recency is the order
of the last sightings, so that the last entry is the one to evict, and a sweep
may stop at the first fresh one.
-/

namespace QuartzFire.AppControl

/-! ## The table over a cache -/

structure CachedFlows {Key Value : Type} (lru : Lru Key (Entry Value)) where
  entries : lru.Cache
  idleTimeout : Nat
  evictedLru : Nat
  evictedIdle : Nat

namespace CachedFlows

variable {Key Value : Type} {lru : Lru Key (Entry Value)}

def new (lru : Lru Key (Entry Value)) (maxEntries idleTimeout : Nat) :
    CachedFlows lru :=
  ⟨lru.withCap (max maxEntries 1), idleTimeout, 0, 0⟩

/-- Fetch-and-touch: the value, and the table with what is stored through the
reference. -/
def getMut (table : CachedFlows lru) (key : Key) (now : Nat) :
    Option (Value × (Value → CachedFlows lru)) :=
  (lru.getMut table.entries key).map fun (entry, store) =>
    (entry.value, fun value =>
      { table with entries := store { entry with lastSeen := now, value } })

/-- Insert a flow; the value that is evicted for it is returned. -/
def insert (table : CachedFlows lru) (key : Key) (value : Value) (now : Nat) :
    Option Value × CachedFlows lru :=
  let evicts := lru.len table.entries = lru.cap table.entries ∧
    lru.contains table.entries key = false
  let popped := if evicts then lru.popLru table.entries else none
  let entries := (popped.map Prod.snd).getD table.entries
  (popped.map fun entry => entry.1.2.value,
    { table with
      entries := lru.put entries key ⟨value, now⟩
      evictedLru := table.evictedLru + if evicts then 1 else 0 })

theorem insert_of_full {table : CachedFlows lru} {key : Key} {value : Value}
    {now : Nat} {last : Key × Entry Value} {rest : lru.Cache}
    (full : lru.len table.entries = lru.cap table.entries ∧
      lru.contains table.entries key = false)
    (popped : lru.popLru table.entries = some (last, rest)) :
    table.insert key value now = (some last.2.value,
      { table with
        entries := lru.put rest key ⟨value, now⟩
        evictedLru := table.evictedLru + 1 }) := by
  simp only [insert, if_pos full, popped, Option.map_some, Option.getD_some]

theorem insert_of_free {table : CachedFlows lru} {key : Key} {value : Value}
    {now : Nat}
    (free : ¬ (lru.len table.entries = lru.cap table.entries ∧
      lru.contains table.entries key = false)) :
    table.insert key value now = (none,
      { table with entries := lru.put table.entries key ⟨value, now⟩ }) := by
  simp only [insert, if_neg free, Option.map_none, Option.getD_none,
    Nat.add_zero]

def remove (table : CachedFlows lru) (key : Key) :
    Option Value × CachedFlows lru :=
  match lru.pop table.entries key with
  | some (entry, rest) => (some entry.value, { table with entries := rest })
  | none => (none, table)

/-- The loop of `sweep`, which pops an entry each time around. -/
def sweepLoop (now : Nat) : Nat → CachedFlows lru → List (Key × Value) →
    List (Key × Value) × CachedFlows lru
  | 0, table, out => (out, table)
  | rounds + 1, table, out =>
      match lru.peekLru table.entries with
      | none => (out, table)
      | some (_, entry) =>
          if now - entry.lastSeen < table.idleTimeout then (out, table)
          else
            match lru.popLru table.entries with
            | none => (out, table)
            | some ((key, entry), rest) =>
                sweepLoop now rounds
                  { table with
                    entries := rest
                    evictedIdle := table.evictedIdle + 1 }
                  (out ++ [(key, entry.value)])

theorem sweepLoop_none {now rounds : Nat} {table : CachedFlows lru}
    (peeked : lru.peekLru table.entries = none) (out : List (Key × Value)) :
    sweepLoop now rounds table out = (out, table) := by
  cases rounds with
  | zero => rfl
  | succ rounds => simp only [sweepLoop, peeked]

theorem sweepLoop_fresh {now rounds : Nat} {table : CachedFlows lru}
    {last : Key × Entry Value} (peeked : lru.peekLru table.entries = some last)
    (fresh : now - last.2.lastSeen < table.idleTimeout)
    (out : List (Key × Value)) :
    sweepLoop now rounds table out = (out, table) := by
  cases rounds with
  | zero => rfl
  | succ rounds => simp only [sweepLoop, peeked, if_pos fresh]

theorem sweepLoop_idle {now rounds : Nat} {table : CachedFlows lru}
    {last : Key × Entry Value} {rest : lru.Cache}
    (peeked : lru.peekLru table.entries = some last)
    (idle : ¬ now - last.2.lastSeen < table.idleTimeout)
    (popped : lru.popLru table.entries = some (last, rest))
    (out : List (Key × Value)) :
    sweepLoop now (rounds + 1) table out = sweepLoop now rounds
      { table with entries := rest, evictedIdle := table.evictedIdle + 1 }
      (out ++ [(last.1, last.2.value)]) := by
  simp only [sweepLoop, peeked, if_neg idle, popped]

/-- Evict idle entries from the least recently used end, stopping at the first
fresh one. -/
def sweep (table : CachedFlows lru) (now : Nat) :
    List (Key × Value) × CachedFlows lru :=
  sweepLoop now (lru.len table.entries) table []

end CachedFlows

/-! ## The order of the last sightings -/

namespace FlowTable

variable {Key Value : Type}

/-- Within the capacity, no key twice, and the last sightings, none of them in
the future, in the order of recency. -/
structure Ordered (table : FlowTable Key Value) (clock : Nat) : Prop where
  bounded : table.entries.length ≤ table.cap
  positive : 0 < table.cap
  distinct : (table.entries.map Prod.fst).Nodup
  sorted : table.entries.Pairwise fun newer older =>
    older.2.lastSeen ≤ newer.2.lastSeen
  past : ∀ entry ∈ table.entries, entry.2.lastSeen ≤ clock

theorem ordered_new (maxEntries idleTimeout clock : Nat) :
    (new maxEntries idleTimeout : FlowTable Key Value).Ordered clock where
  bounded := Nat.zero_le _
  positive := by simp [new]
  distinct := List.nodup_nil
  sorted := List.Pairwise.nil
  past := by simp [new]

variable {table : FlowTable Key Value} {clock now : Nat}

/-- Time may pass. -/
theorem Ordered.later (ordered : table.Ordered clock) (passes : clock ≤ now) :
    table.Ordered now :=
  { ordered with
    past := fun entry member => Nat.le_trans (ordered.past entry member) passes }

/-- Some of the entries, in their order. -/
theorem Ordered.fewer (ordered : table.Ordered clock)
    {entries : List (Key × Entry Value)}
    (sublist : entries.Sublist table.entries) (evictedLru evictedIdle : Nat) :
    Ordered { table with entries, evictedLru, evictedIdle } clock where
  bounded := Nat.le_trans sublist.length_le ordered.bounded
  positive := ordered.positive
  distinct := ordered.distinct.sublist (sublist.map Prod.fst)
  sorted := ordered.sorted.sublist sublist
  past := fun entry member => ordered.past entry (sublist.subset member)

/-- In the order of recency, what is idle is behind what is fresh. -/
theorem Ordered.idle_reverse (ordered : table.Ordered clock) (now : Nat) :
    table.entries.reverse.Pairwise fun earlier later =>
      (Decidable.decide (table.idleTimeout ≤ now - later.2.lastSeen)) = true →
        (Decidable.decide (table.idleTimeout ≤ now - earlier.2.lastSeen)) =
          true := by
  rw [List.pairwise_reverse]
  refine ordered.sorted.imp fun {newer older} before idle => ?_
  rw [decide_eq_true_eq] at idle ⊢
  omega

variable [DecidableEq Key]

/-- An entry that is seen now comes before what is left. -/
theorem Ordered.front (ordered : table.Ordered clock) (passes : clock ≤ now)
    {entries : List (Key × Entry Value)}
    (sublist : entries.Sublist table.entries) (key : Key) (value : Value)
    (room : (Lru.without entries key).length < table.cap) (evictedLru : Nat) :
    Ordered { table with
      entries := (key, ⟨value, now⟩) :: Lru.without entries key
      evictedLru } now where
  bounded := room
  positive := ordered.positive
  distinct := Lru.Recency.nodup_front key
    (ordered.distinct.sublist (sublist.map Prod.fst)) _
  sorted := by
    have left : (Lru.without entries key).Sublist table.entries :=
      List.filter_sublist.trans sublist
    rw [List.pairwise_cons]
    refine ⟨fun entry member => ?_, ordered.sorted.sublist left⟩
    exact Nat.le_trans (ordered.past entry (left.subset member)) passes
  past := by
    intro entry member
    rcases List.mem_cons.mp member with rfl | later
    · exact Nat.le_refl now
    · have left : (Lru.without entries key).Sublist table.entries :=
        List.filter_sublist.trans sublist
      exact Nat.le_trans (ordered.past entry (left.subset later)) passes

/-- Without one of its keys a list is shorter. -/
theorem length_without_lt {entries : List (Key × Entry Value)} {key : Key}
    (member : key ∈ entries.map Prod.fst) :
    (Lru.without entries key).length < entries.length := by
  obtain ⟨entry, inside, rfl⟩ := List.mem_map.mp member
  rw [Lru.without]
  refine List.length_filter_lt_length_iff_exists.mpr ⟨entry, inside, ?_⟩
  simp

theorem contains_iff {key : Key} :
    table.contains key = true ↔ key ∈ table.entries.map Prod.fst := by
  rw [contains, List.any_eq_true, List.mem_map]
  simp only [decide_eq_true_eq]

/-- An insertion evicts. -/
def Full (table : FlowTable Key Value) (key : Key) : Prop :=
  table.entries.length = table.cap ∧ table.contains key = false

instance (table : FlowTable Key Value) (key : Key) :
    Decidable (table.Full key) :=
  inferInstanceAs (Decidable (_ ∧ _))

theorem insert_of_full {key : Key} {value : Value} (full : table.Full key) :
    table.insert key value now =
      { table with
        entries :=
          (key, ⟨value, now⟩) :: Lru.without table.entries.dropLast key
        evictedLru := table.evictedLru + 1 } := by
  rw [Full] at full
  rw [insert, if_pos full, if_pos full]
  rfl

theorem insert_of_free {key : Key} {value : Value} (free : ¬ table.Full key) :
    table.insert key value now =
      { table with
        entries := (key, ⟨value, now⟩) :: Lru.without table.entries key } := by
  rw [Full] at free
  rw [insert, if_neg free, if_neg free]
  rfl

theorem ordered_insert (ordered : table.Ordered clock) (passes : clock ≤ now)
    (key : Key) (value : Value) : (table.insert key value now).Ordered now := by
  have bounded := ordered.bounded
  have positive := ordered.positive
  refine ordered.front passes ?_ key value ?_ _
  · split
    · exact List.dropLast_sublist _
    · exact List.Sublist.refl _
  · split
    · rename_i full
      have shorter := List.length_filter_le
        (fun other : Key × Entry Value => Decidable.decide (other.1 ≠ key))
        table.entries.dropLast
      rw [List.length_dropLast] at shorter
      simp only [Lru.without]
      omega
    · rename_i free
      have shorter := List.length_filter_le
        (fun other : Key × Entry Value => Decidable.decide (other.1 ≠ key))
        table.entries
      by_cases member : key ∈ table.entries.map Prod.fst
      · have less := length_without_lt member
        omega
      · have short : table.entries.length ≠ table.cap := by
          intro full
          refine free ⟨full, ?_⟩
          rw [← Bool.not_eq_true, contains_iff]
          exact member
        simp only [Lru.without]
        omega

theorem ordered_touch (ordered : table.Ordered clock) (passes : clock ≤ now)
    {key : Key} (member : key ∈ table.entries.map Prod.fst) (value : Value) :
    Ordered { table with
      entries := (key, ⟨value, now⟩) :: Lru.without table.entries key } now :=
  ordered.front passes (List.Sublist.refl _) key value
    (Nat.lt_of_lt_of_le (length_without_lt member) ordered.bounded) _

/-! ### What is evicted -/

omit [DecidableEq Key] in
/-- One more entry at the end, which is idle. -/
theorem sweep_idle {front : List (Key × Entry Value)} {last : Key × Entry Value}
    (entries : table.entries = front ++ [last])
    (idle : table.idleTimeout ≤ now - last.2.lastSeen) :
    table.sweep now = sweep { table with
      entries := front, evictedIdle := table.evictedIdle + 1 } now := by
  have dropped : table.entries.reverse.dropWhile (fun entry =>
      Decidable.decide (table.idleTimeout ≤ now - entry.2.lastSeen)) =
        front.reverse.dropWhile fun entry =>
          Decidable.decide (table.idleTimeout ≤ now - entry.2.lastSeen) := by
    rw [entries, List.reverse_append, List.reverse_singleton,
      List.singleton_append, List.dropWhile_cons_of_pos (by simpa using idle)]
  have shorter : (front.reverse.dropWhile fun entry =>
      Decidable.decide
        (table.idleTimeout ≤ now - entry.2.lastSeen)).reverse.length ≤
        front.length := by
    have sublist : (front.reverse.dropWhile fun entry =>
        Decidable.decide (table.idleTimeout ≤ now - entry.2.lastSeen)).length ≤
          front.reverse.length := (List.dropWhile_sublist _).length_le
    simpa using sublist
  rw [sweep, sweep, dropped, entries, List.length_append, List.length_singleton]
  simp only [FlowTable.mk.injEq, true_and]
  omega

omit [DecidableEq Key] in
theorem sweep_fresh {front : List (Key × Entry Value)}
    {last : Key × Entry Value} (entries : table.entries = front ++ [last])
    (fresh : now - last.2.lastSeen < table.idleTimeout) :
    table.sweep now = table := by
  have kept : table.entries.reverse.dropWhile (fun entry =>
      Decidable.decide (table.idleTimeout ≤ now - entry.2.lastSeen)) =
        table.entries.reverse := by
    rw [entries, List.reverse_append, List.reverse_singleton,
      List.singleton_append, List.dropWhile_cons_of_neg (by simpa using fresh)]
  rw [sweep, kept, List.reverse_reverse, Nat.sub_self, Nat.add_zero]

omit [DecidableEq Key] in
/-- A sweep leaves exactly the fresh entries. -/
theorem entries_sweep (ordered : table.Ordered clock) (now : Nat) :
    (table.sweep now).entries = table.entries.filter fun entry =>
      !Decidable.decide (table.idleTimeout ≤ now - entry.2.lastSeen) := by
  rw [sweep, dropWhile_eq_filter (ordered.idle_reverse now),
    ← List.filter_reverse, List.reverse_reverse]

omit [DecidableEq Key] in
theorem ordered_sweep (ordered : table.Ordered clock) (passes : clock ≤ now) :
    (table.sweep now).Ordered now := by
  have kept := entries_sweep ordered now
  have swept : table.sweep now = { table with
      entries := table.entries.filter fun entry =>
        !Decidable.decide (table.idleTimeout ≤ now - entry.2.lastSeen)
      evictedIdle := (table.sweep now).evictedIdle } := by
    rw [← kept]
    rfl
  rw [swept]
  exact (ordered.later passes).fewer List.filter_sublist _ _

end FlowTable

/-! ## The cache keeps to the list -/

namespace CachedFlows

variable {Key Value : Type} [DecidableEq Key] {lru : Lru Key (Entry Value)}
  {recency : lru.Cache → List (Key × Entry Value)}

/-- The table by its entries in order of recency. -/
def view (recency : lru.Cache → List (Key × Entry Value))
    (table : CachedFlows lru) : FlowTable Key Value where
  entries := recency table.entries
  cap := lru.cap table.entries
  idleTimeout := table.idleTimeout
  evictedLru := table.evictedLru
  evictedIdle := table.evictedIdle

section Refinement

variable (lawful : lru.Lawful recency) {table : CachedFlows lru}
include lawful

theorem view_new (maxEntries idleTimeout : Nat) :
    view recency (new lru maxEntries idleTimeout) =
      FlowTable.new maxEntries idleTimeout := by
  obtain ⟨empty, cap⟩ := lawful.withCap (max maxEntries 1) (by omega)
  rw [view, new, empty, cap]
  rfl

theorem view_getMut {key : Key} {now : Nat} {value : Value}
    {store : Value → CachedFlows lru}
    (found : table.getMut key now = some (value, store)) :
    key ∈ (view recency table).entries.map Prod.fst ∧
      ∀ new, view recency (store new) = { view recency table with
        entries := (key, ⟨new, now⟩) ::
          Lru.without (view recency table).entries key } := by
  by_cases member : key ∈ (recency table.entries).map Prod.fst
  · obtain ⟨⟨_, entry⟩, inside, rfl⟩ := List.mem_map.mp member
    obtain ⟨back, same, writes⟩ := lawful.getMut _ _ _ inside
    rw [getMut, same] at found
    cases found
    refine ⟨member, fun new => ?_⟩
    obtain ⟨entries, cap⟩ := writes ⟨new, now⟩
    simp only [view, entries, cap]
  · rw [getMut, lawful.getMut_none _ _ member] at found
    cases found

theorem view_remove (key : Key) :
    view recency (table.remove key).2 = (view recency table).remove key := by
  by_cases member : key ∈ (recency table.entries).map Prod.fst
  · obtain ⟨⟨_, entry⟩, inside, rfl⟩ := List.mem_map.mp member
    obtain ⟨rest, same, entries, cap⟩ := lawful.pop _ _ _ inside
    simp only [remove, same, view, entries, cap, FlowTable.remove, Lru.without]
  · have all : (recency table.entries).filter (fun other => other.1 ≠ key) =
        recency table.entries := by
      rw [List.filter_eq_self]
      intro entry inside
      rw [decide_eq_true_eq]
      rintro rfl
      exact member (List.mem_map_of_mem inside)
    simp only [remove, lawful.pop_none _ _ member, view, FlowTable.remove, all]

/-- Inserting evicts the last entry of a full table that does not have the
key. -/
theorem view_insert (bounded : (view recency table).entries.length ≤
      (view recency table).cap)
    (positive : 0 < (view recency table).cap) (key : Key) (value : Value)
    (now : Nat) :
    view recency (table.insert key value now).2 =
        (view recency table).insert key value now ∧
      (table.insert key value now).1 =
        if (view recency table).Full key then
          (view recency table).entries.getLast?.map fun entry => entry.2.value
        else none := by
  have held : lru.contains table.entries key =
      (view recency table).contains key := lawful.contains _ _
  have counted : lru.len table.entries = (view recency table).entries.length :=
    lawful.len _
  by_cases full : (view recency table).Full key
  · have nonempty : recency table.entries ≠ [] := by
      intro empty
      have none : (view recency table).entries.length = 0 :=
        List.length_eq_zero_iff.mpr empty
      have filled := full.1
      omega
    obtain ⟨rest, popped, entries, cap⟩ := lawful.popLru _ _ _
      (List.dropLast_append_getLast nonempty).symm
    have shorter : lru.len rest < lru.cap rest := by
      have filled : (recency table.entries).length = lru.cap table.entries :=
        full.1
      rw [lawful.len, entries, cap, List.length_dropLast, filled]
      exact Nat.sub_one_lt_of_lt positive
    obtain ⟨put, putCap⟩ := lawful.put rest key ⟨value, now⟩
    rw [if_pos (.inr shorter), entries] at put
    have evicts : lru.len table.entries = lru.cap table.entries ∧
        lru.contains table.entries key = false := by
      rw [counted, held]
      exact full
    rw [FlowTable.insert_of_full full, insert_of_full evicts popped, if_pos full]
    constructor
    · simp only [view, put, putCap, cap]
    · exact congrArg (Option.map fun entry => entry.2.value)
        (List.getLast?_eq_some_getLast nonempty).symm
  · obtain ⟨put, putCap⟩ := lawful.put table.entries key ⟨value, now⟩
    have room : lru.contains table.entries key = true ∨
        lru.len table.entries < lru.cap table.entries := by
      rw [held, counted]
      by_cases there : (view recency table).contains key = true
      · exact .inl there
      · refine .inr (Nat.lt_of_le_of_ne bounded fun equal => full ⟨equal, ?_⟩)
        exact (Bool.not_eq_true _).mp there
    rw [if_pos room] at put
    have free : ¬ (lru.len table.entries = lru.cap table.entries ∧
        lru.contains table.entries key = false) := by
      rw [counted, held]
      exact full
    rw [FlowTable.insert_of_free full, insert_of_free free, if_neg full]
    refine ⟨?_, rfl⟩
    simp only [view, put, putCap]

/-- The loop pops the idle entries at the end, the last one first. -/
theorem view_sweepLoop (now : Nat) {rounds : Nat}
    (enough : (view recency table).entries.length ≤ rounds)
    (out : List (Key × Value)) :
    (sweepLoop now rounds table out).1 = out ++
        ((view recency table).entries.reverse.takeWhile fun entry =>
          Decidable.decide (table.idleTimeout ≤ now - entry.2.lastSeen)).map
            (fun entry => (entry.1, entry.2.value)) ∧
      view recency (sweepLoop now rounds table out).2 =
        (view recency table).sweep now := by
  induction rounds generalizing table out with
  | zero =>
      have empty : recency table.entries = [] :=
        List.length_eq_zero_iff.mp (Nat.le_zero.mp enough)
      simp [sweepLoop, view, FlowTable.sweep, empty]
  | succ rounds ih =>
      rcases List.eq_nil_or_concat (recency table.entries) with
        empty | ⟨front, last, entries⟩
      · have peeked : lru.peekLru table.entries = none := by
          rw [lawful.peekLru, empty]
          rfl
        rw [sweepLoop_none peeked]
        simp [view, FlowTable.sweep, empty]
      · rw [List.concat_eq_append] at entries
        have peeked : lru.peekLru table.entries = some last := by
          rw [lawful.peekLru, entries, List.getLast?_concat]
        have listed : (view recency table).entries = front ++ [last] := entries
        by_cases fresh : now - last.2.lastSeen < table.idleTimeout
        · rw [sweepLoop_fresh peeked fresh, FlowTable.sweep_fresh listed fresh,
            listed, List.reverse_append, List.reverse_singleton,
            List.singleton_append,
            List.takeWhile_cons_of_neg (by simpa using fresh)]
          simp
        · obtain ⟨rest, popped, left, cap⟩ := lawful.popLru _ _ _ entries
          have next : view recency { table with
              entries := rest, evictedIdle := table.evictedIdle + 1 } =
                { view recency table with
                  entries := front, evictedIdle := table.evictedIdle + 1 } := by
            simp only [view, left, cap]
          rw [sweepLoop_idle peeked fresh popped,
            FlowTable.sweep_idle listed (not_lt.mp fresh)]
          rw [listed, List.length_append, List.length_singleton] at enough
          have fewer : (view recency { table with
              entries := rest
              evictedIdle := table.evictedIdle + 1 }).entries.length ≤
                rounds := by
            rw [next]
            exact Nat.le_of_succ_le_succ enough
          obtain ⟨popped, after⟩ :=
            ih fewer (out ++ [(last.1, last.2.value)])
          rw [next] at popped after
          refine ⟨popped.trans ?_, after⟩
          rw [listed, List.reverse_append, List.reverse_singleton,
            List.singleton_append,
            List.takeWhile_cons_of_pos (by simpa using fresh), List.map_cons,
            List.append_assoc]
          rfl

theorem view_sweep (now : Nat) :
    (table.sweep now).1 =
        ((view recency table).entries.reverse.takeWhile fun entry =>
          Decidable.decide (table.idleTimeout ≤ now - entry.2.lastSeen)).map
            (fun entry => (entry.1, entry.2.value)) ∧
      view recency (table.sweep now).2 = (view recency table).sweep now := by
  have enough : (view recency table).entries.length ≤ lru.len table.entries := by
    rw [lawful.len]
    exact Nat.le_refl _
  have swept := view_sweepLoop lawful now enough []
  rwa [List.nil_append] at swept

end Refinement

/-! ### Runs -/

/-- What a worker does with its table. -/
inductive Op (Key Value : Type) where
  | getMut (key : Key) (now : Nat) (write : Value → Value)
  | insert (key : Key) (value : Value) (now : Nat)
  | remove (key : Key)
  | sweep (now : Nat)

def Op.time : Op Key Value → Option Nat
  | .getMut _ now _ | .insert _ _ now | .sweep now => some now
  | .remove _ => none

omit [DecidableEq Key] in
def step (table : CachedFlows lru) : Op Key Value → CachedFlows lru
  | .getMut key now write =>
      match table.getMut key now with
      | some (value, store) => store (write value)
      | none => table
  | .insert key value now => (table.insert key value now).2
  | .remove key => (table.remove key).2
  | .sweep now => (table.sweep now).2

def run (lru : Lru Key (Entry Value)) (maxEntries idleTimeout : Nat)
    (ops : List (Op Key Value)) : CachedFlows lru :=
  ops.foldl step (new lru maxEntries idleTimeout)

/-- The clock has not gone back, nor does it now. -/
def Clocked (ops : List (Op Key Value)) (now : Nat) : Prop :=
  (ops.filterMap Op.time ++ [now]).Pairwise (· ≤ ·)

omit [DecidableEq Key] in
/-- Before the last operation the clock was no later than at it. -/
theorem Clocked.before {ops : List (Op Key Value)} {op : Op Key Value}
    {now : Nat} (clocked : Clocked (ops ++ [op]) now) :
    Clocked ops (op.time.getD now) ∧ op.time.getD now ≤ now := by
  rw [Clocked, List.filterMap_append, List.append_assoc] at clocked
  cases timed : op.time with
  | none =>
      simp only [List.filterMap_cons, timed, List.filterMap_nil,
        List.nil_append] at clocked
      exact ⟨clocked, Nat.le_refl now⟩
  | some time =>
      simp only [List.filterMap_cons, timed, List.filterMap_nil] at clocked
      rw [← List.append_assoc, List.pairwise_append] at clocked
      exact ⟨clocked.1, clocked.2.2 time (by simp) now (by simp)⟩

section Running

variable (lawful : lru.Lawful recency)
include lawful

theorem ordered_step {table : CachedFlows lru} {op : Op Key Value} {now : Nat}
    (ordered : (view recency table).Ordered (op.time.getD now))
    (passes : op.time.getD now ≤ now) :
    (view recency (table.step op)).Ordered now ∧
      (view recency (table.step op)).cap = (view recency table).cap ∧
      (table.step op).idleTimeout = table.idleTimeout := by
  cases op with
  | getMut key time write =>
      rw [step]
      cases found : table.getMut key time with
      | none => exact ⟨ordered.later passes, rfl, rfl⟩
      | some touched =>
          obtain ⟨value, store⟩ := touched
          obtain ⟨member, writes⟩ := view_getMut lawful found
          have after := writes (write value)
          have kept : (store (write value)).idleTimeout = table.idleTimeout :=
            congrArg FlowTable.idleTimeout after
          have capped : (view recency (store (write value))).cap =
              (view recency table).cap := by rw [after]
          refine ⟨?_, capped, kept⟩
          change (view recency (store (write value))).Ordered now
          rw [after]
          exact (FlowTable.ordered_touch ordered (Nat.le_refl _) member _).later
            passes
  | insert key value time =>
      have after := (view_insert lawful ordered.bounded ordered.positive key
        value time).1
      rw [step, after]
      exact ⟨(FlowTable.ordered_insert ordered (Nat.le_refl _) key value).later
        passes, rfl, rfl⟩
  | remove key =>
      have after : view recency (table.remove key).2 =
          (view recency table).remove key := view_remove lawful key
      have kept := congrArg FlowTable.idleTimeout after
      rw [step, after]
      exact ⟨(ordered.fewer List.filter_sublist _ _).later passes, rfl, kept⟩
  | sweep time =>
      have after : view recency (table.sweep time).2 =
          (view recency table).sweep time := (view_sweep lawful time).2
      have kept := congrArg FlowTable.idleTimeout after
      rw [step, after]
      exact ⟨(FlowTable.ordered_sweep ordered (Nat.le_refl _)).later passes,
        rfl, kept⟩

/-- The invariant after any operations. -/
theorem ordered_run (maxEntries idleTimeout : Nat) {ops : List (Op Key Value)}
    {now : Nat} (clocked : Clocked ops now) :
    (view recency (run lru maxEntries idleTimeout ops)).Ordered now ∧
      (view recency (run lru maxEntries idleTimeout ops)).cap =
        max maxEntries 1 ∧
      (run lru maxEntries idleTimeout ops).idleTimeout = idleTimeout := by
  induction ops using List.reverseRecOn generalizing now with
  | nil =>
      rw [run, List.foldl_nil, view_new lawful]
      exact ⟨FlowTable.ordered_new _ _ _, rfl, rfl⟩
  | append_singleton ops op ih =>
      obtain ⟨before, passes⟩ := clocked.before
      obtain ⟨ordered, cap, idle⟩ := ih before
      obtain ⟨after, cap', idle'⟩ := ordered_step lawful ordered passes
      rw [run, List.foldl_append, List.foldl_cons, List.foldl_nil]
      exact ⟨after, cap'.trans cap, idle'.trans idle⟩

end Running

end CachedFlows

/-! ## Direction-normalized keys -/

abbrev Endpoint := Nft.IpAddr × UInt16

/-- Endpoints compare by family, address and port, in that order. -/
def rank : Endpoint → Nat ×ₗ Nat ×ₗ Nat
  | (.v4 bits, port) => toLex (4, toLex (bits.toNat, port.toNat))
  | (.v6 bits, port) => toLex (6, toLex (bits.toNat, port.toNat))

structure FlowKey where
  proto : UInt8
  loAddr : Nft.IpAddr
  hiAddr : Nft.IpAddr
  loPort : UInt16
  hiPort : UInt16
  vlan : UInt16
  deriving DecidableEq

structure Keyed where
  key : FlowKey
  /-- The source is the low side of the key. -/
  forward : Bool
  deriving DecidableEq

def FlowKey.normalized (proto : UInt8) (src dst : Endpoint) (vlan : UInt16) :
    Keyed :=
  let forward := Decidable.decide (rank src ≤ rank dst)
  let (lo, hi) := if forward then (src, dst) else (dst, src)
  ⟨⟨proto, lo.1, hi.1, lo.2, hi.2, vlan⟩, forward⟩

theorem rank_injective {left right : Endpoint} (same : rank left = rank right) :
    left = right := by
  obtain ⟨left, port⟩ := left
  obtain ⟨right, port'⟩ := right
  cases left <;> cases right <;>
    simp_all [rank, BitVec.toNat_inj, UInt16.toNat_inj]

/-- Two pairs have the same low and high side exactly if they are the same or
each other's reverse. -/
theorem ordered_pair_eq_iff {src dst src' dst' : Endpoint} :
    (if rank src ≤ rank dst then (src, dst) else (dst, src)) =
        (if rank src' ≤ rank dst' then (src', dst') else (dst', src')) ↔
      src = src' ∧ dst = dst' ∨ src = dst' ∧ dst = src' := by
  constructor
  · intro same
    split at same <;> split at same <;>
      simp only [Prod.mk.injEq] at same <;> tauto
  · rintro (⟨rfl, rfl⟩ | ⟨rfl, rfl⟩)
    · rfl
    · by_cases forward : rank src ≤ rank dst
      · by_cases backward : rank dst ≤ rank src
        · rw [rank_injective (le_antisymm forward backward)]
        · rw [if_pos forward, if_neg backward]
      · rw [if_neg forward, if_pos (le_of_not_ge forward)]

theorem normalized_eq_iff {proto proto' : UInt8} {src dst src' dst' : Endpoint}
    {vlan vlan' : UInt16} :
    (FlowKey.normalized proto src dst vlan).key =
        (FlowKey.normalized proto' src' dst' vlan').key ↔
      proto = proto' ∧ vlan = vlan' ∧
        (src = src' ∧ dst = dst' ∨ src = dst' ∧ dst = src') := by
  rw [← ordered_pair_eq_iff]
  simp only [FlowKey.normalized, decide_eq_true_eq, FlowKey.mk.injEq]
  constructor
  · rintro ⟨rfl, lo, hi, loPort, hiPort, rfl⟩
    exact ⟨rfl, rfl, Prod.ext (Prod.ext lo loPort) (Prod.ext hi hiPort)⟩
  · rintro ⟨rfl, rfl, same⟩
    rw [same]
    exact ⟨rfl, rfl, rfl, rfl, rfl, rfl⟩

/-! ## After any operations -/

namespace FlowTable

variable {Key Value : Type} [DecidableEq Key] {table : FlowTable Key Value}
  {clock now : Nat} {key : Key}

/-- A full table is a last entry, none seen earlier than it, behind others. -/
theorem Ordered.last_of_full (ordered : table.Ordered clock)
    (full : table.Full key) :
    ∃ front last, table.entries = front ++ [last] ∧
      (∀ other ∈ front, last.2.lastSeen ≤ other.2.lastSeen) ∧
      Lru.without front key = front := by
  have positive := ordered.positive
  rcases List.eq_nil_or_concat table.entries with empty | ⟨front, last, entries⟩
  · have filled := full.1
    rw [empty, List.length_nil] at filled
    omega
  · rw [List.concat_eq_append] at entries
    have sorted := ordered.sorted
    rw [entries, List.pairwise_append] at sorted
    refine ⟨front, last, entries, ?_, ?_⟩
    · intro other member
      exact sorted.2.2 other member last (List.mem_singleton.mpr rfl)
    · have absent : key ∉ table.entries.map Prod.fst := by
        rw [← contains_iff, full.2]
        exact Bool.false_ne_true
      rw [Lru.without, List.filter_eq_self]
      intro other member
      rw [decide_eq_true_eq]
      rintro rfl
      apply absent
      rw [entries]
      exact List.mem_map_of_mem (List.mem_append_left _ member)

end FlowTable

open CachedFlows in
/-- After any operations while the clock does not go back: the table is within
its capacity and in the order of the last sightings, the next insertion evicts
the least recently seen flow, and only of a full table without the key, and the
next sweep takes exactly the idle flows.  Keys are equal for a tuple and its
reverse, and for no others. -/
theorem flowTable_runs {Key Value : Type} [DecidableEq Key]
    {lru : Lru Key (Entry Value)}
    {recency : lru.Cache → List (Key × Entry Value)}
    (lawful : lru.Lawful recency) (maxEntries idleTimeout : Nat)
    (ops : List (Op Key Value)) (now : Nat) (clocked : Clocked ops now) :
    let table := run lru maxEntries idleTimeout ops
    let entries := recency table.entries
    lru.len table.entries ≤ max maxEntries 1 ∧
    entries.Pairwise (fun newer older =>
      older.2.lastSeen ≤ newer.2.lastSeen) ∧
    (∀ (key : Key) (value : Value),
      let result := table.insert key value now
      if lru.len table.entries = max maxEntries 1 ∧
          key ∉ entries.map Prod.fst then
        ∃ front last, entries = front ++ [last] ∧
          (∀ other ∈ front, last.2.lastSeen ≤ other.2.lastSeen) ∧
          result.1 = some last.2.value ∧
          recency result.2.entries = (key, ⟨value, now⟩) :: front
      else result.1 = none ∧ recency result.2.entries =
        (key, ⟨value, now⟩) :: Lru.without entries key) ∧
    (recency (table.sweep now).2.entries =
        entries.filter (fun entry =>
          Decidable.decide (now - entry.2.lastSeen < idleTimeout)) ∧
      (table.sweep now).1 =
        (entries.reverse.filter fun entry =>
          Decidable.decide (idleTimeout ≤ now - entry.2.lastSeen)).map
            fun entry => (entry.1, entry.2.value)) ∧
    ∀ (proto proto' : UInt8) (src dst src' dst' : Endpoint)
      (vlan vlan' : UInt16),
      (FlowKey.normalized proto src dst vlan).key =
          (FlowKey.normalized proto' src' dst' vlan').key ↔
        proto = proto' ∧ vlan = vlan' ∧
          (src = src' ∧ dst = dst' ∨ src = dst' ∧ dst = src') := by
  intro table entries
  obtain ⟨ordered, cap, idle⟩ :=
    ordered_run lawful maxEntries idleTimeout clocked
  have counted : lru.len table.entries = entries.length := lawful.len _
  refine ⟨?_, ordered.sorted, ?_, ?_, ?_⟩
  · rw [counted, ← cap]
    exact ordered.bounded
  · intro key value result
    obtain ⟨after, evicted⟩ :=
      view_insert lawful ordered.bounded ordered.positive key value now
    have absent : key ∉ entries.map Prod.fst ↔
        (view recency table).contains key = false := by
      rw [← Bool.not_eq_true, FlowTable.contains_iff]
      rfl
    have same : (lru.len table.entries = max maxEntries 1 ∧
        key ∉ entries.map Prod.fst) ↔ (view recency table).Full key := by
      rw [counted, absent, ← cap]
      rfl
    by_cases full : (view recency table).Full key
    · rw [if_pos (same.mpr full)]
      obtain ⟨front, last, listed, least, kept⟩ := ordered.last_of_full full
      rw [FlowTable.insert_of_full full, listed, List.dropLast_concat,
        kept] at after
      rw [if_pos full, listed, List.getLast?_concat] at evicted
      exact ⟨front, last, listed, least, evicted,
        congrArg FlowTable.entries after⟩
    · rw [if_neg fun evicts => full (same.mp evicts)]
      rw [FlowTable.insert_of_free full] at after
      rw [if_neg full] at evicted
      exact ⟨evicted, congrArg FlowTable.entries after⟩
  · have timeout : (view recency table).idleTimeout = idleTimeout := idle
    obtain ⟨popped, after⟩ := view_sweep lawful now
    have left := congrArg FlowTable.entries after
    have idles := takeWhile_eq_filter (ordered.idle_reverse now)
    rw [FlowTable.entries_sweep ordered now, timeout] at left
    rw [timeout] at idles
    rw [idle, idles] at popped
    refine ⟨left.trans ?_, popped⟩
    apply List.filter_congr
    intro entry _
    rw [← decide_not]
    simp only [not_le]
  · intro proto proto' src dst src' dst' vlan vlan'
    exact normalized_eq_iff

open CachedFlows in
theorem flowTable_runs_full :
    let table := run (Lru.ofTable Nat (Entry Nat)) 2 100
      [.insert 1 10 5, .insert 2 20 7, .getMut 1 9 id, .insert 3 30 9]
    table.entries.rows.map Prod.fst = [3, 1] ∧ table.evictedLru = 1 ∧
      table.entries.rows.length ≤ 2 := by
  have whole := flowTable_runs Lru.lawful_ofTable 2 100
    [.insert 1 10 5, .insert 2 20 7, .getMut 1 9 id, .insert 3 30 9] 12
    (by
      unfold Clocked
      decide)
  exact ⟨rfl, rfl, whole.1⟩

end QuartzFire.AppControl
