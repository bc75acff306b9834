import QuartzFire.Foundation.Table

/-!
# Caches by recency of use

The operations of a bounded cache and what they do to the order of its entries,
the most recently used first.  What stands behind the operations is left open.
-/

namespace QuartzFire

structure Lru (Key Value : Type) where
  Cache : Type
  withCap : Nat → Cache
  cap : Cache → Nat
  len : Cache → Nat
  contains : Cache → Key → Bool
  /-- The value of a key, which becomes the most recently used one, and the
  cache with what is stored through the reference. -/
  getMut : Cache → Key → Option (Value × (Value → Cache))
  put : Cache → Key → Value → Cache
  pop : Cache → Key → Option (Value × Cache)
  popLru : Cache → Option ((Key × Value) × Cache)
  peekLru : Cache → Option (Key × Value)

namespace Lru

variable {Key Value : Type} [DecidableEq Key]

/-- The entries of other keys. -/
def without (entries : List (Key × Value)) (key : Key) : List (Key × Value) :=
  entries.filter fun other => other.1 ≠ key

/-- The operations, by what they do to the entries in order of recency. -/
structure Lawful (lru : Lru Key Value)
    (recency : lru.Cache → List (Key × Value)) : Prop where
  keys : ∀ cache, ((recency cache).map Prod.fst).Nodup
  withCap : ∀ cap, 0 < cap →
    recency (lru.withCap cap) = [] ∧ lru.cap (lru.withCap cap) = cap
  len : ∀ cache, lru.len cache = (recency cache).length
  contains : ∀ cache key,
    lru.contains cache key = (recency cache).any fun entry => entry.1 = key
  getMut_none : ∀ cache key, key ∉ (recency cache).map Prod.fst →
    lru.getMut cache key = none
  getMut : ∀ cache key value, (key, value) ∈ recency cache →
    ∃ store, lru.getMut cache key = some (value, store) ∧ ∀ new,
      recency (store new) = (key, new) :: without (recency cache) key ∧
        lru.cap (store new) = lru.cap cache
  /-- A new key in a full cache takes the place of the last entry. -/
  put : ∀ cache key value,
    recency (lru.put cache key value) = (key, value) :: without
        (if lru.contains cache key = true ∨ lru.len cache < lru.cap cache then
          recency cache else (recency cache).dropLast) key ∧
      lru.cap (lru.put cache key value) = lru.cap cache
  pop_none : ∀ cache key, key ∉ (recency cache).map Prod.fst →
    lru.pop cache key = none
  pop : ∀ cache key value, (key, value) ∈ recency cache →
    ∃ rest, lru.pop cache key = some (value, rest) ∧
      recency rest = without (recency cache) key ∧
        lru.cap rest = lru.cap cache
  popLru : ∀ cache front last, recency cache = front ++ [last] →
    ∃ rest, lru.popLru cache = some (last, rest) ∧
      recency rest = front ∧ lru.cap rest = lru.cap cache
  popLru_none : ∀ cache, recency cache = [] → lru.popLru cache = none
  peekLru : ∀ cache, lru.peekLru cache = (recency cache).getLast?

/-! ## A table as a cache -/

/-- Rows in order of recency. -/
structure Recency (Key Value : Type) extends Table Key Value where
  cap : Nat

namespace Recency

variable (cache : Recency Key Value) (key : Key)

theorem nodup_without {rows : List (Key × Value)}
    (distinct : (rows.map Prod.fst).Nodup) :
    ((without rows key).map Prod.fst).Nodup :=
  distinct.sublist (List.filter_sublist.map Prod.fst)

theorem nodup_front {rows : List (Key × Value)}
    (distinct : (rows.map Prod.fst).Nodup) (value : Value) :
    (((key, value) :: without rows key).map Prod.fst).Nodup := by
  rw [List.map_cons, List.nodup_cons]
  refine ⟨?_, nodup_without key distinct⟩
  intro member
  obtain ⟨entry, inside, same⟩ := List.mem_map.mp member
  exact of_decide_eq_true (List.mem_filter.mp inside).2 same

def dropLast : Recency Key Value where
  rows := cache.rows.dropLast
  distinct := cache.distinct.sublist ((List.dropLast_sublist _).map Prod.fst)
  cap := cache.cap

def toFront (value : Value) : Recency Key Value where
  rows := (key, value) :: without cache.rows key
  distinct := nodup_front key cache.distinct value
  cap := cache.cap

def erase : Recency Key Value where
  rows := without cache.rows key
  distinct := nodup_without key cache.distinct
  cap := cache.cap

def holdsKey : Bool := cache.rows.any fun entry => entry.1 = key

theorem get_eq_none {cache : Recency Key Value} {key : Key}
    (absent : key ∉ cache.rows.map Prod.fst) : cache.get key = none := by
  cases held : cache.get key with
  | none => rfl
  | some value =>
      have member := Table.mem_rows.mpr held
      exact absurd (List.mem_map_of_mem member) absent

end Recency

/-- A cache that is kept as a list. -/
def ofTable (Key Value : Type) [DecidableEq Key] : Lru Key Value where
  Cache := Recency Key Value
  withCap cap := ⟨.empty, cap⟩
  cap := Recency.cap
  len cache := cache.rows.length
  contains := Recency.holdsKey
  getMut cache key := (cache.get key).map fun value =>
    (value, cache.toFront key)
  put cache key value :=
    if cache.holdsKey key = true ∨ cache.rows.length < cache.cap then
      cache.toFront key value
    else cache.dropLast.toFront key value
  pop cache key := (cache.get key).map fun value => (value, cache.erase key)
  popLru cache := cache.rows.getLast?.map fun last => (last, cache.dropLast)
  peekLru cache := cache.rows.getLast?

theorem lawful_ofTable :
    Lawful (ofTable Key Value) fun cache => cache.rows where
  keys cache := cache.distinct
  withCap _ _ := ⟨rfl, rfl⟩
  len _ := rfl
  contains _ _ := rfl
  getMut_none cache key absent :=
    congrArg (Option.map fun value => (value, Recency.toFront cache key))
      (Recency.get_eq_none absent)
  getMut cache key _ member :=
    ⟨Recency.toFront cache key,
      congrArg (Option.map fun value => (value, Recency.toFront cache key))
        (Table.mem_rows.mp member), fun _ => ⟨rfl, rfl⟩⟩
  put cache key value := by
    by_cases room : Recency.holdsKey cache key = true ∨
        cache.rows.length < cache.cap
    · exact ⟨by simp [ofTable, room, Recency.toFront],
        by simp [ofTable, room, Recency.toFront]⟩
    · exact ⟨by simp [ofTable, room, Recency.toFront, Recency.dropLast],
        by simp [ofTable, room, Recency.toFront, Recency.dropLast]⟩
  pop_none cache key absent :=
    congrArg (Option.map fun value => (value, Recency.erase cache key))
      (Recency.get_eq_none absent)
  pop cache key _ member :=
    ⟨Recency.erase cache key,
      congrArg (Option.map fun value => (value, Recency.erase cache key))
        (Table.mem_rows.mp member), rfl, rfl⟩
  popLru cache front last same := by
    have final : cache.rows.getLast? = some last := by simp [same]
    have front_eq : cache.rows.dropLast = front := by simp [same]
    exact ⟨Recency.dropLast cache,
      congrArg (Option.map fun last => (last, Recency.dropLast cache)) final,
      front_eq, rfl⟩
  popLru_none cache empty := by simp [ofTable, empty]
  peekLru _ := rfl

end Lru

/-! ## From one end of an ordered list -/

/-- Where what comes before an entry that is dropped is dropped as well, nothing
is dropped behind the first that stays. -/
theorem dropWhile_eq_filter {Item : Type} {drops : Item → Bool}
    {items : List Item}
    (ordered : items.Pairwise fun earlier later =>
      drops later = true → drops earlier = true) :
    items.dropWhile drops = items.filter fun item => !drops item := by
  induction items with
  | nil => rfl
  | cons first rest ih =>
      rw [List.pairwise_cons] at ordered
      cases dropped : drops first with
      | true =>
          rw [List.dropWhile_cons_of_pos dropped, ih ordered.2,
            List.filter_cons_of_neg (by simp [dropped])]
      | false =>
          have all : ∀ item ∈ first :: rest, (!drops item) = true := by
            intro item member
            rcases List.mem_cons.mp member with rfl | later
            · simp [dropped]
            · rw [Bool.not_eq_true', ← Bool.not_eq_true]
              intro drop
              rw [ordered.1 item later drop] at dropped
              cases dropped
          rw [List.dropWhile_cons_of_neg (by simp [dropped]),
            List.filter_eq_self.mpr all]

theorem takeWhile_eq_filter {Item : Type} {drops : Item → Bool}
    {items : List Item}
    (ordered : items.Pairwise fun earlier later =>
      drops later = true → drops earlier = true) :
    items.takeWhile drops = items.filter drops := by
  induction items with
  | nil => rfl
  | cons first rest ih =>
      rw [List.pairwise_cons] at ordered
      cases dropped : drops first with
      | true =>
          rw [List.takeWhile_cons_of_pos dropped, ih ordered.2,
            List.filter_cons_of_pos dropped]
      | false =>
          have none : ∀ item ∈ rest, ¬ drops item = true := by
            intro item later drop
            rw [ordered.1 item later drop] at dropped
            cases dropped
          rw [List.takeWhile_cons_of_neg (by simp [dropped]),
            List.filter_cons_of_neg (by simp [dropped]),
            List.filter_eq_nil_iff.mpr none]

end QuartzFire
