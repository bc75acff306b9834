import Mathlib.Data.List.Basic

/-!
# The bounded flow table of a worker

Least-recently-used eviction at capacity and an idle timeout.  The entries are
kept most recently used first, and times are milliseconds.
-/

namespace QuartzFire.AppControl

structure Entry (Value : Type) where
  value : Value
  lastSeen : Nat

structure FlowTable (Key Value : Type) where
  entries : List (Key × Entry Value)
  cap : Nat
  idleTimeout : Nat
  evictedLru : Nat
  evictedIdle : Nat

namespace FlowTable

variable {Key Value : Type} [DecidableEq Key]

def new (maxEntries idleTimeout : Nat) : FlowTable Key Value :=
  { entries := []
    cap := max maxEntries 1
    idleTimeout := idleTimeout
    evictedLru := 0
    evictedIdle := 0 }

def contains (table : FlowTable Key Value) (key : Key) : Bool :=
  table.entries.any fun entry => entry.1 = key

/-- Fetch-and-touch: the entry becomes the most recently used one. -/
def getMut (table : FlowTable Key Value) (key : Key) (now : Nat) :
    Option (Value × FlowTable Key Value) :=
  (table.entries.find? fun entry => entry.1 = key).map fun entry =>
    (entry.2.value, { table with
      entries := (key, { entry.2 with lastSeen := now }) ::
        table.entries.filter fun other => other.1 ≠ key })

/-- Store through the reference `getMut` handed out. -/
def write (table : FlowTable Key Value) (key : Key) (value : Value) :
    FlowTable Key Value :=
  { table with
    entries := table.entries.map fun entry =>
      if entry.1 = key then (key, { entry.2 with value := value }) else entry }

/-- Insert a flow, evicting the least recently used one at capacity. -/
def insert (table : FlowTable Key Value) (key : Key) (value : Value)
    (now : Nat) : FlowTable Key Value :=
  let full := table.entries.length = table.cap ∧ table.contains key = false
  let kept := if full then table.entries.dropLast else table.entries
  { table with
    entries := (key, ⟨value, now⟩) ::
      kept.filter fun other => other.1 ≠ key
    evictedLru := if full then table.evictedLru + 1 else table.evictedLru }

def remove (table : FlowTable Key Value) (key : Key) : FlowTable Key Value :=
  { table with entries := table.entries.filter fun other => other.1 ≠ key }

/-- Evict idle entries from the least recently used end, stopping at the first
fresh one. -/
def sweep (table : FlowTable Key Value) (now : Nat) : FlowTable Key Value :=
  let kept := (table.entries.reverse.dropWhile fun entry =>
    decide (table.idleTimeout ≤ now - entry.2.lastSeen)).reverse
  { table with
    entries := kept
    evictedIdle := table.evictedIdle + (table.entries.length - kept.length) }

end FlowTable

end QuartzFire.AppControl
