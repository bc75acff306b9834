import Mathlib.Data.List.Basic
import Mathlib.Data.Option.Basic
import QuartzFire.Foundation.Text

/-!
# Entries of the firewall log

A rule with logging makes the kernel write a line whose prefix names the chain,
the rule and the action, followed by the fields of the packet.
-/

namespace QuartzFire.Monitoring

structure LogEntry where
  ts : Nat
  family : List Char
  chain : List Char
  /-- None where the default action of the chain fired. -/
  rule : Option Nat
  action : List Char
  ips : Bool
  inIf : Option (List Char)
  outIf : Option (List Char)
  src : Option (List Char)
  dst : Option (List Char)
  proto : Option (List Char)
  spt : Option Nat
  dpt : Option Nat
  len : Option Nat
  icmpType : Option Nat
  deriving DecidableEq

/-- `split_whitespace` -/
def splitWhitespace (text : List Char) : List (List Char) :=
  (text.splitOnP isWhitespace).filter (· ≠ [])

/-- The chains the interface models and the named rulesets of zone rules. -/
def chainOf (parts : List (List Char)) : Option (List Char) :=
  match (parts[1]?.map String.ofList) with
  | some "FWD" => some "forward".toList
  | some "INP" => some "input".toList
  | some "OUT" => some "output".toList
  | some "NAM" =>
      let name := (parts.take (parts.length - 2)).drop 2
      some ("name:".toList ++ ['-'].intercalate name)
  | _ => none

/-- The action for its letter and whether the packet went to the inspection. -/
def actionOf (letter : List Char) : Option (List Char × Bool) :=
  match String.ofList letter with
  | "A" => some ("accept".toList, false)
  | "Q" => some ("accept".toList, true)
  | "D" => some ("drop".toList, false)
  | "R" => some ("reject".toList, false)
  | _ => none

/-- The number of a rule, or none for the default action. -/
def ruleOf (part : List Char) : Option (Option Nat) :=
  if part = "default".toList then some none
  else (parseUnsigned 32 part).map some

/-- One field of the packet. -/
def LogEntry.field (entry : LogEntry) (token : List Char) : LogEntry :=
  match splitOnce '=' token with
  | none | some (_, []) => entry
  | some (key, value) =>
      match String.ofList key with
      | "IN" => { entry with inIf := some value }
      | "OUT" => { entry with outIf := some value }
      | "SRC" => { entry with src := some value }
      | "DST" => { entry with dst := some value }
      | "PROTO" => { entry with proto := some (value.map Char.toLower) }
      | "SPT" => { entry with spt := parseUnsigned 32 value }
      | "DPT" => { entry with dpt := parseUnsigned 32 value }
      -- The payload has a length of its own, the packet's comes first.
      | "LEN" =>
          if entry.len.isNone then { entry with len := parseUnsigned 32 value }
          else entry
      | "TYPE" => { entry with icmpType := parseUnsigned 32 value }
      | _ => entry

def parseMessage (msg : List Char) (ts : Nat) : Option LogEntry := do
  let rest ← stripPrefix ['['] (msg.dropWhile isWhitespace)
  let (head, fields) ← splitOnce ']' rest
  let parts := head.splitOn '-'
  guard (5 ≤ parts.length)
  let family := parts.headD []
  guard (family = "ipv4".toList ∨ family = "ipv6".toList)
  let chain ← chainOf parts
  let (action, ips) ← actionOf (parts.getLastD [])
  let rule ← ruleOf (parts.getD (parts.length - 2) [])
  let entry : LogEntry := ⟨ts, family, chain, rule, action, ips, none, none,
    none, none, none, none, none, none, none⟩
  return (splitWhitespace fields).foldl LogEntry.field entry

/-- What the prefix of a line says. -/
structure LogEntry.Head (entry : LogEntry) (ts : Nat) : Prop where
  ts : entry.ts = ts
  family : entry.family ∈ ["ipv4".toList, "ipv6".toList]
  action : entry.action ∈ ["accept".toList, "drop".toList, "reject".toList]
  queued : entry.ips = true → entry.action = "accept".toList

/-- A field leaves what the prefix says alone. -/
theorem LogEntry.Head.field {entry : LogEntry} {ts : Nat}
    (head : entry.Head ts) (token : List Char) :
    (entry.field token).Head ts := by
  obtain ⟨ts, family, action, queued⟩ := head
  rw [LogEntry.field]
  split
  · exact ⟨ts, family, action, queued⟩
  · exact ⟨ts, family, action, queued⟩
  · split
    case h_8 =>
      split_ifs <;> exact ⟨ts, family, action, queued⟩
    all_goals exact ⟨ts, family, action, queued⟩

theorem actionOf_mem {letter action : List Char} {ips : Bool}
    (named : actionOf letter = some (action, ips)) :
    action ∈ ["accept".toList, "drop".toList, "reject".toList] ∧
      (ips = true → action = "accept".toList) := by
  rw [actionOf] at named
  split at named <;> cases named <;> simp

theorem LogEntry.Head.fields {entry : LogEntry} {ts : Nat}
    (head : entry.Head ts) (tokens : List (List Char)) :
    (tokens.foldl LogEntry.field entry).Head ts := by
  induction tokens generalizing entry with
  | nil => exact head
  | cons token tokens ih => exact ih (head.field token)

example : (parseMessage ("[ipv4-NAM-QZ-Z-LAN-TO-WAN-10-A]IN=eth1 OUT= " ++
      "PROTO=TCP DPT=443 LEN=60 LEN=40").toList 1).map
      (fun entry => (entry.chain, entry.rule, entry.outIf, entry.len)) =
    some ("name:QZ-Z-LAN-TO-WAN".toList, some 10, none, some 60) := by
  decide +kernel

end QuartzFire.Monitoring
