import QuartzFire.Devices.Accountant
import QuartzFire.Foundation.Words
import QuartzFire.Monitoring.LogEntry

/-!
# Lines of conntrack

Snapshots and events print a connection as a line of words in the extended
format.  The parser takes the fields it needs wherever they stand and keys a
flow by an `id=`, else by its protocol, addresses and ports.
-/

namespace QuartzFire.Devices

open Monitoring (splitWhitespace)

/-! ## The parser -/

/-- What the parser has found so far. -/
structure Found where
  origSrc : Option (List Char) := none
  origDst : Option (List Char) := none
  sport : Option (List Char) := none
  dport : Option (List Char) := none
  proto : Option (List Char) := none
  id : Option (List Char) := none
  mark : Option Nat := none
  byteCounters : List Nat := []

/-- A word that may be the name of a protocol. -/
def isProtoName (tok : List Char) : Bool :=
  tok.all Char.isAlpha && tok.head? ≠ some '['

/-- The first value of a field of the tuple wins, and the last of `id` and of
`mark`. -/
def Found.token (found : Found) (tok : List Char) : Found :=
  match splitOnce '=' tok with
  | some (k, v) =>
      if k = "src".toList then
        { found with origSrc := found.origSrc.or (some v) }
      else if k = "dst".toList then
        { found with origDst := found.origDst.or (some v) }
      else if k = "sport".toList then
        { found with sport := found.sport.or (some v) }
      else if k = "dport".toList then
        { found with dport := found.dport.or (some v) }
      else if k = "bytes".toList then
        { found with byteCounters :=
            found.byteCounters ++ (parseUnsigned 64 v).toList }
      else if k = "id".toList then { found with id := some v }
      else if k = "mark".toList then { found with mark := parseUnsigned 32 v }
      else found
  | none =>
      if found.proto.isNone && isProtoName tok then
        { found with proto := some tok }
      else found

structure ParsedFlow extends Flow (List Char) where
  origSrc : List Char
  origDst : List Char
  mark : Nat
  proto : List Char
  dport : Nat

/-- The key of a flow without an `id=`. -/
def tupleKey (proto src sport dst dport : List Char) : List Char :=
  proto ++ '|' :: (src ++ ':' :: sport) ++ '|' :: (dst ++ ':' :: dport)

def Found.flow (found : Found) : Option ParsedFlow := do
  let origSrc ← found.origSrc
  let origDst ← found.origDst
  match found.byteCounters with
  | [] => none
  | origBytes :: rest =>
      some {
        key := found.id.getD (tupleKey (found.proto.getD "?".toList) origSrc
          (found.sport.getD "0".toList) origDst (found.dport.getD "0".toList))
        origBytes := origBytes
        replyBytes := rest.head?.getD 0
        origSrc := origSrc
        origDst := origDst
        mark := found.mark.getD 0
        proto := found.proto.getD []
        dport := (found.dport.bind (parseUnsigned 16)).getD 0 }

def parseLine (line : List Char) : Option ParsedFlow :=
  ((splitWhitespace line).foldl Found.token {}).flow

/-! ## What a scan finds -/

/-- What is found once more words were seen. -/
def Found.after (found : Found) (words : List (List Char)) : Found where
  origSrc := found.origSrc.or (fieldValues "src".toList words).head?
  origDst := found.origDst.or (fieldValues "dst".toList words).head?
  sport := found.sport.or (fieldValues "sport".toList words).head?
  dport := found.dport.or (fieldValues "dport".toList words).head?
  proto := found.proto.or
    (words.find? fun word => decide ('=' ∉ word) && isProtoName word)
  id := (fieldValues "id".toList words).getLast?.or found.id
  mark := (fieldValues "mark".toList words).getLast?.elim found.mark
    (parseUnsigned 32)
  byteCounters := found.byteCounters ++
    (fieldValues "bytes".toList words).flatMap fun value =>
      (parseUnsigned 64 value).toList

/-- A value is the last one of its key where no later word has the key. -/
theorem getLast?_cons_or {Value : Type} (value : Value) (rest : List Value)
    (other : Option Value) :
    (value :: rest).getLast?.or other = rest.getLast?.or (some value) := by
  cases rest with
  | nil => rfl
  | cons next rest =>
      rw [List.getLast?_cons_cons, List.getLast?_cons]
      rfl

theorem getLast?_cons_elim {Value Result : Type} (value : Value)
    (rest : List Value) (other : Result) (read : Value → Result) :
    (value :: rest).getLast?.elim other read =
      rest.getLast?.elim (read value) read := by
  cases rest with
  | nil => rfl
  | cons next rest =>
      rw [List.getLast?_cons_cons, List.getLast?_cons]
      rfl

theorem Found.token_after_plain (found : Found) {word : List Char}
    (plain : '=' ∉ word) (rest : List (List Char)) :
    (found.token word).after rest = found.after (word :: rest) := by
  unfold Found.token
  rw [splitOnce_eq_none.mpr plain]
  dsimp only
  unfold Found.after
  simp only [fieldValues_cons_of_plain plain]
  rw [List.find?_cons, decide_eq_true plain, Bool.true_and]
  cases proto : found.proto with
  | none =>
      cases name : isProtoName word with
      | true => simp
      | false => simp [proto]
  | some known => simp [proto]

theorem Found.token_after_field (found : Found) {word k v : List Char}
    (split : splitOnce '=' word = some (k, v)) (rest : List (List Char)) :
    (found.token word).after rest = found.after (word :: rest) := by
  have mark : ¬ '=' ∉ word := by
    rw [(splitOnce_eq_some.mp split).1]
    simp
  unfold Found.token
  rw [split]
  dsimp only
  unfold Found.after
  simp only [fieldValues_cons_of_split split, List.find?_cons,
    decide_eq_false mark, Bool.false_and]
  by_cases src : k = "src".toList
  · subst src
    simp
  by_cases dst : k = "dst".toList
  · subst dst
    simp
  by_cases sport : k = "sport".toList
  · subst sport
    simp
  by_cases dport : k = "dport".toList
  · subst dport
    simp
  by_cases bytes : k = "bytes".toList
  · subst bytes
    simp
  by_cases id : k = "id".toList
  · subst id
    simp [getLast?_cons_or]
  by_cases fwmark : k = "mark".toList
  · subst fwmark
    simp [getLast?_cons_elim]
  simp only [if_neg src, if_neg dst, if_neg sport, if_neg dport, if_neg bytes,
    if_neg id, if_neg fwmark]

theorem Found.token_after (found : Found) (word : List Char)
    (rest : List (List Char)) :
    (found.token word).after rest = found.after (word :: rest) := by
  cases split : splitOnce '=' word with
  | none => exact found.token_after_plain (splitOnce_eq_none.mp split) rest
  | some parts => exact found.token_after_field split rest

theorem Found.foldl_token (found : Found) (words : List (List Char)) :
    words.foldl Found.token found = found.after words := by
  induction words generalizing found with
  | nil => simp [Found.after]
  | cons word rest ih =>
      rw [List.foldl_cons, ih]
      exact found.token_after word rest

end QuartzFire.Devices
