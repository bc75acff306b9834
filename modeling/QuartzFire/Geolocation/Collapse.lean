import Mathlib.Data.List.Sort
import QuartzFire.ContentFiltering.Model
import QuartzFire.Foundation.JsNumber
import QuartzFire.Foundation.LetterCase
import QuartzFire.Nft.Address

/-!
# Collapsing address lists

The networks of a country become the least list of blocks that has their
addresses.  The arithmetic is that of 128 bits and stops where it overflows.
-/

namespace QuartzFire.Geolocation

open ContentFiltering (groupCount hexGroupOk ipv4Ok ipv6Ok octetOk
  splitDoubleColon)
open Nft (Family)

/-! ## Addresses and their texts -/

def ipv4Value (text : List Char) : Option Nat :=
  if ipv4Ok text then
    some ((text.splitOn '.').foldl
      (fun value octet => value * 256 + Nat.ofDigitChars 10 octet 0) 0)
  else none

/-- The 16 bit groups of what is between two colons; an IPv4 address has two. -/
def pieceValues (piece : List Char) : List Nat :=
  match ipv4Value piece with
  | some addr => [addr / 2 ^ 16, addr % 2 ^ 16]
  | none => [piece.foldl
      (fun value char => value * 16 + JsNumber.digitValue char) 0]

/-- The groups of a side of `::`. -/
def groupValues (text : List Char) : List Nat :=
  if text.isEmpty then [] else (text.splitOn ':').flatMap pieceValues

def ipv6Value (text : List Char) : Option Nat :=
  if ipv6Ok text then
    let groups := match splitDoubleColon text with
      | some (front, back) =>
          let front := groupValues front
          let back := groupValues back
          front ++ List.replicate (8 - (front.length + back.length)) 0 ++ back
      | none => groupValues text
    some (groups.foldl (fun value group => value * 2 ^ 16 + group) 0)
  else none

def ipv4Text (addr : Nat) : String :=
  ".".intercalate ([24, 16, 8, 0].map fun shift =>
    toString (addr / 2 ^ shift % 256))

def hexGroups (groups : List Nat) : String :=
  ":".intercalate (groups.map fun group => String.ofList (Nat.toDigits 16 group))

/-- Start and length of the first longest span of zeros, and of the one that is
open at the end. -/
def longestZeros (groups : List Nat) : (Nat × Nat) × (Nat × Nat) :=
  groups.zipIdx.foldl (fun (longest, current) (group, index) =>
    if group = 0 then
      let current := (if current.2 = 0 then index else current.1, current.2 + 1)
      (if current.2 > longest.2 then current else longest, current)
    else (longest, (0, 0))) ((0, 0), (0, 0))

def ipv6Text (addr : Nat) : String :=
  let groups := (List.range 8).map fun index =>
    addr / 2 ^ (112 - 16 * index) % 2 ^ 16
  if groups.take 6 = [0, 0, 0, 0, 0, 65535] then
    "::ffff:" ++ ipv4Text (addr % 2 ^ 32)
  else
    let zeros := (longestZeros groups).1
    if zeros.2 > 1 then
      hexGroups (groups.take zeros.1) ++ "::" ++
        hexGroups (groups.drop (zeros.1 + zeros.2))
    else hexGroups groups

/-! ## Checked arithmetic -/

inductive Overflow where
  | add
  | sub
  | shift
  deriving DecidableEq

abbrev Checked := Except Overflow

def u128Max : Nat := 2 ^ 128 - 1

def checkedAdd (left right : Nat) : Checked Nat :=
  if left + right ≤ u128Max then .ok (left + right) else .error .add

def checkedSub (left right : Nat) : Checked Nat :=
  if right ≤ left then .ok (left - right) else .error .sub

/-- `1 << bits` -/
def shiftOne (bits : Nat) : Checked Nat :=
  if bits < 128 then .ok (2 ^ bits) else .error .shift

/-- `trailing_zeros` of so many bits -/
def trailingZeros : Nat → Nat → Nat
  | 0, _ => 0
  | bits + 1, number =>
      if number % 2 = 1 then 0 else trailingZeros bits (number / 2) + 1

/-! ## Collapsing -/

def totalBits : Family → Nat
  | .v4 => 32
  | .v6 => 128

def addressValue : Family → List Char → Option Nat
  | .v4, text => ipv4Value text
  | .v6, text => ipv6Value text

/-- The text of an address and the length behind it; a bare address has the
full length. -/
def addressAndLength (family : Family) (entry : String) :
    Option (List Char × Nat) :=
  match splitOnce '/' entry.toList with
  | some (addr, len) => (parseUnsigned 32 len).map fun len => (addr, len)
  | none => some (entry.toList, totalBits family)

def sizeMinusOne (hostBits : Nat) : Checked Nat :=
  if hostBits = 0 then .ok 0
  else (shiftOne hostBits).bind fun size => checkedSub size 1

/-- An inclusive address range, if the text is a strict network. -/
def parseStrict (family : Family) (entry : String) :
    Checked (Option (Nat × Nat)) :=
  match addressAndLength family entry with
  | none => .ok none
  | some (addrS, len) =>
      if len > totalBits family then .ok none
      else
        match addressValue family addrS with
        | none => .ok none
        | some addr => do
            let hostBits ← checkedSub (totalBits family) len
            let sizeMinus1 ← sizeMinusOne hostBits
            if addr &&& sizeMinus1 ≠ 0 then .ok none
            else
              (checkedAdd addr sizeMinus1).map fun last => some (addr, last)

def formatCidr (family : Family) (start : Nat) (bits : Nat) : String :=
  match family with
  | .v4 => ipv4Text (start % 2 ^ 32) ++ "/" ++ toString bits
  | .v6 => ipv6Text start ++ "/" ++ toString bits

def fitBits (spanMinus1 : Nat) : Checked Nat :=
  if spanMinus1 = u128Max then .ok 128
  else (checkedAdd spanMinus1 1).map Nat.log2

/-- Largest block allowed by alignment, capped by what still fits. -/
def blockBits (family : Family) (start stop : Nat) : Checked Nat := do
  let align := min (trailingZeros 128 start) (totalBits family)
  let spanMinus1 ← checkedSub stop start
  let fit ← fitBits spanMinus1
  .ok (min (min align fit) (totalBits family))

theorem shiftOne_pos {bits step : Nat} (shifted : shiftOne bits = .ok step) :
    0 < step := by
  rw [shiftOne] at shifted
  split at shifted
  · cases shifted
    exact Nat.two_pow_pos bits
  · cases shifted

/-- The minimal cover of one inclusive range. -/
def cover (family : Family) (start stop : Nat) : Checked (List String) :=
  match blockBits family start stop with
  | .error overflow => .error overflow
  | .ok k =>
      match checkedSub (totalBits family) k with
      | .error overflow => .error overflow
      | .ok bits =>
          if k = 128 then .ok [formatCidr family start bits]
          else
            match _ : shiftOne k with
            | .error overflow => .error overflow
            | .ok step =>
                if _ : start + step ≤ u128Max ∧ start + step ≤ stop then
                  (cover family (start + step) stop).map fun rest =>
                    formatCidr family start bits :: rest
                else .ok [formatCidr family start bits]
termination_by stop + 1 - start
decreasing_by
  have positive := shiftOne_pos ‹_›
  omega

def coverAll (family : Family) : List (Nat × Nat) → Checked (List String)
  | [] => .ok []
  | (start, stop) :: rest => do
      let out ← cover family start stop
      let more ← coverAll family rest
      .ok (out ++ more)

def parseAll (family : Family) : List String → Checked (List (Nat × Nat))
  | [] => .ok []
  | element :: rest => do
      let range ← parseStrict family element
      let ranges ← parseAll family rest
      .ok (range.toList ++ ranges)

/-- The order of pairs. -/
def rangeLe (left right : Nat × Nat) : Prop :=
  left.1 < right.1 ∨ left.1 = right.1 ∧ left.2 ≤ right.2

instance : DecidableRel rangeLe := fun _ _ =>
  inferInstanceAs (Decidable (_ ∨ _))

/-- Extend when overlapping or exactly adjacent. -/
def mergeRange (merged : List (Nat × Nat)) (range : Nat × Nat) :
    List (Nat × Nat) :=
  match merged.getLast? with
  | some last =>
      if last.2 ≥ range.2 then merged
      else if range.1 ≤ min (last.2 + 1) u128Max then
        merged.dropLast ++ [(last.1, range.2)]
      else merged ++ [range]
  | none => merged ++ [range]

def collapse (elements : List String) (family : Family) :
    Checked (List String) := do
  let ranges ← parseAll family elements
  let merged := (ranges.insertionSort rangeLe).foldl mergeRange []
  coverAll family merged

/-! ## Values below the family's width -/

theorem foldl_lt {α : Type} {value : α → Nat} {base : Nat} {digits : List α}
    (small : ∀ digit ∈ digits, value digit < base) (start : Nat) :
    digits.foldl (fun total digit => total * base + value digit) start <
      (start + 1) * base ^ digits.length := by
  induction digits generalizing start with
  | nil => simp
  | cons digit digits ih =>
      rw [List.forall_mem_cons] at small
      have rest := ih small.2 (start * base + value digit)
      have step : start * base + value digit + 1 ≤ (start + 1) * base := by
        rw [Nat.add_one_mul]
        omega
      rw [List.foldl_cons, List.length_cons]
      calc _ < (start * base + value digit + 1) * base ^ digits.length := rest
        _ ≤ (start + 1) * base * base ^ digits.length :=
            Nat.mul_le_mul_right _ step
        _ = _ := by rw [Nat.mul_assoc, ← Nat.pow_succ']

theorem ipv4Value_lt {text : List Char} {addr : Nat}
    (read : ipv4Value text = some addr) : addr < 2 ^ 32 := by
  rw [ipv4Value] at read
  split at read
  · rename_i ok
    rw [ipv4Ok, Bool.and_eq_true, decide_eq_true_iff, List.all_eq_true] at ok
    cases read
    have small : ∀ octet ∈ text.splitOn '.',
        Nat.ofDigitChars 10 octet 0 < 256 := by
      intro octet member
      have whole := ok.2 octet member
      rw [octetOk, Bool.and_eq_true] at whole
      exact of_decide_eq_true whole.2
    have below := foldl_lt small 0
    rw [ok.1] at below
    exact below
  · cases read

theorem toNat_toLower (char : Char) :
    char.toLower.toNat =
      if 65 ≤ char.toNat ∧ char.toNat ≤ 90 then char.toNat + 32
      else char.toNat := by
  by_cases upper : 'A'.val ≤ char.val ∧ char.val ≤ 'Z'.val
  · have both : 65 ≤ char.toNat ∧ char.toNat ≤ 90 := upper
    rw [if_pos both, Char.toNat, toLower_of_upper upper]
    change (char.val + 32).toNat = char.val.toNat + 32
    change 65 ≤ char.val.toNat ∧ char.val.toNat ≤ 90 at both
    rw [UInt32.toNat_add]
    change (char.val.toNat + 32) % 2 ^ 32 = _
    omega
  · have neither : ¬ (65 ≤ char.toNat ∧ char.toNat ≤ 90) := upper
    rw [if_neg neither, toLower_of_not_upper upper]

theorem digitValue_lt {char : Char}
    (hex : (char.isDigit ||
      char.toLower ∈ ['a', 'b', 'c', 'd', 'e', 'f']) = true) :
    JsNumber.digitValue char < 16 := by
  rw [JsNumber.digitValue]
  split
  · rename_i digit
    have bounds := Char.isDigit_iff_toNat.mp digit
    change 48 ≤ char.toNat ∧ char.toNat ≤ 57 at bounds
    change char.toNat - 48 < 16
    omega
  · rename_i other
    rw [Bool.or_eq_true] at hex
    have letter := of_decide_eq_true (hex.resolve_left other)
    have lower : 97 ≤ char.toLower.toNat ∧ char.toLower.toNat ≤ 102 := by
      generalize char.toLower = low at letter
      simp only [List.mem_cons, List.not_mem_nil, or_false] at letter
      rcases letter with rfl | rfl | rfl | rfl | rfl | rfl <;> decide
    rw [toNat_toLower] at lower
    change (if 97 ≤ char.toNat ∧ char.toNat ≤ 102 then char.toNat - 97 + 10
      else if 65 ≤ char.toNat ∧ char.toNat ≤ 70 then char.toNat - 65 + 10
      else 16) < 16
    split_ifs at lower ⊢ <;> omega

theorem hexGroup_lt {group : List Char} (hex : hexGroupOk group = true) :
    group.foldl (fun value char => value * 16 + JsNumber.digitValue char) 0 <
      2 ^ 16 := by
  rw [hexGroupOk, Bool.and_eq_true, Bool.and_eq_true, List.all_eq_true] at hex
  have short := of_decide_eq_true hex.1.2
  calc _ < (0 + 1) * 16 ^ group.length :=
        foldl_lt (fun char member => digitValue_lt (hex.2 char member)) 0
    _ = 16 ^ group.length := by rw [Nat.zero_add, Nat.one_mul]
    _ ≤ 16 ^ 4 := Nat.pow_le_pow_right (by omega) short
    _ = 2 ^ 16 := by decide

theorem pieceValues_hexGroup {group : List Char}
    (hex : hexGroupOk group = true) :
    ∃ value, pieceValues group = [value] ∧ value < 2 ^ 16 := by
  have other : ipv4Value group = none := by
    rw [ipv4Value, if_neg]
    rw [ipv4Ok, List.splitOn_eq_splitOnP, List.splitOnP_eq_singleton]
    · simp
    · intro char member
      rw [beq_eq_false_iff_ne]
      rintro rfl
      rw [hexGroupOk, Bool.and_eq_true, List.all_eq_true] at hex
      exact absurd (hex.2 '.' member) (by decide)
  rw [pieceValues, other]
  exact ⟨_, rfl, hexGroup_lt hex⟩

theorem pieceValues_ipv4 {piece : List Char} (ok : ipv4Ok piece = true) :
    (pieceValues piece).length = 2 ∧
      ∀ value ∈ pieceValues piece, value < 2 ^ 16 := by
  have read : ∃ addr, ipv4Value piece = some addr := by
    rw [ipv4Value, if_pos ok]
    exact ⟨_, rfl⟩
  obtain ⟨addr, read⟩ := read
  have small := ipv4Value_lt read
  rw [pieceValues, read]
  refine ⟨rfl, fun value member => ?_⟩
  simp only [List.mem_cons, List.not_mem_nil, or_false] at member
  omega

theorem flatMap_hexGroups {groups : List (List Char)}
    (hex : ∀ group ∈ groups, hexGroupOk group = true) :
    (groups.flatMap pieceValues).length = groups.length ∧
      ∀ value ∈ groups.flatMap pieceValues, value < 2 ^ 16 := by
  induction groups with
  | nil => simp
  | cons group groups ih =>
      rw [List.forall_mem_cons] at hex
      obtain ⟨value, alone, small⟩ := pieceValues_hexGroup hex.1
      have rest := ih hex.2
      rw [List.flatMap_cons, alone, List.singleton_append, List.length_cons,
        List.length_cons, List.forall_mem_cons, rest.1]
      exact ⟨rfl, small, rest.2⟩

/-- A side of `::` has as many groups as were counted, each of 16 bits. -/
theorem groupValues_spec {last : Bool} {text : List Char} {count : Nat}
    (counted : groupCount last text = some count) :
    (groupValues text).length = count ∧
      ∀ value ∈ groupValues text, value < 2 ^ 16 := by
  rw [groupCount] at counted
  rw [groupValues]
  split at counted
  · rename_i empty
    cases counted
    rw [if_pos empty]
    simp
  · rename_i full
    rw [if_neg full]
    dsimp only at counted
    split at counted
    · rename_i hex
      cases counted
      exact flatMap_hexGroups (List.all_eq_true.mp hex)
    · split at counted
      · rename_i mixed
        cases counted
        rw [Bool.and_eq_true, Bool.and_eq_true, List.all_eq_true,
          Option.any_eq_true] at mixed
        obtain ⟨⟨_, hex⟩, final, ends, ok⟩ := mixed
        obtain ⟨front, pieces⟩ := List.getLast?_eq_some_iff.mp ends
        rw [pieces, List.dropLast_concat] at hex
        have before := flatMap_hexGroups hex
        have behind := pieceValues_ipv4 ok
        rw [pieces, List.flatMap_append, List.flatMap_singleton,
          List.length_append, List.length_append, List.forall_mem_append,
          before.1, behind.1]
        exact ⟨rfl, before.2, behind.2⟩
      · cases counted

theorem ipv6Value_lt {text : List Char} {addr : Nat}
    (read : ipv6Value text = some addr) : addr < 2 ^ 128 := by
  rw [ipv6Value] at read
  split at read
  · rename_i ok
    have bound : ∀ groups : List Nat, groups.length = 8 →
        (∀ group ∈ groups, group < 2 ^ 16) →
        groups.foldl (fun value group => value * 2 ^ 16 + group) 0 < 2 ^ 128 := by
      intro groups eight small
      have below := foldl_lt small 0
      rw [eight] at below
      exact below
    cases read
    rw [ipv6Ok] at ok
    split
    · rename_i front back parts
      rw [parts] at ok
      dsimp only at ok ⊢
      split at ok
      · rename_i first second inFront inBack
        have few := of_decide_eq_true ok
        have front := groupValues_spec inFront
        have back := groupValues_spec inBack
        apply bound
        · simp only [List.length_append, List.length_replicate]
          omega
        · rw [List.forall_mem_append, List.forall_mem_append]
          refine ⟨⟨front.2, fun group member => ?_⟩, back.2⟩
          rw [List.eq_of_mem_replicate member]
          exact Nat.two_pow_pos 16
      · cases ok
    · rename_i whole
      rw [whole] at ok
      have groups := groupValues_spec (of_decide_eq_true ok)
      exact bound _ groups.1 groups.2
  · cases read

theorem addressValue_lt {family : Family} {text : List Char} {addr : Nat}
    (read : addressValue family text = some addr) :
    addr < 2 ^ totalBits family := by
  cases family with
  | v4 => exact ipv4Value_lt read
  | v6 => exact ipv6Value_lt read

end QuartzFire.Geolocation
