import Mathlib.Algebra.GroupWithZero.Nat
import Mathlib.Data.List.Basic

/-!
# The Internet checksum

Words of two bytes are added in one's complement.  A checksum put in the place
that was zero when it was taken makes the whole add up to all ones.
-/

namespace QuartzFire

/-! ## Big-endian bytes -/

def be16 (high low : UInt8) : UInt16 :=
  UInt16.ofNat (high.toNat * 256 + low.toNat)

def be32 (first second third fourth : UInt8) : UInt32 :=
  UInt32.ofNat (((first.toNat * 256 + second.toNat) * 256 + third.toNat) * 256 +
    fourth.toNat)

/-- The byte of a number with that many bytes below it. -/
def byteAt (below : Nat) (value : Nat) : UInt8 :=
  UInt8.ofNat (value / 256 ^ below)

def bytes16 (value : UInt16) : List UInt8 :=
  [byteAt 1 value.toNat, byteAt 0 value.toNat]

def bytes32 (value : UInt32) : List UInt8 :=
  [byteAt 3 value.toNat, byteAt 2 value.toNat, byteAt 1 value.toNat,
    byteAt 0 value.toNat]

theorem toNat_byteAt (below value : Nat) :
    (byteAt below value).toNat = value / 256 ^ below % 256 := by
  rw [byteAt, UInt8.toNat_ofNat']

@[simp] theorem be16_bytes (value : UInt16) :
    be16 (byteAt 1 value.toNat) (byteAt 0 value.toNat) = value := by
  have bound := value.toNat_lt
  apply UInt16.toNat_inj.mp
  rw [be16, UInt16.toNat_ofNat', toNat_byteAt, toNat_byteAt]
  omega

@[simp] theorem be32_bytes (value : UInt32) :
    be32 (byteAt 3 value.toNat) (byteAt 2 value.toNat) (byteAt 1 value.toNat)
      (byteAt 0 value.toNat) = value := by
  have bound := value.toNat_lt
  apply UInt32.toNat_inj.mp
  rw [be32, UInt32.toNat_ofNat', toNat_byteAt, toNat_byteAt, toNat_byteAt,
    toNat_byteAt]
  omega

/-! ## Sums -/

/-- The sum of the words; a last byte is the upper half of one. -/
def wordSum : List UInt8 → Nat
  | [] => 0
  | [last] => last.toNat * 256
  | high :: low :: rest => (be16 high low).toNat + wordSum rest

/-- Carries are added back in until none is left. -/
def foldCarries (sum : Nat) : Nat :=
  if sum < 65536 then sum else foldCarries (sum % 65536 + sum / 65536)
termination_by sum

def checksum (data : List UInt8) : UInt16 :=
  ~~~UInt16.ofNat (foldCarries (wordSum data))

theorem foldCarries_spec (sum : Nat) :
    foldCarries sum < 65536 ∧ foldCarries sum % 65535 = sum % 65535 ∧
      (foldCarries sum = 0 ↔ sum = 0) := by
  induction sum using foldCarries.induct with
  | case1 sum small =>
      rw [foldCarries, if_pos small]
      exact ⟨small, rfl, Iff.rfl⟩
  | case2 sum large ih =>
      rw [foldCarries, if_neg large]
      obtain ⟨bound, same, zero⟩ := ih
      refine ⟨bound, same.trans ?_, zero.trans ?_⟩
      · omega
      · omega

theorem wordSum_append {front : List UInt8} (even : front.length % 2 = 0)
    (back : List UInt8) : wordSum (front ++ back) = wordSum front + wordSum back := by
  induction front using wordSum.induct with
  | case1 => simp [wordSum]
  | case2 last => simp at even
  | case3 high low rest ih =>
      have shorter : rest.length % 2 = 0 := by
        simp only [List.length_cons] at even
        omega
      rw [List.cons_append, List.cons_append, wordSum, wordSum, ih shorter,
        Nat.add_assoc]

theorem wordSum_bytes16 (value : UInt16) (back : List UInt8) :
    wordSum (bytes16 value ++ back) = value.toNat + wordSum back := by
  rw [bytes16, List.cons_append, List.cons_append, List.nil_append, wordSum,
    be16_bytes]

/-- Data that holds its own checksum has the checksum zero. -/
theorem checksum_eq_zero {front : List UInt8} (even : front.length % 2 = 0)
    (back : List UInt8) :
    checksum (front ++
      (bytes16 (checksum (front ++ (0 :: 0 :: back))) ++ back)) = 0 := by
  have blank : wordSum (front ++ (0 :: 0 :: back)) =
      wordSum front + wordSum back := by
    have nothing : (be16 0 0).toNat = 0 := rfl
    rw [wordSum_append even, wordSum, nothing, Nat.zero_add]
  have whole : wordSum (front ++
      (bytes16 (checksum (front ++ (0 :: 0 :: back))) ++ back)) =
        wordSum front + wordSum back +
          (65535 - foldCarries (wordSum front + wordSum back)) := by
    have small := (foldCarries_spec (wordSum front + wordSum back)).1
    rw [wordSum_append even, wordSum_bytes16, checksum, blank,
      UInt16.toNat_not, UInt16.toNat_ofNat', Nat.mod_eq_of_lt small]
    simp only [UInt16.size]
    omega
  obtain ⟨small, same, zero⟩ := foldCarries_spec (wordSum front + wordSum back)
  rw [checksum, whole]
  generalize wordSum front + wordSum back = sum at small same zero ⊢
  obtain ⟨small', same', zero'⟩ :=
    foldCarries_spec (sum + (65535 - foldCarries sum))
  have ones : foldCarries (sum + (65535 - foldCarries sum)) = 65535 := by
    by_contra other
    have nothing : foldCarries (sum + (65535 - foldCarries sum)) = 0 := by
      omega
    have empty := zero'.mp nothing
    omega
  rw [ones]
  rfl

end QuartzFire
