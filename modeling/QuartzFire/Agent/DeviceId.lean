import QuartzFire.Foundation.BitGroups
import Mathlib.Data.BitVec

/-!
# Device ids

A prefix of the Crockford base32 encoding of a digest, emitted while the bytes
are read, from an accumulator of 32 bits that is never masked.
-/

namespace QuartzFire.Agent

def crockford : List Char := "0123456789ABCDEFGHJKMNPQRSTVWXYZ".toList

/-- What is kept between bytes: of the accumulator only the lowest `bits` bits
are still to be output. -/
structure Accumulator where
  acc : BitVec 32
  bits : Nat
  out : List Char

def symbol (shifted : BitVec 32) : Char :=
  crockford.getD (shifted &&& 0x1f).toNat '0'

/-- Output while there are five bits.  An error is the output returned early. -/
def drain (n : Nat) (acc : BitVec 32) :
    Nat → List Char → Except (List Char) Accumulator
  | bits + 5, out =>
      let out := out ++ [symbol (acc >>> bits)]
      if out.length = n then .error out else drain n acc bits out
  | bits, out => .ok ⟨acc, bits, out⟩

/-- The accumulator with one more byte; what does not fit is shifted out. -/
def shiftIn (acc : BitVec 32) (byte : UInt8) : BitVec 32 :=
  acc <<< 8 ||| byte.toBitVec.setWidth 32

def absorb (n : Nat) (state : Accumulator) (byte : UInt8) :
    Except (List Char) Accumulator :=
  drain n (shiftIn state.acc byte) (state.bits + 8) state.out

/-- The trailing partial group is filled up with zeros. -/
def Accumulator.finish (state : Accumulator) (n : Nat) : List Char :=
  if 0 < state.bits ∧ state.out.length < n then
    state.out ++ [symbol (state.acc <<< (5 - state.bits))]
  else state.out

def crockfordPrefix (data : List UInt8) (n : Nat) : String :=
  String.ofList <|
    match data.foldlM (absorb n) ⟨0, 0, []⟩ with
    | .error out => out
    | .ok state => state.finish n

/-- The id of a raw public key, in groups of four. -/
def deriveDeviceId (digest : List UInt8 → List UInt8)
    (pubkeyRaw : List UInt8) : String :=
  let chars := (crockfordPrefix (digest pubkeyRaw) 16).toList
  "QF-" ++ String.intercalate "-" ((chars.toChunks 4).map String.ofList)

/-! ## The encoding -/

/-- The bits of the bytes, the most significant first. -/
def bitsOf (data : List UInt8) : List Bool :=
  data.flatMap fun byte => msbBits 8 byte.toNat

/-- A character for each five bits. -/
def base32 (bits : List Bool) : List Char :=
  (groups 5 bits).map fun group => crockford.getD group '0'

/-- The lowest bits of the accumulator are those that are pending. -/
def Holds (pending : List Bool) (acc : BitVec 32) : Prop :=
  acc.toNat % 2 ^ pending.length = msbValue pending

theorem bitsOf_cons (byte : UInt8) (rest : List UInt8) :
    bitsOf (byte :: rest) = msbBits 8 byte.toNat ++ bitsOf rest :=
  List.flatMap_cons ..

theorem length_bitsOf (data : List UInt8) :
    (bitsOf data).length = 8 * data.length := by
  induction data with
  | nil => rfl
  | cons byte rest ih =>
      rw [bitsOf_cons, List.length_append, length_msbBits, ih, List.length_cons]
      ring

theorem toNat_shiftIn (acc : BitVec 32) (byte : UInt8) :
    (shiftIn acc byte).toNat = acc.toNat * 2 ^ 8 % 2 ^ 32 + byte.toNat := by
  have small : byte.toNat < 2 ^ 8 := byte.toNat_lt
  have wide : byte.toNat % 2 ^ 32 = byte.toNat := Nat.mod_eq_of_lt (by omega)
  have aligned : acc.toNat * 2 ^ 8 % 2 ^ 32 = 2 ^ 8 * (acc.toNat % 2 ^ 24) := by
    omega
  rw [shiftIn, BitVec.toNat_or, BitVec.toNat_shiftLeft, Nat.shiftLeft_eq,
    BitVec.toNat_setWidth, UInt8.toNat_toBitVec, wide, aligned,
    Nat.two_pow_add_eq_or_of_lt small]

/-- Up to 24 pending bits survive the next byte. -/
theorem Holds.shiftIn {pending : List Bool} {acc : BitVec 32}
    (holds : Holds pending acc) (room : pending.length ≤ 24) (byte : UInt8) :
    Holds (pending ++ msbBits 8 byte.toNat) (shiftIn acc byte) := by
  have small : byte.toNat < 2 ^ 8 := byte.toNat_lt
  have below := msbValue_lt pending
  have divides : 2 ^ (pending.length + 8) ∣ 2 ^ 32 :=
    Nat.pow_dvd_pow 2 (by omega)
  have kept : acc.toNat * 2 ^ 8 % 2 ^ 32 % 2 ^ (pending.length + 8) =
      msbValue pending * 2 ^ 8 := by
    rw [Nat.mod_mod_of_dvd _ divides, pow_add, Nat.mul_mod_mul_right, holds]
  have fits : msbValue pending * 2 ^ 8 + byte.toNat <
      2 ^ (pending.length + 8) := by
    rw [pow_add]
    omega
  have byteFits : byte.toNat % 2 ^ (pending.length + 8) = byte.toNat :=
    Nat.mod_eq_of_lt (by omega)
  rw [Holds, List.length_append, length_msbBits, toNat_shiftIn, msbValue_append,
    msbValue_msbBits, length_msbBits, Nat.mod_eq_of_lt small, Nat.add_mod, kept,
    byteFits, Nat.mod_eq_of_lt fits]

theorem toNat_masked (shifted : BitVec 32) :
    (shifted &&& 0x1f).toNat = shifted.toNat % 2 ^ 5 := by
  rw [BitVec.toNat_and]
  exact Nat.and_two_pow_sub_one_eq_mod shifted.toNat 5

/-- The next character is that of the first five pending bits. -/
theorem Holds.symbol {front rest : List Bool} {acc : BitVec 32}
    (holds : Holds (front ++ rest) acc) (whole : front.length = 5) :
    symbol (acc >>> rest.length) = crockford.getD (msbValue front) '0' := by
  have below := msbValue_lt rest
  have high : acc.toNat / 2 ^ rest.length % 2 ^ 5 = msbValue front := by
    have cut : 2 ^ rest.length * 2 ^ 5 = 2 ^ (front ++ rest).length := by
      rw [← pow_add, List.length_append, whole, Nat.add_comm]
    rw [← Nat.mod_mul_right_div_self, cut, holds, msbValue_append, Nat.mul_comm,
      Nat.mul_add_div (Nat.two_pow_pos _), Nat.div_eq_of_lt below, Nat.add_zero]
  rw [Agent.symbol, toNat_masked, BitVec.toNat_ushiftRight,
    Nat.shiftRight_eq_div_pow, high]

theorem Holds.rest {front rest : List Bool} {acc : BitVec 32}
    (holds : Holds (front ++ rest) acc) : Holds rest acc := by
  have divides : 2 ^ rest.length ∣ 2 ^ (front ++ rest).length :=
    Nat.pow_dvd_pow 2 (by simp)
  rw [Holds, ← Nat.mod_mod_of_dvd _ divides, holds, msbValue_append,
    Nat.mul_comm, Nat.mul_add_mod, Nat.mod_eq_of_lt (msbValue_lt rest)]

/-- The trailing group, with zeros after what is pending. -/
theorem Holds.last {pending : List Bool} {acc : BitVec 32}
    (holds : Holds pending acc) (short : pending.length < 5) :
    Agent.symbol (acc <<< (5 - pending.length)) =
      crockford.getD (msbValue pending * 2 ^ (5 - pending.length)) '0' := by
  have divides : 2 ^ 5 ∣ 2 ^ 32 := Nat.pow_dvd_pow 2 (by decide)
  have cut : 2 ^ 5 = 2 ^ pending.length * 2 ^ (5 - pending.length) := by
    rw [← pow_add]
    congr 1
    omega
  rw [Agent.symbol, toNat_masked, BitVec.toNat_shiftLeft, Nat.shiftLeft_eq,
    Nat.mod_mod_of_dvd _ divides, cut, Nat.mul_mod_mul_right, holds]

/-! ## The loop -/

/-- The output of whole groups of bits. -/
structure Emitted (done : List Bool) (out : List Char) : Prop where
  whole : done.length = out.length * 5
  out : out = base32 done

theorem Emitted.append {done : List Bool} {out : List Char}
    (emitted : Emitted done out) (rest : List Bool) :
    base32 (done ++ rest) = out ++ base32 rest := by
  rw [base32, groups_append_groups (by decide) emitted.whole, List.map_append,
    emitted.out]
  rfl

theorem Emitted.push {done front : List Bool} {out : List Char}
    (emitted : Emitted done out) (five : front.length = 5) :
    Emitted (done ++ front)
      (out ++ [crockford.getD (msbValue front) '0']) where
  whole := by
    rw [List.length_append, emitted.whole, five, List.length_append,
      List.length_singleton, Nat.succ_mul]
  out := by
    have one := groups_append five (by decide) []
    rw [List.append_nil, groups_nil (by decide)] at one
    rw [emitted.append, base32, one]
    rfl

/-- A state in which all bits read are output or pending. -/
structure Continues (n : Nat) (read : List Bool) (state : Accumulator) :
    Prop where
  room : state.out.length < n
  short : state.bits < 5
  rest : ∃ done pending, read = done ++ pending ∧ Emitted done state.out ∧
    pending.length = state.bits ∧ Holds pending state.acc

/-- What is returned early no later bit changes. -/
def Outputs (n : Nat) (read : List Bool) :
    Except (List Char) Accumulator → Prop
  | .error early => ∀ later, early = (base32 (read ++ later)).take n
  | .ok state => Continues n read state

theorem outputs_drain {n : Nat} {acc : BitVec 32} {bits : Nat}
    {done pending : List Bool} {out : List Char} (emitted : Emitted done out)
    (counted : pending.length = bits) (holds : Holds pending acc)
    (room : out.length < n) :
    Outputs n (done ++ pending) (drain n acc bits out) := by
  -- With five bits or more the first five make the next character.
  have split : ∀ {bits : Nat} {pending : List Bool},
      pending.length = bits + 5 → Holds pending acc →
      ∃ front rest, pending = front ++ rest ∧ front.length = 5 ∧
        rest.length = bits ∧ Holds rest acc ∧
        symbol (acc >>> bits) = crockford.getD (msbValue front) '0' := by
    intro bits pending counted holds
    rw [← List.take_append_drop 5 pending] at holds
    have five : (pending.take 5).length = 5 := by
      rw [List.length_take]
      omega
    have few : (pending.drop 5).length = bits := by
      rw [List.length_drop]
      omega
    have next := holds.symbol five
    rw [few] at next
    exact ⟨_, _, (List.take_append_drop 5 pending).symm, five, few, holds.rest,
      next⟩
  fun_induction drain n acc bits out generalizing done pending with
  | case1 bits out next =>
      rename_i full
      obtain ⟨front, rest, rfl, five, _, _, digit⟩ := split counted holds
      intro later
      simp only [next, digit] at full ⊢
      rw [← List.append_assoc, List.append_assoc, (emitted.push five).append,
        ← full, List.take_left]
  | case2 bits out next more =>
      rename_i ih
      obtain ⟨front, rest, rfl, five, few, below, digit⟩ := split counted holds
      simp only [next, digit] at more ih ⊢
      rw [← List.append_assoc]
      refine ih (emitted.push five) few below ?_
      rw [List.length_append, List.length_singleton] at more ⊢
      omega
  | case3 bits out few =>
      refine ⟨room, ?_, done, pending, rfl, emitted, counted, holds⟩
      by_contra many
      simp only [not_lt] at many
      exact few (bits - 5) (by omega)

theorem outputs_absorb {n : Nat} {read : List Bool} {state : Accumulator}
    (continues : Continues n read state) (byte : UInt8) :
    Outputs n (read ++ msbBits 8 byte.toNat) (absorb n state byte) := by
  obtain ⟨done, pending, rfl, emitted, counted, holds⟩ := continues.rest
  have short := continues.short
  have length : (pending ++ msbBits 8 byte.toNat).length = state.bits + 8 := by
    rw [List.length_append, length_msbBits, counted]
  rw [List.append_assoc]
  exact outputs_drain emitted length (holds.shiftIn (by omega) byte)
    continues.room

/-- The whole loop, from any state of it. -/
theorem outputs_foldlM {n : Nat} {read : List Bool} {state : Accumulator}
    (continues : Continues n read state) (data : List UInt8) :
    Outputs n (read ++ bitsOf data) (data.foldlM (absorb n) state) := by
  induction data generalizing read state with
  | nil =>
      rw [bitsOf, List.flatMap_nil, List.append_nil]
      exact continues
  | cons byte rest ih =>
      have absorbed := outputs_absorb continues byte
      rw [List.foldlM_cons, bitsOf_cons, ← List.append_assoc]
      cases result : absorb n state byte with
      | error early =>
          rw [result] at absorbed
          intro later
          rw [List.append_assoc]
          exact absorbed (bitsOf rest ++ later)
      | ok next =>
          rw [result] at absorbed
          exact ih absorbed

theorem finish_eq {n : Nat} {read : List Bool} {state : Accumulator}
    (continues : Continues n read state) :
    state.finish n = (base32 read).take n := by
  obtain ⟨done, pending, rfl, emitted, counted, holds⟩ := continues.rest
  have room := continues.room
  have short := continues.short
  rw [emitted.append, Accumulator.finish]
  by_cases none : pending = []
  · subst none
    have nothing : ¬ (0 < state.bits ∧ state.out.length < n) := by
      rw [← counted]
      simp
    rw [if_neg nothing, base32, groups_nil (by decide), List.map_nil,
      List.append_nil, List.take_of_length_le (by omega)]
  · have some : 0 < state.bits ∧ state.out.length < n := by
      rw [← counted]
      exact ⟨List.length_pos_iff.mpr none, room⟩
    rw [if_pos some, base32, groups_short none (by omega), ← counted,
      holds.last (by omega), List.map_singleton, List.take_of_length_le]
    rw [List.length_append, List.length_singleton]
    omega

theorem continues_start {n : Nat} (positive : 1 ≤ n) :
    Continues n [] ⟨0, 0, []⟩ where
  room := positive
  short := by decide
  rest := ⟨[], [], rfl, ⟨rfl, rfl⟩, rfl, rfl⟩

/-- The bits still to be output are the lowest of the accumulator, as they were
read, before and after the next byte is shifted in. -/
structure Lossless (front : List UInt8) (state : Accumulator) : Prop where
  counted : state.out.length * 5 + state.bits = 8 * front.length
  pending : state.acc.toNat % 2 ^ state.bits =
    msbValue (bitsOf front) % 2 ^ state.bits
  shifted : ∀ byte, (shiftIn state.acc byte).toNat % 2 ^ (state.bits + 8) =
    msbValue (bitsOf (front ++ [byte])) % 2 ^ (state.bits + 8)

theorem Holds.eq_mod {done pending : List Bool} {acc : BitVec 32}
    (holds : Holds pending acc) :
    acc.toNat % 2 ^ pending.length =
      msbValue (done ++ pending) % 2 ^ pending.length := by
  rw [holds, msbValue_append, Nat.mul_comm, Nat.mul_add_mod,
    Nat.mod_eq_of_lt (msbValue_lt pending)]

theorem Continues.lossless {n : Nat} {front : List UInt8} {state : Accumulator}
    (continues : Continues n (bitsOf front) state) : Lossless front state := by
  obtain ⟨done, pending, read, emitted, counted, holds⟩ := continues.rest
  have short := continues.short
  refine ⟨?_, ?_, fun byte => ?_⟩
  · rw [← emitted.whole, ← counted, ← List.length_append, ← read, length_bitsOf]
  · rw [read, ← counted]
    exact holds.eq_mod
  · have all : bitsOf (front ++ [byte]) =
        done ++ (pending ++ msbBits 8 byte.toNat) := by
      rw [bitsOf, List.flatMap_append, ← bitsOf, read, List.append_assoc]
      simp
    have length : state.bits + 8 = (pending ++ msbBits 8 byte.toNat).length := by
      rw [List.length_append, length_msbBits, counted]
    rw [all, length]
    exact (holds.shiftIn (by omega) byte).eq_mod

theorem outputs_start {n : Nat} (positive : 1 ≤ n) (front : List UInt8) :
    Outputs n (bitsOf front) (front.foldlM (absorb n) ⟨0, 0, []⟩) :=
  outputs_foldlM (continues_start positive) front

theorem crockfordPrefix_eq {n : Nat} (positive : 1 ≤ n) (data : List UInt8) :
    crockfordPrefix data n =
      String.ofList ((base32 (bitsOf data)).take n) := by
  have all := outputs_start positive data
  rw [crockfordPrefix]
  congr 1
  cases result : data.foldlM (absorb n) ⟨0, 0, []⟩ with
  | error early =>
      rw [result] at all
      simpa using all []
  | ok state =>
      rw [result] at all
      exact finish_eq all

/-- A device id spells the first 80 bits of the digest. -/
theorem deriveDeviceId_eq (digest : List UInt8 → List UInt8)
    (pubkeyRaw : List UInt8) :
    deriveDeviceId digest pubkeyRaw = "QF-" ++ String.intercalate "-"
      ((((base32 (bitsOf (digest pubkeyRaw))).take 16).toChunks 4).map
        String.ofList) := by
  rw [deriveDeviceId, crockfordPrefix_eq (by decide), String.toList_ofList]

/-- The output is a prefix of the encoding of all bytes, and every state of the
loop holds each bit that is still to be output. -/
theorem crockfordPrefix_exact (data : List UInt8) (n : Nat)
    (positive : 1 ≤ n) :
    crockfordPrefix data n =
        String.ofList ((base32 (bitsOf data)).take n) ∧
      ∀ front state, front <+: data →
        front.foldlM (absorb n) ⟨0, 0, []⟩ = .ok state →
          Lossless front state := by
  refine ⟨crockfordPrefix_eq positive data, ?_⟩
  intro front state _ reached
  have outputs := outputs_start positive front
  rw [reached] at outputs
  exact outputs.lossless

theorem crockfordPrefix_byte :
    1 ≤ 2 ∧ crockfordPrefix [0xff] 2 =
        String.ofList ((base32 (bitsOf [0xff])).take 2) ∧
      ∀ front state, front <+: [0xff] →
        front.foldlM (absorb 2) ⟨0, 0, []⟩ = .ok state →
          Lossless front state :=
  ⟨by decide, crockfordPrefix_exact [0xff] 2 (by decide)⟩

example : crockfordPrefix [0xff] 2 = "ZW" := by decide

end QuartzFire.Agent
