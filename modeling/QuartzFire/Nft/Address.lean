import Mathlib.Data.BitVec

/-!
# Addresses of the two families

A packet has its source and its destination of one family.
-/

namespace QuartzFire.Nft

inductive Family where
  | v4
  | v6
  deriving DecidableEq, Repr

inductive IpAddr where
  | v4 (bits : BitVec 32)
  | v6 (bits : BitVec 128)
  deriving DecidableEq

def IpAddr.family : IpAddr → Family
  | .v4 _ => .v4
  | .v6 _ => .v6

inductive Addresses where
  | v4 (source destination : BitVec 32)
  | v6 (source destination : BitVec 128)
  deriving DecidableEq

def Addresses.source : Addresses → IpAddr
  | .v4 source _ => .v4 source
  | .v6 source _ => .v6 source

def Addresses.destination : Addresses → IpAddr
  | .v4 _ destination => .v4 destination
  | .v6 _ destination => .v6 destination

theorem families_agree (addresses : Addresses) :
    addresses.destination.family = addresses.source.family := by
  cases addresses <;> rfl

end QuartzFire.Nft
