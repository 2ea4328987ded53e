import Mathlib.Algebra.Order.Ring.Nat
import Mathlib.Data.List.Basic

namespace SeoPlatform.Foundation.IpAddress

/-- An address of either version of the protocol. -/
inductive Address where
  | v4 (bits : BitVec 32)
  | v6 (bits : BitVec 128)
  deriving DecidableEq, Repr

/-- Dotted bytes. -/
def ipv4 (a b c d : Nat) : BitVec 32 := BitVec.ofNat 32 (((a * 256 + b) * 256 + c) * 256 + d)

/-- The leading groups of four hexadecimal digits; the others are zero. -/
def ipv6 (groups : List Nat) : BitVec 128 :=
  BitVec.ofNat 128 (groups.foldl (fun n group => n * 65536 + group) 0 *
    65536 ^ (8 - groups.length))

/-- The leading bits of the addresses of a network. -/
structure Network (w : Nat) where
  base : BitVec w
  length : Nat

def Network.contains {w : Nat} (network : Network w) (bits : BitVec w) : Bool :=
  bits.toNat / 2 ^ (w - network.length) = network.base.toNat / 2 ^ (w - network.length)

def within {w : Nat} (networks : List (Network w)) (bits : BitVec w) : Bool :=
  networks.any fun network => network.contains bits

/-- `_private_networks` of the two versions, and the exceptions to them. -/
def privateV4 : List (Network 32) :=
  [⟨ipv4 0 0 0 0, 8⟩, ⟨ipv4 10 0 0 0, 8⟩, ⟨ipv4 127 0 0 0, 8⟩, ⟨ipv4 169 254 0 0, 16⟩,
   ⟨ipv4 172 16 0 0, 12⟩, ⟨ipv4 192 0 0 0, 24⟩, ⟨ipv4 192 0 0 170, 31⟩, ⟨ipv4 192 0 2 0, 24⟩,
   ⟨ipv4 192 168 0 0, 16⟩, ⟨ipv4 198 18 0 0, 15⟩, ⟨ipv4 198 51 100 0, 24⟩,
   ⟨ipv4 203 0 113 0, 24⟩, ⟨ipv4 240 0 0 0, 4⟩, ⟨ipv4 255 255 255 255, 32⟩]

def exceptionsV4 : List (Network 32) := [⟨ipv4 192 0 0 9, 32⟩, ⟨ipv4 192 0 0 10, 32⟩]

def privateV6 : List (Network 128) :=
  [⟨ipv6 [0, 0, 0, 0, 0, 0, 0, 1], 128⟩, ⟨ipv6 [], 128⟩, ⟨ipv6 [0, 0, 0, 0, 0, 0xffff], 96⟩,
   ⟨ipv6 [0x64, 0xff9b, 1], 48⟩, ⟨ipv6 [0x100], 64⟩, ⟨ipv6 [0x2001], 23⟩,
   ⟨ipv6 [0x2001, 0xdb8], 32⟩, ⟨ipv6 [0x2002], 16⟩, ⟨ipv6 [0xfc00], 7⟩, ⟨ipv6 [0xfe80], 10⟩]

def exceptionsV6 : List (Network 128) :=
  [⟨ipv6 [0x2001, 1, 0, 0, 0, 0, 0, 1], 128⟩, ⟨ipv6 [0x2001, 1, 0, 0, 0, 0, 0, 2], 128⟩,
   ⟨ipv6 [0x2001, 3], 32⟩, ⟨ipv6 [0x2001, 4, 0x112], 48⟩, ⟨ipv6 [0x2001, 0x20], 28⟩,
   ⟨ipv6 [0x2001, 0x30], 28⟩]

def reservedV6 : List (Network 128) :=
  [⟨ipv6 [], 8⟩, ⟨ipv6 [0x100], 8⟩, ⟨ipv6 [0x200], 7⟩, ⟨ipv6 [0x400], 6⟩, ⟨ipv6 [0x800], 5⟩,
   ⟨ipv6 [0x1000], 4⟩, ⟨ipv6 [0x4000], 3⟩, ⟨ipv6 [0x6000], 3⟩, ⟨ipv6 [0x8000], 3⟩,
   ⟨ipv6 [0xa000], 3⟩, ⟨ipv6 [0xc000], 3⟩, ⟨ipv6 [0xe000], 4⟩, ⟨ipv6 [0xf000], 5⟩,
   ⟨ipv6 [0xf800], 6⟩, ⟨ipv6 [0xfe00], 9⟩]

/-- The address of version 4 inside one of version 6. -/
def ipv4Mapped (bits : BitVec 128) : Option (BitVec 32) :=
  if bits.toNat / 2 ^ 32 = 0xffff then some (bits.setWidth 32) else none

def isPrivateV4 (bits : BitVec 32) : Bool := within privateV4 bits && !within exceptionsV4 bits

def isPrivate : Address → Bool
  | .v4 bits => isPrivateV4 bits
  | .v6 bits =>
      match ipv4Mapped bits with
      | some inner => isPrivateV4 inner
      | none => within privateV6 bits && !within exceptionsV6 bits

def isLoopback : Address → Bool
  | .v4 bits => within [⟨ipv4 127 0 0 0, 8⟩] bits
  | .v6 bits => bits = 1

def isLinkLocal : Address → Bool
  | .v4 bits => within [⟨ipv4 169 254 0 0, 16⟩] bits
  | .v6 bits => within [⟨ipv6 [0xfe80], 10⟩] bits

def isReserved : Address → Bool
  | .v4 bits => within [⟨ipv4 240 0 0 0, 4⟩] bits
  | .v6 bits => within reservedV6 bits

def isMulticast : Address → Bool
  | .v4 bits => within [⟨ipv4 224 0 0 0, 4⟩] bits
  | .v6 bits => within [⟨ipv6 [0xff00], 8⟩] bits

def isUnspecified : Address → Bool
  | .v4 bits => bits = 0
  | .v6 bits => bits = 0

end SeoPlatform.Foundation.IpAddress
