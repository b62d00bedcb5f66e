import Mathlib.Data.List.Basic

/-!
# Addresses in Python

The part of `ipaddress` that tells which addresses are globally routable.
-/

namespace Python

inductive IpAddress where
  | v4 (n : BitVec 32)
  | v6 (n : BitVec 128)
deriving DecidableEq, Repr

/-- A network: its first address and the number of leading bits that its addresses share. -/
structure Network (w : ℕ) where
  base : BitVec w
  bits : ℕ

/-- `address in network`. -/
def Network.contains {w : ℕ} (network : Network w) (n : BitVec w) : Bool :=
  n >>> (w - network.bits) = network.base >>> (w - network.bits)

def ipv4 (a b c d : ℕ) : BitVec 32 := BitVec.ofNat 32 (((a * 256 + b) * 256 + c) * 256 + d)

/-- The address whose first groups are given, followed by zeros. -/
def ipv6 (groups : List ℕ) : BitVec 128 :=
  BitVec.ofNat 128 ((groups ++ List.replicate (8 - groups.length) 0).foldl (65536 * · + ·) 0)

def privateV4 : List (Network 32) :=
  [⟨ipv4 0 0 0 0, 8⟩, ⟨ipv4 10 0 0 0, 8⟩, ⟨ipv4 127 0 0 0, 8⟩, ⟨ipv4 169 254 0 0, 16⟩,
   ⟨ipv4 172 16 0 0, 12⟩, ⟨ipv4 192 0 0 0, 24⟩, ⟨ipv4 192 0 0 170, 31⟩, ⟨ipv4 192 0 2 0, 24⟩,
   ⟨ipv4 192 168 0 0, 16⟩, ⟨ipv4 198 18 0 0, 15⟩, ⟨ipv4 198 51 100 0, 24⟩,
   ⟨ipv4 203 0 113 0, 24⟩, ⟨ipv4 240 0 0 0, 4⟩, ⟨ipv4 255 255 255 255, 32⟩]

def privateV4Exceptions : List (Network 32) := [⟨ipv4 192 0 0 9, 32⟩, ⟨ipv4 192 0 0 10, 32⟩]

/-- Addresses that are neither private nor global. -/
def sharedV4 : Network 32 := ⟨ipv4 100 64 0 0, 10⟩

def privateV6 : List (Network 128) :=
  [⟨1, 128⟩, ⟨0, 128⟩, ⟨0xffff00000000, 96⟩, ⟨ipv6 [0x64, 0xff9b, 1], 48⟩, ⟨ipv6 [0x100], 64⟩,
   ⟨ipv6 [0x2001], 23⟩, ⟨ipv6 [0x2001, 0xdb8], 32⟩, ⟨ipv6 [0x2002], 16⟩, ⟨ipv6 [0x3fff], 20⟩,
   ⟨ipv6 [0xfc00], 7⟩, ⟨ipv6 [0xfe80], 10⟩]

def privateV6Exceptions : List (Network 128) :=
  [⟨ipv6 [0x2001, 1, 0, 0, 0, 0, 0, 1], 128⟩, ⟨ipv6 [0x2001, 1, 0, 0, 0, 0, 0, 2], 128⟩,
   ⟨ipv6 [0x2001, 3], 32⟩, ⟨ipv6 [0x2001, 4, 0x112], 48⟩, ⟨ipv6 [0x2001, 0x20], 28⟩,
   ⟨ipv6 [0x2001, 0x30], 28⟩]

def isGlobalV4 (n : BitVec 32) : Bool :=
  !sharedV4.contains n &&
    !(privateV4.any (Network.contains · n) && !privateV4Exceptions.any (Network.contains · n))

/-- `address.is_global`; an address that maps one of version 4 is as global as that. -/
def IpAddress.isGlobal : IpAddress → Bool
  | .v4 n => isGlobalV4 n
  | .v6 n =>
      if n >>> 32 = 0xffff then isGlobalV4 (n.truncate 32)
      else !(privateV6.any (Network.contains · n) && !privateV6Exceptions.any (Network.contains · n))

example : [IpAddress.v4 (ipv4 93 184 216 34), .v4 (ipv4 127 0 0 1), .v4 (ipv4 169 254 169 254),
    .v6 (ipv6 [0, 0, 0, 0, 0, 0xffff, 0x0a00, 1])].map IpAddress.isGlobal =
      [true, false, false, false] := by decide

end Python
