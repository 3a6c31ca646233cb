import KSock.Lib.Endian
/-!
# Byte order

`utils.c`: on a little-endian host each of its conversions swaps the bytes of
its word. `storeU32` and its like are what a store through a cast pointer
leaves in memory on such a host.
-/
open KSockLib.Endian

namespace KSock

/-- `__builtin_bswap16` -/
def bswap16 (v : UInt16) : UInt16 := UInt16.ofNat (swap 2 v.toNat)

/-- `__builtin_bswap32` -/
def bswap32 (v : UInt32) : UInt32 := UInt32.ofNat (swap 4 v.toNat)

/-- `__builtin_bswap64` -/
def bswap64 (v : UInt64) : UInt64 := UInt64.ofNat (swap 8 v.toNat)

def htonll (hostlonglong : UInt64) : UInt64 := bswap64 hostlonglong
def htonl (hostlong : UInt32) : UInt32 := bswap32 hostlong
def htons (hostshort : UInt16) : UInt16 := bswap16 hostshort
def ntohl (netlong : UInt32) : UInt32 := bswap32 netlong
def ntohs (netshort : UInt16) : UInt16 := bswap16 netshort

/-- The bytes of `*(uint16_t *)p = v`. -/
def storeU16 (v : UInt16) : List UInt8 := toLE 2 v.toNat

/-- The bytes of `*(uint32_t *)p = v`. -/
def storeU32 (v : UInt32) : List UInt8 := toLE 4 v.toNat

/-- The bytes of `*(uint64_t *)p = v`. -/
def storeU64 (v : UInt64) : List UInt8 := toLE 8 v.toNat

/-- The value of `*(uint16_t *)p` where `raw` are the two bytes at `p`. -/
def loadU16 (raw : List UInt8) : UInt16 := UInt16.ofNat (ofLE raw)

/-- The value of `*(uint32_t *)p` where `raw` are the four bytes at `p`. -/
def loadU32 (raw : List UInt8) : UInt32 := UInt32.ofNat (ofLE raw)

@[simp] theorem length_storeU16 (v : UInt16) : (storeU16 v).length = 2 := length_toLE _ _
@[simp] theorem length_storeU32 (v : UInt32) : (storeU32 v).length = 4 := length_toLE _ _

/-- Storing a value in network order puts its bytes in big-endian order. -/
theorem storeU32_htonl (v : UInt32) : storeU32 (htonl v) = toBE 4 v.toNat := by
  have h : swap 4 v.toNat < 2 ^ 32 := swap_lt 4 v.toNat
  rw [storeU32, htonl, bswap32, UInt32.toNat_ofNat', Nat.mod_eq_of_lt h, toLE_swap]

theorem storeU16_htons (v : UInt16) : storeU16 (htons v) = toBE 2 v.toNat := by
  have h : swap 2 v.toNat < 2 ^ 16 := swap_lt 2 v.toNat
  rw [storeU16, htons, bswap16, UInt16.toNat_ofNat', Nat.mod_eq_of_lt h, toLE_swap]

theorem storeU64_htonll (v : UInt64) : storeU64 (htonll v) = toBE 8 v.toNat := by
  have h : swap 8 v.toNat < 2 ^ 64 := swap_lt 8 v.toNat
  rw [storeU64, htonll, bswap64, UInt64.toNat_ofNat', Nat.mod_eq_of_lt h, toLE_swap]

/-- Storing what was loaded. -/
theorem storeU32_loadU32 {raw : List UInt8} (h : raw.length = 4) : storeU32 (loadU32 raw) = raw := by
  have hlt : ofLE raw < 2 ^ 32 := by have := ofLE_lt raw; rwa [h] at this
  rw [storeU32, loadU32, UInt32.toNat_ofNat', Nat.mod_eq_of_lt hlt, ← h, toLE_ofLE]

/-- Loading a value and converting it from network order reads it big-endian. -/
theorem ntohl_loadU32 {raw : List UInt8} (h : raw.length = 4) : ntohl (loadU32 raw) = UInt32.ofNat (ofBE raw) := by
  have hlt : ofLE raw < 2 ^ 32 := by have := ofLE_lt raw; rwa [h] at this
  have hs := swap_ofLE raw
  rw [h] at hs
  rw [ntohl, bswap32, loadU32, UInt32.toNat_ofNat', Nat.mod_eq_of_lt hlt, hs]

theorem ntohs_loadU16 {raw : List UInt8} (h : raw.length = 2) : ntohs (loadU16 raw) = UInt16.ofNat (ofBE raw) := by
  have hlt : ofLE raw < 2 ^ 16 := by have := ofLE_lt raw; rwa [h] at this
  have hs := swap_ofLE raw
  rw [h] at hs
  rw [ntohs, bswap16, loadU16, UInt16.toNat_ofNat', Nat.mod_eq_of_lt hlt, hs]

end KSock
