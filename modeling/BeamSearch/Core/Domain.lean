import BeamSearch.Core.Types

/-
  Routing of hashes to owners and logical shards.

  Both indices are taken from a mixed distribution key of the
  hash, so a hash belongs to exactly one (owner, shard) domain.

  Main declarations:
    * `ownerFromHash128`
    * `shardFromHash128`
    * `domainOf`
-/

namespace BeamSearch

/- Rotate a 64-bit word to the left. -/
def hash128Rotl64 (value : UInt64) (shift : UInt64) : UInt64 :=
  (value <<< shift) ||| (value >>> (64 - shift))

/-
  The finalizer of the hash; all arithmetic is on 64-bit
  words.
-/
def hash128Mix64 (value : UInt64) : UInt64 :=
  let value := value ^^^ (value >>> 30)
  let value := value * 0xbf58476d1ce4e5b9
  let value := value ^^^ (value >>> 27)
  let value := value * 0x94d049bb133111eb
  value ^^^ (value >>> 31)

/- One key a salt: the same hash is spread anew for each use. -/
def hash128DistributionKey
    (hash : Hash128)
    (domainSalt : UInt64) : UInt64 :=
  let value :=
    hash.lo ^^^ hash128Rotl64 hash.hi 32 ^^^ domainSalt
  let value :=
    value ^^^ hash128Mix64 (hash.hi + 0x9e3779b97f4a7c15)
  hash128Mix64 value

/- The key that picks the rank. -/
def hash128OwnerDistributionKey (hash : Hash128) : UInt64 :=
  hash128DistributionKey hash 0x243f6a8885a308d3

/- The key that picks the shard of a rank. -/
def hash128ShardDistributionKey (hash : Hash128) : UInt64 :=
  hash128DistributionKey hash 0x13198a2e03707344

/- Never zero, which marks an empty slot. -/
def hash128Fingerprint32 (hash : Hash128) : UInt32 :=
  let mixed := hash128DistributionKey hash 0xa4093822299f31d0
  let fingerprint := (mixed ^^^ (mixed >>> 32)).toUInt32
  if fingerprint = 0 then 1 else fingerprint

/- The first bucket of the table. -/
def hash128BucketKey0 (hash : Hash128) : UInt64 :=
  hash128DistributionKey hash 0x082efa98ec4e6c89

/- The second bucket of the table. -/
def hash128BucketKey1 (hash : Hash128) : UInt64 :=
  hash128DistributionKey hash 0x452821e638d01377

/-
  Zero is the mark of an empty place, so a fingerprint is
  never it.
-/
theorem hash128Fingerprint32_ne_zero (hash : Hash128) :
    hash128Fingerprint32 hash ≠ 0 := by
  rw [hash128Fingerprint32]
  split_ifs with hZero
  · decide
  · exact hZero

/- The rank that owns a hash. -/
def ownerFromHash128 (hash : Hash128) (worldSize : Nat) : Nat :=
  (hash128OwnerDistributionKey hash).toNat % worldSize

/- The shard of a hash at its owner. -/
def shardFromHash128 (hash : Hash128) (shardCount : Nat) : Nat :=
  (hash128ShardDistributionKey hash).toNat % shardCount

/- An owner rank and one of its logical shards. -/
abbrev Domain :=
  Nat × Nat

/- Owner and shard: where all rows of a hash meet. -/
def domainOf
    (worldSize shardCount : Nat)
    (hash : Hash128) : Domain :=
  (ownerFromHash128 hash worldSize,
    shardFromHash128 hash shardCount)

end BeamSearch
