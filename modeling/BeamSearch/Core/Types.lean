import Mathlib.Algebra.GroupWithZero.Nat
import Mathlib.Order.Defs.LinearOrder
import Mathlib.Tactic.Common

/-
  Hashes, candidates and routes.

  `hashLess` is the lexicographic order on the high and low
  words of a hash. `CandidateMeta.rank` encodes the order
  that `candidateBetter` compares in as one natural number.

  Main declarations:
    * `Hash128`
    * `CandidateMeta`
    * `hashLess_iff`
    * `candidateBetter_iff`
-/

namespace BeamSearch

----------------
-- Constants
----------------

/- The greatest score that a histogram has a bin for. -/
def scoreMaxKey : Nat :=
  300 * 1024

/- A bin a score, zero included. -/
@[irreducible] def scoreBinCount : Nat :=
  scoreMaxKey + 1

/- The number of bins, as the headers write it. -/
theorem scoreBinCount_eq : scoreBinCount = 307201 := by
  unfold scoreBinCount scoreMaxKey
  rfl

/- The greatest 32-bit word. -/
def uint32Max : UInt32 :=
  0xffffffff

/- The greatest 64-bit word. -/
def uint64Max : UInt64 :=
  0xffffffffffffffff

/- Its number. -/
@[simp] theorem toNat_uint32Max :
    uint32Max.toNat = 4294967295 := by
  rfl

/- Its number. -/
@[simp] theorem toNat_uint64Max :
    uint64Max.toNat = 18446744073709551615 := by
  rfl

/- No 32-bit word is above it. -/
theorem le_uint32Max (n : UInt32) : n ≤ uint32Max := by
  have hBound := n.toNat_lt
  rw [UInt32.le_iff_toNat_le, toNat_uint32Max]
  omega

----------------
-- Hashes
----------------

/- A hash of two words. -/
structure Hash128 where
  lo : UInt64
  hi : UInt64
deriving DecidableEq, Repr

/- The upper word decides, then the lower. -/
def hashLess (a b : Hash128) : Bool :=
  if a.hi ≠ b.hi then a.hi < b.hi else a.lo < b.lo

namespace Hash128

/- The hash as one number, the high word first. -/
def toNat (h : Hash128) : Nat :=
  h.hi.toNat * 2 ^ 64 + h.lo.toNat

/- Two hashes of one number are one. -/
theorem toNat_injective {a b : Hash128}
    (hEq : a.toNat = b.toNat) :
    a = b := by
  have hA := a.lo.toNat_lt
  have hB := b.lo.toNat_lt
  have hLo : a.lo.toNat = b.lo.toNat := by
    unfold toNat at hEq
    omega
  have hHi : a.hi.toNat = b.hi.toNat := by
    unfold toNat at hEq
    omega
  cases a
  cases b
  simp only [mk.injEq]
  exact ⟨UInt64.toNat_inj.mp hLo, UInt64.toNat_inj.mp hHi⟩

instance : LE Hash128 where
  le a b := a.toNat ≤ b.toNat

instance : LT Hash128 where
  lt a b := a.toNat < b.toNat

/- The order of the hashes is that of their numbers. -/
theorem lt_iff_toNat_lt {a b : Hash128} :
    a < b ↔ a.toNat < b.toNat :=
  Iff.rfl

/- The order Stream 4 sorts hashes in. -/
instance : LinearOrder Hash128 where
  le_refl _ := Nat.le_refl _
  le_trans _ _ _ := Nat.le_trans
  lt_iff_le_not_ge _ _ := Nat.lt_iff_le_and_not_ge
  le_antisymm _ _ hLe hGe :=
    toNat_injective (Nat.le_antisymm hLe hGe)
  le_total a b := Nat.le_total a.toNat b.toNat
  toDecidableLE a b := inferInstanceAs (Decidable (a.toNat ≤ b.toNat))
  toDecidableEq := inferInstance

end Hash128

/- The comparison of the source is this order. -/
theorem hashLess_iff (a b : Hash128) :
    hashLess a b = true ↔ a < b := by
  have hA := a.lo.toNat_lt
  have hB := b.lo.toNat_lt
  rw [Hash128.lt_iff_toNat_lt]
  unfold hashLess Hash128.toNat
  split
  case isTrue hHi =>
    have hNe : a.hi.toNat ≠ b.hi.toNat :=
      fun hEq => hHi (UInt64.toNat_inj.mp hEq)
    rw [decide_eq_true_iff, UInt64.lt_iff_toNat_lt]
    omega
  case isFalse hHi =>
    have hEq : a.hi = b.hi := not_not.mp hHi
    rw [decide_eq_true_iff, UInt64.lt_iff_toNat_lt, hEq]
    omega

----------------
-- Candidates
----------------

/-
  A row: the hash of its state, its parent, its score and its
  route.
-/
structure CandidateMeta where
  hash : Hash128
  parentIdx : UInt64
  scoreKey : UInt32
  routePacked : UInt32
deriving DecidableEq, Repr

/- The lower score wins; parent and route break a tie. -/
def candidateBetter (a b : CandidateMeta) : Bool :=
  if a.scoreKey ≠ b.scoreKey then
    a.scoreKey < b.scoreKey
  else if a.parentIdx ≠ b.parentIdx then
    a.parentIdx < b.parentIdx
  else
    a.routePacked < b.routePacked

namespace CandidateMeta

/- Score, parent and route as one number, most significant first. -/
def rank (c : CandidateMeta) : Nat :=
  (c.scoreKey.toNat * 2 ^ 64 + c.parentIdx.toNat) * 2 ^ 32 +
    c.routePacked.toNat

/- A rank says all three fields. -/
theorem rank_fields {a b : CandidateMeta}
    (hRank : a.rank = b.rank) :
    a.scoreKey = b.scoreKey ∧
      a.parentIdx = b.parentIdx ∧
      a.routePacked = b.routePacked := by
  have hParentA := a.parentIdx.toNat_lt
  have hParentB := b.parentIdx.toNat_lt
  have hRouteA := a.routePacked.toNat_lt
  have hRouteB := b.routePacked.toNat_lt
  unfold rank at hRank
  refine ⟨UInt32.toNat_inj.mp ?_, UInt64.toNat_inj.mp ?_,
    UInt32.toNat_inj.mp ?_⟩ <;> omega

/- So hash and rank say the row. -/
theorem eq_of_hash_of_rank {a b : CandidateMeta}
    (hHash : a.hash = b.hash)
    (hRank : a.rank = b.rank) :
    a = b := by
  rcases rank_fields hRank with ⟨hScore, hParent, hRoute⟩
  cases a
  cases b
  simp_all

/- The score is the first of a rank. -/
theorem scoreKey_le_of_rank_le {a b : CandidateMeta}
    (hRank : b.rank ≤ a.rank) :
    b.scoreKey ≤ a.scoreKey := by
  have hParentA := a.parentIdx.toNat_lt
  have hParentB := b.parentIdx.toNat_lt
  have hRouteA := a.routePacked.toNat_lt
  have hRouteB := b.routePacked.toNat_lt
  unfold rank at hRank
  rw [UInt32.le_iff_toNat_le]
  omega

end CandidateMeta

/- The comparison of the source is the order of the ranks. -/
theorem candidateBetter_iff (a b : CandidateMeta) :
    candidateBetter a b = true ↔ a.rank < b.rank := by
  have hParentA := a.parentIdx.toNat_lt
  have hParentB := b.parentIdx.toNat_lt
  have hRouteA := a.routePacked.toNat_lt
  have hRouteB := b.routePacked.toNat_lt
  unfold candidateBetter CandidateMeta.rank
  split
  case isTrue hScore =>
    have hNe : a.scoreKey.toNat ≠ b.scoreKey.toNat :=
      fun hEq => hScore (UInt32.toNat_inj.mp hEq)
    rw [decide_eq_true_iff, UInt32.lt_iff_toNat_lt]
    omega
  case isFalse hScore =>
    rw [not_not.mp hScore]
    split
    case isTrue hParent =>
      have hNe : a.parentIdx.toNat ≠ b.parentIdx.toNat :=
        fun hEq => hParent (UInt64.toNat_inj.mp hEq)
      rw [decide_eq_true_iff, UInt64.lt_iff_toNat_lt]
      omega
    case isFalse hParent =>
      rw [not_not.mp hParent, decide_eq_true_iff,
        UInt32.lt_iff_toNat_lt]
      omega

end BeamSearch
