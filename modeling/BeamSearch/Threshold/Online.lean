import BeamSearch.Core.Domain
import BeamSearch.Stream4.Schedule
import BeamSearch.Threshold.Rules
import Mathlib.Data.Finset.Card
import Mathlib.Algebra.Order.BigOperators.Group.Finset
import Mathlib.Algebra.BigOperators.Group.Finset.Sigma

/-
  One depth of online threshold updates on any number of ranks.

  Candidates are packed against the threshold of their source
  rank, travel in any order, and are appended to a bank of
  their (owner, shard) domain. Stream 4 passes commit histograms
  of hash-unique survivors; snapshots of the conservative bank
  unions are summed and published by every rank in its own time.

  Main declarations:
    * `finalThreshold`
    * `Online.step`
    * `Online.Bounded`
    * `Online.activeThreshold_ge_finalThreshold`
-/

namespace BeamSearch

open Cdf KeyedMin Schedule

----------------
-- The Exact Threshold Of A Depth
----------------

/- The hashes whose best score is at most `score`. -/
def hashesWithin
    (rows : List CandidateMeta)
    (score : Nat) : Finset Hash128 :=
  ((rows.filter fun c => c.scoreKey.toNat ≤ score).map
    CandidateMeta.hash).toFinset

theorem mem_hashesWithin_iff
    (rows : List CandidateMeta)
    (score : Nat)
    (h : Hash128) :
    h ∈ hashesWithin rows score ↔
      ∃ c ∈ rows, c.scoreKey.toNat ≤ score ∧ c.hash = h := by
  simp [hashesWithin, and_assoc]

theorem hashesWithin_mono
    {xs ys : List CandidateMeta}
    {r s : Nat}
    (hRows : xs ⊆ ys)
    (hScore : r ≤ s) :
    hashesWithin xs r ⊆ hashesWithin ys s := by
  intro h hMem
  rw [mem_hashesWithin_iff] at hMem ⊢
  rcases hMem with ⟨c, hRow, hLe, hHash⟩
  exact ⟨c, hRows hRow, hLe.trans hScore, hHash⟩

/-
  The least score at which the depth has `width` distinct
  hashes, or the sentinel when it never has that many.
-/
def finalThreshold
    (width : Nat)
    (rows : List CandidateMeta) : Nat :=
  if hReach :
      width ≤ (hashesWithin rows uint32Max.toNat).card then
    Nat.find (p := fun s => width ≤ (hashesWithin rows s).card)
      ⟨uint32Max.toNat, hReach⟩
  else
    uint32Max.toNat

theorem finalThreshold_le_of_card
    {width score : Nat}
    {rows : List CandidateMeta}
    (hCard : width ≤ (hashesWithin rows score).card) :
    finalThreshold width rows ≤ score := by
  unfold finalThreshold
  split
  case isTrue hReach => exact Nat.find_min' _ hCard
  case isFalse hReach =>
    by_contra hNot
    have hSubset :
        hashesWithin rows score ⊆
          hashesWithin rows uint32Max.toNat :=
      hashesWithin_mono (List.Subset.refl rows) (by omega)
    exact hReach
      (hCard.trans (Finset.card_le_card hSubset))

theorem finalThreshold_le_uint32Max
    (width : Nat)
    (rows : List CandidateMeta) :
    finalThreshold width rows ≤ uint32Max.toNat := by
  by_cases hReach :
      width ≤ (hashesWithin rows uint32Max.toNat).card
  · exact finalThreshold_le_of_card hReach
  · rw [finalThreshold, dif_neg hReach]

/- Below the sentinel the final threshold is the first score with enough hashes. -/
theorem card_hashesWithin_finalThreshold
    {width : Nat}
    {rows : List CandidateMeta}
    (hLt : finalThreshold width rows < uint32Max.toNat) :
    width ≤ (hashesWithin rows (finalThreshold width rows)).card ∧
      ∀ s < finalThreshold width rows,
        (hashesWithin rows s).card < width := by
  unfold finalThreshold at hLt ⊢
  split
  case isTrue hReach =>
    refine ⟨Nat.find_spec (p := fun s =>
      width ≤ (hashesWithin rows s).card) _, ?_⟩
    intro s hS
    exact not_le.mp (Nat.find_min (p := fun s =>
      width ≤ (hashesWithin rows s).card) _ hS)
  case isFalse hReach =>
    rw [dif_neg hReach] at hLt
    omega

/- More rows never raise the final threshold. -/
theorem finalThreshold_antitone
    (width : Nat)
    {xs ys : List CandidateMeta}
    (hRows : xs ⊆ ys) :
    finalThreshold width ys ≤ finalThreshold width xs := by
  by_cases hLt : finalThreshold width xs < uint32Max.toNat
  · have hReach := (card_hashesWithin_finalThreshold hLt).1
    apply finalThreshold_le_of_card
    exact hReach.trans
      (Finset.card_le_card (hashesWithin_mono hRows le_rfl))
  · exact (finalThreshold_le_uint32Max width ys).trans
      (not_lt.mp hLt)

namespace Online

----------------
-- State And Steps
----------------

/- The state of all ranks between two events. -/
structure State where
  generated : List CandidateMeta
  inFlight : List CandidateMeta
  bank : Domain → PhysicalBank → BankRows
  jobThreshold : Domain → PhysicalBank → Option UInt32
  shardScoreHist : Domain → PhysicalBank → BankHistogram
  localScoreHist : Domain → Nat → Nat
  globalScoreHist : Nat → Nat
  threshold : Nat → ThresholdSlots

/- Before any row was made. -/
def start : State :=
  { generated := []
    inFlight := []
    bank := fun _ => emptyPair
    jobThreshold := fun _ _ => none
    shardScoreHist := fun _ _ =>
      { slot := fun _ _ => 0, activeIndex := false }
    localScoreHist := fun _ _ => 0
    globalScoreHist := fun _ => 0
    threshold := fun _ => ThresholdSlots.reset }

/- The events of the ranks and of the update. -/
inductive Event where
  | stream3Pack (rank : Nat) (batch : List CandidateMeta)
  | stream3Append (index : Nat) (bank : PhysicalBank)
  | stream4Launch (domain : Domain) (bank : PhysicalBank)
  | stream4Complete (domain : Domain) (bank : PhysicalBank)
  | snapshot (domain : Domain)
  | allReduce
  | publish (rank : Nat)
deriving DecidableEq, Repr

variable (worldSize shardCount : Nat)

/- All (owner, shard) domains of the depth. -/
def domains : Finset Domain :=
  Finset.range worldSize ×ˢ Finset.range shardCount

variable (beamWidth : Nat)

/- Threshold and deduplicate one batch of a source rank. -/
def stream3Pack
    (s : State)
    (rank : Nat)
    (batch : List CandidateMeta) : State :=
  { s with
    generated := s.generated ++ batch
    inFlight :=
      s.inFlight ++
        stream4ThresholdSortDedup batch
          (s.threshold rank).active }

/- Deliver one row in flight to a bank of its domain. -/
def stream3Append
    (s : State)
    (index : Nat)
    (bank : PhysicalBank) : State :=
  match s.inFlight[index]? with
  | none => s
  | some row =>
      let domain := domainOf worldSize shardCount row.hash
      { s with
        inFlight := s.inFlight.eraseIdx index
        bank :=
          Function.update s.bank domain
            (Function.update (s.bank domain) bank
              (arriveRows [row] (s.bank domain bank))) }

/- A launch reads the committed threshold of the owner. -/
def stream4Launch
    (s : State)
    (domain : Domain)
    (bank : PhysicalBank) : State :=
  { s with
    jobThreshold :=
      Function.update s.jobThreshold domain
        (Function.update (s.jobThreshold domain) bank
          (some (s.threshold domain.1).active)) }

/- The pass may complete long after its launch. -/
def stream4Complete
    (s : State)
    (domain : Domain)
    (bank : PhysicalBank) : State :=
  match s.jobThreshold domain bank with
  | none => s
  | some threshold =>
      let rows := passRows threshold (s.bank domain bank)
      { s with
        bank :=
          Function.update s.bank domain
            (Function.update (s.bank domain) bank rows)
        jobThreshold :=
          Function.update s.jobThreshold domain
            (Function.update (s.jobThreshold domain) bank none)
        shardScoreHist :=
          Function.update s.shardScoreHist domain
            (Function.update (s.shardScoreHist domain) bank
              ((s.shardScoreHist domain bank).commit
                (scoreHistogram rows.clean))) }

/- A snapshot may be stale by the time it is reduced. -/
def snapshot (s : State) (domain : Domain) : State :=
  { s with
    localScoreHist :=
      Function.update s.localScoreHist domain
        (thresholdConservativeUnion
          (s.shardScoreHist domain .a).committed
          (s.shardScoreHist domain .b).committed
          (fun _ => 0)) }

/- The sum over all ranks and shards. -/
def allReduce (s : State) : State :=
  { s with
    globalScoreHist := fun score =>
      ∑ domain ∈ domains worldSize shardCount,
        s.localScoreHist domain score }

/- Every rank publishes the reduced histogram's threshold in its own time. -/
def publish (s : State) (rank : Nat) : State :=
  { s with
    threshold :=
      Function.update s.threshold rank
        (thresholdUpdatePeriodic s.globalScoreHist beamWidth
          (s.threshold rank)) }

/- One event. -/
def step (s : State) : Event → State
  | .stream3Pack rank batch => stream3Pack s rank batch
  | .stream3Append index bank =>
      stream3Append worldSize shardCount s index bank
  | .stream4Launch domain bank => stream4Launch s domain bank
  | .stream4Complete domain bank => stream4Complete s domain bank
  | .snapshot domain => snapshot s domain
  | .allReduce => allReduce worldSize shardCount s
  | .publish rank => publish beamWidth s rank

/- The events from a state. -/
def runFrom (s : State) (events : List Event) : State :=
  events.foldl (step worldSize shardCount beamWidth) s

/- The events from the start. -/
def run (events : List Event) : State :=
  runFrom worldSize shardCount beamWidth start events

----------------
-- Counting Hashes By Domain
----------------

/- The hashes of one domain within a score. -/
def domainHashesWithin
    (rows : List CandidateMeta)
    (domain : Domain)
    (score : Nat) : Finset Hash128 :=
  (hashesWithin rows score).filter fun h =>
    domainOf worldSize shardCount h = domain

theorem card_domainHashesWithin_mono
    {xs ys : List CandidateMeta}
    (hRows : xs ⊆ ys)
    (domain : Domain)
    (score : Nat) :
    (domainHashesWithin worldSize shardCount xs domain
        score).card ≤
      (domainHashesWithin worldSize shardCount ys domain
        score).card :=
  Finset.card_le_card
    (Finset.filter_subset_filter _
      (hashesWithin_mono hRows le_rfl))

/- Domains are disjoint, so their counts add up to at most the total. -/
theorem sum_card_domainHashesWithin_le
    (rows : List CandidateMeta)
    (score : Nat)
    (family : Finset Domain) :
    ∑ domain ∈ family,
        (domainHashesWithin worldSize shardCount rows domain
          score).card ≤
      (hashesWithin rows score).card := by
  have hDisjoint :
      ∀ d ∈ family, ∀ e ∈ family, d ≠ e →
        Disjoint
          (domainHashesWithin worldSize shardCount rows d score)
          (domainHashesWithin worldSize shardCount rows e
            score) := by
    intro d _ e _ hNe
    rw [Finset.disjoint_left]
    intro h hD hE
    have hInD := (Finset.mem_filter.mp hD).2
    have hInE := (Finset.mem_filter.mp hE).2
    exact hNe (hInD.symm.trans hInE)
  rw [← Finset.card_biUnion hDisjoint]
  apply Finset.card_le_card
  intro h hMem
  rcases Finset.mem_biUnion.mp hMem with ⟨d, -, hIn⟩
  exact (Finset.mem_filter.mp hIn).1

/-
  A hash-unique list drawn from one domain has no more rows
  within a score than the domain has hashes.
-/
theorem cdf_scoreHistogram_le_card
    {rows generated : List CandidateMeta}
    {domain : Domain}
    (hUnique : rows.Pairwise fun a b => a.hash < b.hash)
    (hRows : rows ⊆ generated)
    (hDomain :
      ∀ c ∈ rows, domainOf worldSize shardCount c.hash = domain)
    (score : Nat) :
    cdf (scoreHistogram rows) score ≤
      (domainHashesWithin worldSize shardCount generated domain
        score).card := by
  refine (cdf_scoreHistogram_le rows score).trans ?_
  have hNodup :
      ((rows.filter fun c => c.scoreKey.toNat ≤ score).map
        CandidateMeta.hash).Nodup := by
    rw [List.Nodup, List.pairwise_map]
    exact (hUnique.filter _).imp fun hLt => hLt.ne
  have hCard :
      (hashesWithin rows score).card =
        rows.countP fun c => c.scoreKey.toNat ≤ score := by
    rw [hashesWithin, List.toFinset_card_of_nodup hNodup,
      List.length_map, List.countP_eq_length_filter]
  rw [← hCard]
  apply Finset.card_le_card
  intro h hMem
  refine Finset.mem_filter.mpr
    ⟨hashesWithin_mono hRows le_rfl hMem, ?_⟩
  rcases (mem_hashesWithin_iff rows score h).mp hMem with
    ⟨c, hRow, -, hHash⟩
  rw [← hHash]
  exact hDomain c hRow

----------------
-- The Invariant
----------------

/-
  Every histogram in use counts at most the generated hashes
  it stands for, and no threshold has cut below the exact one.
-/
structure Bounded (s : State) : Prop where
  inFlight : s.inFlight ⊆ s.generated
  rows : ∀ d b, (s.bank d b).contents ⊆ s.generated
  routed :
    ∀ d b, ∀ c ∈ (s.bank d b).contents,
      domainOf worldSize shardCount c.hash = d
  committed :
    ∀ d b score,
      cdf (s.shardScoreHist d b).committed score ≤
        (domainHashesWithin worldSize shardCount s.generated d
          score).card
  snapshot :
    ∀ d, ∀ score < scoreBinCount,
      cdf (s.localScoreHist d) score ≤
        (domainHashesWithin worldSize shardCount s.generated d
          score).card
  reduced :
    ∀ score < scoreBinCount,
      cdf s.globalScoreHist score ≤
        (hashesWithin s.generated score).card
  active :
    ∀ rank,
      finalThreshold beamWidth s.generated ≤
        (s.threshold rank).active.toNat

variable {worldSize shardCount beamWidth}

theorem cdf_zero (score : Nat) :
    cdf (fun _ => 0) score = 0 := by
  simp [cdf, below]

theorem bounded_start :
    Bounded worldSize shardCount beamWidth start where
  inFlight := List.Subset.refl _
  rows _ _ := List.nil_subset _
  routed _ _ c hMem := absurd hMem List.not_mem_nil
  committed d b score := by
    have hZero : cdf (fun _ => 0) score = 0 := cdf_zero score
    simp [start, BankHistogram.committed, hZero]
  snapshot d score _ := by
    simp [start, cdf_zero]
  reduced score _ := by
    simp [start, cdf_zero]
  active rank :=
    finalThreshold_le_uint32Max beamWidth []

/- Generating more candidates keeps every bound. -/
theorem Bounded.generate
    {s : State}
    (hBounded : Bounded worldSize shardCount beamWidth s)
    {batch packed : List CandidateMeta}
    (hPacked : packed ⊆ batch) :
    Bounded worldSize shardCount beamWidth
      { s with
        generated := s.generated ++ batch
        inFlight := s.inFlight ++ packed } where
  inFlight := by
    intro c hMem
    rcases List.mem_append.mp hMem with hOld | hNew
    · exact List.mem_append_left _ (hBounded.inFlight hOld)
    · exact List.mem_append_right _ (hPacked hNew)
  rows d b := fun _ hMem =>
    List.mem_append_left _ (hBounded.rows d b hMem)
  routed := hBounded.routed
  committed d b score :=
    (hBounded.committed d b score).trans
      (card_domainHashesWithin_mono worldSize shardCount
        (List.subset_append_left _ _) d score)
  snapshot d score hScore :=
    (hBounded.snapshot d score hScore).trans
      (card_domainHashesWithin_mono worldSize shardCount
        (List.subset_append_left _ _) d score)
  reduced score hScore :=
    (hBounded.reduced score hScore).trans
      (Finset.card_le_card
        (hashesWithin_mono (List.subset_append_left _ _) le_rfl))
  active rank :=
    (finalThreshold_antitone beamWidth
      (List.subset_append_left _ _)).trans
        (hBounded.active rank)

/- Replacing one bank by rows of its domain keeps every bound. -/
theorem Bounded.setBank
    {s : State}
    (hBounded : Bounded worldSize shardCount beamWidth s)
    (domain : Domain)
    (bank : PhysicalBank)
    {rows : BankRows}
    {left : List CandidateMeta}
    (hRows : rows.contents ⊆ s.generated)
    (hRouted :
      ∀ c ∈ rows.contents,
        domainOf worldSize shardCount c.hash = domain)
    (hLeft : left ⊆ s.inFlight) :
    Bounded worldSize shardCount beamWidth
      { s with
        inFlight := left
        bank :=
          Function.update s.bank domain
            (Function.update (s.bank domain) bank rows) } where
  inFlight := fun _ hMem => hBounded.inFlight (hLeft hMem)
  rows d b := by
    by_cases hDomain : d = domain
    · subst hDomain
      by_cases hBank : b = bank
      · subst hBank
        simpa using hRows
      · simpa [hBank] using hBounded.rows d b
    · simpa [hDomain] using hBounded.rows d b
  routed d b := by
    by_cases hDomain : d = domain
    · subst hDomain
      by_cases hBank : b = bank
      · subst hBank
        simpa using hRouted
      · simpa [hBank] using hBounded.routed d b
    · simpa [hDomain] using hBounded.routed d b
  committed := hBounded.committed
  snapshot := hBounded.snapshot
  reduced := hBounded.reduced
  active := hBounded.active

/- Committing a histogram within its domain's counts keeps every bound. -/
theorem Bounded.setHist
    {s : State}
    (hBounded : Bounded worldSize shardCount beamWidth s)
    (domain : Domain)
    (bank : PhysicalBank)
    (job : Domain → PhysicalBank → Option UInt32)
    {bins : Nat → Nat}
    (hBins :
      ∀ score,
        cdf bins score ≤
          (domainHashesWithin worldSize shardCount s.generated
            domain score).card) :
    Bounded worldSize shardCount beamWidth
      { s with
        jobThreshold := job
        shardScoreHist :=
          Function.update s.shardScoreHist domain
            (Function.update (s.shardScoreHist domain) bank
              ((s.shardScoreHist domain bank).commit bins)) } where
  inFlight := hBounded.inFlight
  rows := hBounded.rows
  routed := hBounded.routed
  committed d b score := by
    by_cases hDomain : d = domain
    · subst hDomain
      by_cases hBank : b = bank
      · subst hBank
        simpa using hBins score
      · simpa [hBank] using hBounded.committed d b score
    · simpa [hDomain] using hBounded.committed d b score
  snapshot := hBounded.snapshot
  reduced := hBounded.reduced
  active := hBounded.active

theorem passRows_contents
    (threshold : UInt32)
    (rows : BankRows) :
    (passRows threshold rows).contents =
      stream4ThresholdSortDedup rows.contents threshold :=
  List.append_nil _

theorem stream4ThresholdSortDedup_subset
    (rows : List CandidateMeta)
    (threshold : UInt32) :
    stream4ThresholdSortDedup rows threshold ⊆ rows :=
  (stream4ThresholdSortDedup_reducesTo rows
    (UInt32.le_refl threshold)).subset

theorem cdf_thresholdConservativeUnion
    (a b : Nat → Nat)
    {score : Nat}
    (hScore : score < scoreBinCount) :
    cdf (thresholdConservativeUnion a b fun _ => 0) score =
      max (cdf a score) (cdf b score) := by
  rw [← cdf_conservativeUnion]
  apply below_congr
  intro s hLt
  rw [thresholdConservativeUnion_apply a b _ (by omega),
    Nat.zero_add]

/- Appending keeps the bounds. -/
theorem Bounded.stream3Append
    {s : State}
    (hBounded : Bounded worldSize shardCount beamWidth s)
    (index : Nat)
    (bank : PhysicalBank) :
    Bounded worldSize shardCount beamWidth
      (stream3Append worldSize shardCount s index bank) := by
  unfold Online.stream3Append
  cases hRow : s.inFlight[index]? with
  | none => exact hBounded
  | some row =>
      have hMem : row ∈ s.inFlight := List.mem_of_getElem? hRow
      let domain := domainOf worldSize shardCount row.hash
      have hContents :
          (arriveRows [row] (s.bank domain bank)).contents =
            (s.bank domain bank).contents ++ [row] :=
        (List.append_assoc _ _ _).symm
      apply hBounded.setBank domain bank
      · rw [hContents]
        intro c hC
        rcases List.mem_append.mp hC with hOld | hNew
        · exact hBounded.rows domain bank hOld
        · rcases List.mem_singleton.mp hNew with rfl
          exact hBounded.inFlight hMem
      · rw [hContents]
        intro c hC
        rcases List.mem_append.mp hC with hOld | hNew
        · exact hBounded.routed domain bank c hOld
        · rcases List.mem_singleton.mp hNew with rfl
          rfl
      · exact fun _ hC => List.mem_of_mem_eraseIdx hC

/- A finished pass keeps the bounds. -/
theorem Bounded.stream4Complete
    {s : State}
    (hBounded : Bounded worldSize shardCount beamWidth s)
    (domain : Domain)
    (bank : PhysicalBank) :
    Bounded worldSize shardCount beamWidth
      (stream4Complete s domain bank) := by
  unfold Online.stream4Complete
  cases hJob : s.jobThreshold domain bank with
  | none => exact hBounded
  | some threshold =>
      have hSubset :=
        stream4ThresholdSortDedup_subset
          (s.bank domain bank).contents threshold
      have hRows :
          (passRows threshold (s.bank domain bank)).contents ⊆
            s.generated := by
        rw [passRows_contents]
        exact fun _ hC => hBounded.rows domain bank (hSubset hC)
      have hRouted :
          ∀ c ∈ (passRows threshold
              (s.bank domain bank)).contents,
            domainOf worldSize shardCount c.hash = domain := by
        rw [passRows_contents]
        exact fun c hC =>
          hBounded.routed domain bank c (hSubset hC)
      have hSet :=
        hBounded.setBank domain bank hRows hRouted
          (List.Subset.refl s.inFlight)
      apply hSet.setHist domain bank
      intro score
      exact cdf_scoreHistogram_le_card worldSize shardCount
        (stream4ThresholdSortDedup_pairwise _ _)
        (fun _ hC => hBounded.rows domain bank (hSubset hC))
        (fun c hC => hBounded.routed domain bank c (hSubset hC))
        score

/- A snapshot keeps the bounds. -/
theorem Bounded.snapshotDomain
    {s : State}
    (hBounded : Bounded worldSize shardCount beamWidth s)
    (domain : Domain) :
    Bounded worldSize shardCount beamWidth
      (Online.snapshot s domain) := by
  refine { hBounded with snapshot := ?_ }
  intro d score hScore
  by_cases hDomain : d = domain
  · subst hDomain
    simp only [Online.snapshot, Function.update_self]
    rw [cdf_thresholdConservativeUnion _ _ hScore]
    exact max_le (hBounded.committed d .a score)
      (hBounded.committed d .b score)
  · simpa [Online.snapshot, hDomain] using
      hBounded.snapshot d score hScore

/- The sum over the ranks keeps the bounds. -/
theorem Bounded.allReduce
    {s : State}
    (hBounded : Bounded worldSize shardCount beamWidth s) :
    Bounded worldSize shardCount beamWidth
      (Online.allReduce worldSize shardCount s) := by
  refine { hBounded with reduced := ?_ }
  intro score hScore
  simp only [Online.allReduce]
  rw [cdf_sum]
  calc
    ∑ d ∈ domains worldSize shardCount,
        cdf (s.localScoreHist d) score ≤
      ∑ d ∈ domains worldSize shardCount,
        (domainHashesWithin worldSize shardCount
          s.generated d score).card :=
        Finset.sum_le_sum fun d _ =>
          hBounded.snapshot d score hScore
    _ ≤ (hashesWithin s.generated score).card :=
        sum_card_domainHashesWithin_le worldSize shardCount
          s.generated score _

/- A published threshold keeps the bounds. -/
theorem Bounded.publish
    {s : State}
    (hBounded : Bounded worldSize shardCount beamWidth s)
    (rank : Nat) :
    Bounded worldSize shardCount beamWidth
      (Online.publish beamWidth s rank) := by
  refine { hBounded with active := ?_ }
  intro r
  by_cases hRank : r = rank
  · subst hRank
    simp only [Online.publish, Function.update_self]
    apply le_thresholdUpdatePeriodic
    · exact finalThreshold_le_uint32Max beamWidth _
    · intro score hScore hReach
      exact finalThreshold_le_of_card
        (hReach.trans (hBounded.reduced score hScore))
    · exact hBounded.active r
  · simpa [Online.publish, hRank] using hBounded.active r

/- One event keeps every bound. -/
theorem step_bounded
    {s : State}
    (hBounded : Bounded worldSize shardCount beamWidth s)
    (event : Event) :
    Bounded worldSize shardCount beamWidth
      (step worldSize shardCount beamWidth s event) := by
  cases event with
  | stream3Pack rank batch =>
      exact hBounded.generate
        (stream4ThresholdSortDedup_subset batch _)
  | stream3Append index bank =>
      exact hBounded.stream3Append index bank
  | stream4Launch domain bank =>
      exact { hBounded with }
  | stream4Complete domain bank =>
      exact hBounded.stream4Complete domain bank
  | snapshot domain => exact hBounded.snapshotDomain domain
  | allReduce => exact hBounded.allReduce
  | publish rank => exact hBounded.publish rank

/- So does every run, by induction on the events. -/
theorem runFrom_bounded
    {s : State}
    (hBounded : Bounded worldSize shardCount beamWidth s)
    (events : List Event) :
    Bounded worldSize shardCount beamWidth
      (runFrom worldSize shardCount beamWidth s events) := by
  induction events generalizing s with
  | nil => exact hBounded
  | cons event events ih => exact ih (step_bounded hBounded event)

----------------
-- Runs
----------------

theorem step_generated
    (s : State)
    (event : Event) :
    s.generated ⊆
      (step worldSize shardCount beamWidth s event).generated := by
  cases event with
  | stream3Pack rank batch => exact List.subset_append_left _ _
  | stream3Append index bank =>
      simp only [step, stream3Append]
      cases s.inFlight[index]? with
      | none => exact List.Subset.refl _
      | some row => exact List.Subset.refl _
  | stream4Complete domain bank =>
      simp only [step, stream4Complete]
      cases s.jobThreshold domain bank with
      | none => exact List.Subset.refl _
      | some threshold => exact List.Subset.refl _
  | stream4Launch => exact List.Subset.refl _
  | snapshot => exact List.Subset.refl _
  | allReduce => exact List.Subset.refl _
  | publish => exact List.Subset.refl _

theorem runFrom_generated
    (s : State)
    (events : List Event) :
    s.generated ⊆
      (runFrom worldSize shardCount beamWidth s
        events).generated := by
  induction events generalizing s with
  | nil => exact List.Subset.refl _
  | cons event events ih =>
      exact List.Subset.trans (step_generated s event) (ih _)

/- Only a publication of the rank touches its threshold. -/
theorem step_threshold
    (s : State)
    (event : Event)
    (rank : Nat) :
    (step worldSize shardCount beamWidth s event).threshold
        rank = s.threshold rank ∨
      (step worldSize shardCount beamWidth s event).threshold
          rank =
        thresholdUpdatePeriodic s.globalScoreHist beamWidth
          (s.threshold rank) := by
  cases event with
  | publish published =>
      by_cases hRank : rank = published
      · subst hRank
        exact Or.inr (by simp [step, publish])
      · exact Or.inl (by simp [step, publish, hRank])
  | stream3Append index bank =>
      refine Or.inl ?_
      simp only [step, stream3Append]
      cases s.inFlight[index]? with
      | none => rfl
      | some row => rfl
  | stream4Complete domain bank =>
      refine Or.inl ?_
      simp only [step, stream4Complete]
      cases s.jobThreshold domain bank with
      | none => rfl
      | some threshold => rfl
  | stream3Pack => exact Or.inl rfl
  | stream4Launch => exact Or.inl rfl
  | snapshot => exact Or.inl rfl
  | allReduce => exact Or.inl rfl

/- A threshold never rises in a run. -/
theorem runFrom_threshold_antitone
    (s : State)
    (events : List Event)
    (rank : Nat)
    (hInit : (s.threshold rank).initialized = true) :
    ((runFrom worldSize shardCount beamWidth s events).threshold
        rank).initialized = true ∧
      ((runFrom worldSize shardCount beamWidth s
          events).threshold rank).active ≤
        (s.threshold rank).active := by
  induction events generalizing s with
  | nil => exact ⟨hInit, UInt32.le_refl _⟩
  | cons event events ih =>
      have hStep :
          ((step worldSize shardCount beamWidth s
              event).threshold rank).initialized = true ∧
            ((step worldSize shardCount beamWidth s
                event).threshold rank).active ≤
              (s.threshold rank).active := by
        rcases step_threshold s event rank with hEq | hEq
        · rw [hEq]
          exact ⟨hInit, UInt32.le_refl _⟩
        · rw [hEq]
          exact thresholdUpdatePeriodic_antitone _ _ _ hInit
      rcases ih _ hStep.1 with ⟨hFlag, hLe⟩
      exact ⟨hFlag, UInt32.le_trans hLe hStep.2⟩

/-
  The online threshold never cuts into the exact beam. After
  any part of a depth the active threshold of every rank is at
  least the final threshold of all candidates the whole depth
  generates, and once initialised it never rises again.
-/
theorem activeThreshold_ge_finalThreshold
    (worldSize shardCount beamWidth : Nat)
    (events later : List Event)
    (rank : Nat) :
    let now := run worldSize shardCount beamWidth events
    let depth :=
      run worldSize shardCount beamWidth (events ++ later)
    finalThreshold beamWidth depth.generated ≤
        (now.threshold rank).active.toNat ∧
      ((now.threshold rank).initialized = true →
        (depth.threshold rank).initialized = true ∧
          (depth.threshold rank).active ≤
            (now.threshold rank).active) := by
  intro now depth
  have hSplit :
      depth =
        runFrom worldSize shardCount beamWidth now later :=
    List.foldl_append
  have hNow : Bounded worldSize shardCount beamWidth now :=
    runFrom_bounded bounded_start events
  constructor
  · rw [hSplit]
    exact
      (finalThreshold_antitone beamWidth
        (runFrom_generated now later)).trans
          (hNow.active rank)
  · intro hInit
    rw [hSplit]
    exact runFrom_threshold_antitone now later rank hInit

end Online

end BeamSearch
