import Mathlib.Algebra.Order.Group.Nat
import Mathlib.Data.List.Pairwise
import Mathlib.Tactic.Common

/-
  Carving arrays out of one allocation.

  A cursor aligns its offset for every request and moves behind
  it. Run without memory it plans how many bytes a sequence of
  requests takes; run over an allocation it places an array for
  every request. Sums and products are stored in machine words,
  which is harmless as long as the exact extent fits a word.

  Main declarations:
    * `alignUp`
    * `extent`
    * `carve`
    * `carve_pairwise`
    * `mem_carve`
    * `carve_word`
-/

namespace Arena

----------------
-- Words And Alignment
----------------

/- What a machine word stores of a number that fits is the number. -/
def Fixes (word : Nat → Nat) (bound : Nat) : Prop :=
  ∀ n < bound, word n = n

/- Arithmetic modulo a bound fixes what is below it. -/
theorem fixes_mod (bound : Nat) : Fixes (· % bound) bound :=
  fun _ hLt => Nat.mod_eq_of_lt hLt

/-
  The next multiple of the alignment, as the arithmetic of
  `word` computes it.
-/
def alignUp
    (word : Nat → Nat)
    (value alignment : Nat) : Nat :=
  let remainder := value % alignment
  if remainder = 0 then value
  else word (value + alignment - remainder)

/- Aligning never goes back. -/
theorem le_alignUp
    (value : Nat)
    {alignment : Nat}
    (hPos : 0 < alignment) :
    value ≤ alignUp id value alignment := by
  have hLt := Nat.mod_lt value hPos
  simp only [alignUp, id]
  split_ifs <;> omega

/- What is aligned is a multiple. -/
theorem dvd_alignUp
    (value alignment : Nat) :
    alignment ∣ alignUp id value alignment := by
  simp only [alignUp, id]
  split_ifs with hZero
  · exact Nat.dvd_of_mod_eq_zero hZero
  · have hSplit := Nat.div_add_mod value alignment
    have hEq :
        value + alignment - value % alignment =
          alignment * (value / alignment + 1) := by
      rw [Nat.mul_add, Nat.mul_one]
      omega
    exact ⟨value / alignment + 1, hEq⟩

/- An aligned base can be taken out. -/
theorem alignUp_add
    {base alignment : Nat}
    (value : Nat)
    (hDvd : alignment ∣ base) :
    alignUp id (base + value) alignment =
      base + alignUp id value alignment := by
  have hMod :
      (base + value) % alignment = value % alignment := by
    rcases hDvd with ⟨factor, rfl⟩
    exact Nat.mul_add_mod _ _ _
  have hLe := Nat.mod_le value alignment
  simp only [alignUp, hMod, id]
  split_ifs <;> omega

/- Where the aligned value fits, the words compute it. -/
theorem alignUp_word
    {word : Nat → Nat}
    {bound : Nat}
    (hWord : Fixes word bound)
    {value alignment : Nat}
    (hFits : alignUp id value alignment < bound) :
    alignUp word value alignment =
      alignUp id value alignment := by
  simp only [alignUp, id] at hFits ⊢
  split_ifs at hFits ⊢
  · rfl
  · exact hWord _ hFits

----------------
-- The Size Cursor
----------------

/- An array of `count` elements at an aligned address. -/
structure Request where
  count : Nat
  size : Nat
  alignment : Nat
  positive : 0 < alignment

/- The offset behind one request. -/
def advance
    (word : Nat → Nat)
    (offset : Nat)
    (request : Request) : Nat :=
  word
    (alignUp word offset request.alignment +
      word (request.count * request.size))

/- The cursor behind all requests. -/
def extent
    (word : Nat → Nat)
    (offset : Nat)
    (requests : List Request) : Nat :=
  requests.foldl (advance word) offset

/- The cursor goes over the requests one by one. -/
@[simp] theorem extent_cons
    (word : Nat → Nat)
    (offset : Nat)
    (request : Request)
    (requests : List Request) :
    extent word offset (request :: requests) =
      extent word (advance word offset request) requests :=
  rfl

/- The cursor behind one request. -/
theorem advance_id
    (offset : Nat)
    (request : Request) :
    advance id offset request =
      alignUp id offset request.alignment +
        request.count * request.size :=
  rfl

/- The cursor never goes back over one request. -/
theorem le_advance
    (offset : Nat)
    (request : Request) :
    offset ≤ advance id offset request := by
  have hLe := le_alignUp offset request.positive
  rw [advance_id]
  omega

/- Nor over several. -/
theorem le_extent
    (offset : Nat)
    (requests : List Request) :
    offset ≤ extent id offset requests := by
  induction requests generalizing offset with
  | nil => exact le_rfl
  | cons request requests ih =>
      exact (le_advance offset request).trans (ih _)

/- Every requested array is counted in the extent. -/
theorem bytes_le_extent
    {request : Request}
    {requests : List Request}
    (offset : Nat)
    (hMem : request ∈ requests) :
    request.count * request.size ≤
      extent id offset requests := by
  induction requests generalizing offset with
  | nil => exact absurd hMem List.not_mem_nil
  | cons first requests ih =>
      rcases List.mem_cons.mp hMem with hFirst | hRest
      · subst hFirst
        have hLe :=
          le_extent (advance id offset request) requests
        rw [advance_id] at hLe
        rw [extent_cons, advance_id]
        omega
      · exact ih _ hRest

/-
  A request of items that take space has no more items than
  there are bytes.
-/
theorem count_le_extent
    {request : Request}
    {requests : List Request}
    (offset : Nat)
    (hMem : request ∈ requests)
    (hSize : 0 < request.size) :
    request.count ≤ extent id offset requests :=
  (Nat.le_mul_of_pos_right _ hSize).trans
    (bytes_le_extent offset hMem)

/- A base that every request's alignment divides shifts the extent. -/
theorem extent_add
    {base : Nat}
    (offset : Nat)
    {requests : List Request}
    (hDvd : ∀ request ∈ requests, request.alignment ∣ base) :
    extent id (base + offset) requests =
      base + extent id offset requests := by
  induction requests generalizing offset with
  | nil => rfl
  | cons request requests ih =>
      have hFirst := hDvd request List.mem_cons_self
      rw [extent_cons, extent_cons, advance_id, advance_id,
        alignUp_add offset hFirst, Nat.add_assoc]
      exact ih _ fun r hMem =>
        hDvd r (List.mem_cons_of_mem _ hMem)

/- Where the cursor fits, the words compute it. -/
theorem advance_word
    {word : Nat → Nat}
    {bound : Nat}
    (hWord : Fixes word bound)
    {offset : Nat}
    {request : Request}
    (hFits : advance id offset request < bound) :
    advance word offset request = advance id offset request := by
  rw [advance_id] at hFits ⊢
  rw [advance, alignUp_word hWord (by omega),
    hWord (request.count * request.size) (by omega),
    hWord _ hFits]

/- No word of the cursor overflows when the exact extent fits. -/
theorem extent_word
    {word : Nat → Nat}
    {bound : Nat}
    (hWord : Fixes word bound)
    {offset : Nat}
    {requests : List Request}
    (hFits : extent id offset requests < bound) :
    extent word offset requests = extent id offset requests := by
  induction requests generalizing offset with
  | nil => rfl
  | cons request requests ih =>
      have hFirst : advance id offset request < bound :=
        (le_extent _ requests).trans_lt hFits
      rw [extent_cons, extent_cons, advance_word hWord hFirst]
      exact ih hFits

----------------
-- The Pointer Cursor
----------------

/- The bytes of one array. -/
structure Span where
  start : Nat
  bytes : Nat
deriving DecidableEq, Repr

namespace Span

/- The first byte behind the span. -/
def stop (span : Span) : Nat :=
  span.start + span.bytes

/- No byte belongs to both arrays. -/
def Disjoint (a b : Span) : Prop :=
  a.stop ≤ b.start ∨ b.stop ≤ a.start

/- The same bytes, counted from further in front. -/
def shift (base : Nat) (span : Span) : Span :=
  { span with start := base + span.start }

@[simp] theorem shift_stop (base : Nat) (span : Span) :
    (span.shift base).stop = base + span.stop :=
  Nat.add_assoc _ _ _

@[simp] theorem shift_start (base : Nat) (span : Span) :
    (span.shift base).start = base + span.start :=
  rfl

end Span

universe u

variable {ι : Type u}

/- The span of one request at the cursor. -/
def place
    (word : Nat → Nat)
    (offset : Nat)
    (request : Request) : Span :=
  { start := alignUp word offset request.alignment
    bytes := request.count * request.size }

/- The spans of all requests, each behind the one before. -/
def carve
    (word : Nat → Nat) :
    Nat → List (ι × Request) → List (ι × Span)
  | _, [] => []
  | offset, (label, request) :: requests =>
      (label, place word offset request) ::
        carve word (advance word offset request) requests

/-
  Where the end fits, the words carve what the numbers would.
-/
theorem carve_word
    {word : Nat → Nat}
    {bound : Nat}
    (hWord : Fixes word bound)
    {offset : Nat}
    {requests : List (ι × Request)}
    (hFits :
      extent id offset (requests.map Prod.snd) < bound) :
    carve word offset requests = carve id offset requests := by
  induction requests generalizing offset with
  | nil => rfl
  | cons request requests ih =>
      rcases request with ⟨label, request⟩
      have hFirst : advance id offset request < bound :=
        (le_extent _ (requests.map Prod.snd)).trans_lt hFits
      have hPlace :
          place word offset request =
            place id offset request := by
        rw [advance_id] at hFirst
        rw [place, alignUp_word hWord (by omega)]
        rfl
      rw [carve, carve, hPlace, advance_word hWord hFirst]
      exact congrArg _ (ih hFits)

/- Every request gets its bytes, in order. -/
theorem carve_bytes
    (word : Nat → Nat)
    (offset : Nat)
    (requests : List (ι × Request)) :
    (carve word offset requests).map
        (fun placed => (placed.1, placed.2.bytes)) =
      requests.map fun request =>
        (request.1, request.2.count * request.2.size) := by
  induction requests generalizing offset with
  | nil => rfl
  | cons request requests ih =>
      rw [carve, List.map_cons, List.map_cons]
      exact congrArg _ (ih (advance word offset request.2))

/-
  A carved array belongs to a request, is aligned for it, and
  lies between the first offset and the extent.
-/
theorem mem_carve
    {offset : Nat}
    {requests : List (ι × Request)}
    {label : ι}
    {span : Span}
    (hMem : (label, span) ∈ carve id offset requests) :
    ∃ request,
      (label, request) ∈ requests ∧
        span.bytes = request.count * request.size ∧
        request.alignment ∣ span.start ∧
        offset ≤ span.start ∧
        span.stop ≤
          extent id offset (requests.map Prod.snd) := by
  induction requests generalizing offset with
  | nil => exact absurd hMem List.not_mem_nil
  | cons request requests ih =>
      rcases request with ⟨first, request⟩
      rcases List.mem_cons.mp hMem with hFirst | hRest
      · injection hFirst with hLabel hSpan
        subst hLabel hSpan
        refine ⟨request, List.mem_cons_self, rfl,
          dvd_alignUp offset request.alignment,
          le_alignUp offset request.positive, ?_⟩
        exact le_extent (advance id offset request)
          (requests.map Prod.snd)
      · rcases ih hRest with
          ⟨found, hFound, hBytes, hAligned, hFrom, hTo⟩
        exact ⟨found, List.mem_cons_of_mem _ hFound, hBytes,
          hAligned, (le_advance offset request).trans hFrom,
          hTo⟩

/- Carved arrays follow one another. -/
theorem carve_pairwise
    (offset : Nat)
    (requests : List (ι × Request)) :
    (carve id offset requests).Pairwise
      fun a b => a.2.stop ≤ b.2.start := by
  induction requests generalizing offset with
  | nil => exact List.Pairwise.nil
  | cons request requests ih =>
      rcases request with ⟨label, request⟩
      rw [carve, List.pairwise_cons]
      refine ⟨?_, ih _⟩
      rintro ⟨other, span⟩ hMem
      rcases mem_carve hMem with ⟨-, -, -, -, hFrom, -⟩
      exact hFrom

end Arena
