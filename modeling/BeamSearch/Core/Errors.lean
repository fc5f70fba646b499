import Mathlib.Algebra.GroupWithZero.Nat
import Mathlib.Tactic.Common

/-
  The errors of the two host languages.

  `Exception` is what the native code throws, `ContractError`
  what the planning crate returns. A computation stops at its
  first error, and so does a walk over a list.

  Main declarations:
    * `Exception`, `ContractError`
    * `requireCapacity`
    * `checkedAdd`, `checkedMul`, `okOr`
    * `except_bind_eq_ok`
    * `mapM_eq_ok`, `mapM_cases`
    * `foldlM_eq_ok`
-/

namespace BeamSearch

/- What the C++ sources throw, with the text. -/
inductive Exception where
  | invalidArgument (what : String)
  | overflowError (what : String)
  | runtimeError (what : String)
deriving DecidableEq, Repr

/- What the Rust sources return, with the name of the check. -/
inductive ContractError where
  | invalid (name : String)
  | overflow (name : String)
  | capacity (name : String) (required available : Nat)
deriving DecidableEq, Repr

/- The capacity check of the contracts. -/
def requireCapacity
    (name : String)
    (required available : Nat) :
    Except ContractError Unit :=
  if required > available then
    .error (.capacity name required available)
  else
    .ok ()

/- It passes exactly where the room is enough. -/
theorem requireCapacity_eq_ok_iff
    {name : String}
    {required available : Nat} :
    requireCapacity name required available = .ok () ↔
      required ≤ available := by
  rw [requireCapacity]
  split_ifs with hOver
  · exact iff_of_false (fun hOk => nomatch hOk) (by omega)
  · exact iff_of_true rfl (by omega)

----------------
-- Checked Arithmetic
----------------

/- Arithmetic of 64-bit words without a value where it wraps. -/
def checkedAdd (a b : Nat) : Option Nat :=
  if a + b < 2 ^ 64 then some (a + b) else none

/- The product, where it is a 64-bit word. -/
def checkedMul (a b : Nat) : Option Nat :=
  if a * b < 2 ^ 64 then some (a * b) else none

/- The value, or the error where there is none. -/
def okOr
    {ε α : Type}
    (error : ε) : Option α → Except ε α
  | some a => .ok a
  | none => .error error

----------------
-- Computations That Stop
----------------

/- A run goes on with its value. -/
theorem except_ok_bind
    {ε α β : Type}
    (a : α)
    (next : α → Except ε β) :
    (Except.ok a >>= next) = next a :=
  rfl

/- A run that ends well ended well in both parts. -/
theorem except_bind_eq_ok
    {ε α β : Type}
    {x : Except ε α}
    {next : α → Except ε β}
    {b : β}
    (hRun : x >>= next = .ok b) :
    ∃ a, x = .ok a ∧ next a = .ok b := by
  cases x with
  | ok a => exact ⟨a, rfl, hRun⟩
  | error error => cases hRun

/- Every item of a walk that ended well had its value. -/
theorem mapM_eq_ok
    {ε α β : Type}
    {f : α → Except ε β}
    {xs : List α}
    {ys : List β}
    (hRun : xs.mapM f = .ok ys) :
    List.Forall₂ (fun x y => f x = .ok y) xs ys := by
  induction xs generalizing ys with
  | nil =>
      cases hRun
      exact List.Forall₂.nil
  | cons x xs ih =>
      rw [List.mapM_cons] at hRun
      rcases except_bind_eq_ok hRun with ⟨y, hFirst, hRest⟩
      rcases except_bind_eq_ok hRest with ⟨rest, hTail, hLast⟩
      cases hLast
      exact List.Forall₂.cons hFirst (ih hTail)

/- A run over a list keeps what every step keeps. -/
theorem foldlM_eq_ok
    {ε α β : Type}
    {J : List α → β → Prop}
    {step : β → α → Except ε β}
    (hStep :
      ∀ seen b a b', J seen b → step b a = .ok b' →
        J (seen ++ [a]) b')
    {seen xs : List α}
    {b b' : β}
    (hStart : J seen b)
    (hRun : xs.foldlM step b = .ok b') :
    J (seen ++ xs) b' := by
  induction xs generalizing seen b with
  | nil =>
      cases hRun
      rw [List.append_nil]
      exact hStart
  | cons x xs ih =>
      rw [List.foldlM_cons] at hRun
      rcases except_bind_eq_ok hRun with ⟨c, hFirst, hRest⟩
      have hEnd := ih (hStep seen b x c hStart hFirst) hRest
      rwa [List.append_assoc, List.singleton_append] at hEnd

/- A walk stops at the first failure, or never fails. -/
theorem mapM_cases
    {ε α β : Type}
    (f : α → Except ε β)
    (xs : List α) :
    (∃ x ∈ xs, ∃ error, f x = .error error ∧
        xs.mapM f = .error error) ∨
      ∀ x ∈ xs, ∃ y, f x = .ok y := by
  induction xs with
  | nil => exact Or.inr fun _ hx => (nomatch hx)
  | cons x xs ih =>
      rw [List.mapM_cons]
      cases hFirst : f x with
      | error error =>
          exact
            Or.inl ⟨x, List.mem_cons_self, error, hFirst, rfl⟩
      | ok y =>
          rcases ih with ⟨z, hz, error, hError, hRun⟩ | hAll
          · refine
              Or.inl
                ⟨z, List.mem_cons_of_mem x hz, error, hError, ?_⟩
            rw [hRun]
            rfl
          · refine Or.inr fun z hz => ?_
            rcases List.mem_cons.mp hz with rfl | hz
            · exact ⟨y, hFirst⟩
            · exact hAll z hz

/-
  The other way: the items have their values, so the walk
  does.
-/
theorem mapM_of_forall_ok
    {ε α β : Type}
    {f : α → Except ε β}
    {g : α → β}
    {xs : List α}
    (hEach : ∀ x ∈ xs, f x = .ok (g x)) :
    xs.mapM f = .ok (xs.map g) := by
  induction xs with
  | nil => rfl
  | cons x xs ih =>
      rw [List.mapM_cons, hEach x List.mem_cons_self,
        ih fun y hy => hEach y (List.mem_cons_of_mem x hy)]
      rfl

/- Two walks with the same steps on the items they meet. -/
theorem foldlM_congr
    {ε α β : Type}
    {f g : β → α → Except ε β}
    {xs : List α}
    (hSame : ∀ b, ∀ x ∈ xs, f b x = g b x)
    (b : β) :
    xs.foldlM f b = xs.foldlM g b := by
  induction xs generalizing b with
  | nil => rfl
  | cons x xs ih =>
      rw [List.foldlM_cons, List.foldlM_cons,
        hSame b x List.mem_cons_self]
      congr 1
      funext c
      exact ih (fun b y hy => hSame b y (List.mem_cons_of_mem x hy)) c

end BeamSearch
