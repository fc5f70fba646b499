import Mathlib.Algebra.GroupWithZero.Nat
import Mathlib.Tactic.Common

/-
  Unsigned machine arithmetic that reports a wrap.

  A computation returns, throws an error of the program, or
  stops at the first operation whose exact result does not fit
  its width. A program that never stops there computes with
  natural numbers.

  Main declarations:
    * `Fault`, `Checked`
    * `add`, `sub`, `mul`, `div`
    * `Returns`, `Agree`
-/

namespace Word

----------------
-- Checked Computations
----------------

/- Why a checked computation stops. -/
inductive Fault (ε : Type) where
  | wrap
  | divisionByZero
  | thrown (error : ε)
deriving DecidableEq, Repr

/- A result, or the fault that stopped it. -/
abbrev Checked (ε α : Type) : Type :=
  Except (Fault ε) α

variable {ε α β : Type}

/- A fault of the caller's own. -/
def throwing (error : ε) : Checked ε α :=
  .error (.thrown error)

/- A sum that does not fit stops. -/
def add (bits a b : Nat) : Checked ε Nat :=
  if a + b < 2 ^ bits then .ok (a + b) else .error .wrap

/- A difference below zero stops. -/
def sub (a b : Nat) : Checked ε Nat :=
  if b ≤ a then .ok (a - b) else .error .wrap

/- A product that does not fit stops. -/
def mul (bits a b : Nat) : Checked ε Nat :=
  if a * b < 2 ^ bits then .ok (a * b) else .error .wrap

/- A division by zero stops. -/
def div (a b : Nat) : Checked ε Nat :=
  if b = 0 then .error .divisionByZero else .ok (a / b)

/- A sum that fits is computed. -/
theorem add_eq
    {bits a b : Nat}
    (hFits : a + b < 2 ^ bits) :
    (add bits a b : Checked ε Nat) = .ok (a + b) :=
  if_pos hFits

/- A difference that is none below zero is computed. -/
theorem sub_eq
    {a b : Nat}
    (hLe : b ≤ a) :
    (sub a b : Checked ε Nat) = .ok (a - b) :=
  if_pos hLe

/- A product that fits is computed. -/
theorem mul_eq
    {bits a b : Nat}
    (hFits : a * b < 2 ^ bits) :
    (mul bits a b : Checked ε Nat) = .ok (a * b) :=
  if_pos hFits

/- A quotient is computed. -/
theorem div_eq
    {a b : Nat}
    (hPos : 0 < b) :
    (div a b : Checked ε Nat) = .ok (a / b) :=
  if_neg (Nat.ne_of_gt hPos)

/- A value goes on. -/
@[simp] theorem ok_bind
    (a : α)
    (next : α → Checked ε β) :
    ((Except.ok a : Checked ε α) >>= next) = next a :=
  rfl

@[simp] theorem pure_eq (a : α) :
    (pure a : Checked ε α) = .ok a :=
  rfl

/- A run that ends well ended well in both parts. -/
theorem bind_eq_ok
    {x : Checked ε α}
    {next : α → Checked ε β}
    {b : β}
    (hRun : x >>= next = .ok b) :
    ∃ a, x = .ok a ∧ next a = .ok b := by
  cases x with
  | ok a => exact ⟨a, rfl, hRun⟩
  | error fault => cases hRun

/- What a sum returned. -/
theorem eq_of_add_eq_ok
    {bits a b c : Nat}
    (hRun : (add bits a b : Checked ε Nat) = .ok c) :
    c = a + b := by
  rw [add] at hRun
  split_ifs at hRun with hFits
  exact (Except.ok.inj hRun).symm

/- What a difference returned. -/
theorem eq_of_sub_eq_ok
    {a b c : Nat}
    (hRun : (sub a b : Checked ε Nat) = .ok c) :
    b ≤ a ∧ c = a - b := by
  rw [sub] at hRun
  split_ifs at hRun with hLe
  exact ⟨hLe, (Except.ok.inj hRun).symm⟩

/- The items of a walk, one by one. -/
theorem mapM_eq_ok_map
    {f : α → Checked ε β}
    {g : α → β}
    {xs : List α}
    (hEach : ∀ x ∈ xs, f x = .ok (g x)) :
    xs.mapM f = .ok (xs.map g) := by
  induction xs with
  | nil => rfl
  | cons x xs ih =>
      rw [List.mapM_cons, hEach x (List.mem_cons_self ..),
        ok_bind,
        ih fun y hMem => hEach y (List.mem_cons_of_mem _ hMem)]
      rfl

----------------
-- One Program
----------------

/- A program returns a value with a property, or throws. -/
def Returns
    (P : α → Prop)
    (x : Checked ε α) : Prop :=
  (∃ a, x = .ok a ∧ P a) ∨ ∃ e, x = throwing e

/- A value that is as claimed. -/
theorem Returns.ok
    {P : α → Prop}
    {a : α}
    (hP : P a) :
    Returns P (.ok a : Checked ε α) :=
  Or.inl ⟨a, rfl, hP⟩

/- A fault of the caller's own is no value. -/
theorem Returns.throw
    (P : α → Prop)
    (e : ε) :
    Returns P (throwing e) :=
  Or.inr ⟨e, rfl⟩

/- One computation after the other. -/
theorem Returns.bind
    {P : α → Prop}
    {Q : β → Prop}
    {x : Checked ε α}
    {next : α → Checked ε β}
    (hReturns : Returns P x)
    (hNext : ∀ a, P a → Returns Q (next a)) :
    Returns Q (x >>= next) := by
  rcases hReturns with ⟨a, hX, hP⟩ | ⟨e, hX⟩
  · rw [hX]
    exact hNext a hP
  · rw [hX]
    exact Returns.throw Q e

----------------
-- Two Programs
----------------

/- Both return related values, or both throw; neither wraps. -/
def Agree
    {ε ε' α α' : Type}
    (R : α → α' → Prop)
    (x : Checked ε α)
    (y : Checked ε' α') : Prop :=
  (∃ a b, x = .ok a ∧ y = .ok b ∧ R a b) ∨
    ∃ e e', x = throwing e ∧ y = throwing e'

variable {ε' α' β' : Type}
variable {R : α → α' → Prop} {S : β → β' → Prop}

/- Two values that are related. -/
theorem Agree.ok
    {a : α}
    {b : α'}
    (hR : R a b) :
    Agree R (.ok a : Checked ε α) (.ok b : Checked ε' α') :=
  Or.inl ⟨a, b, rfl, rfl, hR⟩

/- Two faults. -/
theorem Agree.throw
    (e : ε)
    (e' : ε') :
    Agree R (throwing e) (throwing e') :=
  Or.inr ⟨e, e', rfl, rfl⟩

/- Two computations in step. -/
theorem Agree.bind
    {x : Checked ε α}
    {y : Checked ε' α'}
    {next : α → Checked ε β}
    {next' : α' → Checked ε' β'}
    (hAgree : Agree R x y)
    (hNext : ∀ a b, R a b → Agree S (next a) (next' b)) :
    Agree S (x >>= next) (y >>= next') := by
  rcases hAgree with ⟨a, b, hX, hY, hR⟩ | ⟨e, e', hX, hY⟩
  · rw [hX, hY]
    exact hNext a b hR
  · rw [hX, hY]
    exact Agree.throw e e'

/- A weaker relation. -/
theorem Agree.mono
    {T : α → α' → Prop}
    {x : Checked ε α}
    {y : Checked ε' α'}
    (hAgree : Agree R x y)
    (hImp : ∀ a b, R a b → T a b) :
    Agree T x y := by
  rcases hAgree with ⟨a, b, hX, hY, hR⟩ | hThrow
  · exact Or.inl ⟨a, b, hX, hY, hImp a b hR⟩
  · exact Or.inr hThrow

end Word
