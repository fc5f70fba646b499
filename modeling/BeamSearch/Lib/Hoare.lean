import Mathlib.Logic.Function.Basic

/-
  Triples for programs over a state with exceptions.

  A program ends with a value or stops with an exception, and
  leaves a state either way, so a triple has one postcondition
  for values and one for exceptions. Loops are walks over lists
  and repetitions with a bound.

  Main declarations:
    * `Triple`
    * `forEach`, `anyOf`, `repeatUntil`
    * `Triple.seq`
    * `Triple.repeatUntil`
    * `Within`, `Within.keeps`
-/

namespace Hoare

variable {ε σ α β : Type}
variable {program : EStateM ε σ α} {first : EStateM ε σ β} {next : β → EStateM ε σ α}
    {R : PUnit → σ → Prop} {J : List β → σ → Prop} {xs : List β} {I : σ → Prop}
    {body : β → EStateM ε σ Bool}

----------------
-- Triples
----------------

/- From `P`, the program ends in `Q` or stops in `E`. -/
def Triple
    (P : σ → Prop)
    (program : EStateM ε σ α)
    (Q : α → σ → Prop)
    (E : ε → σ → Prop) : Prop :=
  ∀ s, P s →
    match program s with
    | .ok a s' => Q a s'
    | .error e s' => E e s'

variable {P P' : σ → Prop} {Q Q' : α → σ → Prop}
variable {E E' : ε → σ → Prop}

/- What holds of a run that ended with a value. -/
theorem Triple.of_ok
    {a : α}
    {s s' : σ}
    (hProgram : Triple P program Q E)
    (hPre : P s)
    (hRun : program s = .ok a s') :
    Q a s' := by
  have hPost := hProgram s hPre
  rw [hRun] at hPost
  exact hPost

/- The rule of consequence. -/
theorem Triple.conseq
    (hProgram : Triple P program Q E)
    (hPre : ∀ s, P' s → P s)
    (hPost : ∀ a s, Q a s → Q' a s)
    (hStop : ∀ e s, E e s → E' e s) :
    Triple P' program Q' E' := by
  intro s hP
  have hRun := hProgram s (hPre s hP)
  cases hResult : program s with
  | ok a s' =>
      rw [hResult] at hRun
      exact hPost a s' hRun
  | error e s' =>
      rw [hResult] at hRun
      exact hStop e s' hRun

/- More may be known before. -/
theorem Triple.pre
    (hProgram : Triple P program Q E)
    (hPre : ∀ s, P' s → P s) :
    Triple P' program Q E :=
  hProgram.conseq hPre (fun _ _ hQ => hQ) fun _ _ hE => hE

/- Less may be claimed after. -/
theorem Triple.post
    (hProgram : Triple P program Q E)
    (hPost : ∀ a s, Q a s → Q' a s) :
    Triple P program Q' E :=
  hProgram.conseq (fun _ hP => hP) hPost fun _ _ hE => hE

/- Less may be claimed of a stop. -/
theorem Triple.stop_mono
    (hProgram : Triple P program Q E)
    (hStop : ∀ e s, E e s → E' e s) :
    Triple P program Q E' :=
  hProgram.conseq (fun _ hP => hP) (fun _ _ hQ => hQ) hStop

/- A triple may be shown for every start state on its own. -/
theorem Triple.of_state
    (hAll : ∀ s, P s → Triple (fun t => t = s) program Q E) :
    Triple P program Q E := by
  intro s hP
  exact hAll s hP s rfl

/- Two triples of one program. -/
theorem Triple.and
    (hFirst : Triple P program Q E)
    (hSecond : Triple P' program Q' E') :
    Triple (fun s => P s ∧ P' s) program
      (fun a s => Q a s ∧ Q' a s)
      (fun e s => E e s ∧ E' e s) := by
  intro s hP
  have hRun := hFirst s hP.1
  have hRun' := hSecond s hP.2
  cases hResult : program s with
  | ok a s' =>
      rw [hResult] at hRun hRun'
      exact ⟨hRun, hRun'⟩
  | error e s' =>
      rw [hResult] at hRun hRun'
      exact ⟨hRun, hRun'⟩

----------------
-- Statements
----------------

/- A value changes no state. -/
theorem Triple.value
    {a : α}
    (hPost : ∀ s, P s → Q a s) :
    Triple P (pure a : EStateM ε σ α) Q E :=
  hPost

/- A stop changes no state. -/
theorem Triple.stop
    {e : ε}
    (hStop : ∀ s, P s → E e s) :
    Triple P (throw e : EStateM ε σ α) Q E :=
  hStop

/- Of any run nothing need be said. -/
theorem Triple.any
    (program : EStateM ε σ α) :
    Triple P program (fun _ _ => True) fun _ _ => True := by
  intro s _
  cases program s with
  | ok a s' => trivial
  | error e s' => trivial

/- One program after another. -/
theorem Triple.seq
    {R : β → σ → Prop}
    (hFirst : Triple P first R E)
    (hNext : ∀ b, Triple (R b) (next b) Q E) :
    Triple P (first >>= next) Q E := by
  intro s hP
  have hRun := hFirst s hP
  change
    match EStateM.bind first next s with
    | .ok a s' => Q a s'
    | .error e s' => E e s'
  rw [EStateM.bind]
  cases hResult : first s with
  | ok b s' =>
      rw [hResult] at hRun
      exact hNext b s' hRun
  | error e s' =>
      rw [hResult] at hRun
      exact hRun

/- Reading fixes the state that is read. -/
theorem Triple.read
    {next : σ → EStateM ε σ α}
    (hNext :
      ∀ s, P s → Triple (fun t => t = s) (next s) Q E) :
    Triple P (get >>= next) Q E := by
  intro s hP
  exact hNext s hP s rfl

/- What was written is the state. -/
theorem Triple.write
    {s' : σ}
    {next : PUnit → EStateM ε σ α}
    (hNext : Triple (fun t => t = s') (next ⟨⟩) Q E) :
    Triple P (set s' >>= next) Q E := by
  intro s _
  exact hNext s' rfl

/- A change of the state. -/
theorem Triple.update
    {f : σ → σ}
    (hPost : ∀ s, P s → R ⟨⟩ (f s)) :
    Triple P (modify f : EStateM ε σ PUnit) R E :=
  hPost

/- A change of a known state, and what follows. -/
theorem Triple.update_bind
    {s : σ}
    {f : σ → σ}
    {next : PUnit → EStateM ε σ α}
    (hNext : Triple (fun t => t = f s) (next ⟨⟩) Q E) :
    Triple (fun t => t = s) (modify f >>= next) Q E := by
  intro t hT
  subst hT
  exact hNext (f t) rfl

/- Both branches. -/
theorem Triple.branch
    {c : Prop}
    [Decidable c]
    {yes no : EStateM ε σ α}
    (hYes : c → Triple P yes Q E)
    (hNo : ¬ c → Triple P no Q E) :
    Triple P (if c then yes else no) Q E := by
  by_cases hC : c
  · rw [if_pos hC]
    exact hYes hC
  · rw [if_neg hC]
    exact hNo hC

/- A run that ends with a value went through both parts. -/
theorem bind_eq_ok
    {a : α}
    {s s' : σ}
    (hRun : (first >>= next) s = .ok a s') :
    ∃ b t, first s = .ok b t ∧ next b t = .ok a s' := by
  change EStateM.bind first next s = .ok a s' at hRun
  rw [EStateM.bind] at hRun
  cases hFirst : first s with
  | ok b t =>
      rw [hFirst] at hRun
      exact ⟨b, t, rfl, hRun⟩
  | error e t =>
      rw [hFirst] at hRun
      cases hRun

----------------
-- Loops
----------------

/- Run a program for every entry of a list. -/
def forEach
    (xs : List β)
    (body : β → EStateM ε σ PUnit) : EStateM ε σ PUnit :=
  match xs with
  | [] => pure ⟨⟩
  | x :: rest => do
      body x
      forEach rest body

/- Run a program for every entry; did any return `true`? -/
def anyOf
    (xs : List β)
    (body : β → EStateM ε σ Bool) : EStateM ε σ Bool :=
  match xs with
  | [] => pure false
  | x :: rest => do
      let first ← body x
      let others ← anyOf rest body
      pure (first || others)

/- Repeat a program until it returns `true`; then it is done. -/
def repeatUntil
    (fault : ε)
    (fuel : Nat)
    (body : EStateM ε σ Bool) : EStateM ε σ PUnit :=
  match fuel with
  | 0 => throw fault
  | fuel + 1 => do
      let done ← body
      if done then pure ⟨⟩ else repeatUntil fault fuel body

/- The invariant of a walk may speak of the entries to come. -/
theorem Triple.forEach
    {body : β → EStateM ε σ PUnit}
    (hBody :
      ∀ x rest, x :: rest <:+ xs →
        Triple (J (x :: rest)) (body x) (fun _ => J rest) E) :
    Triple (J xs) (forEach xs body) (fun _ => J []) E := by
  induction xs with
  | nil => exact Triple.value fun _ hJ => hJ
  | cons x rest ih =>
      apply Triple.seq (hBody x rest List.suffix_rfl)
      intro _
      apply ih
      intro y others hSuffix
      exact hBody y others (hSuffix.trans (List.suffix_cons _ _))

/- A walk over all items keeps what each step keeps. -/
theorem Triple.anyOf
    (hBody : ∀ x ∈ xs, Triple I (body x) (fun _ => I) E) :
    Triple I (anyOf xs body) (fun _ => I) E := by
  induction xs with
  | nil => exact Triple.value fun _ hI => hI
  | cons x rest ih =>
      apply Triple.seq (hBody x List.mem_cons_self)
      intro first
      apply Triple.seq
        (ih fun y hMem => hBody y (List.mem_cons_of_mem _ hMem))
      intro others
      exact Triple.value fun _ hI => hI

/-
  A loop that ends has reached its end; the fuel bounds the
  turns.
-/
theorem Triple.repeatUntil
    {fault : ε}
    {fuel : Nat}
    {body : EStateM ε σ Bool}
    (hBody :
      Triple I body (fun done s => if done then R ⟨⟩ s else I s)
        E)
    (hFault : ∀ s, I s → E fault s) :
    Triple I (repeatUntil fault fuel body) R E := by
  induction fuel with
  | zero => exact Triple.stop hFault
  | succ fuel ih =>
      apply Triple.seq hBody
      intro done
      cases done with
      | true => exact Triple.value fun _ hR => hR
      | false => exact ih

/- A repetition whose rounds lower a measure ends in time. -/
theorem Triple.repeatUntil_of_measure
    {fault : ε}
    (measure : σ → Nat)
    (fuel : Nat)
    {body : EStateM ε σ Bool}
    (hBody :
      ∀ s, I s →
        Triple (fun t => t = s) body
          (fun done t =>
            if done then R ⟨⟩ t
            else I t ∧ measure t < measure s)
          E) :
    Triple (fun s => I s ∧ measure s < fuel)
      (Hoare.repeatUntil fault fuel body) R E := by
  induction fuel with
  | zero =>
      rintro s ⟨-, hFuel⟩
      exact absurd hFuel (Nat.not_lt_zero _)
  | succ fuel ih =>
      apply Triple.of_state
      rintro s ⟨hI, hFuel⟩
      apply Triple.seq (hBody s hI)
      intro done
      cases done with
      | true => exact Triple.value fun _ hR => hR
      | false =>
          apply ih.pre
          rintro t ⟨hI', hLess⟩
          exact ⟨hI', by omega⟩

/- No body returns `true`, so the walk does not. -/
theorem Triple.anyOf_false
    (hBody :
      ∀ x ∈ xs,
        Triple I (body x) (fun any t => any = false ∧ I t) E) :
    Triple I (Hoare.anyOf xs body)
      (fun any t => any = false ∧ I t) E := by
  induction xs with
  | nil => exact Triple.value fun t hI => ⟨rfl, hI⟩
  | cons x rest ih =>
      apply Triple.seq (hBody x List.mem_cons_self)
      intro first
      have hRest :=
        ih fun y hMem => hBody y (List.mem_cons_of_mem _ hMem)
      apply Triple.of_state
      rintro t ⟨rfl, hI⟩
      have hFrom :
          Triple (fun u => u = t) (Hoare.anyOf rest body)
            (fun any u => any = false ∧ I u) E :=
        hRest.pre fun u hU => hU ▸ hI
      apply Triple.seq hFrom
      intro others
      apply Triple.value
      rintro u ⟨rfl, hI'⟩
      exact ⟨rfl, hI'⟩

/- A walk over bodies that do nothing does nothing. -/
theorem Triple.anyOf_idle
    {s : σ}
    (hBody :
      ∀ x ∈ xs,
        Triple (fun t => t = s) (body x)
          (fun any t => any = false ∧ t = s) E) :
    Triple (fun t => t = s) (Hoare.anyOf xs body)
      (fun any t => any = false ∧ t = s) E :=
  Triple.anyOf_false hBody

/- The invariant of a walk may speak of the entries to come. -/
theorem Triple.anyOf_walk
    (hBody :
      ∀ x rest, x :: rest <:+ xs →
        Triple (J (x :: rest)) (body x) (fun _ => J rest) E) :
    Triple (J xs) (Hoare.anyOf xs body) (fun _ => J []) E := by
  induction xs with
  | nil => exact Triple.value fun _ hJ => hJ
  | cons x rest ih =>
      apply Triple.seq (hBody x rest List.suffix_rfl)
      intro first
      refine Triple.seq (ih ?_) ?_
      · intro y others hSuffix
        exact hBody y others
          (hSuffix.trans (List.suffix_cons _ _))
      · intro others
        exact Triple.value fun _ hJ => hJ

/-
  A walk whose answer tells whether some body found what `F`
  says, when later bodies keep it.
-/
theorem Triple.anyOf_found
    {F : σ → Prop}
    (hBody :
      ∀ x rest, x :: rest <:+ xs →
        Triple (J (x :: rest)) (body x)
          (fun found t => J rest t ∧ (found = true → F t)) E)
    (hKept :
      ∀ x rest, x :: rest <:+ xs →
        Triple (fun s => J (x :: rest) s ∧ F s) (body x)
          (fun _ => F) E) :
    Triple (J xs) (Hoare.anyOf xs body)
      (fun any t => J [] t ∧ (any = true → F t)) E := by
  induction xs with
  | nil => exact Triple.value fun _ hJ => ⟨hJ, by simp⟩
  | cons x rest ih =>
      have hTail : rest <:+ x :: rest := List.suffix_cons _ _
      apply Triple.seq (hBody x rest List.suffix_rfl)
      intro first
      cases first with
      | false =>
          refine Triple.seq (Triple.pre (ih ?_ ?_) ?_) ?_
          · intro y others hSuffix
            exact hBody y others (hSuffix.trans hTail)
          · intro y others hSuffix
            exact hKept y others (hSuffix.trans hTail)
          · exact fun _ hPre => hPre.1
          · intro others
            exact Triple.value fun _ hPost => hPost
      | true =>
          let K : List β → σ → Prop := fun ys s => J ys s ∧ F s
          have hStays :
              Triple (K rest) (Hoare.anyOf rest body)
                (fun _ => K []) E := by
            apply Triple.anyOf_walk
            intro y others hSuffix
            have hBoth :=
              (hBody y others (hSuffix.trans hTail)).and
                (hKept y others (hSuffix.trans hTail))
            exact
              hBoth.conseq (fun _ hPre => ⟨hPre.1, hPre⟩)
                (fun _ _ hPost => ⟨hPost.1.1, hPost.2⟩)
                fun _ _ hStop => hStop.1
          refine
            Triple.seq
              (hStays.pre fun _ hPre => ⟨hPre.1, hPre.2 rfl⟩) ?_
          intro others
          exact Triple.value fun _ hPost =>
            ⟨hPost.1, fun _ => hPost.2⟩

----------------
-- Frames
----------------

/- A relation that may be kept through a whole program. -/
structure Frame (R : σ → σ → Prop) : Prop where
  refl : ∀ s, R s s
  trans : ∀ {s t u}, R s t → R t u → R s u

/- However the program ends, it has changed its state by `R`. -/
def Within
    (R : σ → σ → Prop)
    (program : EStateM ε σ α) : Prop :=
  ∀ s, Triple (fun t => t = s) program (fun _ t => R s t)
    fun _ t => R s t

variable {R : σ → σ → Prop}

/- What does not see the changes of `R` is kept. -/
theorem Within.keeps
    (hWithin : Within R program)
    (hBlind : ∀ s t, R s t → I s → I t) :
    Triple I program (fun _ => I) fun _ => I := by
  apply Triple.of_state
  intro s hI
  exact
    (hWithin s).conseq (fun _ hS => hS)
      (fun _ t hR => hBlind s t hR hI)
      fun _ t hR => hBlind s t hR hI

/- A coarser relation is kept as well. -/
theorem Within.mono
    {R' : σ → σ → Prop}
    (hWithin : Within R program)
    (hCoarser : ∀ s t, R s t → R' s t) :
    Within R' program :=
  fun s =>
    (hWithin s).conseq (fun _ hS => hS)
      (fun _ t hR => hCoarser s t hR)
      fun _ t hR => hCoarser s t hR

/- A value is no step. -/
theorem Within.value
    (hFrame : Frame R)
    (a : α) :
    Within R (pure a : EStateM ε σ α) :=
  fun s => Triple.value fun _ hS => hS ▸ hFrame.refl s

/- A stop is no step. -/
theorem Within.stop
    (hFrame : Frame R)
    (e : ε) :
    Within R (throw e : EStateM ε σ α) :=
  fun s => Triple.stop fun _ hS => hS ▸ hFrame.refl s

/- Reading is no step. -/
theorem Within.current
    (hFrame : Frame R) :
    Within R (get : EStateM ε σ σ) :=
  fun s _ hS => hS ▸ hFrame.refl s

/- A change that is a step. -/
theorem Within.update
    {f : σ → σ}
    (hChange : ∀ s, R s (f s)) :
    Within R (modify f : EStateM ε σ PUnit) :=
  fun s => Triple.update fun _ hS => hS ▸ hChange s

/- Two programs compose because steps do. -/
theorem Within.seq
    (hFrame : Frame R)
    (hFirst : Within R first)
    (hNext : ∀ b, Within R (next b)) :
    Within R (first >>= next) := by
  intro s
  apply Triple.seq (hFirst s)
  intro b
  apply Triple.of_state
  intro t hStep
  exact
    (hNext b t).conseq (fun _ hT => hT)
      (fun _ _ hRest => hFrame.trans hStep hRest)
      fun _ _ hRest => hFrame.trans hStep hRest

/- Both branches. -/
theorem Within.branch
    {c : Prop}
    [Decidable c]
    {yes no : EStateM ε σ α}
    (hYes : Within R yes)
    (hNo : Within R no) :
    Within R (if c then yes else no) :=
  fun s => Triple.branch (fun _ => hYes s) fun _ => hNo s

/- A walk composes its steps. -/
theorem Within.forEach
    (hFrame : Frame R)
    {body : β → EStateM ε σ PUnit}
    (hBody : ∀ x ∈ xs, Within R (body x)) :
    Within R (Hoare.forEach xs body) := by
  induction xs with
  | nil => exact Within.value hFrame _
  | cons x rest ih =>
      refine Within.seq hFrame (hBody x List.mem_cons_self) ?_
      intro _
      exact ih fun y hMem => hBody y (List.mem_cons_of_mem _ hMem)

/- So does a walk that asks. -/
theorem Within.anyOf
    (hFrame : Frame R)
    (hBody : ∀ x ∈ xs, Within R (body x)) :
    Within R (Hoare.anyOf xs body) := by
  induction xs with
  | nil => exact Within.value hFrame _
  | cons x rest ih =>
      refine Within.seq hFrame (hBody x List.mem_cons_self) ?_
      intro first
      refine
        Within.seq hFrame
          (ih fun y hMem => hBody y (List.mem_cons_of_mem _ hMem))
          ?_
      intro others
      exact Within.value hFrame _

/- So does a loop. -/
theorem Within.repeatUntil
    (hFrame : Frame R)
    {fault : ε}
    {fuel : Nat}
    {body : EStateM ε σ Bool}
    (hBody : Within R body) :
    Within R (Hoare.repeatUntil fault fuel body) := by
  induction fuel with
  | zero => exact Within.stop hFrame _
  | succ fuel ih =>
      refine Within.seq hFrame hBody ?_
      intro done
      exact Within.branch (Within.value hFrame _) ih

end Hoare
