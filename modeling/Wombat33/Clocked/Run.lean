import Mathlib.Data.List.Basic

/-
  Runs of a clocked machine.

  A machine is a state type, an input type and one update
  function, applied once for each clock edge.  An
  environment is a contract on the inputs: which input may
  meet which state.  Everything here is generic in the
  machine.

  Key definitions include:
    * `Clocked.run`
    * `Clocked.Along`
    * `Clocked.Always`
    * `Clocked.watch`
    * `Clocked.enabledCount`

  Key rules include:
    * `Clocked.invariant_run`
    * `Clocked.always_iff_along`
    * `Clocked.always_iff_along_within`
    * `Clocked.along_iff_along_under`
    * `Clocked.measure_exhausted`
    * `Clocked.goal_reached`
-/

------------------------------------------------------------
-- Runs and Contracts
------------------------------------------------------------

namespace Clocked

variable {S I : Type}

/- The state after a list of clock edges. -/
def run
    (step : S → I → S)
    (s : S)
    (is : List I) : S :=
  is.foldl step s

/- Every input meets its contract in the state it finds. -/
def Along
    (step : S → I → S)
    (ok : S → I → Prop) :
    S → List I → Prop
  | _, [] => True
  | s, i :: is => ok s i ∧ Along step ok (step s i) is

instance decidableAlong
    (step : S → I → S)
    (ok : S → I → Prop)
    [∀ s i, Decidable (ok s i)] :
    (s : S) → (is : List I) →
      Decidable (Along step ok s is)
  | _, [] => isTrue trivial
  | s, i :: is =>
      have := decidableAlong step ok (step s i) is
      inferInstanceAs
        (Decidable (ok s i ∧ Along step ok (step s i) is))

variable {step : S → I → S} {ok : S → I → Prop}

@[simp] theorem run_nil (s : S) : run step s [] = s := rfl

@[simp] theorem run_cons
    (s : S) (i : I) (is : List I) :
    run step s (i :: is) = run step (step s i) is := rfl

theorem run_append
    (s : S) (is js : List I) :
    run step s (is ++ js) = run step (run step s is) js := by
  simp [run, List.foldl_append]

@[simp] theorem along_nil
    (s : S) : Along step ok s [] := trivial

@[simp] theorem along_cons
    (s : S) (i : I) (is : List I) :
    Along step ok s (i :: is) ↔
      ok s i ∧ Along step ok (step s i) is := Iff.rfl

theorem along_append
    (s : S) (is js : List I) :
    Along step ok s (is ++ js) ↔
      Along step ok s is ∧
        Along step ok (run step s is) js := by
  induction is generalizing s with
  | nil => simp
  | cons i is ih => simp [ih, and_assoc]

/- A weaker contract holds along every run of a stronger. -/
theorem along_mono
    {ok' : S → I → Prop}
    (hWeaker : ∀ s i, ok s i → ok' s i)
    {s : S} {is : List I}
    (hAlong : Along step ok s is) :
    Along step ok' s is := by
  induction is generalizing s with
  | nil => trivial
  | cons i is ih =>
      exact ⟨hWeaker s i hAlong.1, ih hAlong.2⟩

/- Two contracts that say the same of every edge. -/
theorem along_congr
    {ok' : S → I → Prop}
    (hSame : ∀ s i, ok s i ↔ ok' s i)
    {s : S} {is : List I} :
    Along step ok s is ↔ Along step ok' s is :=
  ⟨along_mono fun s i => (hSame s i).mp,
    along_mono fun s i => (hSame s i).mpr⟩

/- Two contracts at once. -/
theorem along_and
    {ok' : S → I → Prop}
    {s : S} {is : List I} :
    Along step (fun s i => ok s i ∧ ok' s i) s is ↔
      Along step ok s is ∧ Along step ok' s is := by
  induction is generalizing s with
  | nil => simp
  | cons i is ih =>
      simp only [along_cons, ih]
      exact and_and_and_comm

/- A contract on the inputs alone. -/
theorem along_of_mem
    {p : I → Prop}
    {s : S} {is : List I}
    (hAll : ∀ i ∈ is, p i) :
    Along step (fun _ i => p i) s is := by
  induction is generalizing s with
  | nil => trivial
  | cons i is ih =>
      exact ⟨hAll i List.mem_cons_self,
        ih (fun j hj => hAll j (List.mem_cons_of_mem i hj))⟩

/-
  The invariant rule: what one step under the contract
  preserves, every run under the contract preserves.
-/
theorem invariant_run
    {Inv : S → Prop}
    (hStep : ∀ s i, Inv s → ok s i → Inv (step s i))
    {s : S} {is : List I}
    (hAlong : Along step ok s is)
    (hInv : Inv s) :
    Inv (run step s is) := by
  induction is generalizing s with
  | nil => exact hInv
  | cons i is ih =>
      exact ih hAlong.2 (hStep s i hInv hAlong.1)

/- The same, where no contract is needed. -/
theorem invariant_always
    {Inv : S → Prop}
    (hStep : ∀ s i, Inv s → Inv (step s i))
    {s : S}
    (is : List I)
    (hInv : Inv s) :
    Inv (run step s is) := by
  induction is generalizing s with
  | nil => exact hInv
  | cons i is ih => exact ih (hStep s i hInv)

/- What an invariant says of an edge, it says of every edge. -/
theorem along_of_invariant
    {Inv : S → Prop}
    {edge : S → I → Prop}
    (hStep : ∀ s i, Inv s → ok s i → Inv (step s i))
    (hEdge : ∀ s i, Inv s → ok s i → edge s i)
    {s : S} {is : List I}
    (hAlong : Along step ok s is)
    (hInv : Inv s) :
    Along step edge s is := by
  induction is generalizing s with
  | nil => trivial
  | cons i is ih =>
      exact ⟨hEdge s i hInv hAlong.1,
        ih hAlong.2 (hStep s i hInv hAlong.1)⟩

end Clocked

------------------------------------------------------------
-- Properties of Every State
------------------------------------------------------------

namespace Clocked

variable {S I : Type}
variable {step : S → I → S} {ok : S → I → Prop}

/- A property of every state a run passes through. -/
def Always
    (step : S → I → S)
    (P : S → Prop)
    (s : S)
    (is : List I) : Prop :=
  ∀ pre, pre <+: is → P (run step s pre)

theorem always_nil {P : S → Prop} (s : S) :
    Always step P s [] ↔ P s := by
  simp [Always]

theorem always_cons
    {P : S → Prop} (s : S) (i : I) (is : List I) :
    Always step P s (i :: is) ↔
      P s ∧ Always step P (step s i) is := by
  constructor
  · intro hAll
    refine ⟨hAll [] (List.nil_prefix), ?_⟩
    intro pre hPre
    exact hAll (i :: pre)
      (List.cons_prefix_cons.mpr ⟨rfl, hPre⟩)
  · rintro ⟨hHead, hTail⟩ pre hPre
    cases pre with
    | nil => exact hHead
    | cons j pre =>
        rcases List.cons_prefix_cons.mp hPre with ⟨rfl, hRest⟩
        exact hTail pre hRest

theorem always_mono
    {P Q : S → Prop}
    (hWeaker : ∀ s, P s → Q s)
    {s : S} {is : List I}
    (hAlways : Always step P s is) :
    Always step Q s is :=
  fun pre hPre => hWeaker _ (hAlways pre hPre)

/- What every run under a contract keeps, it always has. -/
theorem always_of_along
    {Inv : S → Prop}
    (hStep : ∀ s i, Inv s → ok s i → Inv (step s i))
    {s : S} {is : List I}
    (hAlong : Along step ok s is)
    (hInv : Inv s) :
    Always step Inv s is := by
  induction is generalizing s with
  | nil => exact (always_nil s).mpr hInv
  | cons i is ih =>
      exact (always_cons s i is).mpr
        ⟨hInv, ih hAlong.2 (hStep s i hInv hAlong.1)⟩

/-
  Where an environment keeps an invariant, a property that an
  edge keeps exactly under a contract holds all along the
  runs that keep the contract, and along no other.
-/
theorem always_iff_along_under
    {Inv P : S → Prop}
    {env : S → I → Prop}
    (hInv : ∀ s i, Inv s → env s i → Inv (step s i))
    (hStep : ∀ s i, Inv s → P s → env s i →
      (P (step s i) ↔ ok s i))
    {s : S} {is : List I}
    (hEnv : Along step env s is)
    (hHolds : Inv s)
    (hStart : P s) :
    Always step P s is ↔ Along step ok s is := by
  induction is generalizing s with
  | nil => simp [always_nil, hStart]
  | cons i is ih =>
      have hNextInv := hInv s i hHolds hEnv.1
      rw [always_cons, along_cons]
      constructor
      · rintro ⟨-, hRest⟩
        have hNext : P (step s i) :=
          hRest [] List.nil_prefix
        exact ⟨(hStep s i hHolds hStart hEnv.1).mp hNext,
          (ih hEnv.2 hNextInv hNext).mp hRest⟩
      · rintro ⟨hOk, hRest⟩
        have hNext :=
          (hStep s i hHolds hStart hEnv.1).mpr hOk
        exact ⟨hStart, (ih hEnv.2 hNextInv hNext).mpr hRest⟩

/- The same in every environment. -/
theorem always_iff_along
    {P : S → Prop}
    (hStep : ∀ s i, P s → (P (step s i) ↔ ok s i))
    {s : S} {is : List I}
    (hStart : P s) :
    Always step P s is ↔ Along step ok s is :=
  @always_iff_along_under S I step ok (fun _ => True) P
    (fun _ _ => True) (fun _ _ _ _ => trivial)
    (fun s i _ hP _ => hStep s i hP) s is
    (along_of_mem (fun _ _ => trivial)) trivial hStart

/-
  Where the contract keeps an invariant that has the property,
  and the first edge that breaks the contract loses it, the
  property holds all along the runs that keep the contract,
  and along no other.
-/
theorem always_iff_along_within
    {Inv P : S → Prop}
    (hHas : ∀ s, Inv s → P s)
    (hKeep : ∀ s i, Inv s → ok s i → Inv (step s i))
    (hLose : ∀ s i, Inv s → ¬ ok s i → ¬ P (step s i))
    {s : S} {is : List I}
    (hInv : Inv s) :
    Always step P s is ↔ Along step ok s is := by
  induction is generalizing s with
  | nil => simp [always_nil, hHas s hInv]
  | cons i is ih =>
      rw [always_cons, along_cons]
      constructor
      · rintro ⟨-, hRest⟩
        have hOk : ok s i := by
          by_contra hNot
          exact hLose s i hInv hNot (hRest [] List.nil_prefix)
        exact ⟨hOk, (ih (hKeep s i hInv hOk)).mp hRest⟩
      · rintro ⟨hOk, hRest⟩
        exact ⟨hHas s hInv,
          (ih (hKeep s i hInv hOk)).mpr hRest⟩

/-
  Where a property of edges keeps an invariant and, under it,
  says the same as a contract, it holds along the runs that
  keep the contract, and along no other.
-/
theorem along_iff_along_under
    {Inv : S → Prop}
    {edge env : S → I → Prop}
    (hKeep : ∀ s i, Inv s → env s i → edge s i →
      Inv (step s i))
    (hStep : ∀ s i, Inv s → env s i → (edge s i ↔ ok s i))
    {s : S} {is : List I}
    (hEnv : Along step env s is)
    (hInv : Inv s) :
    Along step edge s is ↔ Along step ok s is := by
  induction is generalizing s with
  | nil => simp
  | cons i is ih =>
      rw [along_cons, along_cons, ← hStep s i hInv hEnv.1]
      constructor
      · rintro ⟨hEdge, hRest⟩
        have hNext := hKeep s i hInv hEnv.1 hEdge
        exact ⟨hEdge, (ih hEnv.2 hNext).mp hRest⟩
      · rintro ⟨hEdge, hRest⟩
        have hNext := hKeep s i hInv hEnv.1 hEdge
        exact ⟨hEdge, (ih hEnv.2 hNext).mpr hRest⟩

end Clocked

------------------------------------------------------------
-- Watched Runs
------------------------------------------------------------

namespace Clocked

variable {S I G : Type}

/-
  Run a machine beside an observer.  The observer reads the
  machine's state and input before each edge and never
  influences the machine.
-/
def watch
    (step : S → I → S)
    (note : G → S → I → G) :
    S × G → I → S × G :=
  fun sg i => (step sg.1 i, note sg.2 sg.1 i)

@[simp] theorem watch_fst
    (step : S → I → S)
    (note : G → S → I → G)
    (sg : S × G) (i : I) :
    (watch step note sg i).1 = step sg.1 i := rfl

@[simp] theorem watch_snd
    (step : S → I → S)
    (note : G → S → I → G)
    (sg : S × G) (i : I) :
    (watch step note sg i).2 = note sg.2 sg.1 i := rfl

/- Nor does it change which inputs meet a contract. -/
theorem along_watch
    (step : S → I → S)
    (note : G → S → I → G)
    (ok : S → I → Prop)
    (sg : S × G) (is : List I) :
    Along (watch step note) (fun x i => ok x.1 i) sg is ↔
      Along step ok sg.1 is := by
  induction is generalizing sg with
  | nil => rfl
  | cons i is ih => simp [ih]

/- Watching a machine does not change its run. -/
theorem run_watch_fst
    (step : S → I → S)
    (note : G → S → I → G)
    (sg : S × G) (is : List I) :
    (run (watch step note) sg is).1 = run step sg.1 is := by
  induction is generalizing sg with
  | nil => rfl
  | cons i is ih => simpa using ih (watch step note sg i)

end Clocked

------------------------------------------------------------
-- Bounded Progress
------------------------------------------------------------

namespace Clocked

variable {S I : Type}
variable {step : S → I → S} {ok : S → I → Prop}

/- How many edges of a run find the machine enabled. -/
def enabledCount
    (step : S → I → S)
    (enabled : S → I → Bool) :
    S → List I → Nat
  | _, [] => 0
  | s, i :: is =>
      (if enabled s i then 1 else 0) +
        enabledCount step enabled (step s i) is

/-
  A measure that never grows, and shrinks on each enabled
  edge until it is zero, is zero after as many enabled edges
  as it had units at the start.
-/
theorem measure_exhausted
    {Inv : S → Prop}
    {enabled : S → I → Bool}
    {μ : S → Nat}
    (hStep : ∀ s i, Inv s → ok s i → Inv (step s i))
    (hLe : ∀ s i, Inv s → ok s i → μ (step s i) ≤ μ s)
    (hLt : ∀ s i, Inv s → ok s i → enabled s i →
      0 < μ s → μ (step s i) < μ s)
    {s : S} {is : List I}
    (hAlong : Along step ok s is)
    (hInv : Inv s)
    (hCount : μ s ≤ enabledCount step enabled s is) :
    μ (run step s is) = 0 := by
  induction is generalizing s with
  | nil => simpa [enabledCount] using hCount
  | cons i is ih =>
      have hOk := hAlong.1
      have hNext := hLe s i hInv hOk
      apply ih hAlong.2 (hStep s i hInv hOk)
      simp only [enabledCount] at hCount
      by_cases hEnabled : enabled s i
      · by_cases hZero : μ s = 0
        · omega
        · have hLess := hLt s i hInv hOk hEnabled
            (Nat.pos_of_ne_zero hZero)
          simp only [hEnabled, if_true] at hCount
          omega
      · simp only [hEnabled] at hCount
        simp at hCount
        omega

/- Enabled on every edge: after as many edges as units. -/
theorem measure_spent
    {Inv : S → Prop}
    {μ : S → Nat}
    (hStep : ∀ s i, Inv s → ok s i → Inv (step s i))
    (hLt : ∀ s i, Inv s → ok s i →
      μ (step s i) < μ s ∨ μ (step s i) = 0)
    {s : S} {is : List I}
    (hAlong : Along step ok s is)
    (hInv : Inv s)
    (hLong : μ s ≤ is.length) :
    μ (run step s is) = 0 := by
  induction is generalizing s with
  | nil => simpa using hLong
  | cons i is ih =>
      have hNext := hLt s i hInv hAlong.1
      apply ih hAlong.2 (hStep s i hInv hAlong.1)
      rw [List.length_cons] at hLong
      omega

/-
  The same for a goal on the way: up to it the measure does
  not grow, and where it is zero the goal is reached.
-/
theorem goal_reached
    {Inv goal : S → Prop}
    {enabled : S → I → Bool}
    {μ : S → Nat}
    (hGoal : ∀ s, Inv s → μ s = 0 → goal s)
    (hStep : ∀ s i, Inv s → ok s i → 0 < μ s →
      Inv (step s i))
    (hLe : ∀ s i, Inv s → ok s i → 0 < μ s →
      μ (step s i) ≤ μ s)
    (hLt : ∀ s i, Inv s → ok s i → 0 < μ s →
      enabled s i → μ (step s i) < μ s)
    {s : S} {is : List I}
    (hAlong : Along step ok s is)
    (hInv : Inv s)
    (hCount : μ s ≤ enabledCount step enabled s is) :
    ∃ pre, pre <+: is ∧ goal (run step s pre) := by
  induction is generalizing s with
  | nil =>
      have hZero : μ s = 0 := by
        simpa [enabledCount] using hCount
      exact ⟨[], List.nil_prefix, hGoal s hInv hZero⟩
  | cons i is ih =>
      by_cases hZero : μ s = 0
      · exact ⟨[], List.nil_prefix, hGoal s hInv hZero⟩
      · have hOk := hAlong.1
        have hPos := Nat.pos_of_ne_zero hZero
        have hNext := hLe s i hInv hOk hPos
        have hLater :
            μ (step s i) ≤
              enabledCount step enabled (step s i) is := by
          simp only [enabledCount] at hCount
          cases hEnabled : enabled s i with
          | true =>
              have hLess := hLt s i hInv hOk hPos hEnabled
              rw [hEnabled, if_pos rfl] at hCount
              omega
          | false =>
              simp only [hEnabled, Bool.false_eq_true,
                if_false] at hCount
              omega
        rcases ih hAlong.2 (hStep s i hInv hOk hPos) hLater with
          ⟨pre, hPre, hReached⟩
        exact ⟨i :: pre,
          List.cons_prefix_cons.mpr ⟨rfl, hPre⟩, hReached⟩

end Clocked
