import Mathlib.Data.List.Basic

/-
  Checkers that report into a tally.

  A checker reads some data and extends a tally, or raises.
  It proves a property when a tally that is clean afterwards
  was clean before and the property holds: no complaint was
  made, and none was swallowed.

  Key definitions include:
    * `Checks.Proves`

  Key rules include:
    * `Checks.Proves.bind`
    * `Checks.Proves.each`
-/

------------------------------------------------------------
-- What a Clean Tally Proves
------------------------------------------------------------

namespace Checks

variable {T E α : Type} {clean : T → Prop}

def Proves
    (clean : T → Prop)
    (check : T → Except E T)
    (P : Prop) : Prop :=
  ∀ t t', check t = .ok t' → clean t' → clean t ∧ P

variable {check next : T → Except E T} {P Q : Prop}

theorem Proves.mono
    (hCheck : Proves clean check P)
    (hWeaker : P → Q) :
    Proves clean check Q := by
  intro t t' hRun hClean
  rcases hCheck t t' hRun hClean with ⟨hBefore, hP⟩
  exact ⟨hBefore, hWeaker hP⟩

/- A checker that always raises proves anything. -/
theorem proves_error (e : E) :
    Proves clean (fun _ => .error e) P := by
  intro t t' hRun
  cases hRun

/- A checker that never raises, read off its tally. -/
theorem proves_ok
    {report : T → T}
    (hReport : ∀ t, clean (report t) → clean t ∧ P) :
    Proves clean (fun t => (.ok (report t) : Except E T)) P := by
  intro t t' hRun hClean
  cases hRun
  exact hReport t hClean

/- A branch proves what both of its sides prove. -/
theorem proves_ite
    {b : Prop}
    [Decidable b]
    (hThen : b → Proves clean check P)
    (hElse : ¬ b → Proves clean next P) :
    Proves clean (fun t => if b then check t else next t) P := by
  by_cases hBranch : b
  · simp only [hBranch, if_true]
    exact hThen hBranch
  · simp only [hBranch, if_false]
    exact hElse hBranch

/- One check after another proves what both prove. -/
theorem Proves.bind
    (hFirst : Proves clean check P)
    (hThen : Proves clean next Q) :
    Proves clean (fun t => check t >>= next) (P ∧ Q) := by
  intro t t' hRun hClean
  cases hMiddle : check t with
  | error e =>
      simp only [hMiddle] at hRun
      cases hRun
  | ok middle =>
      simp only [hMiddle] at hRun
      rcases hThen middle t' hRun hClean with ⟨hAfter, hQ⟩
      rcases hFirst t middle hMiddle hAfter with ⟨hBefore, hP⟩
      exact ⟨hBefore, hP, hQ⟩

/- A check of every entry proves every entry's property. -/
theorem Proves.each
    {entry : T → α → Except E T}
    {R : α → Prop}
    {xs : List α}
    (hEntry : ∀ x ∈ xs, Proves clean (entry · x) (R x)) :
    Proves clean (fun t => xs.foldlM entry t)
      (∀ x ∈ xs, R x) := by
  induction xs with
  | nil =>
      apply proves_ok
      intro t hClean
      exact ⟨hClean, by simp⟩
  | cons x xs ih =>
      have hHead := hEntry x List.mem_cons_self
      have hTail := ih (fun y hy =>
        hEntry y (List.mem_cons_of_mem x hy))
      have hBoth := hHead.bind hTail
      simp only [List.foldlM_cons]
      apply hBoth.mono
      rintro ⟨hX, hXs⟩ y hy
      rcases List.mem_cons.mp hy with rfl | hy
      · exact hX
      · exact hXs y hy

end Checks
