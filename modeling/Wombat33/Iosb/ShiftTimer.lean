import Mathlib.Algebra.Group.Nat.Defs
import Wombat33.Clocked.Run
import Wombat33.Iosb.Shim

/-
  The shift timer and the last access.

  A log beside the shim keeps the last access that armed the
  timer and has been neither cancelled nor completed, with its
  age in cycles, and the age of a completed byte that is not
  yet handed over.  The count comes after the loads, so an
  access obeys only where the timer has run down.

  Key definitions include:
    * `Armed`, `ShiftLog`, `noteShift`
    * `TimerObeys`
    * `accessFits`

  Key theorems include:
    * `timerObeys_iff`
    * `timer_obeys_iff`
    * `running_timer_disobeys`
-/

------------------------------------------------------------
-- The Log
------------------------------------------------------------

namespace Iosb

namespace Shim

open Clocked

variable (s : Shim) (i : ShimIn)

/- An arming access: its delay, its age, and if outward. -/
structure Armed where
  delay : Nat
  age : Nat
  out : Bool

structure ShiftLog where
  armed : Option Armed
  owed : Option Nat

def noShift : ShiftLog := ⟨none, none⟩

/- An access that arms or cancels. -/
def governs : Bool := (armedDelay s i).isSome || cancels i

/- A completion that the timer drives. -/
def timerCompletes : Bool := completesOut s || completesIdle s i

def noteShift (g : ShiftLog) : ShiftLog :=
  if !i.nreset then noShift
  else
    { armed :=
        match armedDelay s i with
        | some armed => some ⟨armed.1.toNat, 1, armed.2⟩
        | none =>
            if cancels i || completes s i then none
            else
              g.armed.map fun a => { a with age := a.age + 1 }
      owed :=
        if governs s i then none
        else if completesOut s then some 0
        else if delivers s then none
        else g.owed.map (· + 1) }

/-
  An access that arms leaves its full delay, one that cancels
  stops the timer, and either calls off what is under way.  No
  completion comes before the delay of the last arming access,
  nor without one; an armed shift-out completes at its delay;
  and its byte is handed over once, within eight cycles.
-/
structure TimerObeys
    (x : Shim × ShiftLog)
    (i : ShimIn) : Prop where
  arms : ∀ armed, armedDelay x.1 i = some armed →
    (step x.1 i).via1ShiftTimer = armed.1
  stops : cancels i = true → (step x.1 i).via1ShiftTimer = 0#22
  calls : governs x.1 i = true →
    (step x.1 i).via1SrOutPending = false
  due : timerCompletes x.1 i = true →
    governs x.1 i = false ∧
      ∃ a, x.2.armed = some a ∧ a.delay ≤ a.age
  once : ∀ a, x.2.armed = some a → a.out = true →
    a.age ≤ a.delay ∧
      (completesOut x.1 = true ↔ a.age = a.delay)
  shows : (step x.1 i).via1SrExtComplete = completes x.1 i
  hands : delivers x.1 = true →
    x.2.owed.isSome = true ∧
      (step x.1 i).adbDinStrobe = true ∧
      (step x.1 i).adbDin = x.1.via1SrShadow
  handed : ∀ age, x.2.owed = some age → age ≤ 7

/-
  An access that arms finds the timer run down, or one above
  its own delay, and no completion; one that cancels finds it
  run down and not completing, or a byte that has come.  Both
  find no byte that is still to be handed over.
-/
def accessFits : Bool :=
  !i.nreset ||
    (match armedDelay s i with
      | some armed =>
          (s.via1ShiftTimer ≤ 1#22 ||
            s.via1ShiftTimer == armed.1 + 1#22) &&
            !completes s i &&
            (!s.via1SrOutPending || delivers s)
      | none =>
          !cancels i ||
            (s.via1ShiftTimer ≤ 1#22 && !timerCompletes s i ||
              completesFresh s) &&
            (!s.via1SrOutPending || delivers s))

end Shim

end Iosb

------------------------------------------------------------
-- One Cycle
------------------------------------------------------------

namespace Iosb

namespace Shim

open Clocked

/- The timer counts what is left of the armed delay. -/
structure TimerInv (x : Shim × ShiftLog) : Prop where
  idle : x.2.armed = none → x.1.via1ShiftTimer = 0#22
  counts : ∀ a, x.2.armed = some a →
    x.1.via1ShiftDir = a.out ∧ 1 ≤ a.age ∧
      2 ≤ a.delay ∧ a.delay < 2 ^ 22 ∧
      (a.out = true → a.age ≤ a.delay) ∧
      x.1.via1ShiftTimer.toNat = max 1 (a.delay + 1 - a.age)
  pending : x.1.via1SrOutPending = x.2.owed.isSome
  alone : x.2.owed.isSome = true → x.2.armed = none
  waits : ∀ age, x.2.owed = some age →
    age + (3 - x.1.adbdiv.toNat) +
      (if x.1.via1SrOutAck then 4 else 0) ≤ 7

variable {x : Shim × ShiftLog} {s : Shim} {i : ShimIn}

theorem timerInv_reset : TimerInv (resetState, noShift) where
  idle _ := rfl
  counts _ hArmed := by simp [noShift] at hArmed
  pending := rfl
  alone _ := rfl
  waits _ hOwed := by simp [noShift] at hOwed

/- The delays there are. -/
theorem armedDelay_bounds
    {armed : BitVec 22 × Bool}
    (hArmed : armedDelay s i = some armed) :
    2 ≤ armed.1.toNat ∧ armed.1.toNat + 1 < 2 ^ 22 := by
  unfold armedDelay at hArmed
  split_ifs at hArmed <;>
    · rw [← Option.some.inj hArmed]
      decide

/- Only one kind of completion at a time. -/
theorem not_timerCompletes_of_fresh
    (hFresh : completesFresh s = true) :
    timerCompletes s i = false := by
  simp only [completesFresh, Bool.and_eq_true,
    Bool.not_eq_true'] at hFresh
  simp [timerCompletes, completesOut, completesIdle, hFresh]

theorem completes_eq :
    completes s i = (timerCompletes s i || completesFresh s) := by
  unfold completes timerCompletes
  cases completesOut s <;> cases completesFresh s <;> simp

theorem timer_of_timerCompletes
    (hDone : timerCompletes s i = true) :
    s.via1ShiftTimer = 1#22 := by
  simp only [timerCompletes, completesOut, completesIdle,
    Bool.or_eq_true, Bool.and_eq_true, beq_iff_eq] at hDone
  rcases hDone with hOut | hIdle
  · exact hOut.2
  · exact hIdle.1.2.1

theorem armedDelay_of_cancels
    (hCancels : cancels i = true) :
    armedDelay s i = none := by
  simp only [cancels, Bool.and_eq_true, beq_iff_eq] at hCancels
  have hWrite := access_cases i
  simp only [hCancels.1] at hWrite
  simp [armedDelay, hCancels, shiftOut, shiftIn]
  grind

/- When a load survives the rest of the block. -/
theorem step_arms_iff
    {armed : BitVec 22 × Bool}
    (hReset : i.nreset = true)
    (hArmed : armedDelay s i = some armed) :
    (step s i).via1ShiftTimer = armed.1 ↔
      (s.via1ShiftTimer ≤ 1#22 ∨
        s.via1ShiftTimer = armed.1 + 1#22) ∧
        completes s i = false := by
  have hBounds := armedDelay_bounds hArmed
  have hLoaded : loadedTimer s i = armed.1 := by
    simp [loadedTimer, hArmed]
  rw [step_via1ShiftTimer hReset, hLoaded]
  cases hDone : completes s i with
  | true =>
      simp only [if_true, Bool.true_eq_false, and_false,
        iff_false]
      intro hZero
      rw [← hZero] at hBounds
      exact absurd hBounds.1 (by decide)
  | false =>
      simp only [Bool.false_eq_true, if_false, and_true]
      split_ifs with hRuns
      · bv_omega
      · simp [BitVec.not_lt.mp hRuns]

theorem step_stops_iff
    (hReset : i.nreset = true)
    (hCancels : cancels i = true) :
    (step s i).via1ShiftTimer = 0#22 ↔
      s.via1ShiftTimer ≤ 1#22 ∨ completes s i = true := by
  have hLoaded : loadedTimer s i = 0#22 := by
    simp [loadedTimer, armedDelay_of_cancels hCancels, hCancels]
  rw [step_via1ShiftTimer hReset, hLoaded]
  cases hDone : completes s i with
  | true => simp
  | false =>
      simp only [Bool.false_eq_true, if_false, or_false]
      split_ifs with hRuns
      · bv_omega
      · simp [BitVec.not_lt.mp hRuns]

theorem step_calls_iff
    (hReset : i.nreset = true) :
    (step s i).via1SrOutPending = false ↔
      completesOut s = false ∧
        (s.via1SrOutPending = false ∨ delivers s = true) := by
  rw [(step_handshake hReset).2.1]
  cases completesOut s <;> cases s.via1SrOutPending <;>
    cases delivers s <;> simp

/- What a fitting access that arms finds. -/
theorem accessFits_of_arms
    {armed : BitVec 22 × Bool}
    (hReset : i.nreset = true)
    (hArmed : armedDelay s i = some armed) :
    accessFits s i = true ↔
      ((s.via1ShiftTimer ≤ 1#22 ∨
        s.via1ShiftTimer = armed.1 + 1#22) ∧
        completes s i = false) ∧
        (s.via1SrOutPending = false ∨ delivers s = true) := by
  simp [accessFits, hReset, hArmed]

theorem accessFits_of_stops
    (hReset : i.nreset = true)
    (hCancels : cancels i = true) :
    accessFits s i = true ↔
      ((s.via1ShiftTimer ≤ 1#22 ∧
          timerCompletes s i = false) ∨
        completesFresh s = true) ∧
        (s.via1SrOutPending = false ∨ delivers s = true) := by
  simp [accessFits, hReset, armedDelay_of_cancels hCancels,
    hCancels]

theorem completesOut_of_not_timer
    (hDone : timerCompletes s i = false) :
    completesOut s = false := by
  simp only [timerCompletes, Bool.or_eq_false_iff] at hDone
  exact hDone.1

/- A fitting access meets no completion by the timer. -/
theorem not_timerCompletes_of_fits
    (hReset : i.nreset = true)
    (hFits : accessFits s i = true)
    (hGoverns : governs s i = true) :
    timerCompletes s i = false := by
  cases hArmed : armedDelay s i with
  | some armed =>
      have hArms := (accessFits_of_arms hReset hArmed).mp hFits
      have hDone := hArms.1.2
      rw [completes_eq, Bool.or_eq_false_iff] at hDone
      exact hDone.1
  | none =>
      have hCancels : cancels i = true := by
        simpa [governs, hArmed] using hGoverns
      have hStops :=
        (accessFits_of_stops hReset hCancels).mp hFits
      rcases hStops.1 with hTimer | hFresh
      · exact hTimer.2
      · exact not_timerCompletes_of_fresh hFresh

/- An access that fits is obeyed. -/
theorem obeys_of_fits
    (hInv : TimerInv x)
    (hReset : i.nreset = true)
    (hFits : accessFits x.1 i = true) :
    TimerObeys x i := by
  have hQuiet (hGoverns : governs x.1 i = true) :=
    not_timerCompletes_of_fits hReset hFits hGoverns
  constructor
  case arms =>
    intro armed hArmed
    exact (step_arms_iff hReset hArmed).mpr
      ((accessFits_of_arms hReset hArmed).mp hFits).1
  case stops =>
    intro hCancels
    rw [step_stops_iff hReset hCancels]
    rcases ((accessFits_of_stops hReset hCancels).mp hFits).1
      with hTimer | hFresh
    · exact Or.inl hTimer.1
    · exact Or.inr (by rw [completes_eq, hFresh, Bool.or_true])
  case calls =>
    intro hGoverns
    rw [step_calls_iff hReset]
    refine ⟨completesOut_of_not_timer (hQuiet hGoverns), ?_⟩
    cases hArmed : armedDelay x.1 i with
    | some armed =>
        exact ((accessFits_of_arms hReset hArmed).mp hFits).2
    | none =>
        have hCancels : cancels i = true := by
          simpa [governs, hArmed] using hGoverns
        exact
          ((accessFits_of_stops hReset hCancels).mp hFits).2
  case due =>
    intro hDone
    have hTimer := timer_of_timerCompletes hDone
    constructor
    · by_contra hGoverns
      rw [Bool.not_eq_false] at hGoverns
      rw [hQuiet hGoverns] at hDone
      exact Bool.noConfusion hDone
    · cases hArmed : x.2.armed with
      | none =>
          rw [hInv.idle hArmed] at hTimer
          exact absurd hTimer (by decide)
      | some a =>
          refine ⟨a, rfl, ?_⟩
          have hCounts := (hInv.counts a hArmed).2.2.2.2.2
          rw [hTimer] at hCounts
          change 1 = _ at hCounts
          omega
  case once =>
    intro a hArmed hOut
    rcases hInv.counts a hArmed with
      ⟨hDir, -, -, -, hAge, hTimer⟩
    refine ⟨hAge hOut, ?_⟩
    have hLe := hAge hOut
    simp only [completesOut, hDir, hOut, Bool.true_and,
      beq_iff_eq, BitVec.toNat_eq, hTimer]
    change max 1 (a.delay + 1 - a.age) = 1 ↔ a.age = a.delay
    omega
  case shows => exact (step_outputs hReset).1
  case hands =>
    intro hDelivers
    refine ⟨?_, (step_outputs hReset).2 hDelivers⟩
    rw [← hInv.pending]
    simp only [delivers, Bool.and_eq_true] at hDelivers
    exact hDelivers.2.1
  case handed =>
    intro age hOwed
    have hWaits := hInv.waits age hOwed
    omega

/- An access that is obeyed fits. -/
theorem fits_of_obeys
    (hReset : i.nreset = true)
    (hObeys : TimerObeys x i) :
    accessFits x.1 i = true := by
  cases hArmed : armedDelay x.1 i with
  | some armed =>
      have hGoverns : governs x.1 i = true := by
        simp [governs, hArmed]
      rw [accessFits_of_arms hReset hArmed]
      exact ⟨(step_arms_iff hReset hArmed).mp
          (hObeys.arms armed hArmed),
        ((step_calls_iff hReset).mp
          (hObeys.calls hGoverns)).2⟩
  | none =>
      cases hCancels : cancels i with
      | false => simp [accessFits, hArmed, hCancels]
      | true =>
          have hGoverns : governs x.1 i = true := by
            simp [governs, hCancels]
          rw [accessFits_of_stops hReset hCancels]
          refine ⟨?_, ((step_calls_iff hReset).mp
            (hObeys.calls hGoverns)).2⟩
          have hDone : timerCompletes x.1 i = false := by
            by_contra hTrue
            rw [Bool.not_eq_false] at hTrue
            have hNot := (hObeys.due hTrue).1
            rw [hGoverns] at hNot
            exact Bool.noConfusion hNot
          rcases (step_stops_iff hReset hCancels).mp
            (hObeys.stops hCancels) with hTimer | hAny
          · exact Or.inl ⟨hTimer, hDone⟩
          · rw [completes_eq, hDone, Bool.false_or] at hAny
            exact Or.inr hAny

/- A byte that is not handed over yet is closer to it. -/
theorem waits_step
    {age : Nat}
    (hReset : i.nreset = true)
    (hPending : s.via1SrOutPending = true)
    (hKept : delivers s = false)
    (hWaits : age + (3 - s.adbdiv.toNat) +
      (if s.via1SrOutAck then 4 else 0) ≤ 7) :
    age + 1 + (3 - (step s i).adbdiv.toNat) +
      (if (step s i).via1SrOutAck then 4 else 0) ≤ 7 := by
  rw [(step_handshake hReset).1, (step_handshake hReset).2.2]
  have hBound := s.adbdiv.isLt
  cases hEn : adbEn s with
  | true =>
      have hDiv : s.adbdiv = 3#2 := by simpa [adbEn] using hEn
      have hAck : s.via1SrOutAck = true := by
        simpa [delivers, hEn, hPending] using hKept
      rw [hKept]
      simp only [hAck, if_true, hDiv] at hWaits
      simp only [hDiv, if_true, Bool.false_eq_true, if_false]
      change age + 1 + 3 + 0 ≤ 7
      change age + 0 + 4 ≤ 7 at hWaits
      omega
  | false =>
      have hDiv : s.adbdiv ≠ 3#2 := by simpa [adbEn] using hEn
      have hNext : (s.adbdiv + 1#2).toNat =
          s.adbdiv.toNat + 1 := by
        bv_omega
      simp only [Bool.false_eq_true, if_false]
      omega

/- The handshake with no access in the way. -/
theorem owed_step
    {owed : Option Nat}
    (hReset : i.nreset = true)
    (hPending : s.via1SrOutPending = owed.isSome)
    (hWaits : ∀ age, owed = some age →
      age + (3 - s.adbdiv.toNat) +
        (if s.via1SrOutAck then 4 else 0) ≤ 7) :
    let owed' :=
      if completesOut s then some 0
      else if delivers s then none
      else owed.map (· + 1)
    (step s i).via1SrOutPending = owed'.isSome ∧
      ∀ age, owed' = some age →
        age + (3 - (step s i).adbdiv.toNat) +
          (if (step s i).via1SrOutAck then 4 else 0) ≤ 7 := by
  intro owed'
  cases hDone : completesOut s with
  | true =>
      have hOwed : owed' = some 0 := by simp [owed', hDone]
      rw [hOwed]
      refine ⟨by simp [(step_handshake hReset).2.1, hDone], ?_⟩
      intro age hAge
      have hBound := (step s i).adbdiv.isLt
      rw [← Option.some.inj hAge]
      split_ifs <;> omega
  | false =>
      cases hKept : delivers s with
      | true =>
          have hOwed : owed' = none := by
            simp [owed', hDone, hKept]
          rw [hOwed]
          refine ⟨?_, fun age hAge => by simp at hAge⟩
          simp [(step_handshake hReset).2.1, hDone, hKept]
      | false =>
          have hOwed : owed' = owed.map (· + 1) := by
            simp [owed', hDone, hKept]
          rw [hOwed]
          constructor
          · simp [(step_handshake hReset).2.1, hDone, hKept,
              hPending]
          · intro age hAge
            cases hOld : owed with
            | none => simp [hOld] at hAge
            | some k =>
                simp only [hOld, Option.map_some,
                  Option.some.injEq] at hAge
                rw [← hAge]
                apply waits_step hReset _ hKept (hWaits k hOld)
                rw [hPending, hOld]
                rfl

theorem not_governs_iff :
    governs s i = false ↔
      armedDelay s i = none ∧ cancels i = false := by
  simp [governs]

/- Without an access the timer counts down to its last. -/
theorem counts_step
    {a : Armed}
    (hReset : i.nreset = true)
    (hGoverns : governs s i = false)
    (hDone : completes s i = false)
    (hCounts : s.via1ShiftDir = a.out ∧ 1 ≤ a.age ∧
      2 ≤ a.delay ∧ a.delay < 2 ^ 22 ∧
      (a.out = true → a.age ≤ a.delay) ∧
      s.via1ShiftTimer.toNat = max 1 (a.delay + 1 - a.age)) :
    (step s i).via1ShiftDir = a.out ∧ 1 ≤ a.age + 1 ∧
      2 ≤ a.delay ∧ a.delay < 2 ^ 22 ∧
      (a.out = true → a.age + 1 ≤ a.delay) ∧
      (step s i).via1ShiftTimer.toNat =
        max 1 (a.delay + 1 - (a.age + 1)) := by
  rcases hCounts with
    ⟨hDir, hAge, hDelay, hWide, hOut, hTimer⟩
  rcases not_governs_iff.mp hGoverns with ⟨hArmed, hCancels⟩
  have hLoadedDir : loadedDir s i = s.via1ShiftDir := by
    simp [loadedDir, hArmed]
  have hLoaded : loadedTimer s i = s.via1ShiftTimer := by
    simp [loadedTimer, hArmed, hCancels]
  refine ⟨by rw [step_via1ShiftDir hReset, hLoadedDir, hDir],
    by omega, hDelay, hWide, ?_, ?_⟩
  · intro hTrue
    have hLe := hOut hTrue
    have hNot : s.via1ShiftTimer.toNat ≠ 1 := by
      intro hOne
      have hOnly : s.via1ShiftTimer = 1#22 :=
        BitVec.eq_of_toNat_eq hOne
      rw [completes_eq, Bool.or_eq_false_iff] at hDone
      have hNone := completesOut_of_not_timer hDone.1
      simp [completesOut, hDir, hTrue, hOnly] at hNone
    omega
  · rw [step_via1ShiftTimer hReset, hDone, hLoaded,
      if_neg Bool.false_ne_true]
    split_ifs with hRuns
    · have hSub : (s.via1ShiftTimer - 1#22).toNat =
          s.via1ShiftTimer.toNat - 1 := by
        bv_omega
      have hMore : 1 < s.via1ShiftTimer.toNat := hRuns
      rw [hSub]
      omega
    · have hLess : s.via1ShiftTimer.toNat ≤ 1 :=
        BitVec.not_lt.mp hRuns
      omega

/- The shim beside its log. -/
abbrev shiftWatch : Shim × ShiftLog → ShimIn → Shim × ShiftLog :=
  watch step (fun g s i => noteShift s i g)

theorem timerInv_step
    (hInv : TimerInv x)
    (hFits : accessFits x.1 i = true) :
    TimerInv (shiftWatch x i) := by
  rcases x with ⟨s, g⟩
  cases hReset : i.nreset with
  | false =>
      have hStep : step s i = resetState := by
        simp [step, hReset]
      have hNote : noteShift s i g = noShift := by
        simp [noteShift, hReset]
      show TimerInv (step s i, noteShift s i g)
      rw [hStep, hNote]
      exact timerInv_reset
  | true =>
  show TimerInv (step s i, noteShift s i g)
  have hObeys := obeys_of_fits hInv hReset hFits
  cases hGoverns : governs s i with
  | true =>
      have hCalled := hObeys.calls hGoverns
      have hOwed : (noteShift s i g).owed = none := by
        simp [noteShift, hReset, hGoverns]
      cases hArmed : armedDelay s i with
      | some armed =>
          have hNote : (noteShift s i g).armed =
              some ⟨armed.1.toNat, 1, armed.2⟩ := by
            simp [noteShift, hReset, hArmed]
          have hBounds := armedDelay_bounds hArmed
          have hTimer := hObeys.arms armed hArmed
          have hDir : (step s i).via1ShiftDir = armed.2 := by
            rw [step_via1ShiftDir hReset, loadedDir, hArmed]
          constructor
          case idle => simp [hNote]
          case counts =>
            intro a hSome
            rw [hNote] at hSome
            rw [← Option.some.inj hSome, hTimer]
            refine ⟨hDir, Nat.le_refl 1, hBounds.1,
              Nat.lt_of_succ_lt hBounds.2, ?_, ?_⟩
            · exact fun _ => Nat.le_of_succ_le hBounds.1
            · show armed.1.toNat =
                max 1 (armed.1.toNat + 1 - 1)
              omega
          case pending => rw [hCalled, hOwed]; rfl
          case alone => simp [hOwed]
          case waits => simp [hOwed]
      | none =>
          have hCancels : cancels i = true := by
            simpa [governs, hArmed] using hGoverns
          have hNote : (noteShift s i g).armed = none := by
            simp [noteShift, hReset, hArmed, hCancels]
          constructor
          case idle => exact fun _ => hObeys.stops hCancels
          case counts => simp [hNote]
          case pending => rw [hCalled, hOwed]; rfl
          case alone => simp [hOwed]
          case waits => simp [hOwed]
  | false =>
      rcases not_governs_iff.mp hGoverns with
        ⟨hArmed, hCancels⟩
      have hHandshake :=
        owed_step hReset hInv.pending hInv.waits
      have hOwed : (noteShift s i g).owed =
          if completesOut s then some 0
          else if delivers s then none
          else g.owed.map (· + 1) := by
        simp [noteShift, hReset, hGoverns]
      rw [← hOwed] at hHandshake
      cases hDone : completes s i with
      | true =>
          have hNote : (noteShift s i g).armed = none := by
            simp [noteShift, hReset, hArmed, hDone]
          constructor
          case idle =>
            intro _
            rw [step_via1ShiftTimer hReset, hDone, if_pos rfl]
          case counts => simp [hNote]
          case pending => exact hHandshake.1
          case alone => exact fun _ => hNote
          case waits => exact hHandshake.2
      | false =>
          have hNote : (noteShift s i g).armed =
              g.armed.map fun a => { a with age := a.age + 1 } := by
            simp [noteShift, hReset, hArmed, hCancels, hDone]
          constructor
          case idle =>
            intro hNone
            rw [hNote, Option.map_eq_none_iff] at hNone
            have hZero : s.via1ShiftTimer = 0#22 :=
              hInv.idle hNone
            show (step s i).via1ShiftTimer = 0#22
            rw [step_via1ShiftTimer hReset, hDone]
            simp [loadedTimer, hArmed, hCancels, hZero]
          case counts =>
            intro a hSome
            cases hOld : g.armed with
            | none => simp [hNote, hOld] at hSome
            | some b =>
                rw [hNote, hOld, Option.map_some] at hSome
                rw [← Option.some.inj hSome]
                exact counts_step hReset hGoverns hDone
                  (hInv.counts b hOld)
          case pending => exact hHandshake.1
          case alone =>
            intro hSome
            have hQuiet : completesOut s = false := by
              rw [completes_eq, Bool.or_eq_false_iff] at hDone
              exact completesOut_of_not_timer hDone.1
            have hOld : g.owed.isSome = true := by
              rw [hOwed, hQuiet] at hSome
              cases hG : g.owed with
              | none => simp [hG] at hSome
              | some k => rfl
            rw [hNote, hInv.alone hOld]
            rfl
          case waits => exact hHandshake.2

/-
  In every cycle of a run the timer obeys the last access,
  exactly if every access of the run fits.
-/
theorem timer_obeys_iff
    (is : List ShimIn) :
    Along shiftWatch
        (fun x i => i.nreset = true → TimerObeys x i)
        (resetState, noShift) is ↔
      Along step (fun s i => accessFits s i = true)
        resetState is := by
  have hFits (x : Shim × ShiftLog) (i : ShimIn)
      (hInv : TimerInv x) :
      (i.nreset = true → TimerObeys x i) ↔
        accessFits x.1 i = true := by
    cases hReset : i.nreset with
    | false => simp [accessFits, hReset]
    | true =>
        simp only [true_imp_iff]
        exact ⟨fits_of_obeys hReset,
          obeys_of_fits hInv hReset⟩
  have hRuns := @along_iff_along_under (Shim × ShiftLog) ShimIn
    shiftWatch (fun x i => accessFits x.1 i = true) TimerInv
    (fun x i => i.nreset = true → TimerObeys x i)
    (fun _ _ => True)
    (fun x i hInv _ hObeys =>
      timerInv_step hInv ((hFits x i hInv).mp hObeys))
    (fun x i hInv _ => hFits x i hInv)
    (resetState, noShift) is
    (along_of_mem (fun _ _ => trivial)) timerInv_reset
  exact hRuns.trans (along_watch step
    (fun g s i => noteShift s i g)
    (fun s i => accessFits s i = true)
    (resetState, noShift) is)

def acrWrite (din : BitVec 8) : ShimIn :=
  { access := some (.write 0xB#4 din) }

def srWrite (din : BitVec 8) : ShimIn :=
  { access := some (.write 0xA#4 din) }

/- A shift-out that was armed 42 cycles ago. -/
def shifting : List ShimIn :=
  acrWrite 0x1C#8 :: List.replicate 41 {}

/-
  While the timer runs a write of the shift register does not
  load it, and the shift mode 000 does not stop it.
-/
theorem running_timer_disobeys :
    let s := run step resetState shifting
    (step s (srWrite 0x2C#8)).via1ShiftTimer ≠ shiftDelay ∧
      (step s (acrWrite 0x00#8)).via1ShiftTimer ≠ 0#22 ∧
      ¬ Along shiftWatch
        (fun x i => i.nreset = true → TimerObeys x i)
        (resetState, noShift)
        (shifting ++ [acrWrite 0x00#8]) := by
  intro s
  have hStops :
      (step s (acrWrite 0x00#8)).via1ShiftTimer ≠ 0#22 := by
    decide +kernel
  refine ⟨by decide +kernel, hStops, ?_⟩
  intro hAlong
  rw [along_append] at hAlong
  have hLast := hAlong.2.1 rfl
  have hState :
      (run shiftWatch (resetState, noShift) shifting).1 = s :=
    run_watch_fst step (fun g s i => noteShift s i g)
      (resetState, noShift) shifting
  have hObeyed := hLast.stops rfl
  rw [hState] at hObeyed
  exact hStops hObeyed

end Shim

end Iosb
