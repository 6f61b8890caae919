import Wombat33.Iosb.TalkRead

/-
  Every completed byte is reported.

  A write of the interrupt flags forgets the events of its own
  clock.  Completions never meet one: the timer is loaded at a
  falling edge of E and runs out some clocks before another, and
  a byte that comes is loaded early in the cycle.

  Key definitions include:
    * `Aligned`
    * `Reported`

  Key theorems include:
    * `aligned_step`
    * `completion_reported`
-/

------------------------------------------------------------
-- The Timer and E
------------------------------------------------------------

namespace Iosb

namespace AdbPath

open Clocked

variable {cfg : Config} {s : AdbPath} {i : PathIn}

/-
  Both delays are short of a multiple of the E cycle, by two
  clocks and by six.
-/
structure Aligned (s : AdbPath) : Prop where
  divided : Divided s
  runs : 1 < s.shim.via1ShiftTimer.toNat →
    (s.shim.via1ShiftTimer.toNat + phase s) % 42 = 40 ∨
      (s.shim.via1ShiftTimer.toNat + phase s) % 42 = 36
  ends : s.shim.via1ShiftTimer.toNat = 1 →
    s.shim.via1ShiftDir = true →
    phase s = 39 ∨ phase s = 35

theorem timer_step (hReset : i.asic.nreset = true) :
    (step cfg s i).shim.via1ShiftTimer =
      if Shim.completes s.shim (shimIn s i) then 0#22
      else if s.shim.via1ShiftTimer > 1#22 then
        s.shim.via1ShiftTimer - 1#22
      else Shim.loadedTimer s.shim (shimIn s i) :=
  Shim.step_via1ShiftTimer (s := s.shim) (i := shimIn s i) hReset

/- The count down of a timer that runs. -/
theorem timer_runs
    (hRuns : 1 < s.shim.via1ShiftTimer.toNat)
    (hReset : i.asic.nreset = true) :
    (step cfg s i).shim.via1ShiftTimer.toNat = 0 ∨
      (step cfg s i).shim.via1ShiftTimer.toNat =
        s.shim.via1ShiftTimer.toNat - 1 := by
  have hOne : (1#22).toNat = 1 := rfl
  rw [timer_step hReset]
  split_ifs with hDone hRun
  · exact Or.inl rfl
  · refine Or.inr ?_
    have hLt := s.shim.via1ShiftTimer.isLt
    rw [BitVec.toNat_sub, hOne]
    omega
  · exact absurd hRuns hRun

/- One that has run down is loaded, or stays as it is. -/
theorem timer_rests
    (hRest : s.shim.via1ShiftTimer.toNat ≤ 1)
    (hReset : i.asic.nreset = true) :
    (step cfg s i).shim.via1ShiftTimer.toNat = 0 ∨
      (eFalling s = true ∧
        ((step cfg s i).shim.via1ShiftTimer.toNat = 100000 ∨
          (step cfg s i).shim.via1ShiftTimer.toNat = 363000)) ∨
      ((step cfg s i).shim.via1ShiftTimer =
          s.shim.via1ShiftTimer ∧
        (step cfg s i).shim.via1ShiftDir = s.shim.via1ShiftDir ∧
        Shim.completesOut s.shim = false) := by
  have hNot : ¬ s.shim.via1ShiftTimer > 1#22 := by
    intro hRun
    have hLess : 1 < s.shim.via1ShiftTimer.toNat := hRun
    omega
  have hDir : (step cfg s i).shim.via1ShiftDir =
      Shim.loadedDir s.shim (shimIn s i) :=
    Shim.step_via1ShiftDir (s := s.shim) (i := shimIn s i) hReset
  rw [timer_step hReset, if_neg hNot, hDir]
  cases hDone : Shim.completes s.shim (shimIn s i) with
  | true => exact Or.inl rfl
  | false =>
      have hOut : Shim.completesOut s.shim = false := by
        simp only [Shim.completes, Bool.or_eq_false_iff] at hDone
        exact hDone.1.1
      unfold Shim.loadedTimer Shim.loadedDir
      cases hArmed : Shim.armedDelay s.shim (shimIn s i) with
      | some armed =>
          have hFalling : eFalling s = true := by
            by_contra hNone
            have hAccess := via1Access_none
              (Bool.eq_false_iff.mpr hNone)
            simp [Shim.armedDelay, Shim.via1AcrWr, Shim.via1SrWr,
              Shim.via1SrRd, shimIn, hAccess] at hArmed
          exact Or.inr (Or.inl
            ⟨hFalling, Shim.armedDelay_cases hArmed⟩)
      | none =>
          simp only [Bool.false_eq_true, if_false]
          split_ifs
          · exact Or.inl rfl
          · exact Or.inr (Or.inr ⟨rfl, trivial, hOut⟩)

theorem aligned_reset (hReset : i.asic.nreset = false) :
    Aligned (step cfg s i) := by
  have hShim : (step cfg s i).shim = Shim.resetState := by
    simp [step, Shim.step, shimIn, hReset]
  refine ⟨(phase_reset hReset).1, ?_, ?_⟩ <;>
    simp [hShim, Shim.resetState]

theorem aligned_step
    (hAligned : Aligned s)
    (hReset : i.asic.nreset = true) :
    Aligned (step cfg s i) := by
  have hPhase := @phase_step cfg s i hAligned.divided hReset
  have hFall := falling_iff hAligned.divided
  have hLe := phase_le hPhase.1
  have hTurn : phase (step cfg s i) = 0 ∧ phase s = 41 ∨
      phase (step cfg s i) = phase s + 1 ∧
        eFalling s = false := by
    rw [hPhase.2]
    cases hFalling : eFalling s with
    | true => exact Or.inl ⟨rfl, hFall.mp hFalling⟩
    | false => exact Or.inr ⟨rfl, rfl⟩
  refine ⟨hPhase.1, ?_, ?_⟩
  · intro hRuns
    by_cases hWas : 1 < s.shim.via1ShiftTimer.toNat
    · have hCount := @timer_runs cfg s i hWas hReset
      have hNow := hAligned.runs hWas
      omega
    · rcases @timer_rests cfg s i (by omega) hReset with
        hZero | ⟨hFalling, hLoad⟩ | ⟨hSame, -, -⟩
      · omega
      · have hEnd := hFall.mp hFalling
        have hStart : phase (step cfg s i) = 0 := by
          rcases hTurn with hTurn | hTurn
          · exact hTurn.1
          · exact absurd (hFalling.symm.trans hTurn.2) (by decide)
        omega
      · rw [hSame] at hRuns
        omega
  · intro hOne hOut
    by_cases hWas : 1 < s.shim.via1ShiftTimer.toNat
    · have hCount := @timer_runs cfg s i hWas hReset
      have hNow := hAligned.runs hWas
      omega
    · rcases @timer_rests cfg s i (by omega) hReset with
        hZero | ⟨-, hLoad⟩ | ⟨hSame, hDir, hNot⟩
      · omega
      · omega
      · -- an outward timer would have completed
        rw [hSame] at hOne
        rw [hDir] at hOut
        have hEnd : s.shim.via1ShiftTimer = 1#22 :=
          BitVec.eq_of_toNat_eq hOne
        simp [Shim.completesOut, hOut, hEnd] at hNot

end AdbPath

end Iosb

------------------------------------------------------------
-- Reports
------------------------------------------------------------

namespace Iosb

namespace AdbPath

open Clocked

variable {cfg : Config} {s : AdbPath} {i : PathIn}

/-
  A shift-out that ends, or a byte that comes, is reported by
  VIA1's interrupt flag two clocks later.
-/
def Reported
    (cfg : Config)
    (s : AdbPath)
    (i : PathIn) : Prop :=
  i.asic.nreset = true →
    (Shim.completesOut s.shim = true ∨
      Shim.completesFresh s.shim = true) →
    ∀ j : PathIn, j.asic.nreset = true →
      (step cfg (step cfg s i) j).via1.irqFlags.getLsbD 2 = true

structure ReportInv (s : AdbPath) : Prop where
  aligned : Aligned s
  talk : ∃ g, TalkInv (s, g)

theorem reportInv_step
    (s : AdbPath)
    (i : PathIn)
    (hInv : ReportInv s) :
    ReportInv (step cfg s i) := by
  rcases hInv.talk with ⟨g, hTalk⟩
  refine ⟨?_, _, talkInv_step (s, g) i hTalk⟩
  cases hReset : i.asic.nreset with
  | true => exact aligned_step hInv.aligned hReset
  | false => exact aligned_reset hReset

/- A completion is not at the clock before a falling edge. -/
theorem phase_of_completes
    (hInv : ReportInv s)
    (hDone : Shim.completesOut s.shim = true ∨
      Shim.completesFresh s.shim = true) :
    phase s < 40 := by
  rcases hInv.talk with ⟨g, hTalk⟩
  rcases hDone with hOut | hFresh
  · simp only [Shim.completesOut, Bool.and_eq_true,
      beq_iff_eq] at hOut
    have hEnd := hInv.aligned.ends (by rw [hOut.2]; rfl) hOut.1
    omega
  · simp only [Shim.completesFresh, Bool.and_eq_true,
      Bool.not_eq_true'] at hFresh
    have hNow := hTalk.fresh hFresh.2 hFresh.1
    simp only at hNow
    omega

theorem reported_of_inv
    (s : AdbPath)
    (i : PathIn)
    (hInv : ReportInv s) :
    Reported cfg s i := by
  intro hReset hDone j hReset'
  have hPhase := @phase_step cfg s i hInv.aligned.divided hReset
  have hEarly := phase_of_completes hInv hDone
  have hFalling : eFalling (step cfg s i) = false := by
    refine not_falling hPhase.1 ?_
    rw [hPhase.2]
    split_ifs <;> omega
  have hShows : (step cfg s i).shim.via1SrExtComplete = true := by
    show (Shim.step s.shim (shimIn s i)).via1SrExtComplete = true
    rw [(Shim.step_outputs (i := shimIn s i) hReset).1,
      Shim.completes]
    rcases hDone with hOut | hFresh
    · simp [hOut]
    · simp [hFresh]
  have hOn : (via1In (step cfg s i) j).reset = false := by
    simp [via1In, hReset']
  exact Via6522.serialFlag_set hOn hShows hFalling

/-
  From a reset on, no access can hide a completion: every
  shift-out that ends and every byte that comes is reported.
-/
theorem completion_reported
    (cfg : Config)
    (s : AdbPath)
    (i : PathIn)
    (is : List PathIn)
    (hReset : i.asic.nreset = false) :
    Along (step cfg) (Reported cfg) (step cfg s i) is := by
  have hEnv : Along (step cfg) (fun _ _ => True)
      (step cfg s i) is :=
    along_of_mem fun _ _ => trivial
  exact along_of_invariant
    (fun t j hInv _ => reportInv_step t j hInv)
    (fun t j hInv _ => reported_of_inv t j hInv) hEnv
    ⟨aligned_reset hReset, noTalk, talkInv_reset hReset⟩

theorem completion_reported_start :
    Along (step shipped) (Reported shipped)
      (step shipped default inReset) [{}, {}] :=
  completion_reported shipped default inReset [{}, {}] rfl

end AdbPath

end Iosb
