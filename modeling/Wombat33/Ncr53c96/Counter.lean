import Wombat33.Ncr53c96.Reachable

/-
  The transfer counter.

  A DMA command loads the counter from its latch, and every
  byte moved takes one off.  The terminal flag, not the
  counter, stops the arms; a write to the latch clears it.

  Key definitions include:
    * `moving`, `armed`
    * `Counts`, `CountedEdge`
    * `unexpired`

  Key theorems include:
    * `counts_edge_iff`
    * `counter_exact`
-/

------------------------------------------------------------
-- Counted Bytes
------------------------------------------------------------

namespace Ncr53c96

open Clocked

variable (s : Chip) (i : In)

/- A counted byte moves in this cycle. -/
def moving : Bool :=
  armFill s i || armOutDma s i || armCdbDma s i

/- Something may still move counted bytes. -/
def armed : Bool :=
  s.xferIn || s.xferOut || s.cdbActive || s.xferMsgOut

/- A latch register is written. -/
def latchWrite : Bool := regWr i 0x0#4 || regWr i 0x1#4

/- Of the armed, what does not end in this cycle. -/
def staysArmed : Bool :=
  (s.xferIn && !dinDone s && !dinUnderflow s i) ||
    (s.xferOut && !doutDone s i) ||
    (s.cdbActive && !cdbComplete s) ||
    (msgOutDone s && s.msgFirst != 0x01#8) ||
    (s.xferMsgOut && !msgOutDone s)

/- Bytes moved since the command. -/
def countMoved (k : Nat) (s : Chip) (i : In) : Nat :=
  k + if moving s i then 1 else 0

/-
  With `n` loaded and `k` bytes moved, the counter and the
  two registers that show it stand at the rest; while more
  may move, the flag says whether all have.
-/
structure Counts (n : Nat) (x : Chip × Nat) : Prop where
  rest : x.1.tcounter + x.2 = n
  shown : ∀ hi lo : In, hi.rs = 0x1#4 → lo.rs = 0x0#4 →
    (rdata x.1 hi ++ rdata x.1 lo : BitVec 16) =
      BitVec.ofNat 16 (n - x.2)
  flag : armed x.1 = true →
    (x.1.tcZero = true ↔ x.2 = n)

/-
  What an edge keeps: the counter never wraps, the flag rises
  exactly with the `n`-th byte, and the count goes on.
-/
structure CountedEdge
    (cfg : Config) (n : Nat) (x : Chip × Nat) (i : In) :
    Prop where
  positive : moving x.1 i = true → 1 ≤ x.1.tcounter
  rises : x.1.tcZero = false →
    ((step cfg x.1 i).tcZero = true ↔
      moving x.1 i = true ∧ countMoved x.2 x.1 i = n)
  counts : Counts n
    (step cfg x.1 i, countMoved x.2 x.1 i)

/-
  A latch write does not meet the last byte, nor an expired
  count that is still armed.
-/
def unexpired (s : Chip) (i : In) : Prop :=
  latchWrite i = true →
    (moving s i && s.tcounter == 1) = false ∧
      (s.tcZero && staysArmed s i) = false

end Ncr53c96

------------------------------------------------------------
-- One Edge
------------------------------------------------------------

namespace Ncr53c96

variable {cfg : Config} {s : Chip} {i : In} {n k : Nat}

/- What moves is armed and has not expired. -/
theorem armed_of_moving (hMoving : moving s i = true) :
    armed s = true ∧ s.tcZero = false := by
  simp only [moving, Bool.or_eq_true] at hMoving
  rcases hMoving with (hFill | hOut) | hCdb
  · simp only [armFill, Bool.and_eq_true, Bool.not_eq_true']
      at hFill
    simp [armed, hFill]
  · simp only [armOutDma, Bool.and_eq_true, Bool.not_eq_true']
      at hOut
    simp [armed, hOut]
  · simp only [armCdbDma, Bool.and_eq_true, Bool.not_eq_true']
      at hCdb
    simp [armed, hCdb]

/- The counter, but for commands. -/
theorem tcounter_of_uncommanded
    (hNone : regWr i 0x3#4 = false) :
    (clock cfg s i).tcounter =
      if moving s i then (s.tcounter + 131071) % 131072
      else s.tcounter := by
  rw [clock_tcounter]
  cases hFill : armFill s i <;> cases hOut : armOutDma s i <;>
    cases hCdb : armCdbDma s i <;> simp [moving, hNone, hFill,
      hOut, hCdb]

/- The flag, but for commands. -/
theorem tcZero_of_uncommanded
    (hNone : regWr i 0x3#4 = false) :
    (clock cfg s i).tcZero =
      if latchWrite i then false
      else (moving s i && s.tcounter == 1) || s.tcZero := by
  have hCmd (op : BitVec 7) : cmdIs i op = false :=
    cmdIs_of_not_regWr hNone
  have hLatch : (regWr i 0x0#4 || regWr i 0x1#4) =
      latchWrite i := rfl
  rw [clock_tcZero, hLatch]
  simp only [hCmd, hNone, Bool.false_and, Bool.false_eq_true,
    if_false]
  cases latchWrite i with
  | true => rfl
  | false =>
      cases hFill : armFill s i <;> cases hOut : armOutDma s i <;>
        cases hCdb : armCdbDma s i <;>
          cases hOne : (s.tcounter == 1) <;>
            simp [moving, hFill, hOut, hCdb]

/- Nothing is armed anew without a command. -/
theorem armed_of_uncommanded
    (hNone : regWr i 0x3#4 = false) :
    armed (clock cfg s i) = staysArmed s i := by
  have hCmd (op : BitVec 7) : cmdIs i op = false :=
    cmdIs_of_not_regWr hNone
  have hSelect : selectCmd i = false := by simp [selectCmd, hNone]
  simp only [armed, clock_xferIn, clock_xferOut, clock_cdbActive,
    clock_xferMsgOut, hCmd, hSelect, Bool.false_and,
    Bool.false_eq_true, if_false, staysArmed]
  cases dinDone s <;> cases dinUnderflow s i <;>
    cases doutDone s i <;> cases cdbComplete s <;>
      cases msgOutDone s <;> cases (s.msgFirst != 0x01#8) <;>
        simp

theorem armed_before (hStays : staysArmed s i = true) :
    armed s = true := by
  simp only [staysArmed, Bool.or_eq_true, Bool.and_eq_true]
    at hStays
  rcases hStays with (((hIn | hOut) | hCdb) | hMsg) | hOpen
  · simp [armed, hIn]
  · simp [armed, hOut]
  · simp [armed, hCdb]
  · have hFlag : s.xferMsgOut = true := by
      have hDone := hMsg.1
      simp only [msgOutDone, Bool.and_eq_true] at hDone
      exact hDone.1
    simp [armed, hFlag]
  · simp [armed, hOpen]

/- The two registers show the counter's low half. -/
theorem shown_of_tcounter (hi lo : In)
    (hHi : hi.rs = 0x1#4)
    (hLo : lo.rs = 0x0#4) :
    (rdata s hi ++ rdata s lo : BitVec 16) =
      BitVec.ofNat 16 s.tcounter := by
  have hHigh : rdata s hi = BitVec.ofNat 8 (s.tcounter / 256) := by
    simp [rdata, hHi]
  have hLow : rdata s lo = BitVec.ofNat 8 s.tcounter := by
    simp [rdata, hLo]
  rw [hHigh, hLow]
  apply BitVec.eq_of_toNat_eq
  rw [BitVec.toNat_append]
  simp only [BitVec.toNat_ofNat]
  rw [← Nat.shiftLeft_add_eq_or_of_lt (by omega), Nat.shiftLeft_eq]
  omega

theorem counts_of_rest
    (hRest : s.tcounter + k = n)
    (hFlag : armed s = true → (s.tcZero = true ↔ k = n)) :
    Counts n (s, k) where
  rest := hRest
  shown := by
    intro hi lo hHi hLo
    rw [shown_of_tcounter hi lo hHi hLo]
    congr 1
    show s.tcounter = n - k
    omega
  flag := hFlag

/- The step lemma: an edge counts exactly when unexpired. -/
theorem counts_edge_iff
    (hCounts : Counts n (s, k))
    (hSmall : n ≤ 65536)
    (hClocked : i.nreset = true)
    (hNone : regWr i 0x3#4 = false) :
    CountedEdge cfg n (s, k) i ↔ unexpired s i := by
  have hRest : s.tcounter + k = n := hCounts.rest
  have hFlag : armed s = true → (s.tcZero = true ↔ k = n) :=
    hCounts.flag
  have hStep := step_of_nreset cfg s i hClocked
  have hTc := @tcounter_of_uncommanded cfg s i hNone
  have hZero := @tcZero_of_uncommanded cfg s i hNone
  have hArmed := @armed_of_uncommanded cfg s i hNone
  constructor
  · rintro ⟨-, hRises, hNext⟩ hLatch
    rw [hStep] at hRises hNext
    have hClear : (clock cfg s i).tcZero = false := by
      rw [hZero, hLatch]
      rfl
    constructor
    · -- the last byte would have set the flag
      by_contra hLast
      simp only [Bool.not_eq_false, Bool.and_eq_true,
        beq_iff_eq] at hLast
      have hMoved := armed_of_moving hLast.1
      have hSet := (hRises hMoved.2).mpr
        ⟨hLast.1, by simp [countMoved, hLast.1]; omega⟩
      rw [hClear] at hSet
      exact Bool.noConfusion hSet
    · -- an expired count would still be flagged
      by_contra hExpired
      simp only [Bool.not_eq_false, Bool.and_eq_true] at hExpired
      have hBefore := armed_before hExpired.2
      have hAll : k = n := (hFlag hBefore).mp hExpired.1
      have hStill : moving s i = false := by
        cases hMoving : moving s i with
        | false => rfl
        | true =>
            have hOpen := (armed_of_moving hMoving).2
            rw [hExpired.1] at hOpen
            exact Bool.noConfusion hOpen
      have hSet := (hNext.flag (by rw [hArmed]; exact hExpired.2)).mpr
        (by simp [countMoved, hStill, hAll])
      rw [hClear] at hSet
      exact Bool.noConfusion hSet
  · intro hUnexpired
    cases hMoving : moving s i with
    | true =>
        rcases armed_of_moving hMoving with ⟨hBefore, hOpen⟩
        have hMore : k ≠ n := by
          intro hAll
          rw [(hFlag hBefore).mpr hAll] at hOpen
          exact Bool.noConfusion hOpen
        have hNext : (clock cfg s i).tcounter = s.tcounter - 1 := by
          rw [hTc, hMoving]
          simp only [if_true]
          omega
        have hSet : (clock cfg s i).tcZero = true ↔ k + 1 = n := by
          rw [hZero]
          cases hLatch : latchWrite i with
          | true =>
              have hLast := (hUnexpired hLatch).1
              simp only [hMoving, Bool.true_and,
                beq_eq_false_iff_ne] at hLast
              simp only [if_true, Bool.false_eq_true, false_iff]
              omega
          | false =>
              simp only [hMoving, hOpen, Bool.true_and,
                Bool.or_false, beq_iff_eq, Bool.false_eq_true,
                if_false]
              omega
        have hCount : countMoved k s i = k + 1 := by
          simp [countMoved, hMoving]
        refine ⟨fun _ => by show 1 ≤ s.tcounter; omega, ?_, ?_⟩
        · intro _
          show (step cfg s i).tcZero = true ↔ _
          rw [hStep, hSet]
          simp [hMoving, hCount]
        · show Counts n (step cfg s i, countMoved k s i)
          rw [hStep, hCount]
          exact counts_of_rest (by omega) (fun _ => hSet)
    | false =>
        have hNext : (clock cfg s i).tcounter = s.tcounter := by
          rw [hTc, hMoving]
          rfl
        have hCount : countMoved k s i = k := by
          simp [countMoved, hMoving]
        have hSet : (clock cfg s i).tcZero = true →
            s.tcZero = true := by
          rw [hZero, hMoving]
          split <;> simp
        refine ⟨fun h => absurd h (by simp [hMoving]), ?_, ?_⟩
        · intro hOpen
          show (step cfg s i).tcZero = true ↔ _
          rw [hStep]
          constructor
          · intro hNow
            have hOld := hSet hNow
            rw [show s.tcZero = false from hOpen] at hOld
            exact Bool.noConfusion hOld
          · rintro ⟨hMoved, -⟩
            rw [show moving s i = false from hMoving] at hMoved
            exact Bool.noConfusion hMoved
        · show Counts n (step cfg s i, countMoved k s i)
          rw [hStep, hCount]
          apply counts_of_rest (by omega)
          intro hStill
          rw [hArmed] at hStill
          have hBefore := armed_before hStill
          rw [← hFlag hBefore, hZero, hMoving]
          cases hLatch : latchWrite i with
          | true =>
              have hKept := (hUnexpired hLatch).2
              rw [hStill, Bool.and_true] at hKept
              simp [hKept]
          | false => simp

end Ncr53c96

------------------------------------------------------------
-- Runs
------------------------------------------------------------

namespace Ncr53c96

open Clocked

/- A DMA transfer information is written. -/
def startsInfo (i : In) : Bool :=
  cmdIs i 0x10#7 && cmdDma i.wdata

theorem counts_of_startsInfo
    {cfg : Config} {s : Chip} {i : In}
    (hInfo : startsInfo i = true) :
    Counts (tcLoad s) (clock cfg s i, 0) := by
  simp only [startsInfo, Bool.and_eq_true] at hInfo
  have hCmd := @cmdIs_of_cmdIs i 0x10#7 0x18#7 hInfo.1
  have hCmd' := @cmdIs_of_cmdIs i 0x10#7 0x02#7 hInfo.1
  have hWrite : regWr i 0x3#4 = true := by
    rw [regWr_of_cmdIs hInfo.1]
    rfl
  have hLoad := (tcLoad_bounds s).1
  apply counts_of_rest
  · simp [clock_tcounter, hWrite, hInfo.2]
  · intro _
    simp only [clock_tcZero, hCmd, hCmd', hWrite, hInfo.2]
    simp
    omega

/-
  From any DMA transfer information, in any state, to the next
  command: the count is exact along the runs whose latch
  writes come before the count expires or after the transfer,
  and along no others.
-/
theorem counter_exact
    {cfg : Config} {s : Chip} {i : In} {is : List In}
    (hInfo : startsInfo i = true)
    (hNone : ∀ j ∈ is, j.nreset = true ∧ regWr j 0x3#4 = false) :
    Along (watch (step cfg) countMoved)
        (CountedEdge cfg (tcLoad s)) (clock cfg s i, 0) is ↔
      Along (step cfg) unexpired (clock cfg s i) is := by
  have hEnv : Along (watch (step cfg) countMoved)
      (fun _ j => j.nreset = true ∧ regWr j 0x3#4 = false)
      (clock cfg s i, 0) is :=
    along_of_mem hNone
  have hRule := @along_iff_along_under (Chip × Nat) In
    (watch (step cfg) countMoved) (fun x j => unexpired x.1 j)
    (Counts (tcLoad s)) (CountedEdge cfg (tcLoad s))
    (fun _ j => j.nreset = true ∧ regWr j 0x3#4 = false)
    (fun _ _ _ _ hEdge => hEdge.counts)
    (fun x j hCounts hEnv => counts_edge_iff hCounts
      (tcLoad_bounds s).2 hEnv.1 hEnv.2)
    (clock cfg s i, 0) is hEnv (counts_of_startsInfo hInfo)
  exact hRule.trans (along_watch _ _ _ _ _)

end Ncr53c96

------------------------------------------------------------
-- An Early and a Late Latch Write
------------------------------------------------------------

namespace Ncr53c96

open Clocked

instance (s : Chip) (i : In) : Decidable (unexpired s i) :=
  inferInstanceAs (Decidable (_ → _))

def dmaByte : In := { dmaWr := true, dmaWdata := 0xAA#8 }

/- The chip with `n` in its latch. -/
def latched (n : Byte) : Chip :=
  run (step ⟨0#4, false⟩) (powerOn ⟨0#4, false⟩ default)
    [regWrite 0x0#4 n]

/- Three bytes; the latch is written after the first. -/
def earlyLatch : List In :=
  [dmaByte, regWrite 0x0#4 0x05#8, dmaByte, quiet, dmaByte]

theorem counter_exact_earlyLatch :
    Along (watch (step ⟨0#4, false⟩) countMoved)
      (CountedEdge ⟨0#4, false⟩ 3)
      (clock ⟨0#4, false⟩ (latched 3#8)
        (regWrite 0x3#4 0x90#8), 0) earlyLatch :=
  (@counter_exact ⟨0#4, false⟩ (latched 3#8)
    (regWrite 0x3#4 0x90#8) earlyLatch (by decide)
    (by decide)).mpr (by decide +kernel)

/- One byte; the latch is written while it drains. -/
def lateLatch : List In :=
  [dmaByte, regWrite 0x0#4 0x05#8]

theorem late_latch_wraps :
    ¬ ∀ (cfg : Config) (s : Chip) (i : In) (is : List In),
      Reachable cfg s → startsInfo i = true →
      (∀ j ∈ is, j.nreset = true ∧ regWr j 0x3#4 = false) →
      Along (watch (step cfg) countMoved)
        (CountedEdge cfg (tcLoad s)) (clock cfg s i, 0) is := by
  intro hAll
  have hReach : Reachable ⟨0#4, false⟩ (latched 1#8) :=
    ⟨default, [regWrite 0x0#4 1#8], by decide, rfl⟩
  have hRun := hAll ⟨0#4, false⟩ (latched 1#8)
    (regWrite 0x3#4 0x90#8) (lateLatch ++ [dmaByte]) hReach
    (by decide) (by decide)
  have hLast := ((along_append _ _ _).mp hRun).2.1.positive
  revert hLast
  decide +kernel

end Ncr53c96
