import Wombat33.Ncr53c96.Interrupt

/-
  What the chip reset command leaves.

  The reset is one arm among many of a clock edge.  It is
  assigned after the engine's arms, but the interrupt merge
  comes after it, and the block device's strobes are not
  among what it assigns.

  Key definitions include:
    * `Quiescent`
    * `Quiesces`
    * `eventful`

  Key theorems include:
    * `quiescent_clock`
    * `chip_reset_quiesces`
-/

------------------------------------------------------------
-- A Quiescent Chip
------------------------------------------------------------

namespace Ncr53c96

open Clocked

/- No interrupt, the bus free and no transfer under way. -/
structure Quiescent (s : Chip) : Prop where
  irq : s.irq = false
  istatus : s.istatus = 0x00#8
  phase : s.phase = .dout
  cdbActive : s.cdbActive = false
  execPending : s.execPending = false
  xferIn : s.xferIn = false
  xferOut : s.xferOut = false
  xferPioIn : s.xferPioIn = false
  xferPioOut : s.xferPioOut = false
  xferMsgOut : s.xferMsgOut = false

/- No block transfer is newly strobed on this edge. -/
def StrobesNothing (s s' : Chip) : Prop :=
  (s'.ioRd = true → s.ioRd = true) ∧
    (s'.ioWr = true → s.ioWr = true)

/- An edge that neither interrupts nor strobes. -/
def SilentEdge (cfg : Config) (s : Chip) (i : In) : Prop :=
  raised cfg s i = 0x00#8 ∧ StrobesNothing s (step cfg s i)

/- Out of reset, and no command is written. -/
def uncommanded (i : In) : Prop :=
  i.nreset = true ∧ regWr i 0x3#4 = false

/-
  What is asked of a reset: the state after it is quiescent
  with an empty FIFO, and it stays so, silently, until another
  command is written; bytes the host itself writes to the FIFO
  are its own affair.
-/
structure Quiesces (cfg : Config) (s : Chip) (i : In) : Prop where
  quiescent : Quiescent (step cfg s i)
  empty : (step cfg s i).fifoCnt = 0
  strobes : StrobesNothing s (step cfg s i)
  after : ∀ is, (∀ j ∈ is, uncommanded j) →
    Quiescent (run (step cfg) (step cfg s i) is) ∧
      Along (step cfg) (SilentEdge cfg) (step cfg s i) is ∧
      ((∀ j ∈ is, regWr j 0x2#4 = false) →
        (run (step cfg) (step cfg s i) is).fifoCnt = 0)

variable (cfg : Config) {s : Chip} {i : In}

/- No arm of a quiescent chip raises or strobes. -/
theorem quiescent_arms (hQuiet : Quiescent s) :
    armPioIn s i = false ∧ dinDone s = false ∧
      dinUnderflow s i = false ∧ doutDone s i = false ∧
      pioOutDone s = false ∧ msgOutDone s = false ∧
      pioInUnderflow s i = false ∧ prefetchDue s i = false ∧
      flushDue s i = false ∧ cdbComplete s = false := by
  simp [armPioIn, dinDone, dinUnderflow, doutDone, pioOutDone,
    msgOutDone, pioInUnderflow, prefetchDue, flushDue,
    cdbComplete, hQuiet.phase, hQuiet.cdbActive, hQuiet.xferIn,
    hQuiet.xferOut, hQuiet.xferPioIn, hQuiet.xferPioOut,
    hQuiet.xferMsgOut]

/- Without a command there is no command's interrupt. -/
theorem raisedCommand_of_uncommanded
    (hNone : regWr i 0x3#4 = false)
    (n : Byte) :
    raisedCommand cfg s i n = n := by
  simp [raisedCommand, selectCmd, cmdIs_of_not_regWr, hNone]

theorem raised_of_quiescent
    (hQuiet : Quiescent s)
    (hNone : regWr i 0x3#4 = false) :
    raised cfg s i = 0x00#8 := by
  rcases @quiescent_arms s i hQuiet with
    ⟨hPio, hDone, hUnder, hOut, hPioOut, hMsg, hPioUnder, -, -, -⟩
  rw [raised, raisedCommand_of_uncommanded cfg hNone]
  simp [raisedEnds, raisedEngine, hPio, hDone, hUnder, hOut,
    hPioOut, hMsg, hPioUnder, hQuiet.execPending]

/- Strobes come from the prefetch and the flush alone. -/
theorem strobesNothing_of_quiet
    (hPrefetch : prefetchDue s i = false)
    (hFlush : flushDue s i = false) :
    StrobesNothing s (clock cfg s i) := by
  rw [StrobesNothing, clock_ioRd, clock_ioWr, hPrefetch, hFlush]
  cases i.ioAck <;> simp

/- Until a command is written a quiescent chip stays so. -/
theorem quiescent_clock
    (hQuiet : Quiescent s)
    (hNone : regWr i 0x3#4 = false) :
    Quiescent (clock cfg s i) := by
  rcases @quiescent_arms s i hQuiet with
    ⟨hPio, hDone, hUnder, hOut, hPioOut, hMsg, hPioUnder, -,
      hFlush, hCdb⟩
  have hRaised : (clock cfg s i).iNew = 0x00#8 := by
    rw [clock_iNew]
    exact raised_of_quiescent cfg hQuiet hNone
  have hCmd (op : BitVec 7) : cmdIs i op = false :=
    cmdIs_of_not_regWr hNone
  have hSelect : selectCmd i = false := by simp [selectCmd, hNone]
  exact {
    irq := by simp [clock_irq, hRaised, hCmd, hQuiet.irq]
    istatus := by simp [clock_istatus, hRaised, hCmd, hQuiet.istatus]
    phase := by
      simp [clock_phase, hCmd, hSelect, hPio, hDone, hUnder, hOut,
        hMsg, hPioUnder, hFlush, hQuiet.execPending, hQuiet.phase]
    cdbActive := by
      simp [clock_cdbActive, hCmd, hSelect, hMsg, hCdb,
        hQuiet.cdbActive]
    execPending := by
      simp [clock_execPending, hCmd, hCdb, hQuiet.execPending]
    xferIn := by
      simp [clock_xferIn, hCmd, hUnder, hDone, hQuiet.xferIn]
    xferOut := by simp [clock_xferOut, hCmd, hOut, hQuiet.xferOut]
    xferPioIn := by
      simp [clock_xferPioIn, hCmd, hPioUnder, hPio,
        hQuiet.xferPioIn]
    xferPioOut := by
      simp [clock_xferPioOut, hCmd, hPioOut, hQuiet.xferPioOut]
    xferMsgOut := by
      simp [clock_xferMsgOut, hCmd, hMsg, hQuiet.xferMsgOut] }

/- Nor does the engine fill its FIFO. -/
theorem fifo_empty_clock
    (hQuiet : Quiescent s)
    (hNone : regWr i 0x3#4 = false)
    (hPush : regWr i 0x2#4 = false)
    (hEmpty : s.fifoCnt = 0) :
    (clock cfg s i).fifoCnt = 0 := by
  have hCmd (op : BitVec 7) : cmdIs i op = false :=
    cmdIs_of_not_regWr hNone
  have hPio := (@quiescent_arms s i hQuiet).1
  have hFill : armFill s i = false := by
    simp [armFill, hQuiet.xferIn]
  have hOut : armOutDma s i = false := by
    simp [armOutDma, hQuiet.xferOut]
  have hPop : armPop s i = false := by simp [armPop, hEmpty]
  have hFf : armCdbFf s i = false := by
    simp [armCdbFf, hQuiet.cdbActive]
  have hDrain : armDrain s i = false := by
    simp [armDrain, hQuiet.xferOut, hQuiet.xferPioOut]
  have hMsg : armMsgOut s i = false := by
    simp [armMsgOut, hQuiet.xferMsgOut]
  simp [clock_fifoCnt, hCmd, hPush, hPio, hFill, hOut, hPop, hFf,
    hDrain, hMsg, hEmpty]

/- A run without commands keeps all of it. -/
theorem quiescent_run
    {is : List In}
    (hQuiet : Quiescent s)
    (hNone : ∀ j ∈ is, uncommanded j) :
    Quiescent (run (step cfg) s is) ∧
      Along (step cfg) (SilentEdge cfg) s is := by
  have hAlong : Along (step cfg) (fun _ j => uncommanded j) s is :=
    along_of_mem hNone
  have hStep : ∀ s i, Quiescent s → uncommanded i →
      Quiescent (step cfg s i) := by
    intro s i hQuiet hNone
    rw [step_of_nreset cfg s i hNone.1]
    exact quiescent_clock cfg hQuiet hNone.2
  refine ⟨invariant_run hStep hAlong hQuiet,
    along_of_invariant hStep ?_ hAlong hQuiet⟩
  intro s i hQuiet hNone
  rcases @quiescent_arms s i hQuiet with
    ⟨-, -, -, -, -, -, -, hPrefetch, hFlush, -⟩
  refine ⟨raised_of_quiescent cfg hQuiet hNone.2, ?_⟩
  rw [step_of_nreset cfg s i hNone.1]
  exact strobesNothing_of_quiet cfg hPrefetch hFlush

theorem fifo_empty_run
    {is : List In}
    (hQuiet : Quiescent s)
    (hEmpty : s.fifoCnt = 0)
    (hNone : ∀ j ∈ is, uncommanded j)
    (hPush : ∀ j ∈ is, regWr j 0x2#4 = false) :
    (run (step cfg) s is).fifoCnt = 0 := by
  have hAlong : Along (step cfg)
      (fun _ j => uncommanded j ∧ regWr j 0x2#4 = false) s is :=
    along_of_mem (fun j hj => ⟨hNone j hj, hPush j hj⟩)
  have hStep : ∀ s i, (Quiescent s ∧ s.fifoCnt = 0) →
      (uncommanded i ∧ regWr i 0x2#4 = false) →
      Quiescent (step cfg s i) ∧ (step cfg s i).fifoCnt = 0 := by
    rintro s i ⟨hQuiet, hEmpty⟩ ⟨hNone, hPush⟩
    rw [step_of_nreset cfg s i hNone.1]
    exact ⟨quiescent_clock cfg hQuiet hNone.2,
      fifo_empty_clock cfg hQuiet hNone.2 hPush hEmpty⟩
  exact (invariant_run hStep hAlong ⟨hQuiet, hEmpty⟩).2

end Ncr53c96

------------------------------------------------------------
-- The Cycle of the Reset
------------------------------------------------------------

namespace Ncr53c96

variable (cfg : Config) {s : Chip} {i : In}

/-
  Something else happens in the cycle: the CDB is executed, a
  transfer ends, or a sector is strobed.
-/
def eventful (s : Chip) (i : In) : Bool :=
  s.execPending || dinDone s || dinUnderflow s i ||
    doutDone s i || pioOutDone s || msgOutDone s ||
    pioInUnderflow s i || prefetchDue s i || flushDue s i

theorem regWr_of_chipReset (hReset : chipReset i = true) :
    regWr i 0x3#4 = true ∧ cmdOp i.wdata = 0x02#7 := by
  simpa [chipReset, cmdIs] using hReset

theorem cmdIs_of_chipReset
    (hReset : chipReset i = true)
    (op : BitVec 7) :
    cmdIs i op = (0x02#7 == op) :=
  cmdIs_of_cmdIs hReset

/- A command write keeps the engine off the FIFO. -/
theorem armPioIn_of_chipReset (hReset : chipReset i = true) :
    armPioIn s i = false := by
  have hExt :=
    (command_cycle (regWr_of_chipReset hReset).1).1
  simp [armPioIn, hExt]

/- The reset raises nothing itself. -/
theorem raised_of_chipReset (hReset : chipReset i = true) :
    raised cfg s i =
      raisedEnds s i
        (if s.execPending then iBus ||| iFc else 0x00#8) := by
  have hCmd := cmdIs_of_chipReset hReset
  have hOp := (regWr_of_chipReset hReset).2
  have hPio := @armPioIn_of_chipReset s i hReset
  have hSelect : selectCmd i = false := by
    simp [selectCmd, hOp, selectOp]
  have hKnown : knownOp (cmdOp i.wdata) = true := by
    rw [hOp]
    decide
  simp [raised, raisedCommand, raisedEngine, hCmd, hSelect, hKnown,
    hPio]

theorem raised_eq_zero_iff (hReset : chipReset i = true) :
    raised cfg s i = 0x00#8 ↔
      s.execPending = false ∧ dinDone s = false ∧
        dinUnderflow s i = false ∧ doutDone s i = false ∧
        pioOutDone s = false ∧ msgOutDone s = false ∧
        pioInUnderflow s i = false := by
  rw [raised_of_chipReset cfg hReset, raisedEnds]
  cases s.execPending <;> cases dinDone s <;>
    cases dinUnderflow s i <;> cases doutDone s i <;>
      cases pioOutDone s <;> cases msgOutDone s <;>
        cases pioInUnderflow s i <;> decide

/- A strobe is a new one: the block device was idle. -/
theorem strobesNothing_iff :
    StrobesNothing s (clock cfg s i) ↔
      prefetchDue s i = false ∧ flushDue s i = false := by
  constructor
  · rintro ⟨hRd, hWr⟩
    constructor
    · cases hDue : prefetchDue s i with
      | false => rfl
      | true =>
          have hOld := hRd (by rw [clock_ioRd, hDue]; rfl)
          have hIdle := (prefetchDue_iff.mp hDue).2.2.2.1
          simp [ioBusy, hOld] at hIdle
    · cases hDue : flushDue s i with
      | false => rfl
      | true =>
          have hOld := hWr (by rw [clock_ioWr, hDue]; rfl)
          have hIdle := (flushDue_iff.mp hDue).2.2.2
          simp [ioBusy, hOld] at hIdle
  · rintro ⟨hPrefetch, hFlush⟩
    exact strobesNothing_of_quiet cfg hPrefetch hFlush

/- The reset against whatever else the edge assigns. -/
theorem quiescent_of_chipReset
    (hReset : chipReset i = true)
    (hRaised : raised cfg s i = 0x00#8) :
    Quiescent (clock cfg s i) := by
  have hCmd := cmdIs_of_chipReset hReset
  have hOp := (regWr_of_chipReset hReset).2
  have hSelect : selectCmd i = false := by
    simp [selectCmd, hOp, selectOp]
  have hRead : isrRead i = false := by
    have hWrite := (regWr_of_chipReset hReset).1
    simp only [regWr, regWrCyc, Bool.and_eq_true] at hWrite
    simp [isrRead, regRdCyc, hWrite.1.2]
  have hNew : (clock cfg s i).iNew = 0x00#8 := by
    rw [clock_iNew, hRaised]
  exact {
    irq := by simp [clock_irq, hNew, hRead, hCmd]
    istatus := by simp [clock_istatus, hNew, hRead, hCmd]
    phase := by simp [clock_phase, hCmd, hSelect]
    cdbActive := by simp [clock_cdbActive, hCmd, hSelect]
    execPending := by simp [clock_execPending, hCmd]
    xferIn := by simp [clock_xferIn, hCmd]
    xferOut := by simp [clock_xferOut, hCmd]
    xferPioIn := by simp [clock_xferPioIn, hCmd]
    xferPioOut := by simp [clock_xferPioOut, hCmd]
    xferMsgOut := by simp [clock_xferMsgOut, hCmd] }

theorem fifo_of_chipReset (hReset : chipReset i = true) :
    (clock cfg s i).fifoCnt = 0 := by
  have hCmd := cmdIs_of_chipReset hReset
  have hRead :=
    (command_cycle (regWr_of_chipReset hReset).1).2
  simp [clock_fifoCnt, hCmd, hRead]

/-
  In any state, reachable or not, a chip reset quiesces the
  chip exactly when nothing else happens in its cycle.
-/
theorem chip_reset_quiesces
    (hClocked : i.nreset = true)
    (hReset : chipReset i = true) :
    Quiesces cfg s i ↔ eventful s i = false := by
  have hStep := step_of_nreset cfg s i hClocked
  have hZero := @raised_eq_zero_iff cfg s i hReset
  have hStrobes := @strobesNothing_iff cfg s i
  constructor
  · intro hQuiesces
    have hRaised : raised cfg s i = 0x00#8 := by
      have hIrq := hQuiesces.quiescent.irq
      rw [hStep, clock_irq, clock_iNew] at hIrq
      by_contra hSome
      simp [hSome] at hIrq
    have hNothing := hQuiesces.strobes
    rw [hStep, hStrobes] at hNothing
    rcases hZero.mp hRaised with
      ⟨hExec, hDone, hUnder, hOut, hPioOut, hMsg, hPioUnder⟩
    simp [eventful, hExec, hDone, hUnder, hOut, hPioOut, hMsg,
      hPioUnder, hNothing]
  · intro hCalm
    simp only [eventful, Bool.or_eq_false_iff] at hCalm
    rcases hCalm with
      ⟨⟨⟨⟨⟨⟨⟨⟨hExec, hDone⟩, hUnder⟩, hOut⟩, hPioOut⟩, hMsg⟩,
        hPioUnder⟩, hPrefetch⟩, hFlush⟩
    have hRaised := hZero.mpr
      ⟨hExec, hDone, hUnder, hOut, hPioOut, hMsg, hPioUnder⟩
    have hQuiet := quiescent_of_chipReset cfg hReset hRaised
    have hEmpty := @fifo_of_chipReset cfg s i hReset
    rw [← hStep] at hQuiet hEmpty
    exact {
      quiescent := hQuiet
      empty := hEmpty
      strobes := by
        rw [hStep]
        exact hStrobes.mpr ⟨hPrefetch, hFlush⟩
      after := by
        intro is hNone
        rcases quiescent_run cfg hQuiet hNone with
          ⟨hRun, hSilent⟩
        exact ⟨hRun, hSilent,
          fifo_empty_run cfg hQuiet hEmpty hNone⟩ }

/- A chip reset, with or without the DMA bit. -/
def resetCommand : In := regWrite 0x3#4 0x02#8

theorem chip_reset_quiesces_powerOn :
    Quiesces ⟨0#4, false⟩ (powerOn ⟨0#4, false⟩ default)
      resetCommand :=
  (chip_reset_quiesces ⟨0#4, false⟩ rfl rfl).mpr rfl

/-
  A selection, its CDB collected and about to be executed: the
  reset of that very cycle leaves the interrupt of the CDB it
  dropped.
-/
def selectThenReset : List In :=
  [mountImage] ++ List.replicate 6 (regWrite 0x2#4 0x00#8) ++
    [regWrite 0x3#4 0x41#8] ++ List.replicate 7 quiet

theorem chip_reset_meets_exec :
    ¬ ∀ (cfg : Config) (s : Chip) (i : In), Reachable cfg s →
      i.nreset = true → chipReset i = true →
      Quiesces cfg s i := by
  intro hAll
  have hReach : Reachable ⟨0#4, false⟩
      (Clocked.run (step ⟨0#4, false⟩)
        (powerOn ⟨0#4, false⟩ default) selectThenReset) :=
    ⟨default, selectThenReset, by decide, rfl⟩
  have hQuiesces := hAll _ _ resetCommand hReach rfl rfl
  have hIrq := hQuiesces.quiescent.irq
  revert hIrq
  decide +kernel

end Ncr53c96
