import Wombat33.Ncr53c96.Interrupt

/-
  A data-in transfer at one clock edge.

  While the target sends, the initiator issues one transfer
  information after the other and takes the bytes out of the
  FIFO.  What an edge can do then is the same whether the
  bytes are blocks of the disk or a response the target has
  built.

  Key definitions include:
    * `infoCount`, `byteIn`, `delivered`, `infoOpen`
    * `InQuiet`, `InHost`

  Key theorems include:
    * `din_arm`, `din_queue`
    * `din_moves`, `din_counter`, `din_nextPhase`
    * `din_raised`
-/

------------------------------------------------------------
-- Transfer Informations
------------------------------------------------------------

namespace Ncr53c96

/- The bytes a transfer information asks for. -/
def infoCount (s : Chip) (i : In) : Nat :=
  if cmdDma i.wdata then tcLoad s else 1

/- A byte of the sector buffer goes into the FIFO. -/
def byteIn (s : Chip) (i : In) : Bool :=
  armFill s i || armPioIn s i

/-
  The byte the initiator takes out of the FIFO at an edge: by
  pseudo-DMA, or by a read of the FIFO register.
-/
def delivered (cfg : Config) (s : Chip) (i : In) :
    List Byte :=
  if armPop s i then [(step cfg s i).dmaRlatch]
  else if regRd i 0x2#4 && s.fifoCnt != 0 then [rdata s i]
  else []

/- A transfer information is open. -/
def infoOpen (s : Chip) : Bool := s.xferIn || s.xferPioIn

/- A transfer information asks for at least one byte. -/
theorem infoCount_pos (s : Chip) (i : In) :
    0 < infoCount s i := by
  unfold infoCount
  split
  · exact (tcLoad_bounds s).1
  · exact Nat.one_pos

end Ncr53c96

------------------------------------------------------------
-- What an Edge Can Do
------------------------------------------------------------

namespace Ncr53c96

open Clocked

/- Nothing but a data-in transfer is going on. -/
structure InQuiet (s : Chip) : Prop where
  noCdb : s.cdbActive = false
  noExec : s.execPending = false
  noMsg : s.xferMsgOut = false
  noOut : s.xferOut = false
  noPioOut : s.xferPioOut = false
  fifo : s.fifoCnt ≤ 16

/-
  What the initiator keeps to: transfer informations are the
  only commands, one is issued in DATA IN with none open, and
  nothing is put into the FIFO.
-/
structure InHost (s : Chip) (i : In) : Prop where
  clocked : i.nreset = true
  noDmaWrite : i.dmaWr = false
  noFifoWrite : regWr i 0x2#4 = false
  command : regWr i 0x3#4 = true →
    cmdOp i.wdata = 0x10#7 ∧ s.phase = .din ∧
      s.xferIn = false ∧ s.xferPioIn = false

variable {cfg : Config} {s : Chip} {i : In}

/- The only command is a transfer information. -/
theorem din_command (hHost : InHost s i) :
    regWr i 0x3#4 = cmdIs i 0x10#7 ∧
      (∀ op, op ≠ 0x10#7 → cmdIs i op = false) ∧
      selectCmd i = false := by
  cases hWr : regWr i 0x3#4 with
  | false =>
      exact ⟨(cmdIs_of_not_regWr hWr).symm,
        fun op _ => cmdIs_of_not_regWr hWr,
        by simp [selectCmd, hWr]⟩
  | true =>
      have hOp := (hHost.command hWr).1
      refine ⟨by simp [cmdIs, hWr, hOp], ?_,
        by simp [selectCmd, hOp, selectOp]⟩
      intro op hNe
      simp [cmdIs, hOp, Ne.symm hNe]

/- A transfer information is issued in DATA IN, none open. -/
theorem din_info
    (hHost : InHost s i)
    (hCmd : cmdIs i 0x10#7 = true) :
    s.phase = .din ∧ s.xferIn = false ∧
      s.xferPioIn = false :=
  (hHost.command (regWr_of_cmdIs hCmd)).2

theorem din_infoPhase
    (hHost : InHost s i)
    (p : Phase)
    (hNe : p ≠ .din) :
    (cmdIs i 0x10#7 && s.phase == p) = false := by
  by_contra hInfo
  simp only [Bool.not_eq_false, Bool.and_eq_true,
    beq_iff_eq] at hInfo
  exact hNe (hInfo.2 ▸ (din_info hHost hInfo.1).1)

/- The FIFO engine gives bytes to the initiator or moves them. -/
theorem din_arm
    (hQuiet : InQuiet s)
    (hHost : InHost s i) :
    arm s i = .pop ∨ arm s i = .rdIdle ∨ arm s i = .fill ∨
      arm s i = .pioIn ∨ arm s i = .idle := by
  have hNoWr : i.dmaWr = false := hHost.noDmaWrite
  cases hArm : arm s i with
  | pop => simp
  | rdIdle => simp
  | cdbDma => simpa [hNoWr] using (guard_cdbDma s i hArm).1
  | outDma => simpa [hNoWr] using (guard_outDma s i hArm).1
  | swallow => simpa [hNoWr] using (guard_swallow s i hArm).1
  | cdbFf =>
      simpa [hQuiet.noCdb] using (guard_cdbFf s i hArm).1
  | drain =>
      simpa [hQuiet.noOut, hQuiet.noPioOut]
        using (guard_drain s i hArm).1
  | fill => simp
  | pioIn => simp
  | msgOut =>
      simpa [hQuiet.noMsg] using (guard_msgOut s i hArm).1
  | idle => simp

theorem din_noDrain
    (hQuiet : InQuiet s)
    (hHost : InHost s i) :
    armDrain s i = false := by
  rw [armDrain_eq]
  rcases din_arm hQuiet hHost with h | h | h | h | h <;>
    simp [h]

/- No end of another transfer is due. -/
theorem din_noOtherEnd (hQuiet : InQuiet s) :
    flushDue s i = false ∧ doutDone s i = false ∧
      msgOutDone s = false ∧ cdbComplete s = false := by
  simp [flushDue, doutDone, msgOutDone, cdbComplete,
    hQuiet.noOut, hQuiet.noPioOut, hQuiet.noMsg, hQuiet.noCdb]

/- A byte that moves was available, and `qE` reflects it. -/
theorem byteIn_avail (hIn : byteIn s i = true) :
    byteAvail s = true ∧ sbufRdOk s = true := by
  simp only [byteIn, Bool.or_eq_true] at hIn
  rcases hIn with hFill | hPio
  · rw [armFill_eq, beq_iff_eq] at hFill
    exact (guard_fill s i hFill).2.2.2.2
  · rw [armPioIn_eq, beq_iff_eq] at hPio
    have hGuard := guard_pioIn s i hPio
    exact ⟨hGuard.2.1, hGuard.2.2.2⟩

/- The byte of the buffer that the read register shows. -/
theorem sbufByte_eq
    (hRead : s.qE = s.mem s.eqAddr)
    (hOk : sbufRdOk s = true) :
    sbufByte s = bufByte s.mem s.sbufPos := by
  have hAddr : s.eqAddr = posWord s := by
    simp only [sbufRdOk, Bool.and_eq_true, beq_iff_eq] at hOk
    exact hOk.1
  rw [sbufByte, bufByte, hRead, hAddr, posWord]

end Ncr53c96

------------------------------------------------------------
-- The Queue and the Buffer Position
------------------------------------------------------------

namespace Ncr53c96

open Clocked

variable {cfg : Config} {s : Chip} {i : In}

/-
  Whatever the initiator takes leaves at the head, and the
  byte that moves enters at the end.
-/
theorem din_queue
    (hQuiet : InQuiet s)
    (hHost : InHost s i) :
    delivered cfg s i ++ queue (clock cfg s i) =
      queue s ++ if byteIn s i then [sbufByte s] else [] := by
  have hLive : s.fifoCnt ≠ 0 →
      queue s = s.fifo 0 :: (queue s).tail := by
    intro hLive
    rcases Nat.exists_eq_succ_of_ne_zero hLive with ⟨m, hm⟩
    rw [queue, hm, contents_succ_head]
    rfl
  rw [clock_queue cfg hQuiet.fifo, fifoAct]
  cases hExt : fifoExt i with
  | true =>
      -- the initiator reads the register, or issues a command
      have hIdle := arm_of_fifoExt s i hExt
      have hNoWr : regWr i 0x2#4 = false := hHost.noFifoWrite
      rcases din_command hHost with ⟨-, hCmd, -⟩
      have hInfo := din_infoPhase hHost
      simp only [delivered, byteIn, armPop_eq, armFill_eq,
        armPioIn_eq, hIdle, registerAct, hNoWr,
        hCmd 0x12#7 (by decide), hCmd 0x11#7 (by decide),
        hCmd 0x43#7 (by decide), hCmd 0x02#7 (by decide),
        hCmd 0x01#7 (by decide), hInfo .min (by decide),
        hInfo .stat (by decide), Bool.false_eq_true, if_false,
        Bool.false_and]
      cases hRd : regRd i 0x2#4 with
      | false => simp [QueueAct.apply]
      | true =>
          by_cases hEmpty : s.fifoCnt = 0
          · have hNil : queue s = [] := by
              rw [← List.length_eq_zero_iff, length_queue]
              exact hEmpty
            simp [QueueAct.apply, hEmpty, hNil]
          · have hRs : i.rs = 0x2#4 := by
              simp only [regRd, Bool.and_eq_true,
                beq_iff_eq] at hRd
              exact hRd.2
            have hData : rdata s i = s.fifo 0 := by
              simp [rdata, hRs, hEmpty]
            simpa [QueueAct.apply, hEmpty, hData] using
              (hLive hEmpty).symm
  | false =>
      have hNoRd := (regs_of_not_fifoExt hExt).2.2
      rcases din_arm hQuiet hHost with h | h | h | h | h
      · have hLatch : (step cfg s i).dmaRlatch = s.fifo 0 := by
          rw [step_of_nreset cfg s i hHost.clocked,
            clock_dmaRlatch]
          simp [armRdIdle_eq, armPop_eq, h]
        have hLive' := hLive (guard_pop s i h).2
        simpa [delivered, byteIn, armPop_eq, armFill_eq,
          armPioIn_eq, engineAct, h, hLatch, QueueAct.apply]
          using hLive'.symm
      all_goals
        simp [delivered, byteIn, armPop_eq, armFill_eq,
          armPioIn_eq, engineAct, h, hNoRd, QueueAct.apply]

/- With no byte moving an empty FIFO stays empty. -/
theorem din_staysEmpty
    (hQuiet : InQuiet s)
    (hHost : InHost s i)
    (hNoIn : byteIn s i = false)
    (hEmpty : s.fifoCnt = 0) :
    (clock cfg s i).fifoCnt = 0 := by
  have hLength := congrArg List.length
    (@din_queue cfg s i hQuiet hHost)
  simp only [List.length_append, length_queue, hNoIn, hEmpty,
    Bool.false_eq_true, if_false, List.length_nil] at hLength
  omega

/- The position moves on with each byte. -/
theorem din_sbufPos
    (hQuiet : InQuiet s)
    (hHost : InHost s i) :
    (clock cfg s i).sbufPos =
      if byteIn s i then (s.sbufPos + 1) % 1024
      else if publish s i then 0
      else s.sbufPos := by
  rw [clock_sbufPos]
  simp only [(din_noOtherEnd hQuiet).1, hQuiet.noExec,
    din_noDrain hQuiet hHost, Bool.false_eq_true, if_false]
  cases hFill : armFill s i <;> cases hPio : armPioIn s i <;>
    simp [byteIn, hFill, hPio]

end Ncr53c96

------------------------------------------------------------
-- Flags, Counter and Phase
------------------------------------------------------------

namespace Ncr53c96

variable {cfg : Config} {s : Chip} {i : In}

/- An edge of a data-in transfer starts nothing else. -/
theorem din_quiet
    (hQuiet : InQuiet s)
    (hHost : InHost s i) :
    InQuiet (clock cfg s i) := by
  rcases din_command hHost with ⟨-, hCmd, hSelect⟩
  have hOut := din_infoPhase hHost .dout (by decide)
  have hMout := din_infoPhase hHost .mout (by decide)
  rcases @din_noOtherEnd s i hQuiet with
    ⟨-, -, hNoMsg, hNotComplete⟩
  exact {
    noCdb := by
      simp [clock_cdbActive, hCmd, hSelect, hNoMsg,
        hNotComplete, hQuiet.noCdb]
    noExec := by
      simp [clock_execPending, hQuiet.noExec, hNotComplete]
    noMsg := by simp [clock_xferMsgOut, hMout, hQuiet.noMsg]
    noOut := by simp [clock_xferOut, hOut, hQuiet.noOut]
    noPioOut := by
      simp [clock_xferPioOut, hOut, hQuiet.noPioOut]
    fifo := clock_fifoCnt_le cfg hQuiet.fifo }

/- How the open transfer information moves on. -/
theorem din_moves (hHost : InHost s i) :
    ((clock cfg s i).xferIn =
        if cmdIs i 0x10#7 then cmdDma i.wdata
        else s.xferIn && !dinDone s && !dinUnderflow s i) ∧
      ((clock cfg s i).xferPioIn =
        if cmdIs i 0x10#7 then
          !cmdDma i.wdata && decide (s.fifoCnt = 0)
        else s.xferPioIn && !armPioIn s i &&
          !pioInUnderflow s i) := by
  rcases din_command hHost with ⟨-, hCmd, -⟩
  rw [clock_xferIn, clock_xferPioIn]
  simp only [hCmd 0x18#7 (by decide), hCmd 0x02#7 (by decide),
    Bool.false_eq_true, if_false]
  cases hInfo : cmdIs i 0x10#7 with
  | true =>
      rcases din_info hHost hInfo with ⟨hPhase, hIn, hNoPio⟩
      cases cmdDma i.wdata <;>
        simp [hPhase, hIn, hNoPio]
  | false =>
      constructor
      · cases dinUnderflow s i <;> cases dinDone s <;> simp
      · cases pioInUnderflow s i <;> cases armPioIn s i <;>
          simp

/- How its counter moves on. -/
theorem din_counter
    (hQuiet : InQuiet s)
    (hHost : InHost s i) :
    ((clock cfg s i).tcounter =
        if cmdIs i 0x10#7 && cmdDma i.wdata then tcLoad s
        else if armFill s i then
          (s.tcounter + 131071) % 131072
        else s.tcounter) ∧
      ((clock cfg s i).tcZero =
        if cmdIs i 0x10#7 && cmdDma i.wdata then false
        else if regWr i 0x0#4 || regWr i 0x1#4 then false
        else if armFill s i && s.tcounter == 1 then true
        else s.tcZero) ∧
      ((clock cfg s i).chunkIrqArmed =
        if cmdIs i 0x10#7 && cmdDma i.wdata then true
        else if dinUnderflow s i || dinDone s then false
        else s.chunkIrqArmed) ∧
      ((clock cfg s i).dmaActive =
        if cmdIs i 0x10#7 then cmdDma i.wdata
        else s.dmaActive) := by
  rcases din_command hHost with ⟨hWr, hCmd, -⟩
  have hDout := din_infoPhase hHost .dout (by decide)
  have hNoOut := (@din_noOtherEnd s i hQuiet).2.1
  have hArms : armOutDma s i = false ∧ armCdbDma s i = false := by
    rw [armOutDma_eq, armCdbDma_eq]
    rcases din_arm hQuiet hHost with h | h | h | h | h <;>
      simp [h]
  have hDin : (cmdIs i 0x10#7 && s.phase == .din) =
      cmdIs i 0x10#7 := by
    cases hInfo : cmdIs i 0x10#7 with
    | true => simp [(din_info hHost hInfo).1]
    | false => rfl
  refine ⟨?_, ?_, ?_, ?_⟩
  · simp [clock_tcounter, hWr, hArms]
  · simp [clock_tcZero, hWr, hCmd, hArms]
  · simp only [clock_chunkIrqArmed, hDout, hDin, hNoOut,
      hCmd 0x02#7 (by decide), Bool.false_and,
      Bool.false_eq_true, if_false]
    cases dinUnderflow s i <;> simp
  · simp [clock_dmaActive, hWr, hCmd]

/- DATA IN ends with the last byte, or with its TI. -/
theorem din_nextPhase
    (hQuiet : InQuiet s)
    (hHost : InHost s i) :
    (clock cfg s i).phase =
      if pioInUnderflow s i || dinUnderflow s i then .stat
      else if dinDone s && sourceDone s i then .stat
      else if armPioIn s i && lastByte s i then .stat
      else s.phase := by
  rcases din_command hHost with ⟨-, hCmd, hSelect⟩
  have hInfo := din_infoPhase hHost .stat (by decide)
  rcases @din_noOtherEnd s i hQuiet with
    ⟨hNoFlush, hNoOut, hNoMsg, -⟩
  rw [clock_phase]
  simp only [hCmd 0x12#7 (by decide), hCmd 0x11#7 (by decide),
    hCmd 0x43#7 (by decide), hCmd 0x02#7 (by decide), hSelect,
    hInfo, hNoMsg, hNoOut, hNoFlush, hQuiet.noExec,
    Bool.false_and, Bool.false_eq_true, if_false]
  cases pioInUnderflow s i <;> simp

end Ncr53c96

------------------------------------------------------------
-- Interrupts
------------------------------------------------------------

namespace Ncr53c96

variable {cfg : Config} {s : Chip} {i : In}

/- A cause raised in a cycle shows after it. -/
theorem irq_of_raised (hRaised : raised cfg s i ≠ 0x00#8) :
    (clock cfg s i).irq = true := by
  rw [clock_irq, clock_iNew]
  cases hRead : isrRead i <;> simp [hRaised]

/- A transfer that ends shows I_BUS and the interrupt. -/
theorem irq_of_busEvent (hEvent : busEvent s i = true) :
    (clock cfg s i).irq = true ∧
      (clock cfg s i).istatus.getLsbD 4 = true := by
  have hBit := raised_of_busEvent cfg s i hEvent
  constructor
  · apply irq_of_raised
    intro hZero
    simp [hZero] at hBit
  · rw [clock_istatus_bit, hBit, Bool.true_or]

/- A transfer information ends with an interrupt. -/
theorem din_raised
    (hHost : InHost s i)
    (hOpen : infoOpen s = true)
    (hClosed : infoOpen (clock cfg s i) = false) :
    (clock cfg s i).irq = true ∧
      (clock cfg s i).istatus.getLsbD 4 = true := by
  have hNoCmd : cmdIs i 0x10#7 = false := by
    by_contra hCmd
    rcases din_info hHost (by simpa using hCmd) with
      ⟨-, hIn, hPio⟩
    simp [infoOpen, hIn, hPio] at hOpen
  rcases @din_moves cfg s i hHost with ⟨hIn, hPio⟩
  simp only [hNoCmd, Bool.false_eq_true, if_false] at hIn hPio
  apply irq_of_busEvent
  by_contra hNone
  simp only [busEvent, Bool.not_eq_true,
    Bool.or_eq_false_iff] at hNone
  rcases hNone with
    ⟨⟨⟨⟨⟨⟨⟨hPioIn, -⟩, hDone⟩, hUnder⟩, -⟩, -⟩, -⟩, hPioUnder⟩
  simp only [hPioIn, hDone, hUnder, hPioUnder, Bool.not_false,
    Bool.and_true] at hIn hPio
  rw [infoOpen, hIn, hPio] at hClosed
  rw [infoOpen, hClosed] at hOpen
  exact Bool.noConfusion hOpen

end Ncr53c96
