import Wombat33.Ncr53c96.Interrupt
import Wombat33.Ncr53c96.Reachable

/-
  Selecting a target that does not answer.

  Nothing goes out, so the bytes the driver put in the FIFO
  are still there when it reads the count on the disconnect
  interrupt.  The forms that collect a CDB and the form that
  stops after the IDENTIFY have arms of their own; only the
  second empties the FIFO.

  Key definitions include:
    * `selectForm`, `AtRest`, `BlockRest`
    * `TimesOut`

  Key theorems include:
    * `untouched_run`
    * `times_out_iff`
    * `stopped_select_flushes`
-/

------------------------------------------------------------
-- A Selection That Times Out
------------------------------------------------------------

namespace Ncr53c96

open Clocked

variable (cfg : Config) (s : Chip) (i : In)

/- One of the four select forms is written. -/
def selectForm : Bool := selectCmd i || cmdIs i 0x43#7

/- No transfer and no CDB collection is in progress. -/
structure AtRest : Prop where
  xferIn : s.xferIn = false
  xferOut : s.xferOut = false
  xferPioIn : s.xferPioIn = false
  xferPioOut : s.xferPioOut = false
  xferMsgOut : s.xferMsgOut = false
  cdbActive : s.cdbActive = false
  execPending : s.execPending = false

/- Nor a block transfer, or a response being built. -/
structure BlockRest : Prop where
  ioBusy : ioBusy s i = false
  flushPending : s.flushPending = false
  prefetchDue : prefetchDue s i = false
  synthLen : s.synthLen = 0
  sdBuffWr : i.sdBuffWr = false

/- The state of the CDB collector. -/
def collector : Bool × Nat × Nat × Nat × (Nat → Byte) :=
  (s.cdbActive, s.cdbPos, s.cdbNeed, s.skipCnt, s.cdb)

/- The message flags. -/
def messages : Bool × Byte × Bool × Byte × Bool :=
  (s.xferMsgOut, s.msgFirst, s.msgFirstSeen, s.msginByte,
    s.msginReject)

/- The sector buffer and what it is filled from. -/
def sector :
    (BitVec 8 → BitVec 16) × Nat × Nat × Bool × BitVec 32 ×
      Nat × Bool × Bool × Bool × Nat :=
  (s.mem, s.sbufLen, s.sbufPos, s.bufValid, s.lba,
    s.blocksLeft, s.flushPending, s.ioRd, s.ioWr, s.synthLen)

/- A cycle that neither writes nor reads the FIFO. -/
def untouched (i : In) : Prop :=
  i.nreset = true ∧ regWr i 0x2#4 = false ∧
    regWr i 0x3#4 = false ∧ regRd i 0x2#4 = false ∧
    i.dmaRd = false

/-
  All a selection does that times out: the disconnect
  interrupt, sequence step 0, and a DMA form loads the
  counter.  The driver finds its bytes in the FIFO, at once
  and until it touches the FIFO itself.
-/
structure TimesOut : Prop where
  istatus : (step cfg s i).istatus = s.istatus ||| iDisc
  irq : (step cfg s i).irq = true
  seqStep : (step cfg s i).seqStep = 0#3
  dmaActive : (step cfg s i).dmaActive = cmdDma i.wdata
  tcounter : (step cfg s i).tcounter =
    if cmdDma i.wdata then tcLoad s else s.tcounter
  tcZero : (step cfg s i).tcZero =
    (!cmdDma i.wdata && s.tcZero)
  fifo : (step cfg s i).fifo = s.fifo
  fifoCnt : (step cfg s i).fifoCnt = s.fifoCnt
  phase : (step cfg s i).phase = s.phase
  collector : collector (step cfg s i) = collector s
  messages : messages (step cfg s i) = messages s
  rest : AtRest (step cfg s i)
  sector : BlockRest s i → sector (step cfg s i) = sector s
  counted : ∀ is, (∀ j ∈ is, untouched j) →
    (run (step cfg) (step cfg s i) is).fifoCnt = s.fifoCnt

end Ncr53c96

------------------------------------------------------------
-- One Cycle
------------------------------------------------------------

namespace Ncr53c96

open Clocked

variable (cfg : Config) {s : Chip} {i : In}

/- At rest no arm of the engine or of a transfer acts. -/
theorem arms_of_rest (hRest : AtRest s) :
    armPioIn s i = false ∧ armMsgOut s i = false ∧
      armFill s i = false ∧ armDrain s i = false ∧
      armCdbFf s i = false ∧ armOutDma s i = false ∧
      armCdbDma s i = false := by
  simp [armPioIn, armMsgOut, armFill, armDrain, armCdbFf,
    armOutDma, armCdbDma, hRest.xferIn, hRest.xferOut,
    hRest.xferPioIn, hRest.xferPioOut, hRest.xferMsgOut,
    hRest.cdbActive]

theorem ends_of_rest (hRest : AtRest s) :
    dinDone s = false ∧ dinUnderflow s i = false ∧
      doutDone s i = false ∧ pioOutDone s = false ∧
      msgOutDone s = false ∧ pioInUnderflow s i = false ∧
      flushDue s i = false ∧ cdbComplete s = false := by
  simp [dinDone, dinUnderflow, doutDone, pioOutDone,
    msgOutDone, pioInUnderflow, flushDue, cdbComplete,
    hRest.xferIn, hRest.xferOut, hRest.xferPioIn,
    hRest.xferPioOut, hRest.xferMsgOut, hRest.cdbActive]

/- Without a command the chip stays at rest. -/
theorem atRest_untouched
    (hRest : AtRest s)
    (hNone : regWr i 0x3#4 = false) :
    AtRest (clock cfg s i) := by
  rcases @ends_of_rest s i hRest with
    ⟨hDone, hUnder, hOut, hPioOut, hMsg, hPioUnder, -, hCdb⟩
  have hPio := (@arms_of_rest s i hRest).1
  have hCmd (op : BitVec 7) : cmdIs i op = false :=
    cmdIs_of_not_regWr hNone
  have hSelect : selectCmd i = false := by
    simp [selectCmd, hNone]
  constructor
  case xferIn =>
    simp [clock_xferIn, hCmd, hUnder, hDone, hRest.xferIn]
  case xferOut =>
    simp [clock_xferOut, hCmd, hOut, hRest.xferOut]
  case xferPioIn =>
    simp [clock_xferPioIn, hCmd, hPioUnder, hPio,
      hRest.xferPioIn]
  case xferPioOut =>
    simp [clock_xferPioOut, hCmd, hPioOut, hRest.xferPioOut]
  case xferMsgOut =>
    simp [clock_xferMsgOut, hCmd, hMsg, hRest.xferMsgOut]
  case cdbActive =>
    simp [clock_cdbActive, hCmd, hSelect, hMsg, hCdb,
      hRest.cdbActive]
  case execPending =>
    simp [clock_execPending, hCmd, hCdb, hRest.execPending]

/- Nobody but the driver touches the FIFO of a chip at rest. -/
theorem fifoCnt_untouched
    (hRest : AtRest s)
    (hUntouched : untouched i) :
    (clock cfg s i).fifoCnt = s.fifoCnt := by
  rcases hUntouched with ⟨-, hPush, hNone, hRead, hDma⟩
  rcases @arms_of_rest s i hRest with
    ⟨hPio, hMsg, hFill, hDrain, hCdb, hOut, -⟩
  have hCmd (op : BitVec 7) : cmdIs i op = false :=
    cmdIs_of_not_regWr hNone
  have hPop : armPop s i = false := by
    simp [armPop, engRd, hDma]
  simp [clock_fifoCnt, hCmd, hPush, hRead, hPio, hMsg, hFill,
    hDrain, hCdb, hOut, hPop]

/- So the count stays through every such run. -/
theorem untouched_run
    (hRest : AtRest s)
    {is : List In}
    (hUntouched : ∀ j ∈ is, untouched j) :
    (run (step cfg) s is).fifoCnt = s.fifoCnt := by
  have hInv := @invariant_run Chip In (step cfg)
    (fun _ j => untouched j)
    (fun t => AtRest t ∧ t.fifoCnt = s.fifoCnt)
    (fun t j hInv hOk => by
      rw [step_of_nreset cfg t j hOk.1]
      exact ⟨atRest_untouched cfg hInv.1 hOk.2.2.1,
        (fifoCnt_untouched cfg hInv.1 hOk).trans hInv.2⟩)
    s is (along_of_mem hUntouched) ⟨hRest, rfl⟩
  exact hInv.2

end Ncr53c96

------------------------------------------------------------
-- The Cycle of the Selection
------------------------------------------------------------

namespace Ncr53c96

open Clocked

variable (cfg : Config) {s : Chip} {i : In}

theorem regWr_of_selectForm
    (hForm : selectForm i = true) :
    regWr i 0x3#4 = true := by
  simp only [selectForm, selectCmd, cmdIs, Bool.or_eq_true,
    Bool.and_eq_true] at hForm
  rcases hForm with hSelect | hStop
  · exact hSelect.1
  · exact hStop.1

/- A select form is no other command. -/
theorem cmdIs_of_selectForm
    {op : BitVec 7}
    (hForm : selectForm i = true)
    (hNot : selectOp op = false)
    (hOther : op ≠ 0x43#7) :
    cmdIs i op = false := by
  rw [selectForm, Bool.or_eq_true] at hForm
  rcases hForm with hSelect | hStop
  · exact cmdIs_of_selectCmd hSelect hNot
  · rw [cmdIs_of_cmdIs hStop]
    simpa using hOther.symm

theorem knownOp_of_selectForm
    (hForm : selectForm i = true) :
    knownOp (cmdOp i.wdata) = true := by
  simp only [selectForm, selectCmd, cmdIs, Bool.or_eq_true,
    Bool.and_eq_true, beq_iff_eq] at hForm
  rcases hForm with hSelect | hStop
  · simp [knownOp, hSelect.2]
  · simp [knownOp, hStop.2]

/- Exactly the disconnect interrupt is raised. -/
theorem raised_of_timeout
    (hRest : AtRest s)
    (hForm : selectForm i = true)
    (hMiss : selected cfg s = false) :
    raised cfg s i = iDisc := by
  rcases @ends_of_rest s i hRest with
    ⟨hDone, hUnder, hOut, hPioOut, hMsg, hPioUnder, -, -⟩
  have hPio := (@arms_of_rest s i hRest).1
  have hOther (op : BitVec 7) (hNot : selectOp op = false)
      (hNe : op ≠ 0x43#7) : cmdIs i op = false :=
    cmdIs_of_selectForm hForm hNot hNe
  have hKnown := knownOp_of_selectForm hForm
  rw [selectForm, Bool.or_eq_true] at hForm
  simp only [raised, raisedCommand, raisedEnds, raisedEngine,
    hPio, hDone, hUnder, hOut, hPioOut, hMsg, hPioUnder,
    hRest.execPending, hKnown, hMiss,
    hOther 0x03#7 rfl (by decide), hOther 0x10#7 rfl (by decide),
    hOther 0x11#7 rfl (by decide), hOther 0x12#7 rfl (by decide),
    hOther 0x18#7 rfl (by decide)]
  cases hSelect : selectCmd i with
  | true =>
      cases hStop : cmdIs i 0x43#7 <;> simp
  | false =>
      have hStop : cmdIs i 0x43#7 = true := by
        rcases hForm with hTrue | hStop
        · rw [hSelect] at hTrue
          exact Bool.noConfusion hTrue
        · exact hStop
      simp [hStop]

/- The FIFO after the cycle. -/
theorem fifo_of_timeout
    (hRest : AtRest s)
    (hForm : selectForm i = true)
    (hMiss : selected cfg s = false) :
    (clock cfg s i).fifo = s.fifo ∧
      (clock cfg s i).fifoCnt =
        if cmdIs i 0x43#7 then 0 else s.fifoCnt := by
  have hWr := regWr_of_selectForm hForm
  have hRead := (command_cycle hWr).2
  have hExt := (command_cycle hWr).1
  have hPush : regWr i 0x2#4 = false := regWr_of_regWr hWr
  have hOther (op : BitVec 7) (hNot : selectOp op = false)
      (hNe : op ≠ 0x43#7) : cmdIs i op = false :=
    cmdIs_of_selectForm hForm hNot hNe
  rcases @arms_of_rest s i hRest with
    ⟨hPio, hMsg, hFill, hDrain, hCdb, hOut, -⟩
  have hPop : armPop s i = false := by
    simp [armPop, engRd, hExt]
  constructor
  · funext k
    simp [clock_fifo, hRead, hPush, hMiss, hPio, hMsg, hFill,
      hDrain, hCdb, hOut, hPop, hOther 0x11#7 rfl (by decide),
      hOther 0x10#7 rfl (by decide)]
  · simp [clock_fifoCnt, hRead, hPush, hMiss, hPio, hMsg, hFill,
      hDrain, hCdb, hOut, hPop, hOther 0x12#7 rfl (by decide),
      hOther 0x11#7 rfl (by decide),
      hOther 0x10#7 rfl (by decide),
      hOther 0x02#7 rfl (by decide),
      hOther 0x01#7 rfl (by decide)]

/- What engine and target are left as. -/
theorem engine_of_timeout
    (hRest : AtRest s)
    (hForm : selectForm i = true)
    (hMiss : selected cfg s = false) :
    (clock cfg s i).phase = s.phase ∧
      collector (clock cfg s i) = collector s ∧
      messages (clock cfg s i) = messages s ∧
      AtRest (clock cfg s i) := by
  have hOther (op : BitVec 7) (hNot : selectOp op = false)
      (hNe : op ≠ 0x43#7) : cmdIs i op = false :=
    cmdIs_of_selectForm hForm hNot hNe
  have h12 := hOther 0x12#7 rfl (by decide)
  have h11 := hOther 0x11#7 rfl (by decide)
  have h10 := hOther 0x10#7 rfl (by decide)
  have h02 := hOther 0x02#7 rfl (by decide)
  have h18 := hOther 0x18#7 rfl (by decide)
  rcases @arms_of_rest s i hRest with
    ⟨hPio, hMsgArm, -, -, hCdbFf, -, hCdbDma⟩
  rcases @ends_of_rest s i hRest with
    ⟨hDone, hUnder, hOut, hPioOut, hMsg, hPioUnder, hFlush,
      hCdb⟩
  refine ⟨?_, ?_, ?_, ?_⟩
  · simp [clock_phase, h12, h11, h10, h02, hMiss, hPio, hDone,
      hUnder, hOut, hMsg, hPioUnder, hFlush, hRest.execPending]
  · have hBytes : (clock cfg s i).cdb = s.cdb := by
      funext k
      simp [clock_cdb, hCdbFf, hCdbDma]
    simp [collector, hBytes, clock_cdbActive, clock_cdbPos,
      clock_cdbNeed, clock_skipCnt, h12, h02, hMiss, hMsg, hCdb,
      hCdbFf, hCdbDma]
  · simp [messages, clock_xferMsgOut, clock_msgFirst,
      clock_msgFirstSeen, clock_msginByte, clock_msginReject,
      h12, h11, h10, h02, hMiss, hMsg, hMsgArm]
  · constructor
    case xferIn =>
      simp [clock_xferIn, h18, h10, h02, hUnder, hDone,
        hRest.xferIn]
    case xferOut =>
      simp [clock_xferOut, h18, h10, h02, hOut, hRest.xferOut]
    case xferPioIn =>
      simp [clock_xferPioIn, h10, h02, hPioUnder, hPio,
        hRest.xferPioIn]
    case xferPioOut =>
      simp [clock_xferPioOut, h10, h02, hPioOut,
        hRest.xferPioOut]
    case xferMsgOut =>
      simp [clock_xferMsgOut, h10, h02, hMiss, hMsg,
        hRest.xferMsgOut]
    case cdbActive =>
      simp [clock_cdbActive, h12, h02, hMiss, hMsg, hCdb,
        hRest.cdbActive]
    case execPending =>
      simp [clock_execPending, h02, hCdb, hRest.execPending]

/- The sector buffer with no block transfer under way. -/
theorem sector_of_timeout
    (hRest : AtRest s)
    (hBlock : BlockRest s i) :
    sector (clock cfg s i) = sector s := by
  rcases @arms_of_rest s i hRest with
    ⟨hPio, -, hFill, hDrain, -, -, -⟩
  have hFlush := (@ends_of_rest s i hRest).2.2.2.2.2.2.1
  have hSynth : synthOn s = false := by
    simp [synthOn, hBlock.synthLen]
  have hIo := hBlock.ioBusy
  simp only [ioBusy, Bool.or_eq_false_iff] at hIo
  have hPublish : publish s i = false := by
    simp [publish, ackFall, hIo]
  have hAck : ackFall s i = false := by
    simp [ackFall, hIo]
  have hMem : (clock cfg s i).mem = s.mem := by
    simp [clock_mem, hBlock.sdBuffWr, engineMem, weE, hSynth,
      hDrain]
  simp [sector, hMem, clock_sbufLen, clock_sbufPos,
    clock_bufValid, clock_lba, clock_blocksLeft,
    clock_flushPending, clock_ioRd, clock_ioWr, clock_synthLen,
    hRest.execPending, hFlush, hBlock.prefetchDue, hPio, hFill,
    hDrain, hPublish, hAck, synthLast, hSynth, hIo]

end Ncr53c96

------------------------------------------------------------
-- The Bytes in the FIFO
------------------------------------------------------------

namespace Ncr53c96

open Clocked

variable (cfg : Config) {s : Chip} {i : In}

/- The registers the driver reads on the interrupt. -/
theorem report_of_timeout
    (hRest : AtRest s)
    (hForm : selectForm i = true)
    (hMiss : selected cfg s = false) :
    (clock cfg s i).istatus = s.istatus ||| iDisc ∧
      (clock cfg s i).irq = true ∧
      (clock cfg s i).seqStep = 0#3 := by
  have hWr := regWr_of_selectForm hForm
  have hRaised := raised_of_timeout cfg hRest hForm hMiss
  have hRead : isrRead i = false := by
    simp only [regWr, regWrCyc, Bool.and_eq_true] at hWr
    simp [isrRead, regRdCyc, hWr]
  have hAny : (iDisc != 0x00#8) = true := rfl
  refine ⟨?_, ?_, ?_⟩
  · simp [clock_istatus, clock_iNew, hRaised, hRead, hAny]
  · simp [clock_irq, clock_iNew, hRaised, hRead, hAny]
  · rw [selectForm, Bool.or_eq_true] at hForm
    rw [clock_seqStep]
    rcases hForm with hSelect | hStop
    · simp [hSelect, hMiss]
    · simp [hStop, hMiss]

/- The DMA bit, and the counter it loads. -/
theorem counter_of_timeout
    (hRest : AtRest s)
    (hForm : selectForm i = true) :
    (clock cfg s i).dmaActive = cmdDma i.wdata ∧
      (clock cfg s i).tcounter =
        (if cmdDma i.wdata then tcLoad s else s.tcounter) ∧
      (clock cfg s i).tcZero =
        (!cmdDma i.wdata && s.tcZero) := by
  have hWr := regWr_of_selectForm hForm
  have hLow : regWr i 0x0#4 = false := regWr_of_regWr hWr
  have hHigh : regWr i 0x1#4 = false := regWr_of_regWr hWr
  have h02 : cmdIs i 0x02#7 = false :=
    cmdIs_of_selectForm hForm rfl (by decide)
  have h18 : cmdIs i 0x18#7 = false :=
    cmdIs_of_selectForm hForm rfl (by decide)
  rcases @arms_of_rest s i hRest with
    ⟨-, -, hFill, -, -, hOut, hCdb⟩
  refine ⟨?_, ?_, ?_⟩
  · simp [clock_dmaActive, h02, hWr]
  · simp [clock_tcounter, hWr, hFill, hOut, hCdb]
  · rw [clock_tcZero]
    cases hDma : cmdDma i.wdata <;>
      simp [h18, h02, hWr, hLow, hHigh, hFill, hOut, hCdb]

/-
  A selection that times out does no more than it should,
  exactly if it is not the form that stops after the IDENTIFY,
  or the FIFO is empty.
-/
theorem times_out_iff
    (hReset : i.nreset = true)
    (hForm : selectForm i = true)
    (hMiss : selected cfg s = false)
    (hRest : AtRest s) :
    TimesOut cfg s i ↔
      (cmdIs i 0x43#7 = false ∨ s.fifoCnt = 0) := by
  have hFifo := fifo_of_timeout cfg hRest hForm hMiss
  have hStep := step_of_nreset cfg s i hReset
  constructor
  · intro hOut
    have hCnt := hOut.fifoCnt
    rw [hStep, hFifo.2] at hCnt
    cases hStop : cmdIs i 0x43#7 with
    | false => exact Or.inl rfl
    | true =>
        rw [hStop, if_pos rfl] at hCnt
        exact Or.inr hCnt.symm
  · intro hKept
    rcases report_of_timeout cfg hRest hForm hMiss with
      ⟨hStatus, hIrq, hSeq⟩
    rcases counter_of_timeout cfg hRest hForm with
      ⟨hDma, hCounter, hZero⟩
    rcases engine_of_timeout cfg hRest hForm hMiss with
      ⟨hPhase, hCollector, hMessages, hStays⟩
    have hCnt : (step cfg s i).fifoCnt = s.fifoCnt := by
      rw [hStep, hFifo.2]
      rcases hKept with hCdb | hEmpty
      · simp [hCdb]
      · simp [hEmpty]
    rw [← hStep] at hStatus hIrq hSeq hDma hCounter hZero
    rw [← hStep] at hPhase hCollector hMessages hStays
    exact {
      istatus := hStatus
      irq := hIrq
      seqStep := hSeq
      dmaActive := hDma
      tcounter := hCounter
      tcZero := hZero
      fifo := by rw [hStep, hFifo.1]
      fifoCnt := hCnt
      phase := hPhase
      collector := hCollector
      messages := hMessages
      rest := hStays
      sector := fun hBlock => by
        rw [hStep]
        exact sector_of_timeout cfg hRest hBlock
      counted := fun is hUntouched =>
        (untouched_run cfg hStays hUntouched).trans hCnt }

/- IDENTIFY and CDB are in the FIFO; nobody has ID 3. -/
def preloaded : Chip :=
  run (step ⟨0#4, false⟩) (powerOn ⟨0#4, false⟩ default)
    ([mountImage, regWrite 0x4#4 0x03#8, regWrite 0x2#4 0x80#8] ++
      List.replicate 6 (regWrite 0x2#4 0x00#8))

theorem preloaded_rest : AtRest preloaded := by
  constructor
  all_goals decide +kernel

theorem times_out_select_atn :
    TimesOut ⟨0#4, false⟩ preloaded (regWrite 0x3#4 0x42#8) :=
  (times_out_iff ⟨0#4, false⟩ rfl rfl (by decide +kernel)
    preloaded_rest).mpr (Or.inl rfl)

/- The stopping form leaves none of the seven bytes. -/
theorem stopped_select_flushes :
    Reachable ⟨0#4, false⟩ preloaded ∧
      preloaded.fifoCnt = 7 ∧
      (step ⟨0#4, false⟩ preloaded
        (regWrite 0x3#4 0x43#8)).fifoCnt = 0 ∧
      ¬ TimesOut ⟨0#4, false⟩ preloaded
        (regWrite 0x3#4 0x43#8) := by
  have hSeven : preloaded.fifoCnt = 7 := by decide +kernel
  have hNone : (step ⟨0#4, false⟩ preloaded
      (regWrite 0x3#4 0x43#8)).fifoCnt = 0 := by
    decide +kernel
  refine ⟨⟨default, _, by decide, rfl⟩, hSeven, hNone, ?_⟩
  intro hOut
  have hCnt := hOut.fifoCnt
  rw [hSeven, hNone] at hCnt
  exact absurd hCnt (by decide)

end Ncr53c96
