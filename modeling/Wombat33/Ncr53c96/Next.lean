import Wombat33.Ncr53c96.Step

/-
  The next value of each register.

  A clock edge is a pile of arms and tasks; what one register
  becomes is the chain of those that assign it, the last
  assignment first.  Everything below reads the registers
  through these equations and never unfolds an arm again.

  Key definitions include:
    * `cmdIs`, `selectCmd`
    * `raised`
    * `clock_phase`, `clock_fifoCnt`, and the other
      `clock_` equations
-/

------------------------------------------------------------
-- Command Writes
------------------------------------------------------------

namespace Ncr53c96

variable (cfg : Config) (s : Chip) (i : In)

/- The command register is written with opcode `op`. -/
def cmdIs (op : BitVec 7) : Bool :=
  regWr i 0x3#4 && cmdOp i.wdata == op

/- A select form that collects a CDB is written. -/
def selectCmd : Bool :=
  regWr i 0x3#4 && selectOp (cmdOp i.wdata)

/- One cycle writes one register, or reads one. -/
theorem regWr_of_regWr
    {i : In} {r r' : BitVec 4}
    (h : regWr i r = true) :
    regWr i r' = (r == r') := by
  simp only [regWr, Bool.and_eq_true, beq_iff_eq] at h ⊢
  grind

theorem regWr_of_regRd
    {i : In} {r r' : BitVec 4}
    (h : regRd i r = true) :
    regWr i r' = false := by
  simp only [regRd, regRdCyc, Bool.and_eq_true,
    Bool.not_eq_true'] at h
  simp [regWr, regWrCyc, h]

theorem regWr_of_cmdIs
    {i : In} {op : BitVec 7} {r : BitVec 4}
    (h : cmdIs i op = true) :
    regWr i r = (r == 0x3#4) := by
  simp only [cmdIs, regWr, Bool.and_eq_true,
    beq_iff_eq] at h ⊢
  grind

theorem cmdIs_of_cmdIs
    {i : In} {op op' : BitVec 7}
    (h : cmdIs i op = true) :
    cmdIs i op' = (op == op') := by
  simp only [cmdIs, Bool.and_eq_true, beq_iff_eq] at h ⊢
  grind

theorem cmdIs_of_not_regWr
    {i : In} {op : BitVec 7}
    (h : regWr i 0x3#4 = false) :
    cmdIs i op = false := by
  simp [cmdIs, h]

theorem selectCmd_of_cmdIs
    {i : In} {op : BitVec 7}
    (h : cmdIs i op = true) :
    selectCmd i = selectOp op := by
  simp only [cmdIs, Bool.and_eq_true, beq_iff_eq] at h
  simp [selectCmd, h]

theorem cmdIs_of_selectCmd
    {i : In} {op : BitVec 7}
    (hSelect : selectCmd i = true)
    (hNot : selectOp op = false) :
    cmdIs i op = false := by
  by_contra hCmd
  have hNone := selectCmd_of_cmdIs (by simpa using hCmd)
  rw [hSelect, hNot] at hNone
  exact Bool.false_ne_true hNone.symm

/- The interrupt causes raised by the engine. -/
def raisedEngine : Byte :=
  (0x00#8 ||| (if armPioIn s i then iBus else 0x00#8)) |||
    (if s.execPending then iBus ||| iFc else 0x00#8)

/- The interrupt causes raised by transfers that end. -/
def raisedEnds (n : Byte) : Byte :=
  n ||| (if dinDone s then iBus else 0x00#8) |||
    (if dinUnderflow s i then iBus else 0x00#8) |||
    (if doutDone s i then iBus else 0x00#8) |||
    (if pioOutDone s then iBus else 0x00#8) |||
    (if msgOutDone s then iBus else 0x00#8) |||
    (if pioInUnderflow s i then iBus else 0x00#8)

/- The interrupt causes raised by a command write. -/
def raisedCommand (n : Byte) : Byte :=
  n |||
    (if cmdIs i 0x03#7 && !s.conf1.getLsbD 6 then iRst
      else 0x00#8) |||
    (if selectCmd i && !selected cfg s then iDisc
      else 0x00#8) |||
    (if cmdIs i 0x43#7 && selected cfg s then iBus ||| iFc
      else 0x00#8) |||
    (if cmdIs i 0x43#7 && !selected cfg s then iDisc
      else 0x00#8) |||
    (if cmdIs i 0x10#7 && s.phase == .din &&
        !cmdDma i.wdata && s.fifoCnt != 0 then iBus
      else 0x00#8) |||
    (if cmdIs i 0x10#7 && s.phase == .stat then iFc
      else 0x00#8) |||
    (if cmdIs i 0x10#7 && s.phase == .min then iFc
      else 0x00#8) |||
    (if cmdIs i 0x11#7 then iFc else 0x00#8) |||
    (if cmdIs i 0x12#7 && s.msginReject then iBus
      else 0x00#8) |||
    (if cmdIs i 0x12#7 && !s.msginReject then iDisc
      else 0x00#8) |||
    (if cmdIs i 0x18#7 then iBus else 0x00#8) |||
    (if regWr i 0x3#4 && !knownOp (cmdOp i.wdata) then iIll
      else 0x00#8)

/- Every cause raised in this cycle. -/
def raised : Byte :=
  raisedCommand cfg s i (raisedEnds s i (raisedEngine s i))

/- A CDB is executed or a transfer ends. -/
def busEvent : Bool :=
  armPioIn s i || s.execPending || dinDone s ||
    dinUnderflow s i || doutDone s i || pioOutDone s ||
    msgOutDone s || pioInUnderflow s i

/- Each of these raises I_BUS, bit 4. -/
theorem raised_of_busEvent (hEvent : busEvent s i = true) :
    (raised cfg s i).getLsbD 4 = true := by
  simp only [raised, raisedCommand, raisedEnds, raisedEngine,
    BitVec.getLsbD_or]
  simp only [busEvent, Bool.or_eq_true] at hEvent
  rcases hEvent with ((((((h | h) | h) | h) | h) | h) | h) | h <;>
    simp [h, iBus, iFc]

end Ncr53c96

------------------------------------------------------------
-- The Interrupt Merge
------------------------------------------------------------

namespace Ncr53c96

variable (s : Chip) (i : In)

/- A cause was raised in this cycle. -/
def causeRaised (n : Chip) : Bool := n.iNew != 0x00#8

/-
  The merge with its condition named: unfolded, the condition
  would be simplified with every cause it is made of.
-/
theorem interruptMerge_eq (n : Chip) :
    interruptMerge s i n =
      { n with
        istatus :=
          if isrRead i then n.iNew
          else if causeRaised n then s.istatus ||| n.iNew
          else n.istatus
        irq :=
          if isrRead i then causeRaised n
          else if causeRaised n then true
          else n.irq
        seqStep := if isrRead i then 0 else n.seqStep } := rfl

end Ncr53c96

------------------------------------------------------------
-- Next Values: Register File
------------------------------------------------------------

namespace Ncr53c96

section

variable (cfg : Config) (s : Chip) (i : In)

attribute [local simp]
  clock sbufPorts interruptMerge_eq registers execCommand raise
  transferPad messageAccept commandComplete transferInfo
  selectStop selectCdb resetBus resetChip flushFifo loadCounter
  infoMsgIn infoMsgOut infoOut infoIn infoStatus collectCdb
  loadStatus fifoShift fifoPush plainWrite tcLatchWrite endArms
  pioInUnderflowArm msgOutDoneArm pioOutDoneArm doutDoneArm
  flushArm dinUnderflowArm dinDoneArm engineArms execArm cdbArm
  synthArm fifoEngine msgOutArm pioInArm decTc advancePos cdbByte
  dmaTake dmaAnswer prefetchArm ackArm mountArm execCdb
  illegalRequest startBlocks readCapacity synthesize requestSense
  testUnitReady execStart

theorem clock_tcLatch :
    (clock cfg s i).tcLatch =
      if regWr i 0x0#4 then s.tcLatch.extractLsb' 8 8 ++ i.wdata
      else if regWr i 0x1#4 then
        i.wdata ++ s.tcLatch.extractLsb' 0 8
      else s.tcLatch := by
  dsimp

theorem clock_tcounter :
    (clock cfg s i).tcounter =
      if regWr i 0x3#4 && cmdDma i.wdata then tcLoad s
      else if armFill s i then (s.tcounter + 131071) % 131072
      else if armOutDma s i then (s.tcounter + 131071) % 131072
      else if armCdbDma s i then (s.tcounter + 131071) % 131072
      else s.tcounter := by
  dsimp

theorem clock_tcZero :
    (clock cfg s i).tcZero =
      if cmdIs i 0x18#7 then true
      else if cmdIs i 0x02#7 then false
      else if regWr i 0x3#4 && cmdDma i.wdata then false
      else if regWr i 0x0#4 || regWr i 0x1#4 then false
      else if armFill s i && s.tcounter == 1 then true
      else if armOutDma s i && s.tcounter == 1 then true
      else if armCdbDma s i && s.tcounter == 1 then true
      else s.tcZero := by
  dsimp
  rfl

theorem clock_seqStep :
    (clock cfg s i).seqStep =
      if isrRead i then 0#3
      else if cmdIs i 0x12#7 then 0#3
      else if cmdIs i 0x43#7 && selected cfg s then 1#3
      else if cmdIs i 0x43#7 && !selected cfg s then 0#3
      else if selectCmd i && selected cfg s then 4#3
      else if selectCmd i && !selected cfg s then 0#3
      else if cmdIs i 0x02#7 then 0#3
      else s.seqStep := by
  dsimp
  rfl

theorem clock_destId :
    (clock cfg s i).destId =
      if regWr i 0x4#4 then i.wdata.extractLsb' 0 4
      else s.destId := by
  dsimp

theorem clock_conf1 :
    (clock cfg s i).conf1 =
      if regWr i 0x8#4 then i.wdata
      else s.conf1 := by
  dsimp

theorem clock_dmaActive :
    (clock cfg s i).dmaActive =
      if cmdIs i 0x02#7 then false
      else if regWr i 0x3#4 then cmdDma i.wdata
      else s.dmaActive := by
  dsimp
  rfl

theorem clock_dmaValid :
    (clock cfg s i).dmaValid =
      if armSwallow s i then true
      else if armOutDma s i then true
      else if armCdbDma s i then true
      else if armRdIdle s i then true
      else if armPop s i then true
      else false := by
  dsimp

theorem clock_dmaRlatch :
    (clock cfg s i).dmaRlatch =
      if armRdIdle s i then 0xFF#8
      else if armPop s i then s.fifo 0
      else s.dmaRlatch := by
  dsimp

theorem clock_phase :
    (clock cfg s i).phase =
      if cmdIs i 0x12#7 && s.msginReject then .cmd
      else if cmdIs i 0x12#7 && !s.msginReject then .dout
      else if cmdIs i 0x11#7 then .min
      else if cmdIs i 0x10#7 && s.phase == .stat then .min
      else if cmdIs i 0x43#7 && selected cfg s then .mout
      else if selectCmd i && selected cfg s then .cmd
      else if cmdIs i 0x02#7 then .dout
      else if pioInUnderflow s i then .stat
      else if msgOutDone s && s.msgFirst != 0x01#8 then .cmd
      else if msgOutDone s && s.msgFirst == 0x01#8 then .min
      else if doutDone s i && s.blocksLeft == 0 then .stat
      else if flushDue s i && s.blocksLeft != 0 &&
          s.blocksLeft == 1 && !s.dataDirIn then .stat
      else if dinUnderflow s i then .stat
      else if dinDone s && sourceDone s i then .stat
      else if s.execPending && !knownCdb (s.cdb 0) then .stat
      else if s.execPending && s.cdb 0 == 0x2A#8 then .dout
      else if s.execPending && s.cdb 0 == 0x0A#8 then .dout
      else if s.execPending && s.cdb 0 == 0x28#8 then .din
      else if s.execPending && s.cdb 0 == 0x08#8 then .din
      else if s.execPending && s.cdb 0 == 0x25#8 then .din
      else if s.execPending && s.cdb 0 == 0x1A#8 then .din
      else if s.execPending && s.cdb 0 == 0x12#8 then .din
      else if s.execPending && s.cdb 0 == 0x03#8 then .din
      else if s.execPending && s.cdb 0 == 0x00#8 then .stat
      else if armPioIn s i && lastByte s i then .stat
      else s.phase := by
  dsimp
  rfl

end

end Ncr53c96

------------------------------------------------------------
-- Next Values: Interrupts
------------------------------------------------------------

namespace Ncr53c96

section

variable (cfg : Config) (s : Chip) (i : In)

attribute [local simp]
  clock sbufPorts interruptMerge_eq registers execCommand raise
  transferPad messageAccept commandComplete transferInfo
  selectStop selectCdb resetBus resetChip flushFifo loadCounter
  infoMsgIn infoMsgOut infoOut infoIn infoStatus collectCdb
  loadStatus fifoShift fifoPush plainWrite tcLatchWrite endArms
  pioInUnderflowArm msgOutDoneArm pioOutDoneArm doutDoneArm
  flushArm dinUnderflowArm dinDoneArm engineArms execArm cdbArm
  synthArm fifoEngine msgOutArm pioInArm decTc advancePos cdbByte
  dmaTake dmaAnswer prefetchArm ackArm mountArm execCdb
  illegalRequest startBlocks readCapacity synthesize requestSense
  testUnitReady execStart

theorem clock_iNew :
    (clock cfg s i).iNew = raised cfg s i := by
  dsimp
  rfl

theorem clock_istatus :
    (clock cfg s i).istatus =
      if isrRead i then (clock cfg s i).iNew
      else if (clock cfg s i).iNew != 0x00#8 then
        s.istatus ||| (clock cfg s i).iNew
      else if cmdIs i 0x02#7 then 0x00#8
      else s.istatus := by
  have hRegisters :
      (registers cfg s i
        (endArms s i (engineArms s i))).istatus =
        if cmdIs i 0x02#7 then 0x00#8 else s.istatus := by
    dsimp
    rfl
  simp only [clock, sbufPorts, interruptMerge, hRegisters]

theorem clock_irq :
    (clock cfg s i).irq =
      if isrRead i then (clock cfg s i).iNew != 0x00#8
      else if (clock cfg s i).iNew != 0x00#8 then true
      else if cmdIs i 0x02#7 then false
      else s.irq := by
  have hRegisters :
      (registers cfg s i
        (endArms s i (engineArms s i))).irq =
        if cmdIs i 0x02#7 then false else s.irq := by
    dsimp
    rfl
  simp only [clock, sbufPorts, interruptMerge, hRegisters]

end

end Ncr53c96

------------------------------------------------------------
-- Next Values: FIFO
------------------------------------------------------------

namespace Ncr53c96

section

variable (cfg : Config) (s : Chip) (i : In)

attribute [local simp]
  clock sbufPorts interruptMerge_eq registers execCommand raise
  transferPad messageAccept commandComplete transferInfo
  selectStop selectCdb resetBus resetChip flushFifo loadCounter
  infoMsgIn infoMsgOut infoOut infoIn infoStatus collectCdb
  loadStatus fifoShift fifoPush plainWrite tcLatchWrite endArms
  pioInUnderflowArm msgOutDoneArm pioOutDoneArm doutDoneArm
  flushArm dinUnderflowArm dinDoneArm engineArms execArm cdbArm
  synthArm fifoEngine msgOutArm pioInArm decTc advancePos cdbByte
  dmaTake dmaAnswer prefetchArm ackArm mountArm execCdb
  illegalRequest startBlocks readCapacity synthesize requestSense
  testUnitReady execStart

theorem clock_fifo (k : Nat) :
    (clock cfg s i).fifo k =
      if regRd i 0x2#4 && s.fifoCnt != 0 && decide (k < 15) then
        s.fifo (k + 1)
      else if cmdIs i 0x11#7 && k == 0 then s.scsiStatus
      else if cmdIs i 0x11#7 && k == 1 then 0x00#8
      else if cmdIs i 0x10#7 && s.phase == .min && k == 0 then
        s.msginByte
      else if cmdIs i 0x10#7 && s.phase == .stat && k == 0 then
        s.scsiStatus
      else if cmdIs i 0x10#7 && s.phase == .stat && k == 1 then
        0x00#8
      else if cmdIs i 0x43#7 && selected cfg s &&
          s.fifoCnt != 0 && decide (k < 15) then s.fifo (k + 1)
      else if regWr i 0x2#4 && decide (s.fifoCnt < 16) &&
          k == s.fifoCnt then i.wdata
      else if armMsgOut s i && decide (k < 15) then s.fifo (k + 1)
      else if armPioIn s i && decide (s.fifoCnt < 16) &&
          k == s.fifoCnt then sbufByte s
      else if armFill s i && decide (s.fifoCnt < 16) &&
          k == s.fifoCnt then sbufByte s
      else if armDrain s i && decide (k < 15) then s.fifo (k + 1)
      else if armCdbFf s i && decide (k < 15) then s.fifo (k + 1)
      else if armOutDma s i && decide (s.fifoCnt < 16) &&
          k == s.fifoCnt then i.dmaWdata
      else if armPop s i && decide (k < 15) then s.fifo (k + 1)
      else s.fifo k := by
  dsimp
  rfl

theorem clock_fifoCnt :
    (clock cfg s i).fifoCnt =
      if regRd i 0x2#4 && s.fifoCnt != 0 then
        (s.fifoCnt + 31) % 32
      else if cmdIs i 0x12#7 then 0
      else if cmdIs i 0x11#7 then 2
      else if cmdIs i 0x10#7 && s.phase == .min then 1
      else if cmdIs i 0x10#7 && s.phase == .stat then 2
      else if cmdIs i 0x43#7 && !selected cfg s then 0
      else if cmdIs i 0x43#7 && selected cfg s &&
          s.fifoCnt != 0 then (s.fifoCnt + 31) % 32
      else if cmdIs i 0x02#7 then 0
      else if cmdIs i 0x01#7 then 0
      else if regWr i 0x2#4 && decide (s.fifoCnt < 16) then
        s.fifoCnt + 1
      else if armMsgOut s i then (s.fifoCnt + 31) % 32
      else if armPioIn s i && decide (s.fifoCnt < 16) then
        s.fifoCnt + 1
      else if armFill s i && decide (s.fifoCnt < 16) then
        s.fifoCnt + 1
      else if armDrain s i then (s.fifoCnt + 31) % 32
      else if armCdbFf s i then (s.fifoCnt + 31) % 32
      else if armOutDma s i && decide (s.fifoCnt < 16) then
        s.fifoCnt + 1
      else if armPop s i then (s.fifoCnt + 31) % 32
      else s.fifoCnt := by
  dsimp
  rfl

end

end Ncr53c96

------------------------------------------------------------
-- Next Values: Transfer Engine
------------------------------------------------------------

namespace Ncr53c96

section

variable (cfg : Config) (s : Chip) (i : In)

attribute [local simp]
  clock sbufPorts interruptMerge_eq registers execCommand raise
  transferPad messageAccept commandComplete transferInfo
  selectStop selectCdb resetBus resetChip flushFifo loadCounter
  infoMsgIn infoMsgOut infoOut infoIn infoStatus collectCdb
  loadStatus fifoShift fifoPush plainWrite tcLatchWrite endArms
  pioInUnderflowArm msgOutDoneArm pioOutDoneArm doutDoneArm
  flushArm dinUnderflowArm dinDoneArm engineArms execArm cdbArm
  synthArm fifoEngine msgOutArm pioInArm decTc advancePos cdbByte
  dmaTake dmaAnswer prefetchArm ackArm mountArm execCdb
  illegalRequest startBlocks readCapacity synthesize requestSense
  testUnitReady execStart

theorem clock_cdbActive :
    (clock cfg s i).cdbActive =
      if cmdIs i 0x12#7 && s.msginReject then true
      else if cmdIs i 0x43#7 && selected cfg s then false
      else if selectCmd i && selected cfg s then true
      else if cmdIs i 0x02#7 then false
      else if msgOutDone s && s.msgFirst != 0x01#8 then true
      else if cdbComplete s then false
      else s.cdbActive := by
  dsimp
  rfl

theorem clock_cdbPos :
    (clock cfg s i).cdbPos =
      if cmdIs i 0x12#7 && s.msginReject then 0
      else if selectCmd i && selected cfg s then 0
      else if msgOutDone s && s.msgFirst != 0x01#8 then 0
      else if armCdbFf s i && s.skipCnt == 0 then
        (s.cdbPos + 1) % 16
      else if armCdbDma s i && s.skipCnt == 0 then
        (s.cdbPos + 1) % 16
      else s.cdbPos := by
  dsimp
  rfl

theorem clock_cdbNeed :
    (clock cfg s i).cdbNeed =
      if cmdIs i 0x12#7 && s.msginReject then 0
      else if selectCmd i && selected cfg s then 0
      else if msgOutDone s && s.msgFirst != 0x01#8 then 0
      else if armCdbFf s i && s.skipCnt == 0 && s.cdbPos == 0 then
        groupLen (s.fifo 0)
      else if armCdbDma s i && s.skipCnt == 0 &&
          s.cdbPos == 0 then groupLen i.dmaWdata
      else s.cdbNeed := by
  dsimp
  rfl

theorem clock_skipCnt :
    (clock cfg s i).skipCnt =
      if cmdIs i 0x12#7 && s.msginReject then 0
      else if selectCmd i && selected cfg s then
        selectSkip (cmdOp i.wdata)
      else if cmdIs i 0x02#7 then 0
      else if msgOutDone s && s.msgFirst != 0x01#8 then 0
      else if armCdbFf s i && s.skipCnt != 0 then s.skipCnt - 1
      else if armCdbDma s i && s.skipCnt != 0 then s.skipCnt - 1
      else s.skipCnt := by
  dsimp
  rfl

theorem clock_cdb (k : Nat) :
    (clock cfg s i).cdb k =
      if armCdbFf s i && s.skipCnt == 0 && k == s.cdbPos then
        s.fifo 0
      else if armCdbDma s i && s.skipCnt == 0 &&
          k == s.cdbPos then i.dmaWdata
      else s.cdb k := by
  dsimp

theorem clock_execPending :
    (clock cfg s i).execPending =
      if cmdIs i 0x02#7 then false
      else if s.execPending then false
      else if cdbComplete s then true
      else s.execPending := by
  dsimp
  rfl

theorem clock_xferMsgOut :
    (clock cfg s i).xferMsgOut =
      if cmdIs i 0x10#7 && s.phase == .mout then true
      else if cmdIs i 0x43#7 && selected cfg s then false
      else if cmdIs i 0x02#7 then false
      else if msgOutDone s then false
      else s.xferMsgOut := by
  dsimp
  rfl

theorem clock_msgFirst :
    (clock cfg s i).msgFirst =
      if cmdIs i 0x10#7 && s.phase == .mout then 0x00#8
      else if armMsgOut s i && !s.msgFirstSeen then s.fifo 0
      else s.msgFirst := by
  dsimp
  rfl

theorem clock_msgFirstSeen :
    (clock cfg s i).msgFirstSeen =
      if cmdIs i 0x10#7 && s.phase == .mout then false
      else if cmdIs i 0x43#7 && selected cfg s then false
      else if cmdIs i 0x02#7 then false
      else if armMsgOut s i && !s.msgFirstSeen then true
      else s.msgFirstSeen := by
  dsimp
  rfl

theorem clock_msginByte :
    (clock cfg s i).msginByte =
      if cmdIs i 0x12#7 && s.msginReject then 0x00#8
      else if cmdIs i 0x11#7 then 0x00#8
      else if cmdIs i 0x02#7 then 0x00#8
      else if msgOutDone s && s.msgFirst == 0x01#8 then 0x07#8
      else s.msginByte := by
  dsimp
  rfl

theorem clock_msginReject :
    (clock cfg s i).msginReject =
      if cmdIs i 0x12#7 && s.msginReject then false
      else if cmdIs i 0x11#7 then false
      else if cmdIs i 0x02#7 then false
      else if msgOutDone s && s.msgFirst == 0x01#8 then true
      else s.msginReject := by
  dsimp
  rfl

theorem clock_xferIn :
    (clock cfg s i).xferIn =
      if cmdIs i 0x18#7 then false
      else if cmdIs i 0x10#7 && s.phase == .din &&
          cmdDma i.wdata then true
      else if cmdIs i 0x02#7 then false
      else if dinUnderflow s i then false
      else if dinDone s then false
      else s.xferIn := by
  dsimp
  rfl

theorem clock_xferOut :
    (clock cfg s i).xferOut =
      if cmdIs i 0x18#7 then false
      else if cmdIs i 0x10#7 && s.phase == .dout &&
          cmdDma i.wdata then true
      else if cmdIs i 0x02#7 then false
      else if doutDone s i then false
      else s.xferOut := by
  dsimp
  rfl

theorem clock_xferPioIn :
    (clock cfg s i).xferPioIn =
      if cmdIs i 0x10#7 && s.phase == .din && !cmdDma i.wdata &&
          s.fifoCnt == 0 then true
      else if cmdIs i 0x02#7 then false
      else if pioInUnderflow s i then false
      else if armPioIn s i then false
      else s.xferPioIn := by
  dsimp
  rfl

theorem clock_xferPioOut :
    (clock cfg s i).xferPioOut =
      if cmdIs i 0x10#7 && s.phase == .dout &&
          !cmdDma i.wdata then true
      else if cmdIs i 0x02#7 then false
      else if pioOutDone s then false
      else s.xferPioOut := by
  dsimp
  rfl

theorem clock_chunkIrqArmed :
    (clock cfg s i).chunkIrqArmed =
      if cmdIs i 0x10#7 && s.phase == .dout && cmdDma i.wdata then
        true
      else if cmdIs i 0x10#7 && s.phase == .din &&
          cmdDma i.wdata then true
      else if cmdIs i 0x02#7 then false
      else if doutDone s i then false
      else if dinUnderflow s i then false
      else if dinDone s then false
      else s.chunkIrqArmed := by
  dsimp
  rfl

end

end Ncr53c96

------------------------------------------------------------
-- Next Values: Target
------------------------------------------------------------

namespace Ncr53c96

section

variable (cfg : Config) (s : Chip) (i : In)

attribute [local simp]
  clock sbufPorts interruptMerge_eq registers execCommand raise
  transferPad messageAccept commandComplete transferInfo
  selectStop selectCdb resetBus resetChip flushFifo loadCounter
  infoMsgIn infoMsgOut infoOut infoIn infoStatus collectCdb
  loadStatus fifoShift fifoPush plainWrite tcLatchWrite endArms
  pioInUnderflowArm msgOutDoneArm pioOutDoneArm doutDoneArm
  flushArm dinUnderflowArm dinDoneArm engineArms execArm cdbArm
  synthArm fifoEngine msgOutArm pioInArm decTc advancePos cdbByte
  dmaTake dmaAnswer prefetchArm ackArm mountArm execCdb
  illegalRequest startBlocks readCapacity synthesize requestSense
  testUnitReady execStart

theorem clock_mounted :
    (clock cfg s i).mounted =
      if i.imgMounted then i.imgSize != 0#64
      else s.mounted := by
  dsimp

theorem clock_diskBlocks :
    (clock cfg s i).diskBlocks =
      if i.imgMounted then i.imgSize.extractLsb' 9 32
      else s.diskBlocks := by
  dsimp

theorem clock_lba :
    (clock cfg s i).lba =
      if flushDue s i then s.lba + 1#32
      else if s.execPending && s.cdb 0 == 0x2A#8 then lba10 s
      else if s.execPending && s.cdb 0 == 0x0A#8 then lba6 s
      else if s.execPending && s.cdb 0 == 0x28#8 then lba10 s
      else if s.execPending && s.cdb 0 == 0x08#8 then lba6 s
      else if prefetchDue s i then s.lba + 1#32
      else s.lba := by
  dsimp

theorem clock_blocksLeft :
    (clock cfg s i).blocksLeft =
      if flushDue s i && s.blocksLeft != 0 then s.blocksLeft - 1
      else if s.execPending && s.cdb 0 == 0x2A#8 then count10 s
      else if s.execPending && s.cdb 0 == 0x0A#8 then count6 s
      else if s.execPending && s.cdb 0 == 0x28#8 then count10 s
      else if s.execPending && s.cdb 0 == 0x08#8 then count6 s
      else if s.execPending then 0
      else if prefetchDue s i then s.blocksLeft - 1
      else s.blocksLeft := by
  dsimp

theorem clock_sbufLen :
    (clock cfg s i).sbufLen =
      if s.execPending && s.cdb 0 == 0x25#8 then 8
      else if s.execPending && s.cdb 0 == 0x1A#8 then 4
      else if s.execPending && s.cdb 0 == 0x12#8 then 36
      else if s.execPending && s.cdb 0 == 0x03#8 then 18
      else if publish s i then 512
      else s.sbufLen := by
  dsimp

theorem clock_sbufPos :
    (clock cfg s i).sbufPos =
      if flushDue s i then 0
      else if s.execPending then 0
      else if armPioIn s i then (s.sbufPos + 1) % 1024
      else if armFill s i then (s.sbufPos + 1) % 1024
      else if armDrain s i then (s.sbufPos + 1) % 1024
      else if publish s i then 0
      else s.sbufPos := by
  dsimp

theorem clock_dataDirIn :
    (clock cfg s i).dataDirIn =
      if s.execPending && s.cdb 0 == 0x2A#8 then false
      else if s.execPending && s.cdb 0 == 0x0A#8 then false
      else if s.execPending && s.cdb 0 == 0x28#8 then true
      else if s.execPending && s.cdb 0 == 0x08#8 then true
      else if s.execPending then true
      else s.dataDirIn := by
  dsimp

theorem clock_scsiStatus :
    (clock cfg s i).scsiStatus =
      if s.execPending && !knownCdb (s.cdb 0) then 0x02#8
      else if s.execPending then 0x00#8
      else s.scsiStatus := by
  dsimp

theorem clock_senseKey :
    (clock cfg s i).senseKey =
      if s.execPending && !knownCdb (s.cdb 0) then 0x05#8
      else if s.execPending && s.cdb 0 == 0x03#8 then 0x00#8
      else s.senseKey := by
  dsimp

theorem clock_bufValid :
    (clock cfg s i).bufValid =
      if s.execPending then false
      else if synthLast s then true
      else if prefetchDue s i then false
      else if publish s i then true
      else s.bufValid := by
  dsimp

theorem clock_synthKind :
    (clock cfg s i).synthKind =
      if s.execPending && s.cdb 0 == 0x25#8 then .cap
      else if s.execPending && s.cdb 0 == 0x1A#8 then .mode
      else if s.execPending && s.cdb 0 == 0x12#8 then .inq
      else if s.execPending && s.cdb 0 == 0x03#8 then .sense
      else s.synthKind := by
  dsimp

theorem clock_synthIdx :
    (clock cfg s i).synthIdx =
      if s.execPending && s.cdb 0 == 0x25#8 then 0
      else if s.execPending && s.cdb 0 == 0x1A#8 then 0
      else if s.execPending && s.cdb 0 == 0x12#8 then 0
      else if s.execPending && s.cdb 0 == 0x03#8 then 0
      else if synthOn s then (s.synthIdx + 1) % 64
      else s.synthIdx := by
  dsimp

theorem clock_synthLen :
    (clock cfg s i).synthLen =
      if s.execPending && s.cdb 0 == 0x25#8 then 8
      else if s.execPending && s.cdb 0 == 0x1A#8 then 4
      else if s.execPending && s.cdb 0 == 0x12#8 then 36
      else if s.execPending && s.cdb 0 == 0x03#8 then 18
      else if synthLast s then 0
      else s.synthLen := by
  dsimp

theorem clock_senseR :
    (clock cfg s i).senseR =
      if s.execPending && s.cdb 0 == 0x03#8 then s.senseKey
      else s.senseR := by
  dsimp

theorem clock_capR :
    (clock cfg s i).capR =
      if s.execPending && s.cdb 0 == 0x25#8 then
        s.diskBlocks - 1#32
      else s.capR := by
  dsimp

end

end Ncr53c96

------------------------------------------------------------
-- Next Values: Block Device and Buffer
------------------------------------------------------------

namespace Ncr53c96

section

variable (cfg : Config) (s : Chip) (i : In)

attribute [local simp]
  clock sbufPorts interruptMerge_eq registers execCommand raise
  transferPad messageAccept commandComplete transferInfo
  selectStop selectCdb resetBus resetChip flushFifo loadCounter
  infoMsgIn infoMsgOut infoOut infoIn infoStatus collectCdb
  loadStatus fifoShift fifoPush plainWrite tcLatchWrite endArms
  pioInUnderflowArm msgOutDoneArm pioOutDoneArm doutDoneArm
  flushArm dinUnderflowArm dinDoneArm engineArms execArm cdbArm
  synthArm fifoEngine msgOutArm pioInArm decTc advancePos cdbByte
  dmaTake dmaAnswer prefetchArm ackArm mountArm execCdb
  illegalRequest startBlocks readCapacity synthesize requestSense
  testUnitReady execStart

theorem clock_ioLba :
    (clock cfg s i).ioLba =
      if flushDue s i then s.lba
      else if prefetchDue s i then s.lba
      else s.ioLba := by
  dsimp

theorem clock_ioRd :
    (clock cfg s i).ioRd =
      if prefetchDue s i then true
      else if i.ioAck then false
      else s.ioRd := by
  dsimp

theorem clock_ioWr :
    (clock cfg s i).ioWr =
      if flushDue s i then true
      else if i.ioAck then false
      else s.ioWr := by
  dsimp

theorem clock_flushPending :
    (clock cfg s i).flushPending =
      if flushDue s i then true
      else if ackFall s i then false
      else s.flushPending := by
  dsimp

theorem clock_ioAckD :
    (clock cfg s i).ioAckD = i.ioAck := by
  dsimp

theorem clock_mem :
    (clock cfg s i).mem =
      if i.sdBuffWr then
        Function.update (engineMem s i) i.sdBuffAddr (platDinS cfg i)
      else engineMem s i := by
  dsimp

theorem clock_qE :
    (clock cfg s i).qE = s.mem (addrE s) := by
  dsimp

theorem clock_qS :
    (clock cfg s i).qS = s.mem i.sdBuffAddr := by
  dsimp

theorem clock_eqAddr :
    (clock cfg s i).eqAddr = addrE s := by
  dsimp

theorem clock_eqWr :
    (clock cfg s i).eqWr = weE s i := by
  dsimp

end

end Ncr53c96


------------------------------------------------------------
-- Guards as Propositions
------------------------------------------------------------

namespace Ncr53c96

variable {s : Chip} {i : In}

theorem synthOn_iff : synthOn s = true ↔ s.synthLen ≠ 0 := by
  simp [synthOn]

theorem synthLast_iff :
    synthLast s = true ↔
      s.synthLen ≠ 0 ∧ s.synthIdx = s.synthLen - 1 := by
  simp [synthLast, synthOn]

theorem ackFall_iff :
    ackFall s i = true ↔
      s.ioAckD = true ∧ i.ioAck = false := by
  simp [ackFall]

theorem publish_iff :
    publish s i = true ↔
      s.ioAckD = true ∧ i.ioAck = false ∧
        s.flushPending = false := by
  simp [publish, ackFall, and_assoc]

theorem byteAvail_iff :
    byteAvail s = true ↔
      s.bufValid = true ∧ s.sbufPos < s.sbufLen := by
  simp [byteAvail]

theorem prefetchDue_iff :
    prefetchDue s i = true ↔
      s.phase = .din ∧ s.dataDirIn = true ∧
        s.blocksLeft ≠ 0 ∧ ioBusy s i = false ∧
        (s.bufValid = false ∨ s.sbufLen ≤ s.sbufPos) := by
  simp [prefetchDue, and_assoc]

theorem flushDue_iff :
    flushDue s i = true ↔
      (s.xferOut = true ∨ s.xferPioOut = true) ∧
        s.sbufPos = 512 ∧ s.flushPending = false ∧
        ioBusy s i = false := by
  simp [flushDue, and_assoc]

theorem doutDone_iff :
    doutDone s i = true ↔
      s.xferOut = true ∧ s.chunkIrqArmed = true ∧
        s.tcZero = true ∧ s.fifoCnt = 0 ∧
        s.flushPending = false ∧ ioBusy s i = false := by
  simp [doutDone, and_assoc]

theorem sourceDone_iff :
    sourceDone s i = true ↔
      byteAvail s = false ∧ s.blocksLeft = 0 ∧
        ioBusy s i = false ∧ synthOn s = false := by
  simp [sourceDone, and_assoc]

theorem dinDone_iff :
    dinDone s = true ↔
      s.xferIn = true ∧ s.chunkIrqArmed = true ∧
        s.tcZero = true ∧ s.fifoCnt < 2 := by
  simp [dinDone, and_assoc]

theorem cdbComplete_iff :
    cdbComplete s = true ↔
      s.cdbActive = true ∧ s.cdbNeed ≠ 0 ∧
        s.cdbPos = s.cdbNeed := by
  simp [cdbComplete, and_assoc]

end Ncr53c96
