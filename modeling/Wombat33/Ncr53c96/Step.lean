import Wombat33.Ncr53c96.Command

/-
  One clock edge of the chip.

  The clocked block is cut into its arms, in source order.
  An arm reads the state `s` before the edge and extends the
  assignments `n` made so far.

  Key definitions include:
    * `ackArm`, `prefetchArm`, `fifoEngine`
    * `dinDoneArm` through `pioInUnderflowArm`
    * `registers`, `interruptMerge`, `sbufPorts`
    * `clock`, `resetRegs`, `step`
-/

------------------------------------------------------------
-- Platform Handshake and Prefetch
------------------------------------------------------------

namespace Ncr53c96

variable (s : Chip) (i : In)

def mountArm (n : Chip) : Chip :=
  { n with
    mounted :=
      if i.imgMounted then i.imgSize != 0#64 else n.mounted
    diskBlocks :=
      if i.imgMounted then i.imgSize.extractLsb' 9 32
      else n.diskBlocks }

/- The falling edge of `ioAck`: the transfer is complete. -/
def ackFall : Bool := s.ioAckD && !i.ioAck

/- A finished load is published; a finished flush is not. -/
def publish : Bool := ackFall s i && !s.flushPending

/-
  `ioAck` rising drops the strobes; falling, it publishes a
  loaded sector or releases a flushed one.
-/
def ackArm (n : Chip) : Chip :=
  { n with
    ioAckD := i.ioAck
    ioRd := if i.ioAck then false else n.ioRd
    ioWr := if i.ioAck then false else n.ioWr
    bufValid := if publish s i then true else n.bufValid
    sbufLen := if publish s i then 512 else n.sbufLen
    sbufPos := if publish s i then 0 else n.sbufPos
    flushPending :=
      if ackFall s i then false else n.flushPending }

/- Data-in fetches the next sector once this one is spent. -/
def prefetchDue : Bool :=
  s.phase == .din && s.dataDirIn && s.blocksLeft != 0 &&
    !ioBusy s i &&
    (!s.bufValid || decide (s.sbufLen ≤ s.sbufPos))

def prefetchArm (n : Chip) : Chip :=
  let go := prefetchDue s i
  { n with
    bufValid := if go then false else n.bufValid
    ioLba := if go then s.lba else n.ioLba
    lba := if go then s.lba + 1 else n.lba
    blocksLeft := if go then s.blocksLeft - 1 else n.blocksLeft
    ioRd := if go then true else n.ioRd }

end Ncr53c96

------------------------------------------------------------
-- FIFO Engine and Response Sequencer
------------------------------------------------------------

namespace Ncr53c96

variable (s : Chip) (i : In)

/- The PDMA handshake answers with `b`. -/
def dmaAnswer (go : Bool) (b : Byte) (n : Chip) : Chip :=
  { n with
    dmaRlatch := if go then b else n.dmaRlatch
    dmaValid := if go then true else n.dmaValid }

def dmaTake (go : Bool) (n : Chip) : Chip :=
  { n with dmaValid := if go then true else n.dmaValid }

def advancePos (go : Bool) (n : Chip) : Chip :=
  { n with
    sbufPos := if go then (s.sbufPos + 1) % 1024 else n.sbufPos }

/- The byte at `sbufPos` is the target's last one. -/
def lastByte : Bool :=
  s.sbufPos == (s.sbufLen + 1023) % 1024 &&
    s.blocksLeft == 0 && !ioBusy s i

def pioInArm (go : Bool) (n : Chip) : Chip :=
  let n := advancePos s go (fifoPush go s (sbufByte s) n)
  raise go iBus { n with
    xferPioIn := if go then false else n.xferPioIn
    phase := if go && lastByte s i then .stat else n.phase }

def msgOutArm (go : Bool) (n : Chip) : Chip :=
  let first := go && !s.msgFirstSeen
  fifoShift go s { n with
    msgFirst := if first then s.fifo 0 else n.msgFirst
    msgFirstSeen := if first then true else n.msgFirstSeen }

/- At most one FIFO action per edge: the arms are one-hot. -/
def fifoEngine (n : Chip) : Chip :=
  msgOutArm s (armMsgOut s i) <|
    pioInArm s i (armPioIn s i) <|
    decTc (armFill s i) s <| advancePos s (armFill s i) <|
      fifoPush (armFill s i) s (sbufByte s) <|
    fifoShift (armDrain s i) s <|
      advancePos s (armDrain s i) <|
    fifoShift (armCdbFf s i) s <|
      cdbByte (armCdbFf s i) s (s.fifo 0) <|
    dmaTake (armSwallow s i) <|
    decTc (armOutDma s i) s <|
      fifoPush (armOutDma s i) s i.dmaWdata <|
      dmaTake (armOutDma s i) <|
    decTc (armCdbDma s i) s <|
      cdbByte (armCdbDma s i) s i.dmaWdata <|
      dmaTake (armCdbDma s i) <|
    dmaAnswer (armRdIdle s i) 0xFF#8 <|
    fifoShift (armPop s i) s <|
      dmaAnswer (armPop s i) (s.fifo 0) n

/- The last byte of a synthesized response. -/
def synthLast : Bool :=
  synthOn s && s.synthIdx == s.synthLen - 1

/- One response byte per edge; the last publishes it. -/
def synthArm (n : Chip) : Chip :=
  { n with
    synthIdx :=
      if synthOn s then (s.synthIdx + 1) % 64 else n.synthIdx
    synthLen := if synthLast s then 0 else n.synthLen
    bufValid := if synthLast s then true else n.bufValid }

/- The collector holds a complete CDB. -/
def cdbComplete : Bool :=
  s.cdbActive && s.cdbNeed != 0 && s.cdbPos == s.cdbNeed

def cdbArm (n : Chip) : Chip :=
  { n with
    cdbActive := if cdbComplete s then false else n.cdbActive
    execPending :=
      if cdbComplete s then true else n.execPending }

def execArm (n : Chip) : Chip :=
  execCdb s.execPending s { n with
    execPending :=
      if s.execPending then false else n.execPending }

end Ncr53c96

------------------------------------------------------------
-- Transfer Ends
------------------------------------------------------------

namespace Ncr53c96

variable (s : Chip) (i : In)

/- Nothing more will come from the source. -/
def sourceDone : Bool :=
  !byteAvail s && s.blocksLeft == 0 && !ioBusy s i &&
    !synthOn s

/- Data-in chunk complete: TC expired, FIFO drained. -/
def dinDone : Bool :=
  s.xferIn && s.chunkIrqArmed && s.tcZero &&
    decide (s.fifoCnt < 2)

def dinDoneArm (n : Chip) : Chip :=
  let go := dinDone s
  raise go iBus { n with
    chunkIrqArmed := if go then false else n.chunkIrqArmed
    xferIn := if go then false else n.xferIn
    phase := if go && sourceDone s i then .stat else n.phase }

/- Data-in underflow: source exhausted before TC. -/
def dinUnderflow : Bool :=
  s.xferIn && s.chunkIrqArmed && !s.tcZero && sourceDone s i

def dinUnderflowArm (n : Chip) : Chip :=
  let go := dinUnderflow s i
  raise go iBus { n with
    chunkIrqArmed := if go then false else n.chunkIrqArmed
    xferIn := if go then false else n.xferIn
    phase := if go then .stat else n.phase }

/- Data-out: a full sector is in the buffer. -/
def flushDue : Bool :=
  (s.xferOut || s.xferPioOut) && s.sbufPos == 512 &&
    !s.flushPending && !ioBusy s i

def flushArm (n : Chip) : Chip :=
  let go := flushDue s i
  let counted := go && s.blocksLeft != 0
  { n with
    ioLba := if go then s.lba else n.ioLba
    lba := if go then s.lba + 1 else n.lba
    blocksLeft :=
      if counted then s.blocksLeft - 1 else n.blocksLeft
    phase :=
      if counted && s.blocksLeft == 1 && !s.dataDirIn then .stat
      else n.phase
    ioWr := if go then true else n.ioWr
    flushPending := if go then true else n.flushPending
    sbufPos := if go then 0 else n.sbufPos }

/- Data-out chunk complete: TC expired, FIFO drained. -/
def doutDone : Bool :=
  s.xferOut && s.chunkIrqArmed && s.tcZero &&
    s.fifoCnt == 0 && !s.flushPending && !ioBusy s i

def doutDoneArm (n : Chip) : Chip :=
  let go := doutDone s i
  raise go iBus { n with
    chunkIrqArmed := if go then false else n.chunkIrqArmed
    xferOut := if go then false else n.xferOut
    phase :=
      if go && s.blocksLeft == 0 then .stat else n.phase }

/- Non-DMA data-out: FIFO drained. -/
def pioOutDone : Bool := s.xferPioOut && s.fifoCnt == 0

def pioOutDoneArm (n : Chip) : Chip :=
  let go := pioOutDone s
  raise go iBus { n with
    xferPioOut := if go then false else n.xferPioOut }

/- The outgoing message left the FIFO. -/
def msgOutDone : Bool := s.xferMsgOut && s.fifoCnt == 0

/-
  An extended message is answered with MESSAGE REJECT, any
  other leads to COMMAND.
-/
def msgOutDoneArm (n : Chip) : Chip :=
  let go := msgOutDone s
  let reject := go && s.msgFirst == 0x01#8
  let resume := go && s.msgFirst != 0x01#8
  raise go iBus <| collectCdb resume 0 { n with
    xferMsgOut := if go then false else n.xferMsgOut
    phase := if reject then .min else n.phase
    msginByte := if reject then 0x07#8 else n.msginByte
    msginReject := if reject then true else n.msginReject }

/- Non-DMA data-in underflow: the byte will never come. -/
def pioInUnderflow : Bool := s.xferPioIn && sourceDone s i

def pioInUnderflowArm (n : Chip) : Chip :=
  let go := pioInUnderflow s i
  raise go iBus { n with
    xferPioIn := if go then false else n.xferPioIn
    phase := if go then .stat else n.phase }

end Ncr53c96

------------------------------------------------------------
-- Register Interface and Sector Buffer
------------------------------------------------------------

namespace Ncr53c96

variable (cfg : Config) (s : Chip) (i : In)

/- A write to register `r` in this cycle. -/
def regWr (r : BitVec 4) : Bool := regWrCyc i && i.rs == r

/- A read of register `r` in this cycle. -/
def regRd (r : BitVec 4) : Bool := regRdCyc i && i.rs == r

/- The transfer-count latch; a write clears STATUS.TC0. -/
def tcLatchWrite (n : Chip) : Chip :=
  { n with
    tcLatch :=
      if regWr i 0x0#4 then s.tcLatch.extractLsb' 8 8 ++ i.wdata
      else if regWr i 0x1#4 then
        i.wdata ++ s.tcLatch.extractLsb' 0 8
      else n.tcLatch
    tcZero :=
      if regWr i 0x0#4 || regWr i 0x1#4 then false else n.tcZero }

/- The registers that only hold what was written. -/
def plainWrite (n : Chip) : Chip :=
  { n with
    cmdR := if regWr i 0x3#4 then i.wdata else n.cmdR
    destId :=
      if regWr i 0x4#4 then i.wdata.extractLsb' 0 4 else n.destId
    timeoutR := if regWr i 0x5#4 then i.wdata else n.timeoutR
    syncp := if regWr i 0x6#4 then i.wdata else n.syncp
    synco := if regWr i 0x7#4 then i.wdata else n.synco
    conf1 := if regWr i 0x8#4 then i.wdata else n.conf1
    clkconv := if regWr i 0x9#4 then i.wdata else n.clkconv
    testr := if regWr i 0xA#4 then i.wdata else n.testr
    conf2 := if regWr i 0xB#4 then i.wdata else n.conf2
    conf3 := if regWr i 0xC#4 then i.wdata else n.conf3 }

def registers (n : Chip) : Chip :=
  fifoShift (regRd i 0x2#4 && s.fifoCnt != 0) s <|
    execCommand cfg (regWr i 0x3#4) s i.wdata <|
    fifoPush (regWr i 0x2#4) s i.wdata <|
    plainWrite i <| tcLatchWrite s i n

/-
  Reading the interrupt register clears it; a raise on the
  same edge survives.
-/
def interruptMerge (n : Chip) : Chip :=
  let read := isrRead i
  let raised := n.iNew != 0x00#8
  { n with
    istatus :=
      if read then n.iNew
      else if raised then s.istatus ||| n.iNew
      else n.istatus
    irq :=
      if read then raised else if raised then true else n.irq
    seqStep := if read then 0 else n.seqStep }

/- Replace one byte of a buffer word. -/
def setByte (w : BitVec 16) (odd : Bool) (b : Byte) :
    BitVec 16 :=
  if odd then w.extractLsb' 8 8 ++ b
  else b ++ w.extractLsb' 0 8

/- The buffer after the engine port's write. -/
def engineMem : BitVec 8 → BitVec 16 :=
  if weE s i then
    Function.update s.mem (addrE s)
      (setByte (s.mem (addrE s)) (woddE s) (wbyteE s))
  else s.mem

/- Both ports of the sector buffer, and what `qE` reflects. -/
def sbufPorts (n : Chip) : Chip :=
  { n with
    mem :=
      if i.sdBuffWr then
        Function.update (engineMem s i) i.sdBuffAddr
          (platDinS cfg i)
      else engineMem s i
    qE := s.mem (addrE s)
    qS := s.mem i.sdBuffAddr
    eqAddr := addrE s
    eqWr := weE s i }

end Ncr53c96

------------------------------------------------------------
-- Clock Edge
------------------------------------------------------------

namespace Ncr53c96

variable (cfg : Config) (s : Chip) (i : In)

/- The reset branch; the FIFO, the CDB and RAM survive. -/
def resetRegs : Chip :=
  { s with
    iNew := 0x00#8
    tcLatch := 0#16, tcounter := 0, tcZero := false
    fifoCnt := 0, cmdR := 0x00#8, phase := .dout
    istatus := 0x00#8, seqStep := 0, destId := 0
    conf1 := 0x00#8, conf2 := 0x00#8, conf3 := 0x00#8
    clkconv := 0x00#8, timeoutR := 0x00#8
    syncp := 0x00#8, synco := 0x00#8, testr := 0x00#8
    irq := false, dmaValid := false, dmaRlatch := 0x00#8
    mounted := false, diskBlocks := 0
    ioLba := 0, ioRd := false, ioWr := false
    dmaActive := false
    cdbActive := false, cdbPos := 0, cdbNeed := 0
    skipCnt := 0, execPending := false
    xferMsgOut := false, msgFirst := 0x00#8
    msgFirstSeen := false
    msginByte := 0x00#8, msginReject := false
    xferIn := false, xferOut := false
    xferPioIn := false, xferPioOut := false
    chunkIrqArmed := false
    lba := 0, blocksLeft := 0
    sbufLen := 0, sbufPos := 0, bufValid := false
    flushPending := false, ioAckD := false
    dataDirIn := false, scsiStatus := 0x00#8
    senseKey := 0x00#8
    synthKind := .sense, synthIdx := 0, synthLen := 0
    senseR := 0x00#8, capR := 0 }

/- Everything before the transfer-end arms. -/
def engineArms : Chip :=
  execArm s <| cdbArm s <| synthArm s <| fifoEngine s i <|
    prefetchArm s i <| ackArm s i <| mountArm i
      { s with iNew := 0x00#8, dmaValid := false }

/- The transfer-end arms. -/
def endArms (n : Chip) : Chip :=
  pioInUnderflowArm s i <| msgOutDoneArm s <|
    pioOutDoneArm s <| doutDoneArm s i <| flushArm s i <|
      dinUnderflowArm s i <| dinDoneArm s i n

/- A clock edge out of reset. -/
def clock : Chip :=
  sbufPorts cfg s i <| interruptMerge s i <|
    registers cfg s i <| endArms s i <| engineArms s i

/- A clock edge. -/
def step : Chip :=
  if i.nreset then clock cfg s i
  else sbufPorts cfg s i (resetRegs s)

theorem step_of_nreset (h : i.nreset = true) :
    step cfg s i = clock cfg s i := by
  simp [step, h]

end Ncr53c96
