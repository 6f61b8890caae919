import Wombat33.Ncr53c96.Arms

/-
  The chip's tasks.  Each takes its enable `go`, the state
  `s` before the clock edge and the registers `n` assigned
  so far in the same edge.  Expressions read `s`; a
  nonblocking assignment `r <= e` is `if go then e else n.r`,
  so a later assignment wins.  Only `iNew`, the blocking
  accumulator, is read back from `n`.

  The arms of one `case` or `else if` chain have enables
  that exclude each other and are composed in source order.

  Key definitions include:
    * `raise`, `fifoPush`, `fifoShift`, `decTc`, `cdbByte`
    * `execCommand`
    * `execCdb`
-/

------------------------------------------------------------
-- Small Tasks
------------------------------------------------------------

namespace Ncr53c96

def raise (go : Bool) (bits : Byte) (n : Chip) : Chip :=
  { n with iNew := n.iNew ||| if go then bits else 0x00#8 }

/- A push into a full FIFO is dropped. -/
def fifoPush (go : Bool) (s : Chip) (b : Byte) (n : Chip) :
    Chip :=
  let room := go && decide (s.fifoCnt < 16)
  { n with
    fifo := fun k =>
      if room && k == s.fifoCnt then b else n.fifo k
    fifoCnt := if room then s.fifoCnt + 1 else n.fifoCnt }

/- Drop the head; the count is a 5-bit register. -/
def fifoShift (go : Bool) (s n : Chip) : Chip :=
  { n with
    fifo := fun k =>
      if go && decide (k < 15) then s.fifo (k + 1)
      else n.fifo k
    fifoCnt :=
      if go then (s.fifoCnt + 31) % 32 else n.fifoCnt }

/- Count one byte; the live counter has 17 bits. -/
def decTc (go : Bool) (s n : Chip) : Chip :=
  { n with
    tcounter :=
      if go then (s.tcounter + 131071) % 131072
      else n.tcounter
    tcZero :=
      if go && s.tcounter == 1 then true else n.tcZero }

/- One CDB byte arrived: a leading message byte is dropped. -/
def cdbByte (go : Bool) (s : Chip) (b : Byte) (n : Chip) :
    Chip :=
  let skip := go && s.skipCnt != 0
  let keep := go && s.skipCnt == 0
  { n with
    skipCnt := if skip then s.skipCnt - 1 else n.skipCnt
    cdb := fun k =>
      if keep && k == s.cdbPos then b else n.cdb k
    cdbNeed :=
      if keep && s.cdbPos == 0 then groupLen b else n.cdbNeed
    cdbPos :=
      if keep then (s.cdbPos + 1) % 16 else n.cdbPos }

end Ncr53c96

------------------------------------------------------------
-- Command Register Writes
------------------------------------------------------------

namespace Ncr53c96

variable (cfg : Config)

/- The disk answers the selected ID. -/
def selected (s : Chip) : Bool :=
  s.destId == cfg.diskId && s.mounted

/- Restart CDB collection, dropping `skip` leading bytes. -/
def collectCdb (go : Bool) (skip : Nat) (n : Chip) : Chip :=
  { n with
    phase := if go then .cmd else n.phase
    cdbActive := if go then true else n.cdbActive
    cdbPos := if go then 0 else n.cdbPos
    cdbNeed := if go then 0 else n.cdbNeed
    skipCnt := if go then skip else n.skipCnt }

/- The latched count; 0 means 65536. -/
def tcLoad (s : Chip) : Nat :=
  if s.tcLatch == 0#16 then 65536 else s.tcLatch.toNat

/- The counter is loaded with at least one byte. -/
theorem tcLoad_bounds (s : Chip) :
    0 < tcLoad s ∧ tcLoad s ≤ 65536 := by
  unfold tcLoad
  split
  next => simp
  next hNonzero =>
      have hLt := s.tcLatch.isLt
      have hPos : s.tcLatch.toNat ≠ 0 := by
        intro hZero
        have hLatch : s.tcLatch = 0#16 :=
          BitVec.eq_of_toNat_eq hZero
        exact hNonzero (by simp [hLatch])
      omega

/- Every command latches its DMA bit; DMA loads the counter. -/
def loadCounter (go dma : Bool) (s n : Chip) : Chip :=
  { n with
    dmaActive := if go then dma else n.dmaActive
    tcounter := if go && dma then tcLoad s else n.tcounter
    tcZero := if go && dma then false else n.tcZero }

/- $01: flush FIFO. -/
def flushFifo (go : Bool) (n : Chip) : Chip :=
  { n with fifoCnt := if go then 0 else n.fifoCnt }

/- $02: reset chip. -/
def resetChip (go : Bool) (n : Chip) : Chip :=
  { n with
    fifoCnt := if go then 0 else n.fifoCnt
    istatus := if go then 0x00#8 else n.istatus
    irq := if go then false else n.irq
    phase := if go then .dout else n.phase
    seqStep := if go then 0 else n.seqStep
    cdbActive := if go then false else n.cdbActive
    execPending := if go then false else n.execPending
    skipCnt := if go then 0 else n.skipCnt
    xferIn := if go then false else n.xferIn
    xferOut := if go then false else n.xferOut
    xferPioIn := if go then false else n.xferPioIn
    xferPioOut := if go then false else n.xferPioOut
    xferMsgOut := if go then false else n.xferMsgOut
    msgFirstSeen := if go then false else n.msgFirstSeen
    msginByte := if go then 0x00#8 else n.msginByte
    msginReject := if go then false else n.msginReject
    chunkIrqArmed := if go then false else n.chunkIrqArmed
    dmaActive := if go then false else n.dmaActive
    tcZero := if go then false else n.tcZero }

/- $03: reset SCSI bus; CONFIG1 bit 6 gates the interrupt. -/
def resetBus (go : Bool) (s n : Chip) : Chip :=
  raise (go && !s.conf1.getLsbD 6) iRst n

/- The select forms that collect a CDB. -/
def selectOp (op : BitVec 7) : Bool :=
  op == 0x41#7 || op == 0x42#7 || op == 0x46#7

/- Leading message bytes of a select form. -/
def selectSkip (op : BitVec 7) : Nat :=
  if op == 0x46#7 then 3 else if op == 0x42#7 then 1 else 0

/- $41, $42, $46: select and collect the CDB. -/
def selectCdb
    (go : Bool)
    (s : Chip)
    (op : BitVec 7)
    (n : Chip) : Chip :=
  let hit := go && selected cfg s
  let miss := go && !selected cfg s
  let n := collectCdb hit (selectSkip op) n
  raise miss iDisc { n with
    seqStep :=
      if hit then 4 else if miss then 0 else n.seqStep }

/- $43: select and stop after the IDENTIFY. -/
def selectStop (go : Bool) (s n : Chip) : Chip :=
  let hit := go && selected cfg s
  let miss := go && !selected cfg s
  let n := fifoShift (hit && s.fifoCnt != 0) s n
  let n := { n with
    phase := if hit then .mout else n.phase
    seqStep :=
      if hit then 1 else if miss then 0 else n.seqStep
    cdbActive := if hit then false else n.cdbActive
    xferMsgOut := if hit then false else n.xferMsgOut
    msgFirstSeen := if hit then false else n.msgFirstSeen
    fifoCnt := if miss then 0 else n.fifoCnt }
  raise miss iDisc (raise hit (iBus ||| iFc) n)

/- Load the FIFO with status and a zero message byte. -/
def loadStatus (go : Bool) (s n : Chip) : Chip :=
  { n with
    fifo := fun k =>
      if go && k == 0 then s.scsiStatus
      else if go && k == 1 then 0x00#8
      else n.fifo k
    fifoCnt := if go then 2 else n.fifoCnt
    phase := if go then .min else n.phase }

/- $10 in DATA IN. -/
def infoIn (go dma : Bool) (s n : Chip) : Chip :=
  let waiting := go && !dma && s.fifoCnt != 0
  raise waiting iBus { n with
    xferIn := if go && dma then true else n.xferIn
    chunkIrqArmed :=
      if go && dma then true else n.chunkIrqArmed
    xferPioIn :=
      if go && !dma && s.fifoCnt == 0 then true
      else n.xferPioIn }

/- $10 in DATA OUT. -/
def infoOut (go dma : Bool) (n : Chip) : Chip :=
  { n with
    xferOut := if go && dma then true else n.xferOut
    chunkIrqArmed :=
      if go && dma then true else n.chunkIrqArmed
    xferPioOut := if go && !dma then true else n.xferPioOut }

/- $10 in STATUS. -/
def infoStatus (go : Bool) (s n : Chip) : Chip :=
  raise go iFc (loadStatus go s n)

/- $10 in MESSAGE IN. -/
def infoMsgIn (go : Bool) (s n : Chip) : Chip :=
  raise go iFc { n with
    fifo := fun k =>
      if go && k == 0 then s.msginByte else n.fifo k
    fifoCnt := if go then 1 else n.fifoCnt }

/- $10 in MESSAGE OUT. -/
def infoMsgOut (go : Bool) (n : Chip) : Chip :=
  { n with
    xferMsgOut := if go then true else n.xferMsgOut
    msgFirstSeen := if go then false else n.msgFirstSeen
    msgFirst := if go then 0x00#8 else n.msgFirst }

/- $10: information transfer; in COMMAND it does nothing. -/
def transferInfo (go dma : Bool) (s n : Chip) : Chip :=
  infoMsgOut (go && s.phase == .mout) <|
    infoMsgIn (go && s.phase == .min) s <|
    infoStatus (go && s.phase == .stat) s <|
    infoOut (go && s.phase == .dout) dma <|
    infoIn (go && s.phase == .din) dma s n

/- $11: initiator command complete. -/
def commandComplete (go : Bool) (s n : Chip) : Chip :=
  let n := loadStatus go s n
  raise go iFc { n with
    msginByte := if go then 0x00#8 else n.msginByte
    msginReject := if go then false else n.msginReject }

/- $12: message accept. -/
def messageAccept (go : Bool) (s n : Chip) : Chip :=
  let resume := go && s.msginReject
  let done := go && !s.msginReject
  let n := { n with
    seqStep := if go then 0 else n.seqStep
    fifoCnt := if go then 0 else n.fifoCnt
    msginReject := if resume then false else n.msginReject
    msginByte := if resume then 0x00#8 else n.msginByte
    phase := if done then .dout else n.phase }
  raise done iDisc (raise resume iBus (collectCdb resume 0 n))

/- $18: transfer pad. -/
def transferPad (go : Bool) (n : Chip) : Chip :=
  raise go iBus { n with
    xferIn := if go then false else n.xferIn
    xferOut := if go then false else n.xferOut
    tcZero := if go then true else n.tcZero }

/- The opcodes that do nothing beyond their DMA bit. -/
def silentOp (op : BitVec 7) : Bool :=
  op == 0x00#7 || op == 0x44#7 || op == 0x45#7 || op == 0x1A#7 ||
    op == 0x1B#7

def knownOp (op : BitVec 7) : Bool :=
  silentOp op || selectOp op || op == 0x01#7 || op == 0x02#7 ||
    op == 0x03#7 || op == 0x43#7 || op == 0x10#7 || op == 0x11#7 ||
    op == 0x12#7 || op == 0x18#7

/- The opcode of a command byte, its DMA bit masked off. -/
def cmdOp (c : Byte) : BitVec 7 := c.extractLsb' 0 7

/- The DMA bit of a command byte. -/
def cmdDma (c : Byte) : Bool := c.getLsbD 7

def execCommand (go : Bool) (s : Chip) (c : Byte) (n : Chip) :
    Chip :=
  let op := cmdOp c
  raise (go && !knownOp op) iIll <|
    transferPad (go && op == 0x18#7) <|
    messageAccept (go && op == 0x12#7) s <|
    commandComplete (go && op == 0x11#7) s <|
    transferInfo (go && op == 0x10#7) (cmdDma c) s <|
    selectStop cfg (go && op == 0x43#7) s <|
    selectCdb cfg (go && selectOp op) s op <|
    resetBus (go && op == 0x03#7) s <|
    resetChip (go && op == 0x02#7) <|
    flushFifo (go && op == 0x01#7) <|
    loadCounter go (cmdDma c) s n

end Ncr53c96

------------------------------------------------------------
-- CDB Execution
------------------------------------------------------------

namespace Ncr53c96

/- Start a synthesized response of `len` bytes. -/
def synthesize
    (go : Bool)
    (kind : SynthKind)
    (len : Nat)
    (n : Chip) : Chip :=
  { n with
    synthKind := if go then kind else n.synthKind
    synthIdx := if go then 0 else n.synthIdx
    synthLen := if go then len else n.synthLen
    sbufLen := if go then len else n.sbufLen
    phase := if go then .din else n.phase }

/- Start a block transfer of `count` blocks from `lba`. -/
def startBlocks
    (go : Bool)
    (lba : BitVec 32)
    (count : Nat)
    (dirIn : Bool)
    (n : Chip) : Chip :=
  { n with
    lba := if go then lba else n.lba
    blocksLeft := if go then count else n.blocksLeft
    dataDirIn := if go then dirIn else n.dataDirIn
    phase :=
      if go then (if dirIn then .din else .dout)
      else n.phase }

/- Start block and block count of a 6-byte CDB. -/
def lba6 (s : Chip) : BitVec 32 :=
  0#11 ++ (s.cdb 1).extractLsb' 0 5 ++ s.cdb 2 ++ s.cdb 3

def count6 (s : Chip) : Nat :=
  if s.cdb 4 == 0#8 then 256 else (s.cdb 4).toNat

/- Start block and block count of a 10-byte CDB. -/
def lba10 (s : Chip) : BitVec 32 :=
  s.cdb 2 ++ s.cdb 3 ++ s.cdb 4 ++ s.cdb 5

def count10 (s : Chip) : Nat :=
  (s.cdb 7 ++ s.cdb 8 : BitVec 16).toNat

/- REQUEST SENSE latches the sense key and clears it. -/
def requestSense (go : Bool) (s n : Chip) : Chip :=
  synthesize go .sense 18 { n with
    senseR := if go then s.senseKey else n.senseR
    senseKey := if go then 0x00#8 else n.senseKey }

/- READ CAPACITY latches the last block number. -/
def readCapacity (go : Bool) (s n : Chip) : Chip :=
  synthesize go .cap 8 { n with
    capR := if go then s.diskBlocks - 1 else n.capR }

/- An unknown opcode ends in CHECK CONDITION. -/
def illegalRequest (go : Bool) (n : Chip) : Chip :=
  { n with
    scsiStatus := if go then 0x02#8 else n.scsiStatus
    senseKey := if go then 0x05#8 else n.senseKey
    phase := if go then .stat else n.phase }

def knownCdb (op : Byte) : Bool :=
  op == 0x00#8 || op == 0x03#8 || op == 0x12#8 || op == 0x1A#8 ||
    op == 0x25#8 || op == 0x08#8 || op == 0x28#8 || op == 0x0A#8 ||
    op == 0x2A#8

/- What every CDB does first. -/
def execStart (go : Bool) (n : Chip) : Chip :=
  raise go (iBus ||| iFc) { n with
    scsiStatus := if go then 0x00#8 else n.scsiStatus
    bufValid := if go then false else n.bufValid
    sbufPos := if go then 0 else n.sbufPos
    blocksLeft := if go then 0 else n.blocksLeft
    dataDirIn := if go then true else n.dataDirIn }

/- TEST UNIT READY goes straight to STATUS. -/
def testUnitReady (go : Bool) (n : Chip) : Chip :=
  { n with phase := if go then .stat else n.phase }

/- Execute the collected CDB against the target. -/
def execCdb (go : Bool) (s n : Chip) : Chip :=
  let op := s.cdb 0
  illegalRequest (go && !knownCdb op) <|
    startBlocks (go && op == 0x2A#8) (lba10 s) (count10 s) false <|
    startBlocks (go && op == 0x0A#8) (lba6 s) (count6 s) false <|
    startBlocks (go && op == 0x28#8) (lba10 s) (count10 s) true <|
    startBlocks (go && op == 0x08#8) (lba6 s) (count6 s) true <|
    readCapacity (go && op == 0x25#8) s <|
    synthesize (go && op == 0x1A#8) .mode 4 <|
    synthesize (go && op == 0x12#8) .inq 36 <|
    requestSense (go && op == 0x03#8) s <|
    testUnitReady (go && op == 0x00#8) <|
    execStart go n

end Ncr53c96
