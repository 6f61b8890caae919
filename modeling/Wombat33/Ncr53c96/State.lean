import Mathlib.Logic.Function.Basic

/-
  The state of the SCSI controller `ncr53c96`.

  The registers are grouped as the source groups them: the
  register file, the transfer engine, the integrated disk
  target, the block-device handshake and the sector buffer.
  Counters are natural numbers; where the source lets one
  wrap, its update says so.  A register array is a function
  of its index.

  Key definitions include:
    * `Phase`
    * `Chip`
    * `In`
    * `Config`
-/

------------------------------------------------------------
-- Words and Phases
------------------------------------------------------------

namespace Ncr53c96

abbrev Byte := BitVec 8

/- The SCSI bus phases the chip can show in STATUS. -/
inductive Phase where
  | dout
  | din
  | cmd
  | stat
  | mout
  | min
  deriving DecidableEq, Repr, Inhabited

/- The phase bits of the status register. -/
def Phase.bits : Phase → BitVec 3
  | dout => 0
  | din => 1
  | cmd => 2
  | stat => 3
  | mout => 6
  | min => 7

/- Interrupt status bits. -/
def iFc : Byte := 0x08#8

def iBus : Byte := 0x10#8

def iDisc : Byte := 0x20#8

def iIll : Byte := 0x40#8

def iRst : Byte := 0x80#8

/- What the synthesized-response sequencer builds. -/
inductive SynthKind where
  | sense
  | inq
  | mode
  | cap
  deriving DecidableEq, Repr, Inhabited

end Ncr53c96

------------------------------------------------------------
-- Registers
------------------------------------------------------------

namespace Ncr53c96

/- The host-visible register file. -/
structure Regs where
  tcLatch : BitVec 16
  tcounter : Nat
  tcZero : Bool
  fifo : Nat → Byte
  fifoCnt : Nat
  cmdR : Byte
  phase : Phase
  istatus : Byte
  seqStep : BitVec 3
  destId : BitVec 4
  conf1 : Byte
  conf2 : Byte
  conf3 : Byte
  clkconv : Byte
  timeoutR : Byte
  syncp : Byte
  synco : Byte
  testr : Byte
  dmaActive : Bool
  irq : Bool
  dmaValid : Bool
  dmaRlatch : Byte
  deriving Inhabited

/- The transfer engine. -/
structure Engine where
  cdbActive : Bool
  cdbPos : Nat
  cdbNeed : Nat
  skipCnt : Nat
  xferMsgOut : Bool
  msgFirst : Byte
  msgFirstSeen : Bool
  msginByte : Byte
  msginReject : Bool
  execPending : Bool
  xferIn : Bool
  xferOut : Bool
  xferPioIn : Bool
  xferPioOut : Bool
  chunkIrqArmed : Bool
  deriving Inhabited

/- The integrated disk target. -/
structure Target where
  mounted : Bool
  diskBlocks : BitVec 32
  cdb : Nat → Byte
  lba : BitVec 32
  blocksLeft : Nat
  sbufLen : Nat
  sbufPos : Nat
  dataDirIn : Bool
  scsiStatus : Byte
  senseKey : Byte
  bufValid : Bool
  synthKind : SynthKind
  synthIdx : Nat
  synthLen : Nat
  senseR : Byte
  capR : BitVec 32
  deriving Inhabited

/- The block-device handshake. -/
structure BlockDev where
  ioLba : BitVec 32
  ioRd : Bool
  ioWr : Bool
  flushPending : Bool
  ioAckD : Bool
  deriving Inhabited

/-
  The sector buffer: 256 words, both reads registered, and
  the pair of registers that say what `qE` reflects.
-/
structure Sbuf where
  mem : BitVec 8 → BitVec 16
  qE : BitVec 16
  qS : BitVec 16
  eqAddr : BitVec 8
  eqWr : Bool
  deriving Inhabited

/-
  The whole chip.  `iNew` is the interrupt accumulator: it
  is assigned blockingly inside one clock edge.
-/
structure Chip extends
    Regs, Engine, Target, BlockDev, Sbuf where
  iNew : Byte
  deriving Inhabited

end Ncr53c96

------------------------------------------------------------
-- Inputs
------------------------------------------------------------

namespace Ncr53c96

/- The pins the chip samples at one clock edge. -/
structure In where
  nreset : Bool := true
  ce : Bool := true
  sel : Bool := false
  write : Bool := false
  rs : BitVec 4 := 0#4
  wdata : Byte := 0#8
  dmaRd : Bool := false
  dmaWr : Bool := false
  dmaWdata : Byte := 0#8
  imgMounted : Bool := false
  imgSize : BitVec 64 := 0#64
  ioAck : Bool := false
  sdBuffAddr : BitVec 8 := 0#8
  sdBuffDout : BitVec 16 := 0#16
  sdBuffWr : Bool := false
  deriving DecidableEq

/-
  Build options: the target's SCSI ID, and whether the
  simulation branches of the source are compiled in.
-/
structure Config where
  diskId : BitVec 4
  verilator : Bool

end Ncr53c96
