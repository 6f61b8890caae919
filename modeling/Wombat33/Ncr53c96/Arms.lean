import Wombat33.Ncr53c96.State

/-
  The chip's combinational logic: bus decode, the FIFO
  engine's arm predicates, the synthesized-response bytes
  and the sector-buffer port mux.

  Key definitions include:
    * `ioBusy`
    * `rdata`
    * `drq`
    * `armPop` through `armMsgOut`
    * `synthByte`
    * `weE`, `addrE`, `wbyteE`, `woddE`
    * `sbufRdOk`, `sbufByte`
-/

------------------------------------------------------------
-- Bus Decode
------------------------------------------------------------

namespace Ncr53c96

variable (cfg : Config) (s : Chip) (i : In)

/- A block-device transfer is in flight. -/
def ioBusy : Bool :=
  s.ioRd || s.ioWr || i.ioAck || s.ioAckD

def byteAvail : Bool :=
  s.bufValid && decide (s.sbufPos < s.sbufLen)

def drq : Bool :=
  if s.cdbActive then
    s.dmaActive && !s.tcZero && decide (s.fifoCnt < 15)
  else if s.xferOut then
    s.dmaActive && !s.tcZero && decide (s.fifoCnt < 15)
  else if s.xferIn then
    decide (2 ≤ s.fifoCnt)
  else false

/- The addressed register as the host reads it. -/
def rdata : Byte :=
  if i.rs == 0x0#4 then BitVec.ofNat 8 s.tcounter
  else if i.rs == 0x1#4 then BitVec.ofNat 8 (s.tcounter / 256)
  else if i.rs == 0x2#4 then
    (if s.fifoCnt != 0 then s.fifo 0 else 0x00#8)
  else if i.rs == 0x3#4 then s.cmdR
  else if i.rs == 0x4#4 then
    BitVec.ofBool s.irq ++ 0#2 ++ BitVec.ofBool s.tcZero ++
      0#1 ++ s.phase.bits
  else if i.rs == 0x5#4 then s.istatus
  else if i.rs == 0x6#4 then 0#5 ++ s.seqStep
  else if i.rs == 0x7#4 then
    s.seqStep ++ BitVec.ofNat 5 s.fifoCnt
  else if i.rs == 0x8#4 then s.conf1
  else if i.rs == 0x9#4 then s.clkconv
  else if i.rs == 0xA#4 then s.testr
  else if i.rs == 0xB#4 then s.conf2
  else if i.rs == 0xC#4 then s.conf3
  else 0x00#8

/- CDB length by opcode group. -/
def groupLen (op : Byte) : Nat :=
  if op.extractLsb' 5 3 == 1#3 || op.extractLsb' 5 3 == 2#3
  then 10 else 6

def regWrCyc : Bool := i.ce && i.sel && i.write

def regRdCyc : Bool := i.ce && i.sel && !i.write

/- The register interface itself touches the FIFO. -/
def fifoExt : Bool :=
  (regWrCyc i && (i.rs == 0x2#4 || i.rs == 0x3#4)) ||
    (regRdCyc i && i.rs == 0x2#4)

def isrRead : Bool := regRdCyc i && i.rs == 0x5#4

end Ncr53c96

------------------------------------------------------------
-- FIFO Engine Arms
------------------------------------------------------------

namespace Ncr53c96

variable (s : Chip) (i : In)

def engRd : Bool := !fifoExt i && i.dmaRd && !s.dmaValid

def engWr : Bool := !fifoExt i && i.dmaWr && !s.dmaValid

def armPop : Bool := engRd s i && s.fifoCnt != 0

def armRdIdle : Bool :=
  !armPop s i && engRd s i && !s.xferIn && !s.cdbActive

def armCdbDma : Bool :=
  !armPop s i && !armRdIdle s i && engWr s i &&
    s.cdbActive && s.dmaActive && !s.tcZero

def armOutDma : Bool :=
  !armPop s i && !armRdIdle s i && !armCdbDma s i &&
    engWr s i && s.xferOut && s.dmaActive && !s.tcZero &&
    decide (s.fifoCnt < 16)

def armSwallow : Bool :=
  !armPop s i && !armRdIdle s i && !armCdbDma s i &&
    !armOutDma s i && engWr s i && !s.cdbActive && !s.xferOut

def noDmaArm : Bool :=
  !armPop s i && !armRdIdle s i && !armCdbDma s i &&
    !armOutDma s i && !armSwallow s i

def armCdbFf : Bool :=
  !fifoExt i && noDmaArm s i && s.cdbActive && s.fifoCnt != 0

def armDrain : Bool :=
  !fifoExt i && noDmaArm s i && !armCdbFf s i &&
    (s.xferOut || s.xferPioOut) && s.fifoCnt != 0 &&
    !s.flushPending && decide (s.sbufPos < 512)

/- The address of the word `sbufPos` lies in. -/
def posWord : BitVec 8 := BitVec.ofNat 8 (s.sbufPos / 2)

/- The registered read reflects the word at `sbufPos`. -/
def sbufRdOk : Bool := s.eqAddr == posWord s && !s.eqWr

/- The byte of the registered read that `sbufPos` selects. -/
def sbufByte : Byte :=
  if s.sbufPos % 2 == 1 then s.qE.extractLsb' 0 8
  else s.qE.extractLsb' 8 8

def armFill : Bool :=
  !fifoExt i && noDmaArm s i && !armCdbFf s i &&
    !armDrain s i && s.xferIn && s.dmaActive && !s.tcZero &&
    decide (s.fifoCnt < 16) && byteAvail s && sbufRdOk s

def armPioIn : Bool :=
  !fifoExt i && noDmaArm s i && !armCdbFf s i &&
    !armDrain s i && !armFill s i && s.xferPioIn &&
    byteAvail s && s.fifoCnt == 0 && sbufRdOk s

def armMsgOut : Bool :=
  !fifoExt i && noDmaArm s i && !armCdbFf s i &&
    !armDrain s i && !armFill s i && !armPioIn s i &&
    s.xferMsgOut && s.fifoCnt != 0

end Ncr53c96

------------------------------------------------------------
-- Synthesized Responses and the Buffer's Engine Port
------------------------------------------------------------

namespace Ncr53c96

variable (cfg : Config) (s : Chip) (i : In)

/- A synthesized response is streaming into the buffer. -/
def synthOn : Bool := s.synthLen != 0

def synthByte (kind : SynthKind) (idx : Nat) : Byte :=
  match kind with
  | .sense =>
      if idx == 0 then 0x70#8
      else if idx == 2 then s.senseR
      else if idx == 7 then 0x0A#8
      else 0x00#8
  | .inq =>
      match idx with
      | 0 => 0x00#8
      | 1 => 0x00#8
      | 2 => 0x02#8
      | 3 => 0x02#8
      | 4 => 31#8
      | 8 => 0x57#8   -- "WOMBAT33"
      | 9 => 0x4F#8
      | 10 => 0x4D#8
      | 11 => 0x42#8
      | 12 => 0x41#8
      | 13 => 0x54#8
      | 14 => 0x33#8
      | 15 => 0x33#8
      | _ => 0x20#8
  | .mode => if idx == 0 then 0x03#8 else 0x00#8
  | .cap =>
      match idx with
      | 0 => s.capR.extractLsb' 24 8
      | 1 => s.capR.extractLsb' 16 8
      | 2 => s.capR.extractLsb' 8 8
      | 3 => s.capR.extractLsb' 0 8
      | 6 => 2#8
      | _ => 0x00#8

def weE : Bool := synthOn s || armDrain s i

def addrE : BitVec 8 :=
  if synthOn s then BitVec.ofNat 8 (s.synthIdx / 2)
  else posWord s

def wbyteE : Byte :=
  if synthOn s then synthByte s s.synthKind s.synthIdx
  else s.fifo 0

def woddE : Bool :=
  if synthOn s then s.synthIdx % 2 == 1
  else s.sbufPos % 2 == 1

/-
  The platform packs disk byte 0 in the high half under
  simulation and in the low half on hardware; the buffer
  keeps it in the high half.
-/
def platSwap (w : BitVec 16) : BitVec 16 :=
  if cfg.verilator then w
  else w.extractLsb' 0 8 ++ w.extractLsb' 8 8

def platDinS : BitVec 16 := platSwap cfg i.sdBuffDout

def sdBuffDin : BitVec 16 := platSwap cfg s.qS

end Ncr53c96
