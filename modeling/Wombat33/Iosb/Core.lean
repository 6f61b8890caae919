import Mathlib.Algebra.Group.Nat.Defs
import Wombat33.Ncr53c96.Step

/-
  The I/O ASIC `iosb`: its beat slave, the pseudo-VIA's
  interrupt flags and the SCSI controller inside it.

  VIA1, the SCC and the sound chip are separate modules; what
  the beat slave reads of them are inputs here.

  Key definitions include:
    * `Asic`, `In`
    * `irqLine`, `ifrWrite`, `ifrNext`
    * `beatNext`
    * `step`
-/

------------------------------------------------------------
-- Registers and Pins
------------------------------------------------------------

namespace Iosb

abbrev Byte := BitVec 8

inductive AState where
  | idle
  | via
  | capture
  | sdma
  | asc
  | sccAcc
  | sccRel
  deriving DecidableEq, Repr, Inhabited

/- The beat slave and its pseudo-DMA beat. -/
structure Beat where
  astate : AState
  ack : Bool
  rdata : BitVec 32
  sdmaFault : Bool
  via1Ren : Bool
  via1Wen : Bool
  via1Addr : BitVec 4
  via1Din : Byte
  sdmaRd : Bool
  sdmaWr : Bool
  sdmaLeft : Nat
  sdmaShift : BitVec 32
  sdmaWbyte : Byte
  sdmaBe : BitVec 4
  sdmaWatch : Nat
  sccCs : Bool
  deriving DecidableEq, Inhabited

/- The pseudo-VIA: flags, enables and the edge detectors. -/
structure Via2 where
  ifr : Byte
  ier : Byte
  vblD : Bool
  scsiD : Bool
  drqD : Bool
  ascD : Bool
  slotD : Bool
  deriving DecidableEq, Inhabited

/- Configuration registers that only read back. -/
structure Scratch where
  djmemcRegs : BitVec 4 → BitVec 32
  iosbRegs : BitVec 5 → BitVec 16
  deriving Inhabited

structure Asic where
  beat : Beat
  via2 : Via2
  scratch : Scratch
  scsi : Ncr53c96.Chip
  deriving Inhabited

structure In where
  nreset : Bool := true
  ce : Bool := true
  sel : Bool := false
  write : Bool := false
  addr : BitVec 26 := 0#26
  be : BitVec 4 := 0#4
  wdata : BitVec 32 := 0#32
  vblIrq : Bool := false
  scsiIrq : Bool := false
  scsiDrq : Bool := false
  ascIrq : Bool := false
  imgMounted : Bool := false
  imgSize : BitVec 64 := 0#64
  ioAck : Bool := false
  sdBuffAddr : BitVec 8 := 0#8
  sdBuffDout : BitVec 16 := 0#16
  sdBuffWr : Bool := false
  eFalling : Bool := false
  via1Dout : Byte := 0#8
  eascIrq : Bool := false
  ascRdata : BitVec 32 := 0#32
  sccCen : Bool := false
  sccRdata : Byte := 0#8
  deriving DecidableEq

/- Build options; the watchdog's width is a parameter. -/
structure Config where
  scsi : Ncr53c96.Config
  sdmaTimeoutBits : Nat

end Iosb

------------------------------------------------------------
-- Decode
------------------------------------------------------------

namespace Iosb

variable (s : Asic) (i : In)

/- Address bits `lo + n - 1 .. lo`; the port starts at 2. -/
def addrBits (lo n : Nat) : BitVec n :=
  i.addr.extractLsb' (lo - 2) n

def inLow : Bool := addrBits i 24 4 == 0x0#4

def selVia1 : Bool := inLow i && addrBits i 13 5 == 0b00000#5

def selVia2 : Bool := inLow i && addrBits i 13 7 == 0b0000001#7

def selRegs : Bool := inLow i && addrBits i 13 7 == 0b0001100#7

def selDjmemc : Bool :=
  inLow i && addrBits i 13 7 == 0b0000111#7

def selAsc : Bool := inLow i && addrBits i 12 8 == 0x14#8

def selScsi : Bool := inLow i && addrBits i 8 10 == 0x100#10

def selSdma : Bool := inLow i && addrBits i 8 10 == 0x101#10

def selId : Bool := addrBits i 16 12 == 0xFFF#12

def selScc : Bool := inLow i && addrBits i 13 5 == 0b00110#5

def rsel : BitVec 4 := addrBits i 9 4

/- Write byte: the highest enabled lane. -/
def wbyte : Byte :=
  if i.be.getLsbD 3 then i.wdata.extractLsb' 24 8
  else if i.be.getLsbD 2 then i.wdata.extractLsb' 16 8
  else if i.be.getLsbD 1 then i.wdata.extractLsb' 8 8
  else i.wdata.extractLsb' 0 8

/- The beat slave accepts a beat in this cycle. -/
def accept : Bool :=
  i.ce && s.beat.astate == .idle && i.sel && !s.beat.ack

def scsiStrobe : Bool := accept s i && selScsi i

/- The pins of the SCSI controller. -/
def scsiIn : Ncr53c96.In where
  nreset := i.nreset
  ce := i.ce
  sel := scsiStrobe s i
  write := i.write
  rs := addrBits i 4 4
  wdata := wbyte i
  dmaRd := s.beat.sdmaRd
  dmaWr := s.beat.sdmaWr
  dmaWdata := s.beat.sdmaWbyte
  imgMounted := i.imgMounted
  imgSize := i.imgSize
  ioAck := i.ioAck
  sdBuffAddr := i.sdBuffAddr
  sdBuffDout := i.sdBuffDout
  sdBuffWr := i.sdBuffWr

def rep4 (b : Byte) : BitVec 32 := b ++ b ++ b ++ b

end Iosb

------------------------------------------------------------
-- VIA2 Interrupt Flags
------------------------------------------------------------

namespace Iosb

variable (s : Asic) (i : In)

def nubusIrqs : Byte :=
  BitVec.ofBool true ++ BitVec.ofBool (!i.vblIrq) ++
    0b111111#6

def slotAny : Bool := nubusIrqs i &&& 0x79#8 != 0x79#8

def ascIrqI : Bool := i.ascIrq || i.eascIrq

def scsiIrqI : Bool := i.scsiIrq || s.scsi.irq

def scsiDrqI : Bool :=
  i.scsiDrq || Ncr53c96.drq s.scsi

/- An IFR write in this cycle. -/
def ifrWrite : Bool :=
  accept s i && !selVia1 i && selVia2 i && i.write &&
    rsel i == 13#4

def ierWrite : Bool :=
  accept s i && !selVia1 i && selVia2 i && i.write &&
    rsel i == 14#4

/- One bit of a register takes a value. -/
def setBit (go : Bool) (b : Nat) (x : Bool) (v : Byte) : Byte :=
  if go then
    (if x then v ||| 1#8 <<< b else v &&& ~~~(1#8 <<< b))
  else v

/- The line edges latch into the flags, in source order. -/
def ifrEdges : Byte :=
  setBit (ascIrqI i && !s.via2.ascD) 4 true <|
    setBit (slotAny i != s.via2.slotD) 1 (slotAny i) <|
    setBit (scsiDrqI s i != s.via2.drqD) 0 (scsiDrqI s i) <|
    setBit (scsiIrqI s i != s.via2.scsiD) 3 (scsiIrqI s i)
      s.via2.ifr

/-
  An IFR write assigns all seven flags from their old values,
  after the edges were latched.
-/
def ifrNext : Byte :=
  if ifrWrite s i then
    (ifrEdges s i).extractLsb' 7 1 ++
      (s.via2.ifr.extractLsb' 0 7 &&&
        ~~~((wbyte i).extractLsb' 0 7 &&& 0x1B#7))
  else ifrEdges s i

def ierNext : Byte :=
  if ierWrite s i then
    s.via2.ier.extractLsb' 7 1 ++
      (if (wbyte i).getLsbD 7 then
        s.via2.ier.extractLsb' 0 7 |||
          ((wbyte i).extractLsb' 0 7 &&& 0x1B#7)
      else
        s.via2.ier.extractLsb' 0 7 &&&
          ~~~((wbyte i).extractLsb' 0 7 &&& 0x1B#7))
  else s.via2.ier

def via2Next : Via2 where
  ifr := ifrNext s i
  ier := ierNext s i
  vblD := i.vblIrq
  scsiD := scsiIrqI s i
  drqD := scsiDrqI s i
  ascD := ascIrqI i
  slotD := slotAny i

def via2Active : Bool :=
  s.via2.ifr.extractLsb' 0 7 &&& s.via2.ier.extractLsb' 0 7 &&&
    0x1B#7 != 0#7

/- IFR as it reads: a live DREQ and the summary bit. -/
def via2IfrR : Byte :=
  BitVec.ofBool (via2Active s) ++
    s.via2.ifr.extractLsb' 1 6 ++ BitVec.ofBool (scsiDrqI s i)

end Iosb

------------------------------------------------------------
-- Beat Slave
------------------------------------------------------------

namespace Iosb

variable (cfg : Config) (s : Asic) (i : In)

/- What a pseudo-VIA read returns. -/
def via2Rdata : BitVec 32 :=
  if rsel i == 1#4 || rsel i == 15#4 then rep4 (nubusIrqs i)
  else if rsel i == 13#4 then rep4 (via2IfrR s i)
  else if rsel i == 14#4 then rep4 s.via2.ier
  else 0#32

/- Bytes in a pseudo-DMA beat. -/
def sdmaCount (be : BitVec 4) : Nat :=
  if be == 0b1111#4 then 4
  else if be == 0b1100#4 || be == 0b0011#4 then 2
  else 1

/- A pseudo-DMA beat's write data, left-aligned. -/
def sdmaAlign (be : BitVec 4) (d : BitVec 32) : BitVec 32 :=
  if be == 0b1111#4 || be == 0b1100#4 || be == 0b1000#4 then d
  else if be == 0b0100#4 then d.extractLsb' 0 24 ++ 0#8
  else if be == 0b0011#4 || be == 0b0010#4 then
    d.extractLsb' 0 16 ++ 0#16
  else d.extractLsb' 0 8 ++ 0#24

/- The bytes read by a finished pseudo-DMA beat, in place. -/
def sdmaRdata (b : Beat) (rbyte : Byte) : BitVec 32 :=
  if b.sdmaBe == 0b1111#4 then
    b.sdmaShift.extractLsb' 0 24 ++ rbyte
  else if b.sdmaBe == 0b1100#4 then
    b.sdmaShift.extractLsb' 0 8 ++ rbyte ++ 0#16
  else if b.sdmaBe == 0b0011#4 then
    0#16 ++ b.sdmaShift.extractLsb' 0 8 ++ rbyte
  else rep4 rbyte

/- A beat accepted from the bus. -/
def beatAccept (b : Beat) : Beat :=
  if selVia1 i then
    { b with
      via1Addr := rsel i, via1Din := wbyte i
      via1Wen := i.write, via1Ren := !i.write, astate := .via }
  else if selVia2 i then
    { b with
      ack := true
      rdata := if i.write then b.rdata else via2Rdata s i }
  else if selRegs i then
    let r := s.scratch.iosbRegs (addrBits i 8 5)
    { b with
      ack := true
      rdata := if i.write then b.rdata else r ++ r }
  else if selDjmemc i then
    { b with
      ack := true
      rdata :=
        if i.write then b.rdata
        else s.scratch.djmemcRegs (addrBits i 2 4) }
  else if selAsc i then
    (if i.write then { b with ack := true }
    else { b with astate := .asc })
  else if selScc i then
    { b with sccCs := true, astate := .sccAcc }
  else if selScsi i then
    { b with
      ack := true
      rdata := rep4 (Ncr53c96.rdata s.scsi (scsiIn s i)) }
  else if selSdma i then
    { b with
      sdmaBe := i.be
      sdmaLeft := sdmaCount i.be
      sdmaShift := sdmaAlign i.be i.wdata
      sdmaWbyte := (sdmaAlign i.be i.wdata).extractLsb' 24 8
      sdmaRd := !i.write, sdmaWr := i.write
      sdmaWatch := 0, astate := .sdma }
  else if selId i then
    { b with ack := true, rdata := 0xA55A2BAD#32 }
  else { b with ack := true, rdata := 0#32 }

/- The byte the SCSI controller moved, and a wedged beat. -/
def beatSdma (b : Beat) : Beat :=
  let rbyte := s.scsi.dmaRlatch
  if s.scsi.dmaValid then
    (if b.sdmaLeft == 1 then
      { b with
        sdmaWatch := 0, sdmaRd := false, sdmaWr := false
        ack := true, rdata := sdmaRdata b rbyte
        astate := .idle }
    else
      { b with
        sdmaWatch := 0
        sdmaShift := b.sdmaShift.extractLsb' 0 24 ++ rbyte
        sdmaWbyte := b.sdmaShift.extractLsb' 16 8
        sdmaLeft := (b.sdmaLeft + 7) % 8 })
  else if b.sdmaWatch == 2 ^ cfg.sdmaTimeoutBits - 1 then
    { b with
      sdmaRd := false, sdmaWr := false
      ack := true, sdmaFault := true, rdata := 0#32
      sdmaWatch := 0, astate := .idle }
  else if !s.scsi.ioRd && !s.scsi.ioWr then
    { b with sdmaWatch := b.sdmaWatch + 1 }
  else b

def beatNext : Beat :=
  let b := { s.beat with ack := false, sdmaFault := false }
  match b.astate with
  | .idle => if i.sel && !s.beat.ack then beatAccept s i b else b
  | .via =>
      if i.eFalling then
        { b with
          via1Ren := false, via1Wen := false
          astate := .capture }
      else b
  | .capture =>
      { b with
        rdata := rep4 i.via1Dout, ack := true, astate := .idle }
  | .asc =>
      { b with
        rdata := i.ascRdata, ack := true, astate := .idle }
  | .sccAcc =>
      if i.sccCen then
        { b with
          rdata := rep4 i.sccRdata, sccCs := false
          astate := .sccRel }
      else b
  | .sccRel =>
      if i.sccCen then { b with ack := true, astate := .idle }
      else b
  | .sdma => beatSdma cfg s b

/- The two bytes a configuration write puts in a register. -/
def iosbRegWrite (r : BitVec 16) : BitVec 16 :=
  if i.be.getLsbD 1 || i.be.getLsbD 0 then
    (if i.be.getLsbD 1 then i.wdata.extractLsb' 8 8
      else r.extractLsb' 8 8) ++
    (if i.be.getLsbD 0 then i.wdata.extractLsb' 0 8
      else r.extractLsb' 0 8)
  else
    (if i.be.getLsbD 3 then i.wdata.extractLsb' 24 8
      else r.extractLsb' 8 8) ++
    (if i.be.getLsbD 2 then i.wdata.extractLsb' 16 8
      else r.extractLsb' 0 8)

def scratchNext : Scratch where
  djmemcRegs :=
    if accept s i && selDjmemc i && i.write then
      Function.update s.scratch.djmemcRegs (addrBits i 2 4)
        i.wdata
    else s.scratch.djmemcRegs
  iosbRegs :=
    if accept s i && selRegs i && i.write then
      Function.update s.scratch.iosbRegs (addrBits i 8 5)
        (iosbRegWrite i
          (s.scratch.iosbRegs (addrBits i 8 5)))
    else s.scratch.iosbRegs

end Iosb

------------------------------------------------------------
-- Clock Edge
------------------------------------------------------------

namespace Iosb

variable (cfg : Config) (s : Asic) (i : In)

def resetBeat : Beat where
  astate := .idle
  ack := false
  rdata := 0#32
  sdmaFault := false
  via1Ren := false
  via1Wen := false
  via1Addr := 0#4
  via1Din := 0#8
  sdmaRd := false
  sdmaWr := false
  sdmaLeft := 0
  sdmaShift := 0#32
  sdmaWbyte := 0#8
  sdmaBe := 0#4
  sdmaWatch := 0
  sccCs := false

def resetVia2 : Via2 where
  ifr := 0x00#8
  ier := 0x00#8
  vblD := false
  scsiD := false
  drqD := false
  ascD := false
  slotD := false

/- Register 0 comes up saying a 33 MHz bus clock. -/
def resetScratch : Scratch where
  djmemcRegs := fun _ => 0#32
  iosbRegs := fun r => if r == 0#5 then 1#16 else 0#16

def step : Asic where
  beat :=
    if !i.nreset then resetBeat
    else if i.ce then beatNext cfg s i
    else s.beat
  via2 :=
    if !i.nreset then resetVia2
    else if i.ce then via2Next s i
    else s.via2
  scratch :=
    if !i.nreset then resetScratch
    else if i.ce then scratchNext s i
    else s.scratch
  scsi := Ncr53c96.step cfg.scsi s.scsi (scsiIn s i)

end Iosb
