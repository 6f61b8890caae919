import Wombat33.Clocked.Run

/-
  The versatile interface adapter `via6522`.

  The chip is clocked by the system clock; `rising` and
  `falling` mark the edges of its own E clock, and registers
  are accessed at `falling`.  Two timers, two edge inputs on
  each port and the shift register raise the interrupt flags.

  Key definitions include:
    * `Via`, `In`, `Via.step`
    * `irqEvents`, `irqFlagsEdge`
    * `TimerA`, `TimerB`, `Serial`
-/

------------------------------------------------------------
-- Registers
------------------------------------------------------------

namespace Via6522

abbrev Byte := BitVec 8

def latchResetPattern : BitVec 16 := 0x5550#16

/- The port registers and the latched port inputs. -/
structure Pio where
  pra : Byte
  ddra : Byte
  prb : Byte
  ddrb : Byte
  portAC : Byte
  portBC : Byte
  ira : Byte
  irb : Byte
  deriving DecidableEq, Inhabited

/- The edge detectors of the four control lines. -/
structure Edges where
  ca1C : Bool
  ca2C : Bool
  cb1C : Bool
  cb2C : Bool
  ca1D : Bool
  ca2D : Bool
  cb1D : Bool
  cb2D : Bool
  deriving DecidableEq, Inhabited

structure Handshake where
  ca2HandshakeO : Bool
  ca2PulseO : Bool
  cb2HandshakeO : Bool
  cb2PulseO : Bool
  deriving DecidableEq, Inhabited

structure TimerA where
  latch : BitVec 16
  count : BitVec 16
  reload : Bool
  toggle : Bool
  mayInterrupt : Bool
  deriving DecidableEq, Inhabited

structure TimerB where
  latch : BitVec 16
  count : BitVec 16
  reloadLo : Bool
  oneshotTrig : Bool
  timeout : Bool
  tick : Bool
  pb6C : Bool
  pb6D : Bool
  deriving DecidableEq, Inhabited

structure Serial where
  shiftReg : Byte
  shiftActive : Bool
  shiftActiveD : Bool
  shiftClock : Bool
  shiftClockD : Bool
  shiftTimerTick : Bool
  serCb2C : Bool
  bitCnt : BitVec 3
  triggerAcrShift : Bool
  deriving DecidableEq, Inhabited

structure Via where
  pio : Pio
  edges : Edges
  hs : Handshake
  irqMask : BitVec 7
  irqFlags : BitVec 7
  acr : Byte
  pcr : Byte
  timerA : TimerA
  timerB : TimerB
  serial : Serial
  dataOut : Byte
  phi2Ref : Bool
  deriving DecidableEq, Inhabited

structure In where
  rising : Bool := false
  falling : Bool := false
  timerTick : Bool := false
  reset : Bool := false
  addr : BitVec 4 := 0#4
  wen : Bool := false
  ren : Bool := false
  dataIn : Byte := 0x00#8
  portAI : Byte := 0x00#8
  portBI : Byte := 0x00#8
  ca1I : Bool := false
  ca2I : Bool := false
  cb1I : Bool := false
  cb2I : Bool := false
  ca2LvlI : Bool := false
  cb2LvlI : Bool := false
  srExtComplete : Bool := false
  srExtLoad : Bool := false
  srExtData : Byte := 0x00#8
  deriving DecidableEq

/- A register is written, or read, at the access edge. -/
def In.writes (i : In) (a : BitVec 4) : Bool :=
  i.wen && i.falling && i.addr == a

def In.reads (i : In) (a : BitVec 4) : Bool :=
  i.ren && i.falling && i.addr == a

/- The registers by their addresses. -/
def rORB : BitVec 4 := 0x0#4
def rORA : BitVec 4 := 0x1#4
def rDDRB : BitVec 4 := 0x2#4
def rDDRA : BitVec 4 := 0x3#4
def rT1CL : BitVec 4 := 0x4#4
def rT1CH : BitVec 4 := 0x5#4
def rT1LL : BitVec 4 := 0x6#4
def rT1LH : BitVec 4 := 0x7#4
def rT2CL : BitVec 4 := 0x8#4
def rT2CH : BitVec 4 := 0x9#4
def rSR : BitVec 4 := 0xA#4
def rACR : BitVec 4 := 0xB#4
def rPCR : BitVec 4 := 0xC#4
def rIFR : BitVec 4 := 0xD#4
def rIER : BitVec 4 := 0xE#4
def rORANoHs : BitVec 4 := 0xF#4

end Via6522

------------------------------------------------------------
-- Control Bits
------------------------------------------------------------

namespace Via6522

variable (s : Via)

def tmrAOutputEn : Bool := s.acr.getLsbD 7

def tmrAFreerun : Bool := s.acr.getLsbD 6

def tmrBCountMode : Bool := s.acr.getLsbD 5

def shiftDir : Bool := s.acr.getLsbD 4

def shiftClkSel : BitVec 2 := s.acr.extractLsb' 2 2

def shiftModeControl : BitVec 3 := s.acr.extractLsb' 2 3

def pbLatchEn : Bool := s.acr.getLsbD 1

def paLatchEn : Bool := s.acr.getLsbD 0

def cb2IsOutput : Bool := s.pcr.getLsbD 7

def cb2EdgeSelect : Bool := s.pcr.getLsbD 6

def cb2NoIrqClr : Bool := s.pcr.getLsbD 5

def cb2OutMode : BitVec 2 := s.pcr.extractLsb' 5 2

def cb1EdgeSelect : Bool := s.pcr.getLsbD 4

def ca2IsOutput : Bool := s.pcr.getLsbD 3

def ca2EdgeSelect : Bool := s.pcr.getLsbD 2

def ca2NoIrqClr : Bool := s.pcr.getLsbD 1

def ca2OutMode : BitVec 2 := s.pcr.extractLsb' 1 2

def ca1EdgeSelect : Bool := s.pcr.getLsbD 0

/- An output of a control line by its mode. -/
def controlOut
    (mode : BitVec 2)
    (handshake pulse : Bool) : Bool :=
  if mode == 0b00#2 then handshake
  else if mode == 0b01#2 then pulse
  else mode != 0b10#2

def ca2O : Bool :=
  controlOut (ca2OutMode s) s.hs.ca2HandshakeO s.hs.ca2PulseO

def hsCb2O : Bool :=
  controlOut (cb2OutMode s) s.hs.cb2HandshakeO s.hs.cb2PulseO

def serportEn : Bool := shiftDir s || shiftClkSel s != 0b00#2

def cb1T : Bool :=
  if shiftClkSel s == 0b11#2 then false else serportEn s

def cb1O : Bool := s.serial.shiftClockD

def cb2T : Bool :=
  if serportEn s then shiftDir s else cb2IsOutput s

def cb2O : Bool :=
  if serportEn s then s.serial.shiftReg.getLsbD 7 else hsCb2O s

end Via6522

------------------------------------------------------------
-- Interrupts
------------------------------------------------------------

namespace Via6522

variable (s : Via) (i : In)

def timerAEvent : Bool :=
  i.timerTick && s.timerA.reload && s.timerA.mayInterrupt

def timerBEvent : Bool := i.timerTick && s.timerB.timeout

def shiftTickR : Bool :=
  !s.serial.shiftClockD && s.serial.shiftClock

def shiftTickF : Bool :=
  s.serial.shiftClockD && !s.serial.shiftClock

def serialEvent : Bool :=
  (s.serial.shiftActiveD || shiftTickR s) &&
    !s.serial.shiftActive && i.rising && serportEn s

def ca1Event : Bool :=
  (s.edges.ca1C ^^ s.edges.ca1D) &&
    (s.edges.ca1D ^^ ca1EdgeSelect s)

def ca2Event : Bool :=
  !ca2IsOutput s && (s.edges.ca2C ^^ s.edges.ca2D) &&
    (s.edges.ca2D ^^ ca2EdgeSelect s)

def cb1Event : Bool :=
  (s.edges.cb1C ^^ s.edges.cb1D) &&
    (s.edges.cb1D ^^ cb1EdgeSelect s)

def cb2Event : Bool :=
  !cb2IsOutput s && (s.edges.cb2C ^^ s.edges.cb2D) &&
    (s.edges.cb2D ^^ cb2EdgeSelect s)

/- CA2, CA1, serial, CB2, CB1, timer 2 and timer 1, from bit 0. -/
def irqEvents : BitVec 7 :=
  BitVec.ofBool (timerAEvent s i) ++
    BitVec.ofBool (timerBEvent s i) ++
    BitVec.ofBool (cb1Event s) ++
    BitVec.ofBool (cb2Event s) ++
    BitVec.ofBool (serialEvent s i || i.srExtComplete) ++
    BitVec.ofBool (ca1Event s) ++
    BitVec.ofBool (ca2Event s)

/- The level inputs are seen beside the latched flags. -/
def irqFlagsEff : BitVec 7 :=
  s.irqFlags |||
    (0b000#3 ++ BitVec.ofBool i.cb2LvlI ++ 0b00#2 ++
      BitVec.ofBool i.ca2LvlI)

def irqOut : Bool := irqFlagsEff s i &&& s.irqMask != 0#7

def clearBit (k : Nat) (flags : BitVec 7) : BitVec 7 :=
  flags &&& ~~~(1#7 <<< k)

def clearIf (c : Bool) (k : Nat) (flags : BitVec 7) : BitVec 7 :=
  if c then clearBit k flags else flags

/- What a write leaves of the flags. -/
def flagsWritten (flags : BitVec 7) : BitVec 7 :=
  if i.writes rORB then
    clearBit 4 (clearIf (!cb2NoIrqClr s) 3 flags)
  else if i.writes rORA then
    clearBit 1 (clearIf (!ca2NoIrqClr s) 0 flags)
  else if i.writes rT1CH || i.writes rT1LH then
    clearBit 6 flags
  else if i.writes rT2CH then clearBit 5 flags
  else if i.writes rSR then clearBit 2 flags
  else if i.writes rIFR then
    s.irqFlags &&& ~~~(i.dataIn.setWidth 7)
  else flags

/- What a read leaves of them. -/
def flagsRead (flags : BitVec 7) : BitVec 7 :=
  if i.reads rORB then
    clearBit 4 (clearIf (!cb2NoIrqClr s) 3 flags)
  else if i.reads rORA || i.reads rORANoHs then
    clearBit 1 (clearIf (!ca2NoIrqClr s) 0 flags)
  else if i.reads rT1CL then clearBit 6 flags
  else if i.reads rT2CL then clearBit 5 flags
  else if i.reads rSR then clearBit 2 flags
  else flags

def irqFlagsEdge : BitVec 7 :=
  if i.reset then 0#7
  else
    flagsRead s i
      (flagsWritten s i (s.irqFlags ||| irqEvents s i))

def irqMaskEdge : BitVec 7 :=
  if i.reset then 0#7
  else if i.writes rIER then
    (if i.dataIn.getLsbD 7 then s.irqMask ||| i.dataIn.setWidth 7
    else s.irqMask &&& ~~~(i.dataIn.setWidth 7))
  else s.irqMask

end Via6522

------------------------------------------------------------
-- Ports and Control Lines
------------------------------------------------------------

namespace Via6522

variable (s : Via) (i : In)

/- A register that a write sets and reset clears. -/
def written (a : BitVec 4) (old : Byte) : Byte :=
  if i.reset then 0x00#8
  else if i.writes a then i.dataIn
  else old

def pioEdge : Pio where
  pra :=
    if i.reset then 0x00#8
    else if i.writes rORA || i.writes rORANoHs then i.dataIn
    else s.pio.pra
  ddra := written i rDDRA s.pio.ddra
  prb := written i rORB s.pio.prb
  ddrb := written i rDDRB s.pio.ddrb
  portAC := i.portAI
  portBC := i.portBI
  ira :=
    if !paLatchEn s || ca1Event s then s.pio.portAC
    else s.pio.ira
  irb :=
    if !pbLatchEn s || cb1Event s then s.pio.portBC
    else s.pio.irb

def edgesEdge : Edges where
  ca1C := i.ca1I
  ca2C := i.ca2I
  cb1C := if cb1T s then cb1O s else i.cb1I
  cb2C := if cb2T s then cb2O s else i.cb2I
  ca1D := s.edges.ca1C
  ca2D := s.edges.ca2C
  cb1D := s.edges.cb1C
  cb2D := s.edges.cb2C

/- A handshake and a pulse output: a port access ends both. -/
def handshakeEdge (event access : Bool) (old : Bool) : Bool :=
  if i.reset || event then true
  else if access && i.falling then false
  else old

def pulseEdge (access : Bool) (old : Bool) : Bool :=
  if i.reset then true
  else if i.falling then !access
  else old

def hsEdge : Handshake where
  ca2HandshakeO :=
    handshakeEdge i (ca1Event s)
      ((i.ren || i.wen) && i.addr == rORA) s.hs.ca2HandshakeO
  ca2PulseO :=
    pulseEdge i ((i.ren || i.wen) && i.addr == rORA) s.hs.ca2PulseO
  cb2HandshakeO :=
    handshakeEdge i (cb1Event s)
      ((i.ren || i.wen) && i.addr == rORB) s.hs.cb2HandshakeO
  cb2PulseO :=
    pulseEdge i ((i.ren || i.wen) && i.addr == rORB) s.hs.cb2PulseO

def portBO : Byte :=
  if tmrAOutputEn s then
    BitVec.ofBool s.timerA.toggle ++ s.pio.prb.extractLsb' 0 7
  else s.pio.prb

def portBT : Byte :=
  s.pio.ddrb ||| (BitVec.ofBool (tmrAOutputEn s) ++ 0#7)

/- The register that is shown, whether it is read or not. -/
def dataOutEdge : Byte :=
  if i.addr == rORB then
    (let port := (s.pio.prb &&& s.pio.ddrb) |||
      (s.pio.irb &&& ~~~s.pio.ddrb)
    if tmrAOutputEn s then
      BitVec.ofBool s.timerA.toggle ++ port.extractLsb' 0 7
    else port)
  else if i.addr == rORA || i.addr == rORANoHs then s.pio.ira
  else if i.addr == rDDRB then s.pio.ddrb
  else if i.addr == rDDRA then s.pio.ddra
  else if i.addr == rT1CL then s.timerA.count.extractLsb' 0 8
  else if i.addr == rT1CH then s.timerA.count.extractLsb' 8 8
  else if i.addr == rT1LL then s.timerA.latch.extractLsb' 0 8
  else if i.addr == rT1LH then s.timerA.latch.extractLsb' 8 8
  else if i.addr == rT2CL then s.timerB.count.extractLsb' 0 8
  else if i.addr == rT2CH then s.timerB.count.extractLsb' 8 8
  else if i.addr == rSR then s.serial.shiftReg
  else if i.addr == rACR then s.acr
  else if i.addr == rPCR then s.pcr
  else if i.addr == rIFR then
    BitVec.ofBool (irqOut s i) ++ irqFlagsEff s i
  else 1#1 ++ s.irqMask

end Via6522

------------------------------------------------------------
-- Timers
------------------------------------------------------------

namespace Via6522

variable (s : Via) (i : In)

def setLow (x : BitVec 16) (b : Byte) : BitVec 16 :=
  x.extractLsb' 8 8 ++ b

def setHigh (x : BitVec 16) (b : Byte) : BitVec 16 :=
  b ++ x.extractLsb' 0 8

def writeT1CL : Bool := i.writes rT1CL || i.writes rT1LL

def latchAEdge : BitVec 16 :=
  if i.reset then latchResetPattern
  else if writeT1CL i then setLow s.timerA.latch i.dataIn
  else if i.writes rT1CH || i.writes rT1LH then
    setHigh s.timerA.latch i.dataIn
  else s.timerA.latch

/- One tick: count down, or load the latch after the end. -/
def tickA (t : TimerA) : TimerA :=
  if t.reload then
    { t with
      count :=
        if writeT1CL i then setLow t.latch i.dataIn else t.latch
      reload := false
      mayInterrupt := t.mayInterrupt && tmrAFreerun s }
  else
    { t with
      count := t.count - 1#16
      reload := t.count == 0#16 }

def timerAEdge : TimerA :=
  let ticked := if i.timerTick then tickA s i s.timerA else s.timerA
  let toggled : TimerA :=
    { ticked with
      toggle := s.timerA.toggle ^^
        (timerAEvent s i && tmrAOutputEn s) }
  let started : TimerA :=
    if i.writes rT1CH then
      { toggled with
        mayInterrupt := true
        toggle := !tmrAOutputEn s
        count := setHigh s.timerA.latch i.dataIn
        reload := false }
    else toggled
  let reset : TimerA :=
    if i.reset then
      { started with
        mayInterrupt := false
        toggle := true
        count := latchResetPattern
        reload := false }
    else started
  { reset with latch := latchAEdge s i }

/- The shift modes that are clocked by timer 2. -/
def shiftTimed : Bool :=
  shiftModeControl s == 0b001#3 || shiftModeControl s == 0b101#3 ||
    shiftModeControl s == 0b100#3

/- Timer 2 counts ticks, or falling edges of PB6. -/
def decrements (t : TimerB) : Bool :=
  if tmrBCountMode s then t.pb6D && !t.pb6C else true

def tickB (t : TimerB) : TimerB :=
  let counts := decrements s t
  let low := counts && shiftTimed s &&
    t.count.extractLsb' 0 8 == 0x00#8
  let count := if counts then t.count - 1#16 else t.count
  { t with
    pb6C := i.portBI.getLsbD 6
    pb6D := t.pb6C
    timeout := counts && t.count == 0#16 && t.oneshotTrig
    oneshotTrig :=
      t.oneshotTrig && !(counts && t.count == 0#16)
    tick := low
    count :=
      if t.reloadLo then setLow count (t.latch.extractLsb' 0 8)
      else count
    reloadLo := low && !t.reloadLo }

def timerBEdge : TimerB :=
  let ticked := if i.timerTick then tickB s i s.timerB else s.timerB
  let started : TimerB :=
    if i.writes rT2CH then
      { ticked with
        count := i.dataIn ++ s.timerB.latch.extractLsb' 0 8
        oneshotTrig := true }
    else ticked
  let reset : TimerB :=
    if i.reset then
      { started with
        count := latchResetPattern
        reloadLo := false
        oneshotTrig := false }
    else started
  { reset with
    latch :=
      if i.reset then latchResetPattern
      else if i.writes rT2CL then setLow s.timerB.latch i.dataIn
      else s.timerB.latch }

end Via6522

------------------------------------------------------------
-- The Shift Register
------------------------------------------------------------

namespace Via6522

variable (s : Via) (i : In)

def shiftPulse : Bool :=
  let sr := s.serial
  let edge := sr.shiftClock && !sr.shiftClockD
  if !sr.shiftActive then
    shiftModeControl s == 0b000#3 && edge
  else if shiftClkSel s == 0b10#2 then true
  else if shiftClkSel s == 0b11#2 then edge
  else sr.shiftTimerTick

def shiftClockEdge : Bool :=
  if i.reset then true
  else if i.rising then
    (if shiftModeControl s == 0b000#3 ||
        shiftClkSel s == 0b11#2 then
      i.cb1I
    else if !s.serial.shiftActive then true
    else s.serial.shiftClock ^^ shiftPulse s)
  else s.serial.shiftClock

def triggerSerial : Bool := (i.ren || i.wen) && i.addr == rSR

def shiftRegEdge : Byte :=
  if i.srExtComplete && i.srExtLoad then i.srExtData
  else if i.reset then 0xFF#8
  else if i.falling then
    (let sr := s.serial.shiftReg
    if i.wen && i.addr == rSR then i.dataIn
    else if shiftDir s && shiftTickF s then
      sr.extractLsb' 0 7 ++ sr.extractLsb' 7 1
    else if !shiftDir s && shiftTickR s then
      sr.extractLsb' 0 7 ++ BitVec.ofBool s.serial.serCb2C
    else sr)
  else s.serial.shiftReg

/- Arming, counting the bits, and being completed. -/
def shiftActiveEdge : Bool × BitVec 3 :=
  let sr := s.serial
  if i.reset || i.srExtComplete then (false, 0#3)
  else if i.falling then
    (if !sr.shiftActive && shiftModeControl s != 0b000#3 then
      (if triggerSerial i || sr.triggerAcrShift then (true, 7#3)
      else (sr.shiftActive, sr.bitCnt))
    else if shiftClkSel s == 0b00#2 then (shiftDir s, sr.bitCnt)
    else if shiftPulse s && sr.shiftClock then
      (if sr.bitCnt == 0#3 then (false, sr.bitCnt)
      else (sr.shiftActive, sr.bitCnt - 1#3))
    else (sr.shiftActive, sr.bitCnt))
  else (sr.shiftActive, sr.bitCnt)

def serialEdge : Serial where
  shiftReg := shiftRegEdge s i
  shiftActive := (shiftActiveEdge s i).1
  shiftActiveD :=
    if i.reset then false
    else if i.rising then s.serial.shiftActive
    else s.serial.shiftActiveD
  shiftClock := shiftClockEdge s i
  shiftClockD :=
    if i.reset then true
    else if i.rising then s.serial.shiftClock
    else s.serial.shiftClockD
  shiftTimerTick :=
    if i.falling then s.timerB.tick else s.serial.shiftTimerTick
  serCb2C := i.cb2I
  bitCnt := (shiftActiveEdge s i).2
  triggerAcrShift :=
    if i.reset then false
    else if i.falling then
      i.wen && i.addr == rACR && i.dataIn.extractLsb' 2 3 != 0b000#3
    else s.serial.triggerAcrShift

end Via6522

------------------------------------------------------------
-- The Chip
------------------------------------------------------------

namespace Via6522

def Via.step (s : Via) (i : In) : Via where
  pio := pioEdge s i
  edges := edgesEdge s i
  hs := hsEdge s i
  irqMask := irqMaskEdge s i
  irqFlags := irqFlagsEdge s i
  acr := written i rACR s.acr
  pcr := written i rPCR s.pcr
  timerA := timerAEdge s i
  timerB := timerBEdge s i
  serial := serialEdge s i
  dataOut := dataOutEdge s i
  phi2Ref :=
    if i.rising then true
    else if i.falling then false
    else s.phi2Ref

end Via6522
