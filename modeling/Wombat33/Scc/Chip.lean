import Mathlib.Tactic.SplitIfs

/-
  The serial controller `scc`.

  Two channels share one bus port.  A channel's registers are
  behind a pointer: a write of WR0 sets it, the next control
  access uses it.  Effects are split over blocks enabled by
  `cen`, by `cep`, by every clock and by the reset terms, so
  each block is one function of the wires of this clock.

  An asynchronous reset term holds through the clock edge, so
  it is taken at the edge.  Of the UARTs only what the chip
  sees is kept: a frame received, and the busy line.

  Key definitions include:
    * `Channel`, `Chip`, `In`
    * `Nets`, `nets`
    * `Pointer.next`, `RxFifo.next`, `Transmit.next`
    * `Regs.next`, `Latches.next`
    * `step`, `rdata`, `irqN`
-/

------------------------------------------------------------
-- State
------------------------------------------------------------

namespace Scc

abbrev Byte := BitVec 8

/- Channel A is the modem port, channel B the printer port. -/
inductive Side where
  | a
  | b
  deriving DecidableEq, Inhabited

/- `scc_state`: the next write is WR0's, or the selected one's. -/
inductive AccessState where
  | ready
  | register
  deriving DecidableEq, Inhabited

structure Pointer where
  rindex : BitVec 4
  sccState : AccessState
  pendingCleanup : Bool
  deriving DecidableEq, Inhabited

/- `rx_queue`, `rx_queue_pos`, and what goes with them. -/
structure RxFifo where
  rxQueue0 : Byte
  rxQueue1 : Byte
  rxQueue2 : Byte
  rxQueuePos : BitVec 2
  rxFirst : Bool
  pendingDequeue : Bool
  deriving DecidableEq, Inhabited

/- The transmit buffer, and the UART's busy line behind it. -/
structure Transmit where
  txData : Byte
  txBufferFull : Bool
  wrData : Bool
  uartTxWr : Bool
  txBusy : Bool
  txBusyR : Bool
  deriving DecidableEq, Inhabited

structure Regs where
  wr1 : Byte
  wr3 : Byte
  wr4 : Byte
  wr5 : Byte
  wr10 : Byte
  wr11 : Byte
  wr12 : Byte
  wr13 : Byte
  wr14 : Byte
  wr15 : Byte
  sdlcMode : Bool
  hunt : Bool
  deriving DecidableEq, Inhabited

/- Channel B has no `cts_latch`; it is kept clear there. -/
structure Latches where
  exIrqIp : Bool
  latchOpen : Bool
  dcdLatch : Bool
  ctsLatch : Bool
  eomLatch : Bool
  txEmptyLatch : Bool
  txIntLatch : Bool
  deriving DecidableEq, Inhabited

structure Channel extends
    Pointer, RxFifo, Transmit, Regs, Latches
  deriving DecidableEq, Inhabited

structure Chip where
  chA : Channel
  chB : Channel
  wr2 : Byte
  wr9 : BitVec 6
  csAccessDone : Bool
  deriving DecidableEq, Inhabited

def Chip.ch (s : Chip) : Side → Channel
  | .a => s.chA
  | .b => s.chB

/-
  What a channel's UARTs do on this clock: a frame received
  with its byte, the transmitter ready for another.
-/
structure Line where
  rxWr : Bool := false
  rxData : Byte := 0x00#8
  txReady : Bool := false
  deriving DecidableEq, Inhabited

/- `rs[1]` is the data port, `rs[0]` channel A. -/
structure In where
  cep : Bool := false
  cen : Bool := false
  resetHw : Bool := false
  cs : Bool := false
  we : Bool := false
  rsData : Bool := false
  rsA : Bool := false
  wdata : Byte := 0x00#8
  lineA : Line := {}
  lineB : Line := {}
  deriving DecidableEq, Inhabited

def In.line (i : In) : Side → Line
  | .a => i.lineA
  | .b => i.lineB

/- The channel the bus addresses. -/
def In.side (i : In) : Side := if i.rsA then .a else .b

end Scc

------------------------------------------------------------
-- Register Access
------------------------------------------------------------

namespace Scc

variable (s : Chip) (i : In) (x : Side)

/- `wreg_a`, `wreg_b`: the first access of a CS window only. -/
def wreg : Bool :=
  i.cs && i.we && !i.rsData && i.side == x && !s.csAccessDone

/- `rindex_latch`: the addressed channel's pointer. -/
def rindexLatch : BitVec 4 :=
  if i.cs && !i.rsData then (s.ch i.side).rindex else 0#4

/- A WR9 write on either channel. -/
def wregWr9 : Bool :=
  (wreg s i .a || wreg s i .b) && rindexLatch s i == 9#4

def resetCmd (w : Byte) : BitVec 2 := w.extractLsb' 6 2

def reset : Bool :=
  (wregWr9 s i && resetCmd i.wdata == 0b11#2) || i.resetHw

/- The command of WR9 that resets one channel. -/
def channelResetCmd : Side → BitVec 2
  | .a => 0b10#2
  | .b => 0b01#2

/- `reset_a`, `reset_b`. -/
def resetCh : Bool :=
  (wregWr9 s i &&
    (resetCmd i.wdata == channelResetCmd x ||
      resetCmd i.wdata == 0b11#2)) ||
    reset s i

/- The wires of this clock, as one channel sees them. -/
structure Nets where
  cep : Bool
  cen : Bool
  resetHw : Bool
  reset : Bool
  resetCh : Bool
  cs : Bool
  we : Bool
  rsData : Bool
  wdata : Byte
  wreg : Bool
  index : BitVec 4
  -- `cen && cs && !cs_access_done`, this channel addressed
  access : Bool
  -- a data-port write strobe, which waits for no enable
  dataWrite : Bool
  line : Line
  deriving DecidableEq, Inhabited

def nets : Nets where
  cep := i.cep
  cen := i.cen
  resetHw := i.resetHw
  reset := reset s i
  resetCh := resetCh s i x
  cs := i.cs
  we := i.we
  rsData := i.rsData
  wdata := i.wdata
  wreg := wreg s i x
  index := rindexLatch s i
  access := i.cen && i.cs && !s.csAccessDone && i.side == x
  dataWrite :=
    i.cs && i.we && i.rsData && i.side == x && !s.csAccessDone
  line := i.line x

/- A write strobe of register `n`. -/
def Nets.writes (k : Nets) (n : BitVec 4) : Bool :=
  k.wreg && k.index == n

/- The command field of WR0. -/
def wr0Cmd (w : Byte) : BitVec 3 := w.extractLsb' 3 3

/- "Point high" is the top bit of the pointer. -/
def pointerBits (w : Byte) : BitVec 4 :=
  BitVec.ofBool (wr0Cmd w == 0b001#3) ++ w.extractLsb' 0 3

end Scc

------------------------------------------------------------
-- The Access Block
------------------------------------------------------------

namespace Scc

variable (k : Nets)

/-
  The pointer moves on the first `cen` of a window, and is
  used up on the first `cen` after it.
-/
def Pointer.next (p : Pointer) : Pointer :=
  if k.reset then ⟨0#4, .ready, false⟩
  else
    let n :=
      if k.cen && !k.cs && p.pendingCleanup then
        ⟨0#4, .ready, false⟩
      else p
    if k.access && !k.rsData then
      if p.sccState = .register then
        { n with pendingCleanup := true }
      else if k.we then
        { n with
          rindex := pointerBits k.wdata
          sccState :=
            if k.wdata.extractLsb' 0 3 != 0b000#3 ||
                wr0Cmd k.wdata == 0b001#3 then .register
            else n.sccState }
      else n
    else n

/- A frame is queued, or dropped if three wait already. -/
def RxFifo.enqueue (f : RxFifo) (l : Line) : RxFifo :=
  if l.rxWr then
    match f.rxQueuePos with
    | 0#2 => { f with rxQueue0 := l.rxData, rxQueuePos := 1#2 }
    | 1#2 => { f with rxQueue1 := l.rxData, rxQueuePos := 2#2 }
    | 2#2 => { f with rxQueue2 := l.rxData, rxQueuePos := 3#2 }
    | _ => f
  else f

/- The deferred pop. -/
def RxFifo.dequeue (f : RxFifo) : RxFifo :=
  let f := { f with pendingDequeue := false }
  if f.rxQueuePos = 0#2 then f
  else
    { f with
      rxQueue0 := f.rxQueue1
      rxQueue1 := f.rxQueue2
      rxQueue2 := 0x00#8
      rxQueuePos := f.rxQueuePos - 1#2
      rxFirst := false }

def RxFifo.next (p : Pointer) (f : RxFifo) : RxFifo :=
  if k.reset then
    { f.enqueue k.line with
      rxQueuePos := 0#2, rxFirst := true
      pendingDequeue := false }
  else
    -- a frame received on this clock holds the pop back
    let n :=
      if k.cen && !k.cs && f.pendingDequeue && !k.line.rxWr then
        f.dequeue
      else f.enqueue k.line
    if k.access && !k.rsData && k.we && p.sccState = .ready &&
        wr0Cmd k.wdata == 0b100#3 then
      { n with rxFirst := true }
    else if k.access && k.rsData && !k.we then
      { n with pendingDequeue := true }
    else n

/- `txuart_reset_a`, `txuart_reset_b`. -/
def Nets.txuartReset : Bool :=
  (k.resetCh || k.resetHw) ||
    (k.cen && k.wreg &&
      (k.index == 4#4 || k.index == 5#4 || k.index == 11#4 ||
        k.index == 12#4 || k.index == 13#4 || k.index == 14#4))

/-
  `o_busy` of the transmitter: a reset or a byte taken raises
  it; when it drops is the baud counter's affair.
-/
def txuart (t : Transmit) : Bool :=
  if k.txuartReset then true
  else if (t.wrData || t.uartTxWr) && !t.txBusy then true
  else if k.line.txReady then false
  else t.txBusy

def Transmit.next (t : Transmit) : Transmit :=
  let n := { t with
    wrData := false, uartTxWr := false
    txBusy := txuart k t, txBusyR := t.txBusy }
  if k.reset then
    { n with txData := 0x00#8, txBufferFull := false }
  else
    let n :=
      if k.access && k.rsData && k.we then
        { n with
          txData := k.wdata
          txBufferFull := t.txBusy
          wrData := !t.txBusy }
      else n
    if t.txBufferFull && !t.txBusy then
      { n with uartTxWr := true, txBufferFull := false }
    else n

end Scc

------------------------------------------------------------
-- Write Registers
------------------------------------------------------------

namespace Scc

variable (k : Nets)

/- What a channel reset leaves of WR1, WR5, WR10 and WR14. -/
def wr1Reset (w : Byte) : Byte := w &&& 0x24#8

def wr5Reset (w : Byte) : Byte := w &&& 0x61#8

def wr10Reset (w : Byte) : Byte := w &&& 0x60#8

def wr14Reset (w : Byte) : Byte := (w &&& 0xC3#8) ||| 0x20#8

/- What a hardware reset leaves of WR14. -/
def wr14HwReset (w : Byte) : Byte := (w &&& 0xC0#8) ||| 0x30#8

/- A register that only a write changes. -/
def Nets.plain (n : BitVec 4) (w : Byte) : Byte :=
  if k.resetHw then 0x00#8
  else if k.cen && k.writes n then k.wdata
  else w

/- A register with its own value after a channel reset. -/
def Nets.kept (n : BitVec 4) (r : Byte → Byte) (w : Byte) :
    Byte :=
  if k.resetHw then 0x00#8
  else if k.cen then
    if k.resetCh then r w
    else if k.writes n then k.wdata
    else w
  else w

def Regs.next (r : Regs) : Regs where
  wr1 := k.kept 1#4 wr1Reset r.wr1
  wr3 := k.plain 3#4 r.wr3
  wr4 := k.plain 4#4 r.wr4
  wr5 := k.kept 5#4 wr5Reset r.wr5
  wr10 :=
    if k.reset then 0x00#8 else k.kept 10#4 wr10Reset r.wr10
  wr11 :=
    if k.resetHw then 0x00#8
    else if k.cen then
      if k.reset then 0x00#8
      else if k.writes 11#4 then k.wdata
      else r.wr11
    else r.wr11
  wr12 := k.plain 12#4 r.wr12
  wr13 := k.plain 13#4 r.wr13
  wr14 :=
    if k.resetHw then 0x00#8
    else if k.cen then
      if k.reset then wr14HwReset r.wr14
      else if k.resetCh then wr14Reset r.wr14
      else if k.writes 14#4 then k.wdata
      else r.wr14
    else r.wr14
  wr15 :=
    if k.reset then 0xF8#8
    else if k.cen && k.writes 15#4 then k.wdata
    else r.wr15
  sdlcMode :=
    if k.reset || k.resetCh then false
    else if k.cen && k.writes 4#4 then
      k.wdata.extractLsb' 2 2 == 0b00#2 &&
        k.wdata.extractLsb' 4 2 == 0b10#2
    else r.sdlcMode
  hunt :=
    if k.reset || k.resetCh then false
    else if k.cen && k.writes 3#4 && k.wdata.getLsbD 4 then true
    else r.hunt

end Scc

------------------------------------------------------------
-- Status Latches
------------------------------------------------------------

namespace Scc

variable (k : Nets)

/- No cable: CTS and DCD of both channels read deasserted. -/
def rr0Cts : Bool := false

def rr0Dcd : Bool := false

/- `do_extreset_a`, `do_extreset_b`. -/
def Nets.doExtreset : Bool :=
  k.writes 0#4 && wr0Cmd k.wdata == 0b010#3

/- `do_latch_a`, `do_latch_b`: only A has a CTS latch. -/
def doLatch (x : Side) (r : Regs) (l : Latches) : Bool :=
  l.latchOpen &&
    ((rr0Dcd != l.dcdLatch && r.wr15.getLsbD 3) ||
      (x == .a && (rr0Cts != l.ctsLatch && r.wr15.getLsbD 5)))

/-
  The writes that clear `tx_empty_latch`.  On channel B
  a data write counts when the byte is passed on, and a WR8
  write waits for no enable.
-/
def Nets.wr8Empties (x : Side) (t : Transmit) : Bool :=
  match x with
  | .a => k.dataWrite || (k.cep && k.writes 8#4)
  | .b => k.writes 8#4 || t.wrData

def Latches.next (x : Side) (t : Transmit) (r : Regs)
    (l : Latches) : Latches where
  exIrqIp :=
    if k.reset then false
    else if k.cep then
      if k.doExtreset then false
      else if doLatch x r l && r.wr1.getLsbD 0 then true
      else l.exIrqIp
    else l.exIrqIp
  latchOpen :=
    if k.reset then true
    else if k.cep then
      if k.doExtreset then true
      else if doLatch x r l then false
      else l.latchOpen
    else l.latchOpen
  dcdLatch :=
    if k.reset || k.resetCh then false
    else if k.cep && doLatch x r l then rr0Dcd
    else l.dcdLatch
  -- assigned outside the condition on `do_latch_a`
  ctsLatch :=
    if x = .b then false
    else if k.reset || k.resetCh then false
    else if k.cep then rr0Cts
    else l.ctsLatch
  eomLatch :=
    if k.reset || k.resetCh then false
    else if k.cep then
      if k.writes 0#4 && resetCmd k.wdata == 0b11#2 then false
      else if r.sdlcMode && l.txEmptyLatch then true
      else l.eomLatch
    else l.eomLatch
  txEmptyLatch :=
    if k.reset || k.resetCh then true
    else if t.txBusyR && !t.txBusy then true
    else if k.wr8Empties x t then false
    else l.txEmptyLatch
  txIntLatch :=
    if k.reset || k.resetCh then false
    else if t.txBusyR && !t.txBusy then true
    else if k.dataWrite || (k.cep && k.writes 8#4) ||
        (k.writes 0#4 && wr0Cmd k.wdata == 0b101#3) then false
    else l.txIntLatch

end Scc

------------------------------------------------------------
-- One Clock
------------------------------------------------------------

namespace Scc

variable (s : Chip) (i : In)

def Channel.next (k : Nets) (x : Side) (c : Channel) :
    Channel where
  toPointer := c.toPointer.next k
  toRxFifo := c.toRxFifo.next k c.toPointer
  toTransmit := c.toTransmit.next k
  toRegs := c.toRegs.next k
  toLatches := c.toLatches.next k x c.toTransmit c.toRegs

/-
  A window's access is consumed on its first `cen`.  A reset
  by WR9 is an access, and marks its window consumed.
-/
def csAccessDoneNext : Bool :=
  if reset s i then !i.resetHw
  else if i.cen then i.cs
  else s.csAccessDone

def step : Chip where
  chA := s.chA.next (nets s i .a) .a
  chB := s.chB.next (nets s i .b) .b
  wr2 :=
    if i.resetHw then 0x00#8
    else if i.cen && (wreg s i .a || wreg s i .b) &&
        rindexLatch s i == 2#4 then i.wdata
    else s.wr2
  wr9 :=
    if i.resetHw then 0#6
    else if i.cen && wregWr9 s i then i.wdata.extractLsb' 0 6
    else s.wr9
  csAccessDone := csAccessDoneNext s i

@[simp] theorem step_ch (x : Side) :
    (step s i).ch x = (s.ch x).next (nets s i x) x := by
  cases x <;> rfl

end Scc

------------------------------------------------------------
-- Reading
------------------------------------------------------------

namespace Scc

variable (s : Chip) (i : In)

def Channel.rxIrqPend (c : Channel) : Bool :=
  c.wr3.getLsbD 0 && c.rxQueuePos != 0#2 &&
    (c.wr1.getLsbD 3 ^^ c.wr1.getLsbD 4) &&
    ((c.wr1.getLsbD 3 && c.rxFirst) || c.wr1.getLsbD 4)

def Channel.txIrqPend (c : Channel) : Bool :=
  c.wr1.getLsbD 1 && c.txIntLatch

def Channel.exIrqPend (c : Channel) : Bool := c.exIrqIp

def irqPend : Bool :=
  s.chA.rxIrqPend || s.chB.rxIrqPend || s.chA.txIrqPend ||
    s.chB.txIrqPend || s.chA.exIrqPend || s.chB.exIrqPend

/- `_irq`, active low. -/
def irqN : Bool := !(s.wr9.getLsbD 3 && irqPend s)

def rr2VecStat : BitVec 3 :=
  if s.chA.rxIrqPend then 0b110#3
  else if s.chA.txIrqPend then 0b100#3
  else if s.chA.exIrqPend then 0b101#3
  else if s.chB.rxIrqPend then 0b010#3
  else if s.chB.txIrqPend then 0b000#3
  else if s.chB.exIrqPend then 0b001#3
  else 0b011#3

def Channel.rr0 (c : Channel) : Byte :=
  0#1 ++ BitVec.ofBool (c.sdlcMode && c.eomLatch) ++
    BitVec.ofBool rr0Cts ++
    BitVec.ofBool (c.sdlcMode && c.hunt) ++
    BitVec.ofBool rr0Dcd ++ BitVec.ofBool c.txEmptyLatch ++
    0#1 ++ BitVec.ofBool (c.rxQueuePos != 0#2)

def Channel.rr1 (c : Channel) : Byte :=
  0#7 ++ BitVec.ofBool (!c.txBusy)

/- `WR9[4]` says which bits carry the condition. -/
def rr2B : Byte :=
  if s.wr9.getLsbD 4 then
    s.wr2.extractLsb' 7 1 ++ rr2VecStat s ++ s.wr2.extractLsb' 0 4
  else
    s.wr2.extractLsb' 4 4 ++ rr2VecStat s ++ s.wr2.extractLsb' 0 1

def rr3A : Byte :=
  0#2 ++ BitVec.ofBool s.chA.rxIrqPend ++
    BitVec.ofBool s.chA.txIrqPend ++
    BitVec.ofBool s.chA.exIrqPend ++
    BitVec.ofBool s.chB.rxIrqPend ++
    BitVec.ofBool s.chB.txIrqPend ++
    BitVec.ofBool s.chB.exIrqPend

/- `WR14[4]`. -/
def Channel.localLoopback (c : Channel) : Bool :=
  c.wr14.getLsbD 4

def Channel.rr10 (c : Channel) : Byte :=
  0#3 ++ BitVec.ofBool (c.localLoopback && c.txBusy) ++ 0#2 ++
    BitVec.ofBool c.localLoopback ++ 0#1

def Channel.rr15 (c : Channel) : Byte := c.wr15 &&& 0xFA#8

/- The read register `n` of a channel, RR8 the FIFO's head. -/
def readReg (x : Side) (n : BitVec 4) : Byte :=
  let c := s.ch x
  match n with
  | 0#4 | 4#4 => c.rr0
  | 1#4 | 5#4 => c.rr1
  | 2#4 | 6#4 => if x = .a then s.wr2 else rr2B s
  | 3#4 | 7#4 => if x = .a then rr3A s else 0x00#8
  | 8#4 => c.rxQueue0
  | 9#4 | 13#4 => c.wr13
  | 10#4 | 14#4 => c.rr10
  | 12#4 => c.wr12
  | _ => c.rr15

/- `rdata_mux`: the data port, or the register selected. -/
def rdata : Byte :=
  if i.rsData then (s.ch i.side).rxQueue0
  else readReg s i.side (rindexLatch s i)

end Scc
