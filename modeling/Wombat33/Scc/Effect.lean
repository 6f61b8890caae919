import Wombat33.Scc.Bridge

/-
  What an access to the serial controller is for.

  Each access has one effect on the chip, whatever enables
  its window meets: the register written, the command given,
  the byte sent or taken.  The effect is stated for a chip at
  rest, on whose serial side nothing is under way.

  Key definitions include:
    * `Channel.AtRest`, `Chip.AtRest`
    * `Access.writes`, `Access.resets`
    * `effect`

  Key theorems include:
    * `rest_next`
    * `atRest_of_quiet`
-/

------------------------------------------------------------
-- A Chip at Rest
------------------------------------------------------------

namespace Scc

/-
  No pop is waiting and no byte is on its way to the UART; no
  end of a transmission, and no underrun, is being latched.
-/
structure Channel.AtRest (c : Channel) : Prop where
  pointer : c.toPointer = rest c.rindex
  popped : c.pendingDequeue = false
  waits : c.txBufferFull = true → c.txBusy = true
  immediate : c.wrData = false
  deferred : c.uartTxWr = false
  busy : c.txBusyR = c.txBusy
  dcd : c.dcdLatch = false
  cts : c.ctsLatch = false
  underrun : c.sdlcMode = true → c.txEmptyLatch = true →
    c.eomLatch = true

structure Chip.AtRest (s : Chip) : Prop where
  done : s.csAccessDone = false
  channel : ∀ y, (s.ch y).AtRest

instance (c : Channel) : Decidable c.AtRest :=
  decidable_of_iff
    (c.toPointer = rest c.rindex ∧ c.pendingDequeue = false ∧
      (c.txBufferFull = true → c.txBusy = true) ∧
      c.wrData = false ∧ c.uartTxWr = false ∧
      c.txBusyR = c.txBusy ∧ c.dcdLatch = false ∧
      c.ctsLatch = false ∧
      (c.sdlcMode = true → c.txEmptyLatch = true →
        c.eomLatch = true))
    ⟨fun ⟨h₁, h₂, h₃, h₄, h₅, h₆, h₇, h₈, h₉⟩ =>
        ⟨h₁, h₂, h₃, h₄, h₅, h₆, h₇, h₈, h₉⟩,
      fun ⟨h₁, h₂, h₃, h₄, h₅, h₆, h₇, h₈, h₉⟩ =>
        ⟨h₁, h₂, h₃, h₄, h₅, h₆, h₇, h₈, h₉⟩⟩

instance (s : Chip) : Decidable s.AtRest :=
  decidable_of_iff
    (s.csAccessDone = false ∧ s.chA.AtRest ∧ s.chB.AtRest)
    ⟨fun ⟨hDone, hA, hB⟩ =>
        ⟨hDone, fun y => by cases y; exacts [hA, hB]⟩,
      fun ⟨hDone, hChannel⟩ =>
        ⟨hDone, hChannel .a, hChannel .b⟩⟩

/- Wires that carry no access and no serial event. -/
structure Nets.Idle (k : Nets) : Prop where
  resetHw : k.resetHw = false
  reset : k.reset = false
  resetCh : k.resetCh = false
  wreg : k.wreg = false
  access : k.access = false
  dataWrite : k.dataWrite = false
  line : k.line = {}

variable {k : Nets} {c : Channel} {y : Side}

/- With CTS and DCD constant, no latch closes. -/
theorem doLatch_false
    {r : Regs} {l : Latches}
    (hDcd : l.dcdLatch = false)
    (hCts : l.ctsLatch = false) :
    doLatch y r l = false := by
  simp [doLatch, rr0Dcd, rr0Cts, hDcd, hCts]

theorem idle_pointer (hIdle : k.Idle) (p : Pointer) :
    p.next k =
      if k.cen && !k.cs then p.release else p := by
  unfold Pointer.next Pointer.release
  cases p.pendingCleanup <;>
    simp [hIdle.reset, hIdle.access, rest_zero]

theorem idle_rxFifo
    (hIdle : k.Idle) (p : Pointer) (f : RxFifo) :
    f.next k p =
      if k.cen && !k.cs && f.pendingDequeue then f.dequeue
      else f := by
  unfold RxFifo.next RxFifo.enqueue
  simp [hIdle.reset, hIdle.access, hIdle.line]

/- A strobe makes the line busy; a waiting byte is passed on. -/
theorem idle_handover (hIdle : k.Idle) (t : Transmit) :
    t.next k = { t with
      txBufferFull := t.txBufferFull && t.txBusy
      wrData := false
      uartTxWr := t.txBufferFull && !t.txBusy
      txBusy := t.wrData || t.uartTxWr || t.txBusy
      txBusyR := t.txBusy } := by
  unfold Transmit.next txuart Nets.txuartReset
  cases t.wrData <;> cases t.uartTxWr <;>
    cases t.txBufferFull <;> cases t.txBusy <;>
    simp [hIdle.reset, hIdle.access, hIdle.line,
      hIdle.resetCh, hIdle.resetHw, hIdle.wreg]

/- Where no byte is waiting, only a strobe moves the line. -/
theorem idle_transmit
    (hIdle : k.Idle)
    {t : Transmit}
    (hWaits : t.txBufferFull = true → t.txBusy = true) :
    t.next k = { t with
      wrData := false
      uartTxWr := false
      txBusy := t.wrData || t.uartTxWr || t.txBusy
      txBusyR := t.txBusy } := by
  rw [idle_handover hIdle]
  cases hFull : t.txBufferFull
  · simp
  · simp [hWaits hFull]

theorem idle_writes (hIdle : k.Idle) (n : BitVec 4) :
    k.writes n = false := by
  simp [Nets.writes, hIdle.wreg]

theorem idle_regs (hIdle : k.Idle) (r : Regs) :
    r.next k = r := by
  unfold Regs.next Nets.kept Nets.plain
  simp [hIdle.reset, hIdle.resetCh, hIdle.resetHw,
    idle_writes hIdle]

/- The underrun is latched at `cep`, the rest is kept. -/
theorem idle_latches
    (hIdle : k.Idle)
    {t : Transmit} {r : Regs} {l : Latches}
    (hFall : t.txBusyR = true → t.txBusy = true)
    (hDcd : l.dcdLatch = false)
    (hCts : l.ctsLatch = false) :
    l.next k y t r = { l with
      eomLatch :=
        l.eomLatch || (k.cep && r.sdlcMode && l.txEmptyLatch)
      txEmptyLatch :=
        l.txEmptyLatch && !(y == .b && t.wrData) } := by
  have hNoFall : (t.txBusyR && !t.txBusy) = false := by
    cases hWas : t.txBusyR
    · rfl
    · simp [hFall hWas]
  unfold Latches.next
  simp only [hIdle.reset, hIdle.resetCh, idle_writes hIdle,
    Nets.doExtreset, doLatch_false hDcd hCts, hNoFall,
    Nets.wr8Empties, hIdle.dataWrite]
  cases hL : l
  cases y <;> cases k.cep <;> cases t.wrData <;>
    simp_all [rr0Cts, Bool.or_comm]

/- At rest, nothing moves but by an access. -/
theorem rest_next (hRest : c.AtRest) (hIdle : k.Idle) :
    c.next k y = c := by
  have hPointer : c.toPointer.next k = c.toPointer := by
    rw [idle_pointer hIdle, hRest.pointer]
    simp
  have hFifo : c.toRxFifo.next k c.toPointer = c.toRxFifo := by
    rw [idle_rxFifo hIdle, hRest.popped]
    simp
  have hTransmit : c.toTransmit.next k = c.toTransmit := by
    rw [idle_transmit hIdle hRest.waits]
    have hImmediate := hRest.immediate
    have hDeferred := hRest.deferred
    have hBusy := hRest.busy
    cases hT : c.toTransmit
    simp_all
  have hFall : c.txBusyR = true → c.txBusy = true := by
    rw [hRest.busy]
    exact id
  have hUnderrun : (c.eomLatch ||
      (k.cep && c.sdlcMode && c.txEmptyLatch)) =
        c.eomLatch := by
    cases hSdlc : c.sdlcMode
    · simp
    · cases hEmpty : c.txEmptyLatch
      · simp
      · simp [hRest.underrun hSdlc hEmpty]
  have hLatches : c.toLatches.next k y c.toTransmit c.toRegs =
      c.toLatches := by
    rw [idle_latches hIdle hFall hRest.dcd hRest.cts,
      hUnderrun, hRest.immediate]
    simp
  unfold Channel.next
  rw [hPointer, hFifo, hTransmit, idle_regs hIdle, hLatches]

end Scc

------------------------------------------------------------
-- What an Access Does
------------------------------------------------------------

namespace Scc

/- The pointers of both channels. -/
def Chip.pointer (s : Chip) : Side → BitVec 4 :=
  fun y => (s.ch y).rindex

variable (p : Side → BitVec 4) (a : Access) (y : Side)

/- A write of register `n` of this channel. -/
def Access.writes (n : BitVec 4) : Bool :=
  a.we && a.controls y && p y == n

/- A write of WR9 that resets this channel. -/
def Access.resets : Bool :=
  a.we && !a.rsData && p a.side == 9#4 &&
    (resetCmd a.wdata == channelResetCmd y ||
      resetCmd a.wdata == 0b11#2)

/- The data port written, and read. -/
def Access.sends : Bool := a.we && a.rsData && a.side == y

def Access.takes : Bool := !a.we && a.rsData && a.side == y

/- A write that sets the transmitter up afresh. -/
def Access.configures : Bool :=
  a.writes p y 4#4 || a.writes p y 5#4 || a.writes p y 11#4 ||
    a.writes p y 12#4 || a.writes p y 13#4 || a.writes p y 14#4

/- The commands of WR0, in either of its fields. -/
def Access.commands (cmd : BitVec 3) : Bool :=
  a.writes p y 0#4 && wr0Cmd a.wdata == cmd

def Access.clearsEom : Bool :=
  a.writes p y 0#4 && resetCmd a.wdata == 0b11#2

def Access.written (n : BitVec 4) (w : Byte) : Byte :=
  if a.writes p y n then a.wdata else w

def RxFifo.effect (f : RxFifo) : RxFifo :=
  if a.hwResets p then
    { f with
      rxQueuePos := 0#2, rxFirst := true
      pendingDequeue := false }
  else if a.takes y then f.dequeue
  else if a.commands p y 0b100#3 then { f with rxFirst := true }
  else f

/-
  A byte goes to an idle transmitter at once, and waits for a
  busy one.
-/
def Transmit.effect (t : Transmit) : Transmit :=
  let busy := t.txBusy || a.sends y || a.resets p y ||
    a.configures p y
  { txData :=
      if a.hwResets p then 0x00#8
      else if a.sends y then a.wdata
      else t.txData
    txBufferFull :=
      if a.hwResets p then false
      else if a.sends y then t.txBusy
      else t.txBufferFull
    wrData := false
    uartTxWr := false
    txBusy := busy
    txBusyR := busy }

def Regs.effect (r : Regs) : Regs where
  wr1 :=
    if a.resets p y then wr1Reset r.wr1
    else a.written p y 1#4 r.wr1
  wr3 := a.written p y 3#4 r.wr3
  wr4 := a.written p y 4#4 r.wr4
  wr5 :=
    if a.resets p y then wr5Reset r.wr5
    else a.written p y 5#4 r.wr5
  wr10 :=
    if a.hwResets p then 0x00#8
    else if a.resets p y then wr10Reset r.wr10
    else a.written p y 10#4 r.wr10
  wr11 :=
    if a.hwResets p then 0x00#8
    else a.written p y 11#4 r.wr11
  wr12 := a.written p y 12#4 r.wr12
  wr13 := a.written p y 13#4 r.wr13
  wr14 :=
    if a.hwResets p then wr14HwReset r.wr14
    else if a.resets p y then wr14Reset r.wr14
    else a.written p y 14#4 r.wr14
  wr15 :=
    if a.hwResets p then 0xF8#8
    else a.written p y 15#4 r.wr15
  sdlcMode :=
    if a.resets p y then false
    else if a.writes p y 4#4 then
      a.wdata.extractLsb' 2 2 == 0b00#2 &&
        a.wdata.extractLsb' 4 2 == 0b10#2
    else r.sdlcMode
  hunt :=
    if a.resets p y then false
    else if a.writes p y 3#4 && a.wdata.getLsbD 4 then true
    else r.hunt

/- A byte sent, or written to WR8, fills the transmitter. -/
def Access.fills (t : Transmit) : Bool :=
  a.writes p y 8#4 ||
    (a.sends y && (y == .a || !t.txBusy))

/-
  The EOM latch that a command clears is set again where the
  transmitter is drained.
-/
def Latches.effect (t : Transmit) (r : Regs) (l : Latches) :
    Latches :=
  let txEmpty :=
    if a.resets p y then true
    else l.txEmptyLatch && !a.fills p y t
  { exIrqIp :=
      l.exIrqIp &&
        !(a.hwResets p || a.commands p y 0b010#3)
    latchOpen :=
      l.latchOpen ||
        (a.hwResets p || a.commands p y 0b010#3)
    dcdLatch := false
    ctsLatch := false
    eomLatch :=
      if a.resets p y then false
      else
        (l.eomLatch && !a.clearsEom p y) ||
          ((r.effect p a y).sdlcMode && txEmpty)
    txEmptyLatch := txEmpty
    txIntLatch :=
      l.txIntLatch &&
        !(a.resets p y || a.writes p y 8#4 || a.sends y ||
          a.commands p y 0b101#3) }

def Channel.effect (c : Channel) : Channel where
  toPointer := rest (pointersAfter p a y)
  toRxFifo := c.toRxFifo.effect p a y
  toTransmit := c.toTransmit.effect p a y
  toRegs := c.toRegs.effect p a y
  toLatches := c.toLatches.effect p a y c.toTransmit c.toRegs

def effect (s : Chip) (a : Access) : Chip where
  chA := s.chA.effect s.pointer a .a
  chB := s.chB.effect s.pointer a .b
  wr2 :=
    if a.writes s.pointer a.side 2#4 then a.wdata else s.wr2
  wr9 :=
    if a.writes s.pointer a.side 9#4 then
      a.wdata.extractLsb' 0 6
    else s.wr9
  csAccessDone := false

end Scc
