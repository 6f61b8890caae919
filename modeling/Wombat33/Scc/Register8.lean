import Wombat33.Scc.Handshake
import Wombat33.Scc.RxQueue

/-
  Register 8 through the pointer, against the data port.

  A control access with the pointer at 8 is compared with the
  access of the data port on the same clock.  The read gives
  the same byte but flags no pop, and the write only takes the
  flag of RR0 down: no byte reaches the buffer.

  Key definitions include:
    * `takesReg8`, `atDataPort`
    * `ActsAsPort`, `changesNothing`
    * `Stranded`

  Key theorems include:
    * `actsAsPort_iff`
    * `register8_iff`
    * `wr8_strands_flag`
    * `wr8_sends_nothing`
-/

------------------------------------------------------------
-- The Two Routes
------------------------------------------------------------

namespace Scc

variable (x : Side) (s : Chip) (i : In)

/- An access of register 8, taken through the pointer. -/
def takesReg8 : Bool :=
  !i.resetHw && (nets s i x).access && !i.rsData &&
    rindexLatch s i == 8#4

/- The same access, of the data port. -/
def atDataPort : In := { i with rsData := true }

@[simp] theorem atDataPort_cep : (atDataPort i).cep = i.cep := rfl

@[simp] theorem atDataPort_cen : (atDataPort i).cen = i.cen := rfl

@[simp] theorem atDataPort_resetHw :
    (atDataPort i).resetHw = i.resetHw := rfl

@[simp] theorem atDataPort_cs : (atDataPort i).cs = i.cs := rfl

@[simp] theorem atDataPort_we : (atDataPort i).we = i.we := rfl

@[simp] theorem atDataPort_rsData :
    (atDataPort i).rsData = true := rfl

@[simp] theorem atDataPort_side :
    (atDataPort i).side = i.side := rfl

@[simp] theorem atDataPort_wdata :
    (atDataPort i).wdata = i.wdata := rfl

@[simp] theorem atDataPort_line :
    (atDataPort i).line x = i.line x := by
  cases x <;> rfl

/-
  The access does what the data port's would do: a write to
  the buffer, the transmitter and the flag of RR0, which is
  down only while a byte is on its way; a read to the byte
  returned and to the FIFO.
-/
structure ActsAsPort : Prop where
  written : i.we = true →
    ((step s i).ch x).toTransmit =
        ((step s (atDataPort i)).ch x).toTransmit ∧
      ((step s i).ch x).txEmptyLatch =
        ((step s (atDataPort i)).ch x).txEmptyLatch
  handed : i.we = true →
    ((step s i).ch x).txEmptyLatch = false →
      ((step s i).ch x).toTransmit.inFlight ≠ []
  read : i.we = false →
    rdata s i = rdata s (atDataPort i) ∧
      ((step s i).ch x).toRxFifo =
        ((step s (atDataPort i)).ch x).toRxFifo

/- The clock on which each channel's copy clears the flag. -/
def clearsOnBoth (x : Side) (s : Chip) (i : In) : Bool :=
  match x with
  | .a => i.cep
  | .b => s.chB.wrData

/-
  The write finds its own value waiting for a busy
  transmitter, and a flag that is down or goes down by either
  route; the read finds a pop already flagged.
-/
def changesNothing : Prop :=
  (i.we = true →
    (s.ch x).txBufferFull = true ∧ (s.ch x).txBusy = true ∧
      (s.ch x).txData = i.wdata ∧
      ((s.ch x).txEmptyLatch = false ∨
        clearsOnBoth x s i = true)) ∧
  (i.we = false → (s.ch x).pendingDequeue = true)

end Scc

------------------------------------------------------------
-- One Access
------------------------------------------------------------

namespace Scc

variable {x : Side} {s : Chip} {i : In}

/- The wires of an access of register 8. -/
structure OnReg8 (x : Side) (s : Chip) (i : In) : Prop where
  hw : i.resetHw = false
  cen : i.cen = true
  cs : i.cs = true
  fresh : s.csAccessDone = false
  side : i.side = x
  control : i.rsData = false
  index : rindexLatch s i = 8#4

theorem onReg8 (hTakes : takesReg8 x s i = true) :
    OnReg8 x s i := by
  simp only [takesReg8, nets, Bool.and_eq_true,
    Bool.not_eq_true', beq_iff_eq] at hTakes
  exact
    { hw := hTakes.1.1.1
      cen := hTakes.1.1.2.1.1.1
      cs := hTakes.1.1.2.1.1.2
      fresh := hTakes.1.1.2.1.2
      side := hTakes.1.1.2.2
      control := hTakes.1.2
      index := hTakes.2 }

theorem reset_reg8 (h : OnReg8 x s i) :
    reset s i = false ∧ resetCh s i x = false ∧
      reset s (atDataPort i) = false ∧
      resetCh s (atDataPort i) x = false := by
  have hWr9 : wregWr9 s i = false := by
    simp [wregWr9, h.index]
  have hPort : wregWr9 s (atDataPort i) = false := by
    simp [wregWr9, wreg]
  simp [reset, resetCh, hWr9, hPort, h.hw]

theorem txuartReset_reg8 (h : OnReg8 x s i) :
    (nets s i x).txuartReset = false ∧
      (nets s (atDataPort i) x).txuartReset = false := by
  rcases reset_reg8 h with ⟨_, hCh, _, hPortCh⟩
  constructor
  · simp [Nets.txuartReset, nets, hCh, h.hw, h.index]
  · simp [Nets.txuartReset, nets, hPortCh, wreg, h.hw]

theorem dataTake_reg8 (h : OnReg8 x s i) :
    (nets s i x).dataTake = false ∧
      (nets s (atDataPort i) x).dataTake = i.we := by
  constructor
  · simp [Nets.dataTake, nets, h.control]
  · simp [Nets.dataTake, nets, h.cen, h.cs, h.fresh, h.side]

theorem txuart_reg8 (h : OnReg8 x s i) (t : Transmit) :
    txuart (nets s (atDataPort i) x) t =
      txuart (nets s i x) t := by
  rcases txuartReset_reg8 h with ⟨hOn, hPort⟩
  have hLine : (nets s (atDataPort i) x).line =
      (nets s i x).line := atDataPort_line x i
  simp only [txuart, hOn, hPort, hLine]

/- The write reaches the buffer only by the data port. -/
theorem transmit_reg8 (h : OnReg8 x s i) (hWe : i.we = true) :
    ((step s i).ch x).toTransmit =
        ((step s (atDataPort i)).ch x).toTransmit ↔
      (s.ch x).txBufferFull = true ∧ (s.ch x).txBusy = true ∧
        (s.ch x).txData = i.wdata := by
  rcases reset_reg8 h with ⟨hReset, _, hPort, _⟩
  rcases dataTake_reg8 h with ⟨hTake, hPortTake⟩
  have hWdata : (nets s (atDataPort i) x).wdata = i.wdata := rfl
  rw [step_transmit, step_transmit,
    Transmit.next_eq _ _ hReset, Transmit.next_eq _ _ hPort,
    hTake, hPortTake, hWe, txuart_reg8 h, hWdata]
  cases hFull : (s.ch x).txBufferFull <;>
    cases hBusy : (s.ch x).txBusy <;> simp

/- The flag goes down by each route on its own terms. -/
theorem txEmpty_reg8
    (h : OnReg8 x s i)
    (hWe : i.we = true)
    (hBusy : (s.ch x).txBusy = true) :
    ((step s i).ch x).txEmptyLatch =
        ((step s (atDataPort i)).ch x).txEmptyLatch ↔
      ((s.ch x).txEmptyLatch = false ∨
        clearsOnBoth x s i = true) := by
  rcases reset_reg8 h with ⟨hReset, hCh, hPort, hPortCh⟩
  have hWrites : (nets s i x).writes 8#4 = true := by
    simp [Nets.writes, nets, wreg, h.cs, hWe, h.control, h.side,
      h.fresh, h.index]
  have hPortWrites :
      (nets s (atDataPort i) x).writes 8#4 = false := by
    simp [Nets.writes, nets, wreg]
  rw [step_txEmptyLatch, step_txEmptyLatch, hReset, hCh, hPort,
    hPortCh, hBusy]
  cases x with
  | a =>
      have hNone : (nets s i .a).dataWrite = false := by
        simp [nets, h.control]
      have hData :
          (nets s (atDataPort i) .a).dataWrite = true := by
        simp [nets, h.cs, hWe, h.side, h.fresh]
      have hCep : (nets s i .a).cep = i.cep := rfl
      cases hLatch : (s.ch .a).txEmptyLatch <;>
        cases hOn : i.cep <;>
        simp [Nets.wr8Empties, hWrites, hPortWrites, hNone,
          hData, clearsOnBoth, hCep, hOn]
  | b =>
      cases hLatch : (s.ch .b).txEmptyLatch <;>
        cases hWr : s.chB.wrData <;>
        simp [Nets.wr8Empties, hWrites, hPortWrites,
          clearsOnBoth, hWr, Chip.ch]

/- Both routes show the head of the FIFO. -/
theorem rdata_reg8 (h : OnReg8 x s i) :
    rdata s i = rdata s (atDataPort i) := by
  have hHead : readReg s x 8#4 = (s.ch x).rxQueue0 := rfl
  simp [rdata, h.control, h.side, h.index, hHead]

/- Only the data port flags the pop. -/
theorem rxFifo_reg8 (h : OnReg8 x s i) (hWe : i.we = false) :
    ((step s i).ch x).toRxFifo =
        ((step s (atDataPort i)).ch x).toRxFifo ↔
      (s.ch x).pendingDequeue = true := by
  rcases reset_reg8 h with ⟨hReset, _, hPort, _⟩
  have hRead : (nets s i x).dataRead = false := by
    simp [Nets.dataRead, nets, h.control]
  have hPortRead : (nets s (atDataPort i) x).dataRead = true := by
    simp [Nets.dataRead, nets, h.cen, h.cs, h.fresh, h.side, hWe]
  have hAsks (j : In) (hJ : j.we = false) :
      (nets s j x).asksFirst (s.ch x).toPointer = false := by
    simp [Nets.asksFirst, nets, hJ]
  have hStays : (nets s i x).pops (s.ch x).toRxFifo = false := by
    simp [Nets.pops, nets, h.cs]
  have hMoved :
      (s.ch x).toRxFifo.moved (nets s (atDataPort i) x) =
        (s.ch x).toRxFifo.moved (nets s i x) := by
    have hLine : (nets s (atDataPort i) x).line =
        (nets s i x).line := atDataPort_line x i
    have hOther :
        (nets s (atDataPort i) x).pops (s.ch x).toRxFifo =
          false := by
      simp [Nets.pops, nets, h.cs]
    simp only [RxFifo.moved, hStays, hOther, hLine]
  rw [step_rxFifo, step_rxFifo, RxFifo.next_moved hReset,
    RxFifo.next_moved hPort, hAsks i hWe,
    hAsks (atDataPort i) hWe, hRead, hPortRead, hMoved]
  have hFlag := RxFifo.moved_pendingDequeue (k := nets s i x)
    (f := (s.ch x).toRxFifo)
  rw [hStays, Bool.not_false, Bool.and_true] at hFlag
  rw [← hFlag]
  generalize (s.ch x).toRxFifo.moved (nets s i x) = m
  constructor
  · intro hSame
    have hPending := congrArg RxFifo.pendingDequeue hSame
    simpa using hPending
  · intro hPending
    cases m
    simpa using hPending

/- An access acts as the port's exactly where it is idle. -/
theorem actsAsPort_iff (h : OnReg8 x s i) :
    ActsAsPort x s i ↔ changesNothing x s i := by
  constructor
  · intro hActs
    refine ⟨fun hWe => ?_, fun hWe => ?_⟩
    · rcases hActs.written hWe with ⟨hTransmit, hFlag⟩
      rcases (transmit_reg8 h hWe).mp hTransmit with
        ⟨hFull, hBusy, hData⟩
      exact ⟨hFull, hBusy, hData,
        (txEmpty_reg8 h hWe hBusy).mp hFlag⟩
    · exact (rxFifo_reg8 h hWe).mp (hActs.read hWe).2
  · rintro ⟨hWrite, hRead⟩
    refine ⟨fun hWe => ?_, fun hWe _ => ?_, fun hWe => ?_⟩
    · rcases hWrite hWe with ⟨hFull, hBusy, hData, hFlag⟩
      exact ⟨(transmit_reg8 h hWe).mpr ⟨hFull, hBusy, hData⟩,
        (txEmpty_reg8 h hWe hBusy).mpr hFlag⟩
    · rcases hWrite hWe with ⟨hFull, hBusy, _, _⟩
      have hNext := step_txBufferFull (x := x) (reset_reg8 h).1
      rw [(dataTake_reg8 h).1, hFull, hBusy] at hNext
      have hWaits : ((step s i).ch x).txBufferFull = true := hNext
      simp only [Transmit.inFlight, hWaits, Bool.true_or, if_true]
      exact List.cons_ne_nil _ _
    · exact ⟨rdata_reg8 h, (rxFifo_reg8 h hWe).mpr (hRead hWe)⟩

end Scc

------------------------------------------------------------
-- Every Run
------------------------------------------------------------

namespace Scc

open Clocked

/-
  Register 8 is the data port in the runs in which each access
  of it by the pointer changes nothing, and in no other.
-/
theorem register8_iff
    (x : Side)
    (s : Chip)
    (is : List In) :
    Along step
        (fun t i => takesReg8 x t i = true → ActsAsPort x t i)
        s is ↔
      Along step
        (fun t i =>
          takesReg8 x t i = true → changesNothing x t i)
        s is := by
  constructor
  · refine along_mono fun t i hActs hTakes => ?_
    exact (actsAsPort_iff (onReg8 hTakes)).mp (hActs hTakes)
  · refine along_mono fun t i hIdle hTakes => ?_
    exact (actsAsPort_iff (onReg8 hTakes)).mpr (hIdle hTakes)

/- The flag is down and no byte is under way. -/
structure Stranded (x : Side) (s : Chip) : Prop where
  down : (s.ch x).txEmptyLatch = false
  empty : (s.ch x).txBufferFull = false
  low : (s.ch x).toTransmit.strobe = false
  free : (s.ch x).txBusy = false
  done : (s.ch x).txBusyR = false

/- Nothing is written to the port and nothing is reset. -/
def leavesAlone (x : Side) (s : Chip) (i : In) : Prop :=
  reset s i = false ∧ (nets s i x).dataTake = false ∧
    (nets s i x).txuartReset = false

theorem stranded_step
    {x : Side} {s : Chip} {i : In}
    (hLost : Stranded x s)
    (hQuiet : leavesAlone x s i) :
    Stranded x (step s i) := by
  rcases hQuiet with ⟨hReset, hTake, hRun⟩
  have hCh : resetCh s i x = false := by
    apply Bool.eq_false_iff.mpr
    intro hCh
    rw [txuartReset_of_resetCh hCh] at hRun
    exact Bool.noConfusion hRun
  have hLow := Transmit.strobe_eq_false.mp hLost.low
  have hNext := Transmit.next_eq (nets s i x)
    (s.ch x).toTransmit hReset
  rw [← step_transmit, hTake, hLost.empty, hLost.free] at hNext
  have hFree :
      txuart (nets s i x) (s.ch x).toTransmit = false := by
    simp [txuart, hRun, hLow.1, hLow.2, hLost.free]
  refine ⟨?_, ?_, ?_, ?_, ?_⟩
  · rw [step_txEmptyLatch, hReset, hCh, hLost.done, hLost.down]
    simp
  · exact congrArg Transmit.txBufferFull hNext
  · exact congrArg Transmit.strobe hNext
  · exact (congrArg Transmit.txBusy hNext).trans hFree
  · exact congrArg Transmit.txBusyR hNext

/-
  A write of register 8 while nothing is under way leaves the
  flag down for good, or until the port is written to or the
  transmitter reset.
-/
theorem wr8_strands_flag
    (x : Side)
    (s : Chip)
    (is : List In)
    (hLost : Stranded x s)
    (hQuiet : Along step (leavesAlone x) s is) :
    Always step (fun t => (t.ch x).rr0.getLsbD 2 = false) s is :=
  always_mono
    (fun _ hInv => (rr0_txEmpty _).trans hInv.down)
    (always_of_along
      (fun _ _ hInv hOk => stranded_step hInv hOk) hQuiet hLost)

/- Channel A, idle: the pointer is set to 8. -/
def selectWr8 : List In :=
  [{ lineA := { txReady := true } }, {},
    { cen := true, cs := true, we := true, rsA := true
      wdata := 0x08#8 }, { cen := true }]

/- A window with `cep` before `cen`. -/
def writeWr8 (w : Byte) : List In :=
  [{ cep := true, cs := true, we := true, rsA := true
     wdata := w },
    { cen := true, cs := true, we := true, rsA := true
      wdata := w }]

theorem writeWr8_strands :
    Stranded .a
      (run step (startTx default).1
        (selectWr8 ++ writeWr8 0x41#8)) :=
  ⟨by decide, by decide, by decide, by decide, by decide⟩

/- The flag goes down, and the byte goes nowhere. -/
theorem wr8_sends_nothing :
    ¬ ∀ (x : Side) (s : Chip) (is : List In),
      Along step
        (fun t i => takesReg8 x t i = true → ActsAsPort x t i)
        (startTx s).1 is := by
  intro hAll
  have hRun :=
    hAll .a default (selectWr8 ++ writeWr8 0x41#8)
  rw [writeWr8, ← List.singleton_append,
    ← List.append_assoc, along_append] at hRun
  have hActs := hRun.2.1 (by decide)
  exact hActs.handed rfl (by decide) (by decide)

end Scc
