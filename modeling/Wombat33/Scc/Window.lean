import Wombat33.Scc.Effect

/-
  One access to a serial controller at rest, for any window.

  A window is any number of clocks, some of them `cep`, and
  then its `cen`; the gap after it holds a `cep` and a `cen`.
  What waits for `cep` misses a window without one.  A reset
  by WR9 ends the access on the window's first clock, and
  what waits for `cen` misses it unless that is the `cen`.

  Key definitions include:
    * `windowIn`, `gapIn`, `visit`
    * `Waiting`, `Settling`
    * `Chip.outcome`, `Chip.hwReset`

  Key theorems include:
    * `waiting_run`
    * `visit_outcome`
    * `visit_hwReset`
-/

------------------------------------------------------------
-- The Clocks of an Access
------------------------------------------------------------

namespace Scc

/- A clock of a window, with its enables. -/
def windowIn (a : Access) (cep cen : Bool) : In where
  cep := cep
  cen := cen
  cs := true
  we := a.we
  rsData := a.rsData
  rsA := a.rsA
  wdata := a.wdata

def gapIn (a : Access) (cep cen : Bool) : In where
  cep := cep
  cen := cen
  we := a.we
  rsData := a.rsData
  rsA := a.rsA
  wdata := a.wdata

variable {s u : Chip} {a : Access} {y : Side}
variable {cep cen : Bool}

@[simp] theorem windowIn_cs :
    (windowIn a cep cen).cs = true := rfl

@[simp] theorem windowIn_cep :
    (windowIn a cep cen).cep = cep := rfl

@[simp] theorem windowIn_cen :
    (windowIn a cep cen).cen = cen := rfl

@[simp] theorem windowIn_resetHw :
    (windowIn a cep cen).resetHw = false := rfl

@[simp] theorem windowIn_we :
    (windowIn a cep cen).we = a.we := rfl

@[simp] theorem windowIn_rsData :
    (windowIn a cep cen).rsData = a.rsData := rfl

@[simp] theorem windowIn_wdata :
    (windowIn a cep cen).wdata = a.wdata := rfl

@[simp] theorem windowIn_side :
    (windowIn a cep cen).side = a.side := rfl

theorem gap_reset : reset s (gapIn a cep cen) = false :=
  reset_idle rfl rfl

/- A gap carries no access. -/
theorem gap_idle : (nets s (gapIn a cep cen) y).Idle where
  resetHw := rfl
  reset := @gap_reset s a cep cen
  resetCh := by
    change resetCh s (gapIn a cep cen) y = false
    unfold resetCh
    rw [gap_reset]
    simp [wregWr9, wreg, gapIn]
  wreg := by simp [nets, wreg, gapIn]
  access := by simp [nets, gapIn]
  dataWrite := by simp [nets, gapIn]
  line := by cases y <;> rfl

/- Nor does a window whose access is taken. -/
theorem done_idle (hDone : s.csAccessDone = true) :
    (nets s (windowIn a cep cen) y).Idle := by
  have hReset : reset s (windowIn a cep cen) = false :=
    reset_idle rfl (by simp [hDone])
  refine ⟨rfl, hReset, ?_, ?_, ?_, ?_, ?_⟩
  · simp [nets, resetCh, hReset, wregWr9, wreg, hDone]
  · simp [nets, wreg, hDone]
  · simp [nets, hDone]
  · simp [nets, hDone]
  · cases y <;> rfl

/- The wires of a window whose access is not taken yet. -/
theorem window_wr9 (hDone : s.csAccessDone = false) :
    wregWr9 s (windowIn a cep cen) =
      (a.we && !a.rsData && s.pointer a.side == 9#4) := by
  unfold wregWr9
  rw [wreg_or]
  cases hData : a.rsData <;>
    simp [rindexLatch, hDone, hData, Chip.pointer]

theorem window_reset (hDone : s.csAccessDone = false) :
    reset s (windowIn a cep cen) = a.hwResets s.pointer := by
  unfold reset Access.hwResets
  rw [window_wr9 hDone]
  simp

theorem window_resetCh (hDone : s.csAccessDone = false) :
    resetCh s (windowIn a cep cen) y = a.resets s.pointer y := by
  unfold resetCh Access.resets
  rw [window_wr9 hDone, window_reset hDone]
  unfold Access.hwResets
  cases a.we && !a.rsData && s.pointer a.side == 9#4 <;>
    simp

theorem window_writes
    (hDone : s.csAccessDone = false)
    (n : BitVec 4) :
    (nets s (windowIn a cep cen) y).writes n =
      a.writes s.pointer y n := by
  unfold Nets.writes Access.writes Access.controls
  cases hData : a.rsData
  · by_cases hSide : a.side = y
    · subst hSide
      simp [nets, wreg, rindexLatch, hDone, hData,
        Chip.pointer]
    · have hNot : (a.side == y) = false := by simpa using hSide
      simp [nets, wreg, hNot]
  · simp [nets, wreg, hData]

theorem window_dataWrite (hDone : s.csAccessDone = false) :
    (nets s (windowIn a cep cen) y).dataWrite = a.sends y := by
  simp [nets, hDone, Access.sends]

theorem window_access (hDone : s.csAccessDone = false) :
    (nets s (windowIn a cep cen) y).access =
      (cen && a.side == y) := by
  simp [nets, hDone]

theorem window_line :
    (nets s (windowIn a cep cen) y).line = {} := by
  cases y <;> rfl

theorem resets_of_hwResets
    {p : Side → BitVec 4}
    (hHw : a.hwResets p = true) :
    a.resets p y = true := by
  unfold Access.hwResets at hHw
  unfold Access.resets
  simp only [Bool.and_eq_true, Bool.or_eq_true] at hHw ⊢
  exact ⟨hHw.1, Or.inr hHw.2⟩

end Scc

------------------------------------------------------------
-- The Clocks Before the Window's cen
------------------------------------------------------------

namespace Scc

/- What clears `tx_empty_latch` at once, and at `cep` only. -/
def Access.emptiesNow
    (p : Side → BitVec 4) (a : Access) (y : Side) : Bool :=
  match y with
  | .a => a.sends y
  | .b => a.writes p y 8#4

def Access.emptiesLate
    (p : Side → BitVec 4) (a : Access) (y : Side) : Bool :=
  match y with
  | .a => a.writes p y 8#4
  | .b => false

/- The interrupt latch is cleared at once by these. -/
def Access.clearsInt
    (p : Side → BitVec 4) (a : Access) (y : Side) : Bool :=
  a.sends y || a.commands p y 0b101#3

/-
  A channel waiting in a window, `seen` if a `cep` has been in
  it.  A latch that the access clears at once may be cleared
  already: the window's `cen` clears it again.
-/
structure Channel.Waiting
    (p : Side → BitVec 4) (a : Access) (y : Side)
    (seen : Bool) (c u : Channel) : Prop where
  pointer : u.toPointer = c.toPointer
  rxFifo : u.toRxFifo = c.toRxFifo
  txData : u.txData = c.txData
  txBufferFull : u.txBufferFull = c.txBufferFull
  immediate : u.wrData = false
  deferred : u.uartTxWr = false
  busyUp : c.txBusy = true → u.txBusy = true
  noFall : u.txBusyR = true → u.txBusy = true
  busy : a.resets p y = false → u.txBusy = c.txBusy
  regs : ∃ sdlc hunt, u.toRegs =
    { c.toRegs with sdlcMode := sdlc, hunt := hunt }
  modes : a.resets p y = false → u.toRegs = c.toRegs
  exIrqIp : u.exIrqIp =
    (c.exIrqIp && !(seen && a.commands p y 0b010#3))
  latchOpen : u.latchOpen =
    (c.latchOpen || (seen && a.commands p y 0b010#3))
  dcd : u.dcdLatch = false
  cts : u.ctsLatch = false
  eom : a.resets p y = false → u.eomLatch =
    (c.eomLatch && !(seen && a.clearsEom p y))
  drained : a.resets p y = false → u.txEmptyLatch = true →
    c.txEmptyLatch = true
  emptied : a.resets p y = false →
    (u.txEmptyLatch && !a.emptiesNow p y) =
      (c.txEmptyLatch &&
        !(a.emptiesNow p y || (seen && a.emptiesLate p y)))
  quieted : a.resets p y = false →
    (u.txIntLatch && !a.clearsInt p y) =
      (c.txIntLatch &&
        !(a.clearsInt p y || (seen && a.writes p y 8#4)))

structure Waiting
    (s : Chip) (a : Access) (seen : Bool) (u : Chip) : Prop where
  done : u.csAccessDone = false
  wr2 : u.wr2 = s.wr2
  wr9 : u.wr9 = s.wr9
  channel : ∀ y,
    (s.ch y).Waiting s.pointer a y seen (u.ch y)

theorem waiting_start (hRest : s.AtRest) :
    Waiting s a false s where
  done := hRest.done
  wr2 := rfl
  wr9 := rfl
  channel y := by
    have hY := hRest.channel y
    refine ⟨rfl, rfl, rfl, rfl, hY.immediate, hY.deferred, id,
      ?_, fun _ => rfl, ⟨_, _, rfl⟩, fun _ => rfl, ?_, ?_,
      hY.dcd, hY.cts, ?_, fun _ => id, ?_, ?_⟩
    · rw [hY.busy]
      exact id
    · simp
    · simp
    · simp
    · simp
    · simp

end Scc

------------------------------------------------------------
-- One Clock of a Window
------------------------------------------------------------

namespace Scc

variable {k : Nets} {y : Side}

/-
  The latches, on a clock without a reset of the chip and
  without the end of a transmission.
-/
theorem latches_next
    {t : Transmit} {r : Regs} {l : Latches}
    (hReset : k.reset = false)
    (hFall : t.txBusyR = true → t.txBusy = true)
    (hDcd : l.dcdLatch = false)
    (hCts : l.ctsLatch = false) :
    l.next k y t r =
      { exIrqIp := l.exIrqIp && !(k.cep && k.doExtreset)
        latchOpen := l.latchOpen || (k.cep && k.doExtreset)
        dcdLatch := false
        ctsLatch := false
        eomLatch := !k.resetCh &&
          (l.eomLatch ||
            (k.cep && r.sdlcMode && l.txEmptyLatch)) &&
          !(k.cep && (k.writes 0#4 &&
            resetCmd k.wdata == 0b11#2))
        txEmptyLatch :=
          k.resetCh || (l.txEmptyLatch && !k.wr8Empties y t)
        txIntLatch := !k.resetCh && l.txIntLatch &&
          !(k.dataWrite || (k.cep && k.writes 8#4) ||
            (k.writes 0#4 && wr0Cmd k.wdata == 0b101#3)) } := by
  have hNoFall : (t.txBusyR && !t.txBusy) = false := by
    cases hWas : t.txBusyR
    · rfl
    · simp [hFall hWas]
  unfold Latches.next
  simp only [hReset, doLatch_false hDcd hCts, hNoFall]
  rw [Latches.mk.injEq]
  refine ⟨?_, ?_, ?_, ?_, ?_, ?_, ?_⟩
  · cases k.cep <;> cases k.doExtreset <;> simp
  · cases k.cep <;> cases k.doExtreset <;> simp
  · simp [hDcd]
  · cases y <;> simp [hCts, rr0Cts]
  · generalize (k.writes 0#4 &&
      resetCmd k.wdata == 0b11#2) = hClears
    cases k.resetCh <;> cases k.cep <;> cases hClears <;>
      simp [Bool.or_comm]
  · cases k.resetCh <;> cases k.wr8Empties y t <;> simp
  · generalize (k.dataWrite || (k.cep && k.writes 8#4) ||
      (k.writes 0#4 && wr0Cmd k.wdata == 0b101#3)) = hClears
    cases k.resetCh <;> cases hClears <;> simp

/- A clock of a window that holds no `cen`. -/
structure Nets.Waits (k : Nets) : Prop where
  resetHw : k.resetHw = false
  reset : k.reset = false
  cen : k.cen = false
  access : k.access = false
  cs : k.cs = true
  line : k.line = {}

theorem waits_transmit
    (hWaits : k.Waits)
    {t : Transmit}
    (hFull : t.txBufferFull = true → t.txBusy = true)
    (hImmediate : t.wrData = false)
    (hDeferred : t.uartTxWr = false) :
    t.next k = { t with
      txBusy := k.resetCh || t.txBusy
      txBusyR := t.txBusy } := by
  have hTransfer : (t.txBufferFull && !t.txBusy) = false := by
    cases hWas : t.txBufferFull
    · rfl
    · simp [hFull hWas]
  unfold Transmit.next txuart Nets.txuartReset
  simp only [hWaits.reset, hWaits.access, hWaits.resetHw,
    hWaits.cen, hWaits.line, hTransfer, hImmediate, hDeferred]
  cases hT : t
  cases k.resetCh <;> simp_all

theorem waits_rxFifo
    (hWaits : k.Waits) (p : Pointer) (f : RxFifo) :
    f.next k p = f := by
  unfold RxFifo.next RxFifo.enqueue
  simp [hWaits.reset, hWaits.access, hWaits.cen, hWaits.line]

theorem waits_regs (hWaits : k.Waits) (r : Regs) :
    r.next k = { r with
      sdlcMode := !k.resetCh && r.sdlcMode
      hunt := !k.resetCh && r.hunt } := by
  unfold Regs.next Nets.kept Nets.plain
  cases hR : r
  cases k.resetCh <;>
    simp [hWaits.reset, hWaits.resetHw, hWaits.cen]

end Scc

------------------------------------------------------------
-- A Waiting Window
------------------------------------------------------------

namespace Scc

/- A latch set before, and cleared once by `cep`. -/
theorem latch_underrun :
    ∀ e under seen cep clears : Bool,
      (under = true → e = true) →
      (((e && !(seen && clears)) || (cep && under)) &&
          !(cep && clears)) =
        (e && !((seen || cep) && clears)) := by
  decide

/- A latch cleared by some accesses at once, by some late. -/
theorem latch_cleared :
    ∀ l u now late seen cep : Bool,
      (u && !now) = (l && !(now || (seen && late))) →
      ((u && !(now || (cep && late))) && !now) =
        (l && !(now || ((seen || cep) && late))) := by
  decide

variable {s u : Chip} {a : Access} {y : Side}
variable {cep cen seen : Bool}

theorem Waiting.pointer_eq
    (hWaiting : Waiting s a seen u) :
    u.pointer = s.pointer := by
  funext y
  exact congrArg Pointer.rindex (hWaiting.channel y).pointer

theorem window_waits
    (hWaiting : Waiting s a seen u)
    (hNot : a.hwResets s.pointer = false) :
    (nets u (windowIn a cep false) y).Waits where
  resetHw := rfl
  reset := by
    change reset u (windowIn a cep false) = false
    rw [window_reset hWaiting.done, hWaiting.pointer_eq]
    exact hNot
  cen := rfl
  access := by
    rw [window_access hWaiting.done]
    rfl
  cs := rfl
  line := window_line

/- What a `cep` in the window does, it does once. -/
theorem waiting_step
    (hRest : s.AtRest)
    (hNot : a.hwResets s.pointer = false)
    (hWaiting : Waiting s a seen u) :
    Waiting s a (seen || cep)
      (step u (windowIn a cep false)) := by
  have hPtr := hWaiting.pointer_eq
  have hReset : reset u (windowIn a cep false) = false := by
    rw [window_reset hWaiting.done, hPtr]
    exact hNot
  refine ⟨?_, ?_, ?_, fun y => ?_⟩
  · simp [step_csAccessDone, csAccessDoneNext, hReset,
      hWaiting.done]
  · simpa [step] using hWaiting.wr2
  · simpa [step] using hWaiting.wr9
  · have hWas := hWaiting.channel y
    have hY := hRest.channel y
    have hWaits : (nets u (windowIn a cep false) y).Waits :=
      window_waits hWaiting hNot
    have hCh : (nets u (windowIn a cep false) y).resetCh =
        a.resets s.pointer y := by
      rw [← hPtr]
      exact window_resetCh hWaiting.done
    have hWrites : ∀ n,
        (nets u (windowIn a cep false) y).writes n =
          a.writes s.pointer y n := by
      intro n
      rw [← hPtr]
      exact window_writes hWaiting.done n
    have hSends := @window_dataWrite u a y cep false
      hWaiting.done
    have hFull : (u.ch y).txBufferFull = true →
        (u.ch y).txBusy = true := by
      rw [hWas.txBufferFull]
      exact fun hIs => hWas.busyUp (hY.waits hIs)
    have hTransmit := waits_transmit hWaits hFull hWas.immediate
      hWas.deferred
    have hLatches := @latches_next _ y (u.ch y).toTransmit
      (u.ch y).toRegs (u.ch y).toLatches hWaits.reset
      hWas.noFall hWas.dcd hWas.cts
    rw [step_ch]
    unfold Channel.next
    rw [hTransmit, hLatches, waits_rxFifo hWaits,
      waits_regs hWaits, hCh, hSends]
    simp only [Nets.doExtreset, hWrites]
    have hCommand : (a.writes s.pointer y 0#4 &&
        wr0Cmd a.wdata == 0b010#3) =
          a.commands s.pointer y 0b010#3 := rfl
    refine ⟨?_, hWas.rxFifo, hWas.txData, hWas.txBufferFull,
      hWas.immediate, hWas.deferred, ?_, ?_, ?_, ?_, ?_, ?_, ?_,
      rfl, rfl, ?_, ?_, ?_, ?_⟩
    · exact (Pointer.next_window hWaits.reset hWaits.cs
        (by simp [hWaits.access])).trans hWas.pointer
    · intro hIs
      simp [hWas.busyUp hIs]
    · intro hIs
      change (u.ch y).txBusy = true at hIs
      simp [hIs]
    · intro hCh
      simpa [hCh] using hWas.busy hCh
    · rcases hWas.regs with ⟨sdlc, hunt, hRegs⟩
      rw [hRegs]
      exact ⟨_, _, rfl⟩
    · intro hCh
      rw [hCh, hWas.modes hCh]
      simp
    · simp only [nets, windowIn_cep, windowIn_wdata, hCommand,
        hWas.exIrqIp]
      cases seen <;> cases cep <;>
        cases a.commands s.pointer y 0b010#3 <;> simp
    · simp only [nets, windowIn_cep, windowIn_wdata, hCommand,
        hWas.latchOpen]
      cases seen <;> cases cep <;>
        cases a.commands s.pointer y 0b010#3 <;> simp
    · intro hCh
      have hUnderrun : ((u.ch y).sdlcMode &&
          (u.ch y).txEmptyLatch) = true →
            (s.ch y).eomLatch = true := by
        intro hBoth
        rcases Bool.and_eq_true_iff.mp hBoth with
          ⟨hSdlc, hEmpty⟩
        have hModes := hWas.modes hCh
        have hSame : (u.ch y).sdlcMode = (s.ch y).sdlcMode :=
          congrArg Regs.sdlcMode hModes
        exact hY.underrun (hSame ▸ hSdlc)
          (hWas.drained hCh hEmpty)
      have hClears : (a.writes s.pointer y 0#4 &&
          resetCmd a.wdata == 0b11#2) =
            a.clearsEom s.pointer y := rfl
      simp only [nets, windowIn_cep, windowIn_wdata, hClears,
        hWas.eom hCh, hCh, Bool.not_false, Bool.true_and]
      rw [Bool.and_assoc]
      exact latch_underrun _ _ _ _ _ hUnderrun
    · intro hCh hIs
      simp only [hCh, Bool.false_or, Bool.and_eq_true] at hIs
      exact hWas.drained hCh hIs.1
    · intro hCh
      have hEmpties :
          (nets u (windowIn a cep false) y).wr8Empties y
              (u.ch y).toTransmit =
            (a.emptiesNow s.pointer y ||
              (cep && a.emptiesLate s.pointer y)) := by
        unfold Nets.wr8Empties
        cases y with
        | a =>
            simp only [hSends, hWrites]
            rfl
        | b =>
            simp only [hWrites, hWas.immediate]
            simp [Access.emptiesNow, Access.emptiesLate]
      simp only [hEmpties, hCh, Bool.false_or]
      exact latch_cleared _ _ _ _ _ _ (hWas.emptied hCh)
    · intro hCh
      have hClears : (a.sends y ||
          (cep && a.writes s.pointer y 8#4) ||
          (a.writes s.pointer y 0#4 &&
            wr0Cmd a.wdata == 0b101#3)) =
          (a.clearsInt s.pointer y ||
            (cep && a.writes s.pointer y 8#4)) := by
        unfold Access.clearsInt Access.commands
        exact Bool.or_right_comm _ _ _
      simp only [nets, windowIn_cep, windowIn_wdata, hCh,
        Bool.not_false, Bool.true_and, hClears]
      exact latch_cleared _ _ _ _ _ _ (hWas.quieted hCh)

/- The clocks of a window before its `cen`. -/
theorem waiting_run
    (hRest : s.AtRest)
    (hNot : a.hwResets s.pointer = false)
    (ceps : List Bool)
    (hWaiting : Waiting s a seen u) :
    Waiting s a (seen || ceps.any id)
      (Clocked.run step u
        (ceps.map fun cep => windowIn a cep false)) := by
  induction ceps generalizing u seen with
  | nil => simpa using hWaiting
  | cons cep ceps ih =>
      have hNext : Waiting s a (seen || cep)
          (step u (windowIn a cep false)) :=
        waiting_step hRest hNot hWaiting
      have hRest := ih hNext
      simpa [Bool.or_assoc] using hRest

end Scc

------------------------------------------------------------
-- The Gap After a Window
------------------------------------------------------------

namespace Scc

variable {s : Chip} {a : Access} {c : Channel} {y : Side}

/- A channel as a window leaves it. -/
structure Channel.Closing (c : Channel) : Prop where
  waits : c.txBufferFull = true → c.txBusy = true
  noFall : c.txBusyR = true → c.txBusy = true
  deferred : c.uartTxWr = false
  dcd : c.dcdLatch = false
  cts : c.ctsLatch = false

/- One clock of the gap, with its enables. -/
def Channel.gap (y : Side) (cep cen : Bool) (c : Channel) :
    Channel where
  toPointer := if cen then c.toPointer.release else c.toPointer
  toRxFifo :=
    if cen && c.pendingDequeue then c.toRxFifo.dequeue
    else c.toRxFifo
  toTransmit := { c.toTransmit with
    wrData := false, uartTxWr := false
    txBusy := c.wrData || c.txBusy
    txBusyR := c.txBusy }
  toRegs := c.toRegs
  toLatches := { c.toLatches with
    eomLatch := c.eomLatch ||
      (cep && c.sdlcMode && c.txEmptyLatch)
    txEmptyLatch :=
      c.txEmptyLatch && !(y == .b && c.wrData) }

theorem gap_next
    {k : Nets}
    (hClosing : c.Closing)
    (hIdle : k.Idle)
    (hCs : k.cs = false) :
    c.next k y = c.gap y k.cep k.cen := by
  unfold Channel.next Channel.gap
  rw [idle_pointer hIdle, idle_rxFifo hIdle,
    idle_transmit hIdle hClosing.waits, idle_regs hIdle,
    idle_latches hIdle hClosing.noFall hClosing.dcd
      hClosing.cts]
  simp [hCs, hClosing.deferred]

theorem closing_gap
    {cep cen : Bool}
    (hClosing : c.Closing) :
    (c.gap y cep cen).Closing := by
  refine ⟨fun hFull => ?_, fun hWas => ?_, rfl,
    hClosing.dcd, hClosing.cts⟩
  · change c.txBufferFull = true at hFull
    simp [Channel.gap, hClosing.waits hFull]
  · change c.txBusy = true at hWas
    simp [Channel.gap, hWas]

/- What the gap, from `scc_clkdiv` 3 to its `cen`, makes of it. -/
def Channel.recovered (y : Side) (c : Channel) : Channel :=
  let busy := c.wrData || c.txBusy
  let txEmpty := c.txEmptyLatch && !(y == .b && c.wrData)
  { toPointer := c.toPointer.release
    toRxFifo :=
      if c.pendingDequeue then c.toRxFifo.dequeue
      else c.toRxFifo
    toTransmit := { c.toTransmit with
      wrData := false, uartTxWr := false
      txBusy := busy, txBusyR := busy }
    toRegs := c.toRegs
    toLatches := { c.toLatches with
      txEmptyLatch := txEmpty
      eomLatch := c.eomLatch || (c.sdlcMode && txEmpty) } }

theorem gap_recovered (c : Channel) :
    (((c.gap y false false).gap y true false).gap y
      false false).gap y false true = c.recovered y := by
  simp [Channel.gap, Channel.recovered]

/- The clocks of the gap the IOSB waits for. -/
def gapClocks (a : Access) : List In :=
  [gapIn a false false, gapIn a true false,
    gapIn a false false, gapIn a false true]

theorem recovered_run
    (hClosing : ∀ y, (s.ch y).Closing)
    (y : Side) :
    (Clocked.run step s (gapClocks a)).ch y =
      (s.ch y).recovered y := by
  have hGap : ∀ (s : Chip) (cep cen : Bool),
      (∀ y, (s.ch y).Closing) →
      ∀ y, (step s (gapIn a cep cen)).ch y =
        (s.ch y).gap y cep cen := by
    intro s cep cen hClosing y
    rw [step_ch]
    exact gap_next (hClosing y) gap_idle rfl
  have hNext : ∀ (s : Chip) (cep cen : Bool),
      (∀ y, (s.ch y).Closing) →
      ∀ y, ((step s (gapIn a cep cen)).ch y).Closing := by
    intro s cep cen hClosing y
    rw [hGap s cep cen hClosing y]
    exact closing_gap (hClosing y)
  have hTwo := hNext _ false false hClosing
  have hThree := hNext _ true false hTwo
  have hFour := hNext _ false false hThree
  simp only [gapClocks, Clocked.run_cons, Clocked.run_nil]
  rw [hGap _ false true hFour, hGap _ false false hThree,
    hGap _ true false hTwo, hGap _ false false hClosing]
  exact gap_recovered (s.ch y)

/- A gap moves no register the channels share. -/
theorem recovered_shared :
    (Clocked.run step s (gapClocks a)).wr2 = s.wr2 ∧
      (Clocked.run step s (gapClocks a)).wr9 = s.wr9 ∧
      (Clocked.run step s (gapClocks a)).csAccessDone =
        false := by
  have hShared : ∀ (s : Chip) (cep cen : Bool),
      (step s (gapIn a cep cen)).wr2 = s.wr2 ∧
        (step s (gapIn a cep cen)).wr9 = s.wr9 := by
    intro s cep cen
    constructor <;> simp [step, gapIn, wregWr9, wreg]
  have hDone : ∀ s : Chip,
      (step s (gapIn a false true)).csAccessDone = false := by
    intro s
    rw [gap_csAccessDone rfl rfl]
    simp [gapIn]
  simp only [gapClocks, Clocked.run_cons, Clocked.run_nil]
  refine ⟨?_, ?_, hDone _⟩
  · rw [(hShared _ false true).1, (hShared _ false false).1,
      (hShared _ true false).1, (hShared _ false false).1]
  · rw [(hShared _ false true).2, (hShared _ false false).2,
      (hShared _ true false).2, (hShared _ false false).2]

end Scc

------------------------------------------------------------
-- The Window's cen
------------------------------------------------------------

namespace Scc

variable {k : Nets} {p : Side → BitVec 4} {a : Access}
variable {y : Side}

/- The wires of the clock that takes an access. -/
structure Nets.Takes
    (k : Nets) (p : Side → BitVec 4) (a : Access) (y : Side) :
    Prop where
  resetHw : k.resetHw = false
  reset : k.reset = false
  resetCh : k.resetCh = a.resets p y
  cep : k.cep = false
  cen : k.cen = true
  cs : k.cs = true
  we : k.we = a.we
  rsData : k.rsData = a.rsData
  wdata : k.wdata = a.wdata
  writes : ∀ n, k.writes n = a.writes p y n
  access : k.access = (a.side == y)
  dataWrite : k.dataWrite = a.sends y
  line : k.line = {}

theorem takes_rxFifo
    {q : Pointer} {f : RxFifo}
    (hTakes : k.Takes p a y)
    (hPointer : q = rest (p y)) :
    f.next k q =
      if a.takes y then { f with pendingDequeue := true }
      else if a.commands p y 0b100#3 then
        { f with rxFirst := true }
      else f := by
  have hReady : (q.sccState = .ready) ↔ p y = 0#4 := by
    rw [hPointer]
    by_cases hZero : p y = 0#4 <;> simp [rest, hZero]
  unfold RxFifo.next RxFifo.enqueue Access.takes
    Access.commands Access.writes Access.controls
  simp only [hTakes.reset, hTakes.cen, hTakes.cs, hTakes.we,
    hTakes.rsData, hTakes.wdata, hTakes.access, hTakes.line,
    hReady]
  cases a.we <;> cases a.rsData <;> cases (a.side == y) <;>
    simp

theorem takes_configures (hTakes : k.Takes p a y) :
    (k.cen && k.wreg &&
      (k.index == 4#4 || k.index == 5#4 || k.index == 11#4 ||
        k.index == 12#4 || k.index == 13#4 ||
        k.index == 14#4)) =
      a.configures p y := by
  unfold Access.configures
  rw [← hTakes.writes, ← hTakes.writes, ← hTakes.writes,
    ← hTakes.writes, ← hTakes.writes, ← hTakes.writes,
    hTakes.cen]
  unfold Nets.writes
  cases k.wreg <;> simp

theorem takes_transmit
    {t : Transmit}
    (hTakes : k.Takes p a y)
    (hFull : t.txBufferFull = true → t.txBusy = true)
    (hImmediate : t.wrData = false)
    (hDeferred : t.uartTxWr = false) :
    t.next k =
      { txData := if a.sends y then a.wdata else t.txData
        txBufferFull :=
          if a.sends y then t.txBusy else t.txBufferFull
        wrData := a.sends y && !t.txBusy
        uartTxWr := false
        txBusy := a.resets p y || a.configures p y || t.txBusy
        txBusyR := t.txBusy } := by
  have hTransfer : (t.txBufferFull && !t.txBusy) = false := by
    cases hWas : t.txBufferFull
    · rfl
    · simp [hFull hWas]
  have hSends : (k.access && k.rsData && k.we) = a.sends y := by
    rw [hTakes.access, hTakes.rsData, hTakes.we]
    unfold Access.sends
    cases a.we <;> cases a.rsData <;> simp
  unfold Transmit.next txuart Nets.txuartReset
  rw [takes_configures hTakes]
  simp only [hTakes.reset, hTakes.resetHw, hTakes.resetCh,
    hTakes.line, hTakes.wdata, hSends, hTransfer, hImmediate,
    hDeferred]
  cases a.sends y <;> cases a.resets p y <;>
    cases a.configures p y <;> simp

theorem takes_regs
    {r c : Regs}
    (hTakes : k.Takes p a y)
    (hNot : a.hwResets p = false)
    (hSame : ∃ sdlc hunt,
      r = { c with sdlcMode := sdlc, hunt := hunt })
    (hModes : a.resets p y = false → r = c) :
    r.next k = c.effect p a y := by
  cases hCh : a.resets p y with
  | false =>
      rw [hModes hCh]
      unfold Regs.next Regs.effect Nets.kept Nets.plain
        Access.written
      simp only [hTakes.resetHw, hTakes.reset, hTakes.resetCh,
        hTakes.cen, hTakes.writes, hTakes.wdata, hCh, hNot]
      simp
  | true =>
      rcases hSame with ⟨sdlc, hunt, hSame⟩
      rw [hSame]
      unfold Regs.next Regs.effect Nets.kept Nets.plain
        Access.written
      simp only [hTakes.resetHw, hTakes.reset, hTakes.resetCh,
        hTakes.cen, hTakes.writes, hTakes.wdata, hCh, hNot]
      simp

end Scc

------------------------------------------------------------
-- What a Window Does
------------------------------------------------------------

namespace Scc

/-
  The latches after an access, `seen` if a `cep` was in its
  window: without one, WR8, the reset of the EOM latch and of
  the external interrupts go unnoticed.
-/
def Latches.outcome
    (p : Side → BitVec 4) (a : Access) (y : Side)
    (seen : Bool) (t : Transmit) (r : Regs) (l : Latches) :
    Latches :=
  let txEmpty :=
    if a.resets p y then true
    else
      l.txEmptyLatch &&
        !(a.emptiesNow p y || (seen && a.emptiesLate p y)) &&
        !(y == .b && a.sends y && !t.txBusy)
  { exIrqIp :=
      l.exIrqIp && !(seen && a.commands p y 0b010#3)
    latchOpen :=
      l.latchOpen || (seen && a.commands p y 0b010#3)
    dcdLatch := false
    ctsLatch := false
    eomLatch :=
      if a.resets p y then false
      else
        (l.eomLatch && !(seen && a.clearsEom p y)) ||
          ((r.effect p a y).sdlcMode && txEmpty)
    txEmptyLatch := txEmpty
    txIntLatch :=
      l.txIntLatch &&
        !(a.resets p y || a.clearsInt p y ||
          (seen && a.writes p y 8#4)) }

def Channel.outcome
    (p : Side → BitVec 4) (a : Access) (y : Side)
    (seen : Bool) (c : Channel) : Channel :=
  { c.effect p a y with
    toLatches :=
      c.toLatches.outcome p a y seen c.toTransmit c.toRegs }

variable {s u : Chip} {a : Access} {y : Side} {seen : Bool}

theorem window_takes
    (hWaiting : Waiting s a seen u)
    (hNot : a.hwResets s.pointer = false) :
    (nets u (windowIn a false true) y).Takes
      s.pointer a y where
  resetHw := rfl
  reset := by
    change reset u (windowIn a false true) = false
    rw [window_reset hWaiting.done, hWaiting.pointer_eq]
    exact hNot
  resetCh := by
    rw [← hWaiting.pointer_eq]
    exact window_resetCh hWaiting.done
  cep := rfl
  cen := rfl
  cs := rfl
  we := rfl
  rsData := rfl
  wdata := rfl
  writes := by
    rw [← hWaiting.pointer_eq]
    exact window_writes hWaiting.done
  access := by
    rw [window_access hWaiting.done]
    rfl
  dataWrite := window_dataWrite hWaiting.done
  line := window_line

/- A byte is sent to a channel that no reset is on. -/
theorem not_resets_of_sends
    {p : Side → BitVec 4}
    (hSends : a.sends y = true) :
    a.resets p y = false := by
  unfold Access.sends at hSends
  unfold Access.resets
  simp only [Bool.and_eq_true] at hSends
  simp [hSends.1.2]

/- A pop flagged in a window is made in the gap. -/
theorem taken_rxFifo
    {p : Side → BitVec 4}
    {f g v : RxFifo}
    (hPopped : f.pendingDequeue = false)
    (hNot : a.hwResets p = false)
    (hSame : g = f)
    (hTaken : v =
      if a.takes y then { g with pendingDequeue := true }
      else if a.commands p y 0b100#3 then
        { g with rxFirst := true }
      else g) :
    (if v.pendingDequeue then v.dequeue else v) =
      f.effect p a y := by
  subst hSame hTaken
  unfold RxFifo.effect
  simp only [hNot]
  cases hTakes : a.takes y with
  | true => rfl
  | false =>
      cases hFirst : a.commands p y 0b100#3 <;>
        simp [hPopped]

/- A byte taken makes an idle transmitter busy in the gap. -/
theorem taken_transmit
    {p : Side → BitVec 4}
    {c u : Channel} {t : Transmit}
    (hNot : a.hwResets p = false)
    (hWas : c.Waiting p a y seen u)
    (hTaken : t =
      { txData := if a.sends y then a.wdata else u.txData
        txBufferFull :=
          if a.sends y then u.txBusy else u.txBufferFull
        wrData := a.sends y && !u.txBusy
        uartTxWr := false
        txBusy := a.resets p y || a.configures p y || u.txBusy
        txBusyR := u.txBusy }) :
    { t with
      wrData := false, uartTxWr := false
      txBusy := t.wrData || t.txBusy
      txBusyR := t.wrData || t.txBusy } =
        c.toTransmit.effect p a y := by
  subst hTaken
  unfold Transmit.effect
  simp only [hNot, hWas.txData, hWas.txBufferFull]
  cases hSends : a.sends y with
  | true =>
      have hCh := not_resets_of_sends (p := p) hSends
      cases hBusy : c.txBusy <;>
        simp [hWas.busy hCh, hCh, hBusy]
  | false =>
      cases hCh : a.resets p y with
      | true => simp
      | false => simp [hWas.busy hCh, Bool.or_comm]

theorem takes_latches
    {k : Nets} {p : Side → BitVec 4}
    {t : Transmit} {r : Regs} {l : Latches}
    (hTakes : k.Takes p a y)
    (hFall : t.txBusyR = true → t.txBusy = true)
    (hImmediate : t.wrData = false)
    (hDcd : l.dcdLatch = false)
    (hCts : l.ctsLatch = false) :
    l.next k y t r =
      { exIrqIp := l.exIrqIp
        latchOpen := l.latchOpen
        dcdLatch := false
        ctsLatch := false
        eomLatch := !a.resets p y && l.eomLatch
        txEmptyLatch :=
          a.resets p y || (l.txEmptyLatch && !a.emptiesNow p y)
        txIntLatch := !a.resets p y &&
          (l.txIntLatch && !a.clearsInt p y) } := by
  have hEmpties : k.wr8Empties y t = a.emptiesNow p y := by
    unfold Nets.wr8Empties Access.emptiesNow
    cases y <;>
      simp [hTakes.cep, hTakes.dataWrite, hTakes.writes,
        hImmediate]
  rw [latches_next hTakes.reset hFall hDcd hCts, hEmpties]
  simp only [hTakes.cep, hTakes.resetCh, hTakes.writes,
    hTakes.dataWrite, hTakes.wdata]
  simp [Access.clearsInt, Access.commands, Bool.and_assoc]

/- The gap's `cep` latches an underrun. -/
theorem taken_latches
    {p : Side → BitVec 4}
    {c u v : Channel}
    (hWas : c.Waiting p a y seen u)
    (hImmediate : v.wrData = (a.sends y && !u.txBusy))
    (hRegs : v.toRegs = c.toRegs.effect p a y)
    (hLatches : v.toLatches =
      { exIrqIp := u.exIrqIp
        latchOpen := u.latchOpen
        dcdLatch := false
        ctsLatch := false
        eomLatch := !a.resets p y && u.eomLatch
        txEmptyLatch :=
          a.resets p y || (u.txEmptyLatch && !a.emptiesNow p y)
        txIntLatch := !a.resets p y &&
          (u.txIntLatch && !a.clearsInt p y) }) :
    { v.toLatches with
      txEmptyLatch := v.txEmptyLatch && !(y == .b && v.wrData)
      eomLatch := v.eomLatch ||
        (v.sdlcMode &&
          (v.txEmptyLatch && !(y == .b && v.wrData))) } =
      c.toLatches.outcome p a y seen c.toTransmit c.toRegs := by
  have hSdlc : v.sdlcMode = (c.toRegs.effect p a y).sdlcMode :=
    congrArg Regs.sdlcMode hRegs
  rw [hSdlc, hLatches, hImmediate]
  unfold Latches.outcome
  cases hCh : a.resets p y with
  | false =>
      simp only [hWas.exIrqIp, hWas.latchOpen, hWas.eom hCh,
        hWas.emptied hCh, hWas.quieted hCh, hWas.busy hCh]
      simp [Bool.and_assoc]
  | true =>
      have hSends : a.sends y = false := by
        by_contra hNot
        have hFree := not_resets_of_sends (p := p)
          (eq_true_of_ne_false hNot)
        rw [hFree] at hCh
        cases hCh
      have hAsync : (c.toRegs.effect p a y).sdlcMode = false := by
        simp [Regs.effect, hCh]
      simp [hSends, hAsync, hWas.exIrqIp, hWas.latchOpen]

theorem taken_channel
    (hRest : s.AtRest)
    (hWaiting : Waiting s a seen u)
    (hNot : a.hwResets s.pointer = false)
    (y : Side) :
    ((step u (windowIn a false true)).ch y).Closing ∧
      ((step u (windowIn a false true)).ch y).recovered y =
        (s.ch y).outcome s.pointer a y seen := by
  have hWas := hWaiting.channel y
  have hY := hRest.channel y
  have hTakes := window_takes (y := y) hWaiting hNot
  have hFull : (u.ch y).txBufferFull = true →
      (u.ch y).txBusy = true := by
    rw [hWas.txBufferFull]
    exact fun hIs => hWas.busyUp (hY.waits hIs)
  have hRestPointer : (u.ch y).toPointer =
      rest (s.pointer y) :=
    hWas.pointer.trans hY.pointer
  have hPointer : ((step u (windowIn a false true)).ch
      y).toPointer.release =
        rest (pointersAfter s.pointer a y) := by
    have hReset : reset u (windowIn a false true) = false :=
      hTakes.reset
    exact pointer_taken (p := s.pointer) rfl rfl hWaiting.done
      hReset hNot hRestPointer
  have hFifo := takes_rxFifo (f := (u.ch y).toRxFifo) hTakes
    hRestPointer
  have hTransmit := takes_transmit hTakes hFull hWas.immediate
    hWas.deferred
  have hRegs := takes_regs hTakes hNot hWas.regs hWas.modes
  have hLatches := takes_latches (r := (u.ch y).toRegs) hTakes
    hWas.noFall hWas.immediate hWas.dcd hWas.cts
  generalize hV : (step u (windowIn a false true)).ch y = v at *
  have hChannel : v =
      (u.ch y).next (nets u (windowIn a false true) y) y := by
    rw [← hV]
    exact step_ch u _ y
  have hVFifo := congrArg Channel.toRxFifo hChannel
  have hVTransmit := congrArg Channel.toTransmit hChannel
  have hVRegs := congrArg Channel.toRegs hChannel
  have hVLatches := congrArg Channel.toLatches hChannel
  replace hVFifo := hVFifo.trans hFifo
  replace hVTransmit := hVTransmit.trans hTransmit
  replace hVRegs := hVRegs.trans hRegs
  replace hVLatches := hVLatches.trans hLatches
  have hBusy := congrArg Transmit.txBusy hVTransmit
  have hImmediate := congrArg Transmit.wrData hVTransmit
  constructor
  · refine ⟨?_, ?_, congrArg Transmit.uartTxWr hVTransmit,
      congrArg Latches.dcdLatch hVLatches,
      congrArg Latches.ctsLatch hVLatches⟩
    · intro hIs
      have hVFull := congrArg Transmit.txBufferFull hVTransmit
      rw [hBusy]
      rw [hVFull] at hIs
      change (if a.sends y then (u.ch y).txBusy
        else (u.ch y).txBufferFull) = true at hIs
      have hUp : (u.ch y).txBusy = true := by
        cases hSends : a.sends y with
        | true => simpa [hSends] using hIs
        | false => exact hFull (by simpa [hSends] using hIs)
      simp [hUp]
    · intro hIs
      rw [congrArg Transmit.txBusyR hVTransmit] at hIs
      change (u.ch y).txBusy = true at hIs
      rw [hBusy]
      simp [hIs]
  · unfold Channel.recovered Channel.outcome Channel.effect
    rw [Channel.mk.injEq]
    refine ⟨hPointer, ?_, ?_, hVRegs, ?_⟩
    · exact taken_rxFifo hY.popped hNot hWas.rxFifo hVFifo
    · exact taken_transmit hNot hWas hVTransmit
    · exact taken_latches hWas hImmediate hVRegs hVLatches

/- What a window makes of the chip, if it resets none of it. -/
def Chip.outcome (s : Chip) (a : Access) (seen : Bool) : Chip :=
  { effect s a with
    chA := s.chA.outcome s.pointer a .a seen
    chB := s.chB.outcome s.pointer a .b seen }

theorem chip_ext
    {u v : Chip}
    (hChannel : ∀ y, u.ch y = v.ch y)
    (hWr2 : u.wr2 = v.wr2)
    (hWr9 : u.wr9 = v.wr9)
    (hDone : u.csAccessDone = v.csAccessDone) :
    u = v := by
  have hA := hChannel .a
  have hB := hChannel .b
  cases u
  cases v
  simp only [Chip.mk.injEq]
  exact ⟨hA, hB, hWr2, hWr9, hDone⟩

/- An access: the clocks before `cen`, the `cen`, the gap. -/
def visit (a : Access) (ceps : List Bool) : List In :=
  (ceps.map fun cep => windowIn a cep false) ++
    windowIn a false true :: gapClocks a

theorem taken_shared
    (hWaiting : Waiting s a seen u) :
    (step u (windowIn a false true)).wr2 = (effect s a).wr2 ∧
      (step u (windowIn a false true)).wr9 =
        (effect s a).wr9 := by
  have hSide : a.controls a.side = !a.rsData := by
    simp [Access.controls]
  have hPtr := hWaiting.pointer_eq
  have hIndex : a.rsData = false →
      rindexLatch u (windowIn a false true) =
        s.pointer a.side := by
    intro hControl
    rw [← hPtr]
    exact rindexLatch_control rfl hControl
  constructor
  · unfold step effect Access.writes
    rw [wreg_or, hSide]
    cases hData : a.rsData with
    | false => simp [hIndex hData, hWaiting.done, hData,
        hWaiting.wr2]
    | true => simp [hData, hWaiting.wr2]
  · unfold step effect Access.writes
    rw [window_wr9 hWaiting.done, hPtr, hSide]
    simp [hWaiting.wr9]

theorem visit_outcome
    (hRest : s.AtRest)
    (hNot : a.hwResets s.pointer = false)
    (ceps : List Bool) :
    Clocked.run step s (visit a ceps) =
      s.outcome a (ceps.any id) := by
  have hWaiting := waiting_run hRest hNot ceps
    (waiting_start (a := a) hRest)
  rw [Bool.false_or] at hWaiting
  unfold visit
  rw [Clocked.run_append, Clocked.run_cons]
  generalize Clocked.run step s (ceps.map fun cep =>
    windowIn a cep false) = u at hWaiting
  have hChannel := taken_channel hRest hWaiting hNot
  have hRun := recovered_run (a := a) fun y => (hChannel y).1
  have hShared := @recovered_shared
    (step u (windowIn a false true)) a
  have hTaken := taken_shared hWaiting
  refine chip_ext (fun y => ?_)
    (hShared.1.trans hTaken.1)
    (hShared.2.1.trans hTaken.2) hShared.2.2
  rw [hRun y, (hChannel y).2]
  cases y <;> rfl

end Scc

------------------------------------------------------------
-- A Hardware Reset by WR9
------------------------------------------------------------

namespace Scc

/-
  The write registers after a reset whose first clock is, or
  is not, the window's `cen`.
-/
def Regs.hwReset
    (p : Side → BitVec 4) (a : Access) (y : Side)
    (cen : Bool) (r : Regs) : Regs :=
  if cen then r.effect p a y
  else
    { r with
      wr10 := 0x00#8, wr15 := 0xF8#8
      sdlcMode := false, hunt := false }

def Channel.hwReset
    (p : Side → BitVec 4) (a : Access) (y : Side)
    (cen : Bool) (c : Channel) : Channel :=
  { c.effect p a y with toRegs := c.toRegs.hwReset p a y cen }

def Chip.hwReset (s : Chip) (a : Access) (cen : Bool) : Chip :=
  { effect s a with
    chA := s.chA.hwReset s.pointer a .a cen
    chB := s.chB.hwReset s.pointer a .b cen
    wr9 := if cen then (effect s a).wr9 else s.wr9 }

variable {s : Chip} {a : Access} {y : Side} {cep cen : Bool}

/- No other register is written by a write of WR9. -/
theorem writes_of_hwResets
    {p : Side → BitVec 4} {n : BitVec 4}
    (hHw : a.hwResets p = true)
    (hNot : n ≠ 9#4) :
    a.writes p y n = false := by
  unfold Access.hwResets at hHw
  unfold Access.writes Access.controls
  simp only [Bool.and_eq_true, beq_iff_eq] at hHw
  by_cases hSide : a.side = y
  · subst hSide
    rw [hHw.1.2]
    simp [Ne.symm hNot]
  · simp [hSide]

theorem not_sends_of_hwResets
    {p : Side → BitVec 4}
    (hHw : a.hwResets p = true) :
    a.sends y = false ∧ a.takes y = false := by
  unfold Access.hwResets at hHw
  unfold Access.sends Access.takes
  simp only [Bool.and_eq_true] at hHw
  have hControl : a.rsData = false := by
    simpa using hHw.1.1.2
  simp [hControl]

/- The clock that resets; the busy line shows on the next. -/
theorem hwReset_channel
    (hRest : s.AtRest)
    (hHw : a.hwResets s.pointer = true)
    (y : Side) :
    (step s (windowIn a cep cen)).ch y =
      { (s.ch y).hwReset s.pointer a y cen with
        txBusyR := (s.ch y).txBusy } := by
  have hY := hRest.channel y
  have hCh := resets_of_hwResets (y := y) hHw
  have hNetReset : (nets s (windowIn a cep cen) y).reset =
      true := by
    change reset s (windowIn a cep cen) = true
    rw [window_reset hRest.done]
    exact hHw
  have hNetCh : (nets s (windowIn a cep cen) y).resetCh =
      true := by
    change resetCh s (windowIn a cep cen) y = true
    rw [window_resetCh hRest.done]
    exact hCh
  have hNetWrites := @window_writes s a y cep cen hRest.done
  have hNetHw : (nets s (windowIn a cep cen) y).resetHw =
      false := rfl
  have hNetCen : (nets s (windowIn a cep cen) y).cen = cen :=
    rfl
  have hNetWdata : (nets s (windowIn a cep cen) y).wdata =
      a.wdata := rfl
  have hNetLine := @window_line s a y cep cen
  rcases not_sends_of_hwResets (y := y) hHw with
    ⟨hSends, hTakes⟩
  rw [step_ch]
  unfold Channel.next Channel.hwReset Channel.effect
  rw [Channel.mk.injEq]
  refine ⟨?_, ?_, ?_, ?_, ?_⟩
  · rw [Pointer.next_reset hNetReset]
    simp [pointersAfter, hHw]
  · unfold RxFifo.next RxFifo.enqueue RxFifo.effect
    simp [hNetReset, hNetLine, hHw]
  · unfold Transmit.next Transmit.effect txuart
      Nets.txuartReset
    simp [hNetReset, hNetCh, hHw, hCh]
  · unfold Regs.next Regs.hwReset Regs.effect Nets.kept
      Nets.plain Access.written
    cases cen <;>
      simp [hNetReset, hNetCh, hNetHw, hNetWrites, hNetCen,
        hNetWdata, hHw, hCh]
  · unfold Latches.next Latches.effect
    cases y <;> simp [hNetReset, hNetCh, hHw, hCh]

/- The reset is done but for the delayed busy line. -/
structure Settling
    (s : Chip) (a : Access) (cen : Bool) (u : Chip) : Prop where
  done : u.csAccessDone = true
  wr2 : u.wr2 = (s.hwReset a cen).wr2
  wr9 : u.wr9 = (s.hwReset a cen).wr9
  channel : ∀ y, ∃ busy, u.ch y =
    { (s.ch y).hwReset s.pointer a y cen with txBusyR := busy }

theorem settling_start
    (hRest : s.AtRest)
    (hHw : a.hwResets s.pointer = true) :
    Settling s a cen (step s (windowIn a cep cen)) := by
  have hReset : reset s (windowIn a cep cen) = true := by
    rw [window_reset hRest.done]
    exact hHw
  have hWr2 := writes_of_hwResets (y := a.side) (n := 2#4) hHw
    (by decide)
  have hWr9 : wregWr9 s (windowIn a cep cen) =
      a.writes s.pointer a.side 9#4 := by
    rw [window_wr9 hRest.done]
    simp [Access.writes, Access.controls, Bool.and_assoc]
  have hIndex : rindexLatch s (windowIn a cep cen) = 9#4 := by
    unfold Access.hwResets at hHw
    simp only [Bool.and_eq_true, beq_iff_eq] at hHw
    rw [rindexLatch_control rfl (by simpa using hHw.1.1.2)]
    exact hHw.1.2
  refine ⟨?_, ?_, ?_, fun y => ⟨_, hwReset_channel hRest hHw y⟩⟩
  · simp [step_csAccessDone, csAccessDoneNext, hReset]
  · simp [step, hIndex, Chip.hwReset, effect, hWr2]
  · cases cen with
    | true => simp [step, hWr9, Chip.hwReset, effect]
    | false => simp [step, Chip.hwReset]

/- The modes that a reset clears keep an underrun away. -/
theorem hwReset_sdlcMode
    {p : Side → BitVec 4} {r : Regs}
    (hHw : a.hwResets p = true) :
    (r.hwReset p a y cen).sdlcMode = false := by
  have hCh := resets_of_hwResets (y := y) hHw
  cases cen <;> simp [Regs.hwReset, Regs.effect, hCh]

theorem settling_closing
    (hHw : a.hwResets s.pointer = true)
    {u : Chip}
    (hSettling : Settling s a cen u)
    (y : Side) :
    (u.ch y).Closing ∧
      (u.ch y).recovered y =
        (s.ch y).hwReset s.pointer a y cen := by
  have hCh := resets_of_hwResets (y := y) hHw
  have hSdlc := @hwReset_sdlcMode a y cen s.pointer
    (s.ch y).toRegs hHw
  rcases hSettling.channel y with ⟨busy, hChannel⟩
  rcases not_sends_of_hwResets (y := y) hHw with
    ⟨hSends, hTakes⟩
  rw [hChannel]
  constructor
  · refine ⟨?_, ?_, rfl, rfl, rfl⟩
    · simp [Channel.hwReset, Channel.effect, Transmit.effect,
        hHw]
    · simp [Channel.hwReset, Channel.effect, Transmit.effect,
        hCh]
  · unfold Channel.recovered Channel.hwReset Channel.effect
    rw [Channel.mk.injEq]
    refine ⟨release_rest _, ?_, ?_, rfl, ?_⟩
    · simp [RxFifo.effect, hHw]
    · simp [Transmit.effect, hHw]
    · simp [Latches.effect, Transmit.effect, hSdlc, hCh]

/- The rest of the window sees no access. -/
theorem settling_step
    (hHw : a.hwResets s.pointer = true)
    {u : Chip} {cep' cen' : Bool}
    (hSettling : Settling s a cen u) :
    Settling s a cen (step u (windowIn a cep' cen')) := by
  have hReset : reset u (windowIn a cep' cen') = false :=
    reset_idle rfl (by simp [hSettling.done])
  have hWreg : ∀ y, wreg u (windowIn a cep' cen') y =
      false := by
    intro y
    simp [wreg, hSettling.done]
  refine ⟨?_, ?_, ?_, fun y => ?_⟩
  · simp [step_csAccessDone, csAccessDoneNext, hReset,
      hSettling.done]
  · simpa [step, hWreg] using hSettling.wr2
  · simpa [step, wregWr9, hWreg] using hSettling.wr9
  · have hIdle := @done_idle u a y cep' cen' hSettling.done
    have hClosing := (settling_closing hHw hSettling y).1
    have hSdlc := @hwReset_sdlcMode a y cen s.pointer
      (s.ch y).toRegs hHw
    have hCh := resets_of_hwResets (y := y) hHw
    rcases hSettling.channel y with ⟨busy, hChannel⟩
    refine ⟨true, ?_⟩
    rw [step_ch]
    unfold Channel.next
    rw [idle_pointer hIdle, idle_rxFifo hIdle,
      idle_transmit hIdle hClosing.waits, idle_regs hIdle,
      idle_latches hIdle hClosing.noFall hClosing.dcd
        hClosing.cts, hChannel]
    unfold Channel.hwReset Channel.effect
    simp only [Channel.mk.injEq]
    refine ⟨?_, ?_, ?_, trivial, ?_⟩
    · simp
    · simp [RxFifo.effect, hHw]
    · simp [Transmit.effect, hCh]
    · simp [Latches.effect, Transmit.effect, hSdlc, hCh]

theorem settling_run
    (hHw : a.hwResets s.pointer = true)
    {u : Chip}
    (ceps : List Bool)
    (hSettling : Settling s a cen u) :
    Settling s a cen
      (Clocked.run step u
        (ceps.map fun cep => windowIn a cep false)) := by
  induction ceps generalizing u with
  | nil => exact hSettling
  | cons cep ceps ih => exact ih (settling_step hHw hSettling)

theorem settled_gap
    (hHw : a.hwResets s.pointer = true)
    {u : Chip}
    (hSettling : Settling s a cen u) :
    Clocked.run step u (gapClocks a) = s.hwReset a cen := by
  have hClosing := settling_closing hHw hSettling
  have hRun := recovered_run (a := a) fun y => (hClosing y).1
  have hShared := @recovered_shared u a
  refine chip_ext (fun y => ?_)
    (hShared.1.trans hSettling.wr2)
    (hShared.2.1.trans hSettling.wr9) hShared.2.2
  rw [hRun y, (hClosing y).2]
  cases y <;> rfl

/- Only the first clock of the window resets. -/
theorem visit_hwReset
    (hRest : s.AtRest)
    (hHw : a.hwResets s.pointer = true)
    (ceps : List Bool) :
    Clocked.run step s (visit a ceps) =
      s.hwReset a ceps.isEmpty := by
  unfold visit
  cases ceps with
  | nil =>
      have hFirst : Settling s a true
          (step s (windowIn a false true)) :=
        settling_start hRest hHw
      rw [List.map_nil, List.nil_append, Clocked.run_cons,
        List.isEmpty_nil]
      exact settled_gap hHw hFirst
  | cons cep ceps =>
      have hFirst : Settling s a false
          (step s (windowIn a cep false)) :=
        settling_start hRest hHw
      have hWindow := settling_run hHw ceps hFirst
      have hLast : Settling s a false
          (step _ (windowIn a false true)) :=
        settling_step hHw hWindow
      rw [List.map_cons, List.cons_append, Clocked.run_cons,
        Clocked.run_append, Clocked.run_cons,
        List.isEmpty_cons]
      exact settled_gap hHw hLast

end Scc
