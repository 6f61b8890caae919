import Wombat33.Clocked.Run
import Wombat33.Scc.Chip

/-
  The transmit handshake of a channel.

  A write of the data port is passed on at once to a
  transmitter that is free, and waits in the buffer for one
  that is not.  A log beside the chip keeps the bytes written
  and those the transmitter accepted, and whether the last
  read of RR0 since the last write showed the buffer empty.

  Channel B drops that flag only for a byte passed on at once,
  so the byte that waits in its buffer may be written over.

  Key definitions include:
    * `Transmit.strobe`, `Transmit.inFlight`
    * `TxLog`, `noteTx`, `TxKept`
    * `findsRoom`, `polledOk`

  Key theorems include:
    * `tx_kept_iff`
    * `empty_again`
    * `polled_tx_kept`
    * `waiting_byte_overwritten`
-/

------------------------------------------------------------
-- Writes and the Transmitter
------------------------------------------------------------

namespace Scc

variable (k : Nets) (t : Transmit)

/- The access of a data-port write, taken on this clock. -/
def Nets.dataTake : Bool := k.access && k.rsData && k.we

/- The access of a read of RR0. -/
def Nets.statusRead : Bool :=
  k.access && !k.rsData && !k.we && k.index == 0#4

/- `auto_echo_tx_wr`: the write strobe of the transmitter. -/
def Transmit.strobe : Bool := t.wrData || t.uartTxWr

/- A strobe is taken unless the transmitter is held reset. -/
def Nets.accepts : Bool :=
  t.strobe && !t.txBusy && !k.txuartReset

/- A waiting byte is passed on, or a strobe is up. -/
def Transmit.handsOver : Bool :=
  t.txBufferFull && !t.txBusy || t.strobe

/- The byte that the transmitter has still to accept. -/
def Transmit.inFlight : List Byte :=
  if t.txBufferFull || t.strobe && !t.txBusy then [t.txData]
  else []

/- The clock in one piece, out of reset. -/
theorem Transmit.next_eq (hReset : k.reset = false) :
    t.next k =
      { txData := if k.dataTake then k.wdata else t.txData
        txBufferFull :=
          if t.txBufferFull && !t.txBusy then false
          else if k.dataTake then t.txBusy
          else t.txBufferFull
        wrData := k.dataTake && !t.txBusy
        uartTxWr := t.txBufferFull && !t.txBusy
        txBusy := txuart k t
        txBusyR := t.txBusy } := by
  have hTake : (k.access && k.rsData && k.we) = k.dataTake := rfl
  simp only [Transmit.next, hReset, Bool.false_eq_true, if_false,
    hTake]
  cases k.dataTake <;> cases hFull : t.txBufferFull <;>
    cases t.txBusy <;> simp

end Scc

------------------------------------------------------------
-- What a Clock Does with a Byte
------------------------------------------------------------

namespace Scc

variable {k : Nets} {t : Transmit}

/- A strobe is up only before a free buffer and line. -/
def Transmit.Clear (t : Transmit) : Prop :=
  t.strobe = true → t.txBufferFull = false ∧ t.txBusy = false

theorem Transmit.strobe_eq_false :
    t.strobe = false ↔
      t.wrData = false ∧ t.uartTxWr = false := by
  simp [Transmit.strobe]

/- A write that finds room becomes the byte on its way. -/
theorem Transmit.next_take
    (hReset : k.reset = false)
    (hRun : k.txuartReset = false)
    (hTake : k.dataTake = true)
    (hEmpty : t.txBufferFull = false)
    (hStrobe : t.strobe = false) :
    k.accepts t = false ∧
      (t.next k).inFlight = [k.wdata] ∧ (t.next k).Clear := by
  have hLow := Transmit.strobe_eq_false.mp hStrobe
  have hNext := Transmit.next_eq k t hReset
  refine ⟨by simp [Nets.accepts, hStrobe], ?_, ?_⟩
  · rw [hNext]
    cases hBusy : t.txBusy <;>
      simp [Transmit.inFlight, Transmit.strobe, txuart, hRun,
        hTake, hEmpty, hLow.1, hLow.2, hBusy]
  · rw [hNext]
    cases hBusy : t.txBusy <;>
      simp [Transmit.Clear, Transmit.strobe, txuart, hRun,
        hTake, hEmpty, hLow.1, hLow.2, hBusy]

/- A strobe before a free line hands the byte over. -/
theorem Transmit.next_accept
    (hReset : k.reset = false)
    (hRun : k.txuartReset = false)
    (hTake : k.dataTake = false)
    (hClear : t.Clear)
    (hStrobe : t.strobe = true) :
    k.accepts t = true ∧
      t.inFlight = [t.txData] ∧
      (t.next k).inFlight = [] ∧ (t.next k).Clear := by
  rcases hClear hStrobe with ⟨hEmpty, hFree⟩
  have hNext := Transmit.next_eq k t hReset
  refine ⟨by simp [Nets.accepts, hStrobe, hFree, hRun],
    by simp [Transmit.inFlight, hStrobe, hFree], ?_, ?_⟩
  · rw [hNext]
    simp [Transmit.inFlight, Transmit.strobe, hTake, hEmpty]
  · rw [hNext]
    simp [Transmit.Clear, Transmit.strobe, hTake, hEmpty]

/- A byte about to be handed over finds its transmitter on. -/
theorem Transmit.runs_of_handsOver
    (hRun : k.txuartReset = true → t.handsOver = false)
    (hFull : t.txBufferFull = true)
    (hBusy : t.txBusy = false) :
    k.txuartReset = false := by
  apply Bool.eq_false_iff.mpr
  intro hOff
  simpa [Transmit.handsOver, hFull, hBusy] using hRun hOff

/- Without a strobe a waiting byte stays on its way. -/
theorem Transmit.next_wait
    (hReset : k.reset = false)
    (hRun : k.txuartReset = true → t.handsOver = false)
    (hTake : k.dataTake = false)
    (hStrobe : t.strobe = false) :
    k.accepts t = false ∧
      (t.next k).inFlight = t.inFlight ∧ (t.next k).Clear := by
  have hLow := Transmit.strobe_eq_false.mp hStrobe
  have hNext := Transmit.next_eq k t hReset
  refine ⟨by simp [Nets.accepts, hStrobe], ?_, ?_⟩
  · rw [hNext]
    cases hFull : t.txBufferFull with
    | false =>
        simp [Transmit.inFlight, Transmit.strobe, hTake, hFull,
          hLow.1, hLow.2]
    | true =>
        cases hBusy : t.txBusy with
        | true =>
            simp [Transmit.inFlight, hTake, hFull]
        | false =>
            have hOn := Transmit.runs_of_handsOver hRun hFull hBusy
            simp [Transmit.inFlight, Transmit.strobe, txuart,
              hTake, hFull, hBusy, hOn, hLow.1, hLow.2]
  · rw [hNext]
    cases hFull : t.txBufferFull with
    | false =>
        simp [Transmit.Clear, Transmit.strobe, hTake]
    | true =>
        cases hBusy : t.txBusy with
        | true => simp [Transmit.Clear, Transmit.strobe, hTake]
        | false =>
            have hOn := Transmit.runs_of_handsOver hRun hFull hBusy
            simp [Transmit.Clear, Transmit.strobe, txuart,
              hTake, hBusy, hOn, hLow.1, hLow.2]

/- A write over a byte that waits or is just handed over. -/
theorem Transmit.next_overrun
    (hReset : k.reset = false)
    (hRun : k.txuartReset = false)
    (hTake : k.dataTake = true)
    (hClear : t.Clear)
    (hTaken : t.txBufferFull = true ∨ t.strobe = true) :
    t.inFlight = [t.txData] ∧
      (k.accepts t).toNat + (t.next k).inFlight.length ≤ 1 := by
  have hNext := Transmit.next_eq k t hReset
  cases hStrobe : t.strobe with
  | true =>
      rcases hClear hStrobe with ⟨hEmpty, hFree⟩
      refine ⟨by simp [Transmit.inFlight, hStrobe, hFree], ?_⟩
      rw [hNext]
      have hUp : (t.wrData || t.uartTxWr) = true := hStrobe
      simp [Transmit.inFlight, Transmit.strobe, Nets.accepts,
        txuart, hTake, hEmpty, hFree, hRun, hUp]
  | false =>
      have hFull : t.txBufferFull = true := by
        simpa [hStrobe] using hTaken
      refine ⟨by simp [Transmit.inFlight, hFull], ?_⟩
      have hShort : (t.next k).inFlight.length ≤ 1 := by
        unfold Transmit.inFlight
        split <;> simp
      simpa [Nets.accepts, hStrobe] using hShort

/- A transmitter held reset while a byte is handed over. -/
theorem Transmit.next_cut
    (hReset : k.reset = false)
    (hRun : k.txuartReset = true)
    (hTake : k.dataTake = false)
    (hClear : t.Clear)
    (hHands : t.handsOver = true) :
    t.inFlight = [t.txData] ∧ k.accepts t = false ∧
      (t.next k).inFlight = [] := by
  have hNext := Transmit.next_eq k t hReset
  refine ⟨?_, by simp [Nets.accepts, hRun], ?_⟩
  · cases hStrobe : t.strobe with
    | true =>
        simp [Transmit.inFlight, hStrobe, (hClear hStrobe).2]
    | false =>
        have hFull : t.txBufferFull = true := by
          simp only [Transmit.handsOver, hStrobe, Bool.or_false,
            Bool.and_eq_true] at hHands
          exact hHands.1
        simp [Transmit.inFlight, hFull]
  · rw [hNext]
    cases hStrobe : t.strobe with
    | true =>
        simp [Transmit.inFlight, Transmit.strobe, hTake,
          (hClear hStrobe).1]
    | false =>
        have hFull :
            t.txBufferFull = true ∧ t.txBusy = false := by
          simpa [Transmit.handsOver, hStrobe] using hHands
        simp [Transmit.inFlight, Transmit.strobe, txuart, hRun,
          hTake, hFull.1, hFull.2]

end Scc

------------------------------------------------------------
-- The Log
------------------------------------------------------------

namespace Scc

variable (x : Side) (s : Chip) (i : In)

structure TxLog where
  written : List Byte
  accepted : List Byte
  polled : Bool
  deriving DecidableEq

def noTx : TxLog := ⟨[], [], false⟩

def noteTx (x : Side) (g : TxLog) (s : Chip) (i : In) : TxLog :=
  let k := nets s i x
  let t := (s.ch x).toTransmit
  if reset s i then noTx
  else
    { written :=
        if k.dataTake then g.written ++ [k.wdata] else g.written
      accepted :=
        if k.accepts t then g.accepted ++ [t.txData]
        else g.accepted
      polled :=
        if k.dataTake then false
        else if k.statusRead then (rdata s i).getLsbD 2
        else g.polled }

/-
  Every byte written has been accepted once, in order, or is
  the one still to be accepted.  A byte accepted makes the
  transmitter busy, and when it is no longer, RR0 says empty
  on the next clock.  A write of the other channel, but for
  WR9, which both share, leaves the flag as an idle bus does.
-/
structure TxKept (p : Chip × TxLog) : Prop where
  kept : p.2.written =
    p.2.accepted ++ (p.1.ch x).toTransmit.inFlight
  busy : ∀ i,
    (nets p.1 i x).accepts (p.1.ch x).toTransmit = true →
      ((step p.1 i).ch x).txBusy = true
  again : ∀ i j, (p.1.ch x).txBusy = true →
    ((step p.1 i).ch x).txBusy = false →
    ((step (step p.1 i) j).ch x).rr0.getLsbD 2 = true
  apart : ∀ i, i.we = true → i.side ≠ x →
    wregWr9 p.1 i = false →
    ((step p.1 i).ch x).txEmptyLatch =
      ((step p.1 { i with cs := false }).ch x).txEmptyLatch

/-
  A write finds the buffer and the strobe free, and nothing
  resets the transmitter while a byte is handed to it.
-/
def findsRoom : Prop :=
  reset s i = false →
    ((nets s i x).dataTake = true →
      (s.ch x).txBufferFull = false ∧
        (s.ch x).toTransmit.strobe = false) ∧
    ((nets s i x).txuartReset = true →
      (s.ch x).toTransmit.handsOver = false)

/-
  The host writes when its last read of RR0 since the last
  write showed the buffer empty, and rewrites the modes only
  when every byte written has been accepted.
-/
def polledOk (p : Chip × TxLog) (i : In) : Prop :=
  reset p.1 i = false →
    ((nets p.1 i x).dataTake = true → p.2.polled = true) ∧
    ((nets p.1 i x).txuartReset = true →
      p.2.written = p.2.accepted)

def startTx : Chip × TxLog := (step s { resetHw := true }, noTx)

end Scc

------------------------------------------------------------
-- The Flag
------------------------------------------------------------

namespace Scc

variable {x : Side} {s : Chip} {i : In}

theorem rr0_txEmpty (c : Channel) :
    c.rr0.getLsbD 2 = c.txEmptyLatch := by
  simp only [Channel.rr0, BitVec.getLsbD_append,
    BitVec.getLsbD_ofBool]
  rfl

theorem step_transmit :
    ((step s i).ch x).toTransmit =
      (s.ch x).toTransmit.next (nets s i x) := by
  rw [step_ch]
  rfl

theorem step_txBusy :
    ((step s i).ch x).txBusy =
        txuart (nets s i x) (s.ch x).toTransmit ∧
      ((step s i).ch x).txBusyR = (s.ch x).txBusy := by
  rw [step_transmit]
  unfold Transmit.next
  cases hReset : (nets s i x).reset with
  | true => exact ⟨rfl, rfl⟩
  | false =>
      have hNext := Transmit.next_eq _ (s.ch x).toTransmit hReset
      unfold Transmit.next at hNext
      rw [hReset] at hNext
      rw [hNext]
      exact ⟨rfl, rfl⟩

theorem txuart_accepts
    (hAccepts :
      (nets s i x).accepts (s.ch x).toTransmit = true) :
    ((step s i).ch x).txBusy = true := by
  simp only [Nets.accepts, Transmit.strobe, Bool.and_eq_true,
    Bool.not_eq_true'] at hAccepts
  rw [step_txBusy.1]
  simp [txuart, hAccepts.1.1, hAccepts.1.2]

theorem step_txEmptyLatch :
    ((step s i).ch x).txEmptyLatch =
      if reset s i || resetCh s i x then true
      else if (s.ch x).txBusyR && !(s.ch x).txBusy then true
      else if (nets s i x).wr8Empties x (s.ch x).toTransmit
        then false
      else (s.ch x).txEmptyLatch := by
  rw [step_ch]
  rfl

/- The end of a character sets the flag, whatever else. -/
theorem step_txEmpty_end
    (hBefore : (s.ch x).txBusyR = true)
    (hNow : (s.ch x).txBusy = false) :
    ((step s i).ch x).txEmptyLatch = true := by
  rw [step_txEmptyLatch, hBefore, hNow]
  simp

theorem resets_without_wr9 (hWr9 : wregWr9 s i = false) :
    (reset s i || resetCh s i x) = i.resetHw := by
  simp [resetCh, reset, hWr9]

/- What a write of the other channel leaves alone. -/
theorem step_txEmpty_other
    (hSide : i.side ≠ x)
    (hWr9 : wregWr9 s i = false) :
    ((step s i).ch x).txEmptyLatch =
      ((step s { i with cs := false }).ch x).txEmptyLatch := by
  have hOther : (i.side == x) = false := by simpa using hSide
  have hIdle : wregWr9 s { i with cs := false } = false := by
    simp [wregWr9, wreg]
  rw [step_txEmptyLatch, step_txEmptyLatch,
    resets_without_wr9 hWr9, resets_without_wr9 hIdle]
  cases x with
  | a =>
      simp [nets, Nets.wr8Empties, Nets.writes, wreg, hOther]
  | b =>
      simp [nets, Nets.wr8Empties, Nets.writes, wreg, hOther]

end Scc

------------------------------------------------------------
-- One Clock
------------------------------------------------------------

namespace Scc

open Clocked

variable {x : Side} {s : Chip} {i : In} {p : Chip × TxLog}

theorem txKept_of_kept
    (hKept : p.2.written =
      p.2.accepted ++ (p.1.ch x).toTransmit.inFlight) :
    TxKept x p where
  kept := hKept
  busy _ hAccepts := txuart_accepts hAccepts
  again i j hBusy hDone := by
    rw [rr0_txEmpty]
    exact step_txEmpty_end (step_txBusy.2.trans hBusy) hDone
  apart _ _ hSide hWr9 := step_txEmpty_other hSide hWr9

/- While writes find room, at most one byte is on its way. -/
structure TxInv (x : Side) (p : Chip × TxLog) : Prop where
  kept : p.2.written =
    p.2.accepted ++ (p.1.ch x).toTransmit.inFlight
  clear : (p.1.ch x).toTransmit.Clear

theorem txInv_reset (hReset : reset p.1 i = true) :
    TxInv x (watch step (noteTx x) p i) := by
  have hNet : (nets p.1 i x).reset = true := hReset
  have hTransmit : ((step p.1 i).ch x).txBufferFull = false ∧
      ((step p.1 i).ch x).toTransmit.strobe = false := by
    rw [step_transmit]
    simp [Transmit.next, Transmit.strobe, hNet]
  have hNone : ((step p.1 i).ch x).toTransmit.inFlight = [] := by
    rw [Transmit.inFlight, hTransmit.1, hTransmit.2]
    rfl
  constructor
  · simp only [watch_fst, watch_snd, noteTx, hReset, if_true,
      noTx, hNone, List.append_nil]
  · intro hStrobe
    rw [watch_fst, hTransmit.2] at hStrobe
    exact Bool.noConfusion hStrobe

/- A data-port write resets no transmitter. -/
theorem txuartReset_of_dataTake
    (hReset : reset s i = false)
    (hTake : (nets s i x).dataTake = true) :
    (nets s i x).txuartReset = false := by
  simp only [Nets.dataTake, nets, Bool.and_eq_true] at hTake
  have hData : i.rsData = true := hTake.1.2
  have hHw : i.resetHw = false := by
    simp only [reset, Bool.or_eq_false_iff] at hReset
    exact hReset.2
  have hCh : resetCh s i x = false := by
    simp [resetCh, hReset, wregWr9, wreg, hData]
  simp [Nets.txuartReset, nets, hCh, hHw, wreg, hData]

theorem noteTx_eq (hReset : reset s i = false) (g : TxLog) :
    (noteTx x g s i).written =
        g.written ++
          (if (nets s i x).dataTake then [i.wdata] else []) ∧
      (noteTx x g s i).accepted =
        g.accepted ++
          (if (nets s i x).accepts (s.ch x).toTransmit then
            [(s.ch x).txData]
          else []) := by
  simp only [noteTx, hReset, Bool.false_eq_true, if_false]
  constructor
  · split <;> simp [nets]
  · split <;> simp

theorem txInv_step
    (hInv : TxInv x p)
    (hRoom : findsRoom x p.1 i) :
    TxInv x (watch step (noteTx x) p i) := by
  cases hReset : reset p.1 i with
  | true => exact txInv_reset hReset
  | false =>
      have hNet : (nets p.1 i x).reset = false := hReset
      rcases hRoom hReset with ⟨hWrite, hRun⟩
      rcases noteTx_eq (x := x) hReset p.2 with
        ⟨hWritten, hAccepted⟩
      cases hTake : (nets p.1 i x).dataTake with
      | true =>
          rcases hWrite hTake with ⟨hEmpty, hStrobe⟩
          rcases Transmit.next_take hNet
            (txuartReset_of_dataTake hReset hTake) hTake hEmpty
            hStrobe with ⟨hNone, hNext, hClear⟩
          have hOld : (p.1.ch x).toTransmit.inFlight = [] := by
            simp [Transmit.inFlight, hEmpty, hStrobe]
          refine ⟨?_, ?_⟩
          · rw [watch_fst, watch_snd, hWritten, hAccepted,
              step_transmit, hNext, hInv.kept, hOld, hTake, hNone]
            simp [nets]
          · rw [watch_fst, step_transmit]
            exact hClear
      | false =>
          cases hStrobe : (p.1.ch x).toTransmit.strobe with
          | true =>
              have hOn :
                  (nets p.1 i x).txuartReset = false := by
                apply Bool.eq_false_iff.mpr
                intro hOff
                have hHands := hRun hOff
                simp [Transmit.handsOver, hStrobe] at hHands
              rcases Transmit.next_accept hNet hOn hTake
                hInv.clear hStrobe with
                ⟨hAccept, hOld, hNext, hClear⟩
              refine ⟨?_, ?_⟩
              · rw [watch_fst, watch_snd, hWritten, hAccepted,
                  step_transmit, hNext, hInv.kept, hOld, hTake,
                  hAccept]
                simp
              · rw [watch_fst, step_transmit]
                exact hClear
          | false =>
              rcases Transmit.next_wait hNet hRun hTake
                hStrobe with ⟨hNone, hNext, hClear⟩
              refine ⟨?_, ?_⟩
              · rw [watch_fst, watch_snd, hWritten, hAccepted,
                  step_transmit, hNext, hInv.kept, hTake, hNone]
                simp
              · rw [watch_fst, step_transmit]
                exact hClear

/- Where there is no room, or no transmitter, a byte is lost. -/
theorem lost_of_no_room
    (hInv : TxInv x p)
    (hRoom : ¬ findsRoom x p.1 i) :
    ¬ TxKept x (watch step (noteTx x) p i) := by
  intro hKept
  have hReset : reset p.1 i = false := by
    apply Bool.eq_false_iff.mpr
    intro hReset
    exact hRoom (fun h => absurd hReset (by simp [h]))
  have hNet : (nets p.1 i x).reset = false := hReset
  rcases noteTx_eq (x := x) hReset p.2 with
    ⟨hWritten, hAccepted⟩
  have hCount := congrArg List.length hKept.kept
  rw [watch_fst, watch_snd, hWritten, hAccepted, step_transmit,
    hInv.kept] at hCount
  simp only [List.length_append] at hCount
  cases hTake : (nets p.1 i x).dataTake with
  | true =>
      have hTaken : (p.1.ch x).txBufferFull = true ∨
          (p.1.ch x).toTransmit.strobe = true := by
        by_contra hFree
        simp only [not_or, Bool.not_eq_true] at hFree
        refine hRoom fun _ => ⟨fun _ => hFree, fun hOff => ?_⟩
        rw [txuartReset_of_dataTake hReset hTake] at hOff
        exact Bool.noConfusion hOff
      have hOver := Transmit.next_overrun hNet
        (txuartReset_of_dataTake hReset hTake) hTake
        hInv.clear hTaken
      have hOne := hOver.2
      rw [hTake, hOver.1] at hCount
      cases hAccept :
          (nets p.1 i x).accepts (p.1.ch x).toTransmit with
      | true =>
          simp only [hAccept, if_true, List.length_singleton,
            Bool.toNat_true] at hCount hOne
          omega
      | false =>
          simp only [hAccept, Bool.false_eq_true, if_true,
            if_false, List.length_nil, List.length_singleton,
            Bool.toNat_false] at hCount hOne
          omega
  | false =>
      have hCut : (nets p.1 i x).txuartReset = true ∧
          (p.1.ch x).toTransmit.handsOver = true := by
        by_contra hFree
        refine hRoom fun _ => ⟨fun h => ?_, fun hOff => ?_⟩
        · rw [hTake] at h
          exact Bool.noConfusion h
        · apply Bool.eq_false_iff.mpr
          intro hHands
          exact hFree ⟨hOff, hHands⟩
      rcases Transmit.next_cut hNet hCut.1 hTake hInv.clear
        hCut.2 with ⟨hOld, hNone, hNext⟩
      rw [hTake, hOld, hNone, hNext] at hCount
      simp at hCount

end Scc

------------------------------------------------------------
-- Every Run
------------------------------------------------------------

namespace Scc

open Clocked

variable {x : Side} {i : In} {p : Chip × TxLog}

theorem txInv_start (x : Side) (s : Chip) :
    TxInv x (startTx s) :=
  txInv_reset (p := (s, noTx)) (i := { resetHw := true })
    (by simp [reset])

/-
  The handshake keeps every byte all along the runs in which
  writes find room and the transmitter is not reset while it
  is given a byte, and along no other.
-/
theorem tx_kept_iff
    (x : Side)
    (s : Chip)
    (is : List In) :
    Always (watch step (noteTx x)) (TxKept x) (startTx s) is ↔
      Along step (findsRoom x) (startTx s).1 is := by
  rw [← along_watch step (noteTx x)]
  exact always_iff_along_within
    (fun _ hInv => txKept_of_kept hInv.kept)
    (fun _ _ hInv hRoom => txInv_step hInv hRoom)
    (fun _ _ hInv hRoom => lost_of_no_room hInv hRoom)
    (txInv_start x s)

/-
  However long a character takes, once the transmitter is free
  of it RR0 says empty.
-/
theorem empty_again
    (x : Side)
    (s : Chip)
    (is : List In)
    (hBusy : (s.ch x).txBusy = true)
    (hDone : ((run step s is).ch x).txBusy = false) :
    ∃ pre, pre <+: is ∧
      ∀ j, ((step (run step s pre) j).ch x).rr0.getLsbD 2 =
        true := by
  induction is generalizing s with
  | nil =>
      rw [run_nil, hBusy] at hDone
      exact Bool.noConfusion hDone
  | cons i is ih =>
      cases hNext : ((step s i).ch x).txBusy with
      | true =>
          rcases ih (step s i) hNext hDone with
            ⟨pre, hPre, hEmpty⟩
          exact ⟨i :: pre,
            List.cons_prefix_cons.mpr ⟨rfl, hPre⟩, hEmpty⟩
      | false =>
          refine ⟨[i], ⟨is, rfl⟩, fun j => ?_⟩
          rw [rr0_txEmpty, run_cons, run_nil]
          exact step_txEmpty_end (step_txBusy.2.trans hBusy)
            hNext

end Scc

------------------------------------------------------------
-- The Flag of Channel A
------------------------------------------------------------

namespace Scc

open Clocked

variable {x : Side} {i : In} {p : Chip × TxLog}

/-
  On channel A a byte that waits keeps the flag down, so a
  read that shows it up leaves room for the next write.
-/
structure PolledInv (p : Chip × TxLog) : Prop where
  tx : TxInv .a p
  marks : (p.1.ch .a).txBufferFull = true →
    (p.1.ch .a).txEmptyLatch = false
  ready : p.2.polled = true →
    (p.1.ch .a).txBufferFull = false ∧
      (p.1.ch .a).toTransmit.strobe = false

theorem statusRead_rdata
    {s : Chip}
    (hRead : (nets s i x).statusRead = true) :
    (rdata s i).getLsbD 2 = (s.ch x).txEmptyLatch := by
  simp only [Nets.statusRead, nets, Bool.and_eq_true,
    Bool.not_eq_true', beq_iff_eq] at hRead
  have hIndex : rindexLatch s i = 0#4 := hRead.2
  rw [← rr0_txEmpty]
  simp [rdata, readReg, hIndex, hRead.1.1.1.2, hRead.1.1.2]

theorem dataWrite_of_dataTake
    {s : Chip}
    (hTake : (nets s i x).dataTake = true) :
    (nets s i x).dataWrite = true := by
  simp only [Nets.dataTake, nets, Bool.and_eq_true] at hTake
  simp [nets, hTake.1.1.1.1.2, hTake.2, hTake.1.2,
    hTake.1.1.2, hTake.1.1.1.2]

theorem txuartReset_of_resetCh
    {s : Chip}
    (hCh : resetCh s i x = true) :
    (nets s i x).txuartReset = true := by
  simp [Nets.txuartReset, nets, hCh]

/- Between bytes nothing is handed over. -/
theorem idle_of_accepted
    (hInv : TxInv x p)
    (hAll : p.2.written = p.2.accepted) :
    (p.1.ch x).txBufferFull = false ∧
      (p.1.ch x).toTransmit.handsOver = false := by
  have hNone : (p.1.ch x).toTransmit.inFlight = [] := by
    have hKept := hInv.kept
    rw [hAll] at hKept
    simpa using hKept.symm
  have hEmpty : (p.1.ch x).txBufferFull = false := by
    apply Bool.eq_false_iff.mpr
    intro hFull
    simp [Transmit.inFlight, hFull] at hNone
  refine ⟨hEmpty, ?_⟩
  apply Bool.eq_false_iff.mpr
  intro hHands
  have hStrobe : (p.1.ch x).toTransmit.strobe = true := by
    simpa [Transmit.handsOver, hEmpty] using hHands
  simp [Transmit.inFlight, hStrobe, (hInv.clear hStrobe).2]
    at hNone

theorem findsRoom_of_polled
    (hInv : PolledInv p)
    (hOk : polledOk .a p i) :
    findsRoom .a p.1 i := by
  intro hReset
  rcases hOk hReset with ⟨hWrite, hModes⟩
  exact ⟨fun hTake => hInv.ready (hWrite hTake),
    fun hOff => (idle_of_accepted hInv.tx (hModes hOff)).2⟩

theorem polledInv_reset (hReset : reset p.1 i = true) :
    PolledInv (watch step (noteTx .a) p i) := by
  have hNet : (nets p.1 i .a).reset = true := hReset
  refine ⟨txInv_reset hReset, ?_, ?_⟩
  · intro hFull
    rw [watch_fst, step_transmit] at hFull
    simp [Transmit.next, hNet] at hFull
  · intro hPolled
    simp [noteTx, hReset, noTx] at hPolled

theorem step_txBufferFull
    {s : Chip}
    (hReset : reset s i = false) :
    ((step s i).ch x).txBufferFull =
      if (s.ch x).txBufferFull && !(s.ch x).txBusy then false
      else if (nets s i x).dataTake then (s.ch x).txBusy
      else (s.ch x).txBufferFull := by
  rw [step_transmit, Transmit.next_eq _ _ hReset]

/- A byte that comes to wait takes the flag down. -/
theorem marks_step
    (hReset : reset p.1 i = false)
    (hInv : PolledInv p)
    (hOk : polledOk .a p i)
    (hNext : ((step p.1 i).ch .a).txBufferFull = true) :
    ((step p.1 i).ch .a).txEmptyLatch = false := by
  rw [step_txBufferFull hReset] at hNext
  cases hTake : (nets p.1 i .a).dataTake with
  | true =>
      have hRun := txuartReset_of_dataTake hReset hTake
      have hCh : resetCh p.1 i .a = false := by
        apply Bool.eq_false_iff.mpr
        intro hCh
        rw [txuartReset_of_resetCh hCh] at hRun
        exact Bool.noConfusion hRun
      have hBusy : (p.1.ch .a).txBusy = true := by
        have hFull := (hInv.ready ((hOk hReset).1 hTake)).1
        simpa [hTake, hFull] using hNext
      have hClears : (nets p.1 i .a).wr8Empties .a
          (p.1.ch .a).toTransmit = true := by
        simp [Nets.wr8Empties, dataWrite_of_dataTake hTake]
      rw [step_txEmptyLatch, hReset, hCh, hBusy, hClears]
      simp
  | false =>
      have hWaits : (p.1.ch .a).txBufferFull = true ∧
          (p.1.ch .a).txBusy = true := by
        cases hFull : (p.1.ch .a).txBufferFull <;>
          cases hBusy : (p.1.ch .a).txBusy <;>
          simp [hTake, hFull, hBusy] at hNext ⊢
      have hCh : resetCh p.1 i .a = false := by
        apply Bool.eq_false_iff.mpr
        intro hCh
        have hAll :=
          (hOk hReset).2 (txuartReset_of_resetCh hCh)
        have hEmpty := (idle_of_accepted hInv.tx hAll).1
        rw [hWaits.1] at hEmpty
        exact Bool.noConfusion hEmpty
      rw [step_txEmptyLatch, hReset, hCh, hWaits.2,
        hInv.marks hWaits.1]
      simp

/- A read that shows the flag up finds room, and keeps it. -/
theorem ready_step
    (hReset : reset p.1 i = false)
    (hInv : PolledInv p)
    (hPolled : (noteTx .a p.2 p.1 i).polled = true) :
    ((step p.1 i).ch .a).txBufferFull = false ∧
      ((step p.1 i).ch .a).toTransmit.strobe = false := by
  have hTake : (nets p.1 i .a).dataTake = false := by
    apply Bool.eq_false_iff.mpr
    intro hTake
    simp [noteTx, hReset, hTake] at hPolled
  have hEmpty : (p.1.ch .a).txBufferFull = false := by
    cases hRead : (nets p.1 i .a).statusRead with
    | true =>
        have hUp : (p.1.ch .a).txEmptyLatch = true := by
          rw [← statusRead_rdata hRead]
          simpa [noteTx, hReset, hTake, hRead] using hPolled
        apply Bool.eq_false_iff.mpr
        intro hFull
        rw [hInv.marks hFull] at hUp
        exact Bool.noConfusion hUp
    | false =>
        have hOld : p.2.polled = true := by
          simpa [noteTx, hReset, hTake, hRead] using hPolled
        exact (hInv.ready hOld).1
  have hNext := Transmit.next_eq (nets p.1 i .a)
    (p.1.ch .a).toTransmit hReset
  rw [step_transmit, hNext]
  simp [Transmit.strobe, hTake, hEmpty]

theorem polledInv_step
    (hInv : PolledInv p)
    (hOk : polledOk .a p i) :
    PolledInv (watch step (noteTx .a) p i) := by
  cases hReset : reset p.1 i with
  | true => exact polledInv_reset hReset
  | false =>
      exact
        { tx := txInv_step hInv.tx (findsRoom_of_polled hInv hOk)
          marks := marks_step hReset hInv hOk
          ready := ready_step hReset hInv }

/-
  On channel A a host that polls, and leaves the modes alone
  while a byte is under way, loses none.
-/
theorem polled_tx_kept
    (s : Chip)
    (is : List In)
    (hPolled : Along (watch step (noteTx .a)) (polledOk .a)
      (startTx s) is) :
    Always (watch step (noteTx .a)) (TxKept .a) (startTx s)
      is := by
  have hStart : PolledInv (startTx s) :=
    polledInv_reset (p := (s, noTx)) (i := { resetHw := true })
      (by simp [reset])
  exact always_mono
    (fun _ hInv => txKept_of_kept hInv.tx.kept)
    (always_of_along
      (fun _ _ hInv hOk => polledInv_step hInv hOk) hPolled
      hStart)

end Scc

------------------------------------------------------------
-- The Flag of Channel B
------------------------------------------------------------

namespace Scc

open Clocked

instance decidablePolledOk
    (x : Side) (p : Chip × TxLog) (i : In) :
    Decidable (polledOk x p i) :=
  inferInstanceAs (Decidable (_ → _ ∧ _))

/- A window of channel B, and the gap after it. -/
def readRr0B : List In :=
  [{ cen := true, cs := true }, { cen := true }]

def writeDataB (w : Byte) : List In :=
  [{ cen := true, cs := true, we := true, rsData := true
     wdata := w }, { cen := true }]

/-
  The transmitter is still busy from the reset, so the first
  byte waits, but the flag stays up.
-/
def polledRunB : List In :=
  readRr0B ++ writeDataB 0x41#8 ++ readRr0B ++
    writeDataB 0x42#8

theorem polledRunB_ends :
    (run (watch step (noteTx .b)) (startTx default)
        polledRunB).2 =
        ⟨[0x41#8, 0x42#8], [], false⟩ ∧
      ((run (watch step (noteTx .b)) (startTx default)
        polledRunB).1.ch .b).toTransmit.inFlight =
        [0x42#8] := by
  decide

/- The byte that waits is written over. -/
theorem waiting_byte_overwritten :
    ¬ ∀ (x : Side) (s : Chip) (is : List In),
      Along (watch step (noteTx x)) (polledOk x) (startTx s)
        is →
      Always (watch step (noteTx x)) (TxKept x) (startTx s)
        is := by
  intro hAll
  have hKept := (hAll .b default polledRunB (by decide)
    polledRunB (List.prefix_refl _)).kept
  rcases polledRunB_ends with ⟨hLog, hFlight⟩
  rw [hLog, hFlight] at hKept
  revert hKept
  decide

end Scc
