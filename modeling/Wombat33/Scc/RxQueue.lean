import Wombat33.Clocked.Run
import Wombat33.Clocked.ShiftQueue
import Wombat33.Scc.Chip

/-
  The receive FIFO of a channel as a queue of bytes.

  A read of the data port only flags the pop, which comes with
  the first `cen` after the chip select is released.  A log
  beside the chip keeps the bytes received, each with the
  number of bytes that were held then, and the bytes returned
  to reads made while RR0 said that one was there.

  Key definitions include:
    * `RxFifo.held`, `RxFifo.unread`
    * `RxLog`, `noteRx`, `RxKept`
    * `readsApart`

  Key theorems include:
    * `rxKept_step_iff`
    * `rx_kept_iff`
    * `empty_read_drops_byte`
-/

------------------------------------------------------------
-- The Queue
------------------------------------------------------------

namespace Scc

open Clocked

variable (f : RxFifo)

def RxFifo.cells : Nat → Byte
  | 0 => f.rxQueue0
  | 1 => f.rxQueue1
  | _ => f.rxQueue2

/- The bytes in the FIFO, the oldest first. -/
def RxFifo.held : List Byte :=
  contents f.cells f.rxQueuePos.toNat

/- The bytes left once a pop that is flagged has come. -/
def RxFifo.unread : List Byte :=
  f.held.drop f.pendingDequeue.toNat

@[simp] theorem RxFifo.length_held :
    f.held.length = f.rxQueuePos.toNat :=
  length_contents _ _

theorem RxFifo.held_eq_nil_iff :
    f.held = [] ↔ f.rxQueuePos = 0#2 := by
  rw [RxFifo.held, contents_eq_nil_iff]
  bv_omega

theorem RxFifo.pos_cases :
    f.rxQueuePos = 0#2 ∨ f.rxQueuePos = 1#2 ∨
      f.rxQueuePos = 2#2 ∨ f.rxQueuePos = 3#2 := by
  bv_omega

/- The head of a queue that is not empty is on the bus. -/
theorem RxFifo.held_head (hSome : f.rxQueuePos ≠ 0#2) :
    f.held = f.rxQueue0 :: f.held.tail := by
  rcases f.pos_cases with h | h | h | h
  · exact absurd h hSome
  · rw [RxFifo.held, h]
    rfl
  · rw [RxFifo.held, h]
    rfl
  · rw [RxFifo.held, h]
    rfl

/- A frame joins the queue unless three wait already. -/
theorem RxFifo.enqueue_held (l : Line) :
    (f.enqueue l).held =
      if l.rxWr = true ∧ f.held.length < 3 then
        f.held ++ [l.rxData]
      else f.held := by
  cases hWr : l.rxWr with
  | false => simp [RxFifo.enqueue, hWr]
  | true =>
      rcases f.pos_cases with h | h | h | h
      · simp only [RxFifo.enqueue, RxFifo.held, hWr, h]
        rfl
      · simp only [RxFifo.enqueue, RxFifo.held, hWr, h]
        rfl
      · simp only [RxFifo.enqueue, RxFifo.held, hWr, h]
        rfl
      · simp [RxFifo.enqueue, hWr, h]

@[simp] theorem RxFifo.enqueue_pendingDequeue (l : Line) :
    (f.enqueue l).pendingDequeue = f.pendingDequeue := by
  unfold RxFifo.enqueue
  split
  · split <;> rfl
  · rfl

theorem RxFifo.dequeue_held :
    f.dequeue.held = f.held.tail := by
  rcases f.pos_cases with h | h | h | h
  · simp only [RxFifo.dequeue, RxFifo.held, h]
    rfl
  · simp only [RxFifo.dequeue, RxFifo.held, h]
    rfl
  · simp only [RxFifo.dequeue, RxFifo.held, h]
    rfl
  · simp only [RxFifo.dequeue, RxFifo.held, h]
    rfl

@[simp] theorem RxFifo.dequeue_pendingDequeue :
    f.dequeue.pendingDequeue = false := by
  by_cases h : f.rxQueuePos = 0#2 <;>
    simp [RxFifo.dequeue, h]

end Scc

------------------------------------------------------------
-- The Log
------------------------------------------------------------

namespace Scc

variable (x : Side) (s : Chip) (i : In)

/- The access of a data-port read, taken on this clock. -/
def Nets.dataRead (k : Nets) : Bool :=
  k.access && k.rsData && !k.we

/- A data-port read while RR0 says a character is there. -/
def readsByte : Bool :=
  (nets s i x).dataRead && (s.ch x).rr0.getLsbD 0

/-
  The bytes received, with how many the FIFO held then, the
  bytes returned, and the one returned in this window.
-/
structure RxLog where
  received : List (Byte × Nat)
  returned : List Byte
  window : Option Byte
  deriving DecidableEq

def noRx : RxLog := ⟨[], [], none⟩

/- A reset empties the FIFO and starts the log again. -/
def noteRx (x : Side) (g : RxLog) (s : Chip) (i : In) : RxLog :=
  if reset s i then noRx
  else
    { received :=
        if (i.line x).rxWr then
          g.received ++
            [((i.line x).rxData, (s.ch x).toRxFifo.held.length)]
        else g.received
      returned :=
        if readsByte x s i then g.returned ++ [rdata s i]
        else g.returned
      window :=
        if !i.cs then none
        else if readsByte x s i then some (rdata s i)
        else g.window }

/- The bytes that found room. -/
def RxLog.accepted (g : RxLog) : List Byte :=
  (g.received.filter (fun r => r.2 < 3)).map Prod.fst

/-
  Every byte that found fewer than three before it has been
  returned to one read, in order, or is still to be read, and
  nothing else has; the byte of a read stays on the bus for
  the rest of its window.
-/
structure RxKept (p : Chip × RxLog) : Prop where
  kept : p.2.accepted =
    p.2.returned ++ (p.1.ch x).toRxFifo.unread
  steady : ∀ b, p.2.window = some b →
    ∀ i, i.cs = true → i.rsData = true → i.side = x →
      rdata p.1 i = b

/-
  No byte reaches an empty FIFO while a read of it is under
  way, and no read finds the pop of another still to come.
-/
def readsApart : Prop :=
  reset s i = false →
    ((i.line x).rxWr = true → (s.ch x).rxQueuePos = 0#2 →
      (s.ch x).pendingDequeue = false ∧
        (nets s i x).dataRead = false) ∧
    (readsByte x s i = true →
      (s.ch x).pendingDequeue = false)

def startRx : Chip × RxLog :=
  (step s { resetHw := true }, noRx)

end Scc

------------------------------------------------------------
-- One Clock
------------------------------------------------------------

namespace Scc

open Clocked

variable {x : Side} {s : Chip} {i : In}

theorem rr0_available (c : Channel) :
    c.rr0.getLsbD 0 = (c.rxQueuePos != 0#2) := by
  simp only [Channel.rr0, BitVec.getLsbD_append,
    BitVec.getLsbD_ofBool]
  rfl

/- The flagged pop comes on this clock. -/
def Nets.pops (k : Nets) (f : RxFifo) : Bool :=
  k.cen && !k.cs && f.pendingDequeue && !k.line.rxWr

/- What the clock does, before a flag is set. -/
def RxFifo.moved (k : Nets) (f : RxFifo) : RxFifo :=
  if k.pops f then f.dequeue else f.enqueue k.line

variable {k : Nets} {p : Pointer} {f : RxFifo}

/- A WR0 command that asks for the next character. -/
def Nets.asksFirst (k : Nets) (p : Pointer) : Bool :=
  k.access && !k.rsData && k.we && p.sccState = .ready &&
    wr0Cmd k.wdata == 0b100#3

theorem asksFirst_dataRead (hAsks : k.asksFirst p = true) :
    k.dataRead = false := by
  simp only [Nets.asksFirst, Bool.and_eq_true,
    Bool.not_eq_true'] at hAsks
  simp [Nets.dataRead, hAsks.1.1.1.2]

theorem RxFifo.next_moved (hReset : k.reset = false) :
    f.next k p =
      if k.asksFirst p then { f.moved k with rxFirst := true }
      else if k.dataRead then
        { f.moved k with pendingDequeue := true }
      else f.moved k := by
  simp only [RxFifo.next, hReset, Bool.false_eq_true, if_false]
  rfl

theorem RxFifo.next_eq (hReset : k.reset = false) :
    (f.next k p).held = (f.moved k).held ∧
      (f.next k p).rxQueuePos = (f.moved k).rxQueuePos ∧
      (f.next k p).rxQueue0 = (f.moved k).rxQueue0 ∧
      (f.next k p).pendingDequeue =
        (k.dataRead || (f.moved k).pendingDequeue) := by
  rw [RxFifo.next_moved hReset]
  cases hAsks : k.asksFirst p with
  | true =>
      rw [asksFirst_dataRead hAsks]
      exact ⟨rfl, rfl, rfl, rfl⟩
  | false =>
      cases k.dataRead with
      | true => exact ⟨rfl, rfl, rfl, rfl⟩
      | false => exact ⟨rfl, rfl, rfl, rfl⟩

theorem RxFifo.moved_pendingDequeue :
    (f.moved k).pendingDequeue =
      (f.pendingDequeue && !k.pops f) := by
  cases hPops : k.pops f <;> simp [RxFifo.moved, hPops]

theorem readsByte_iff :
    readsByte x s i = true ↔
      (nets s i x).dataRead = true ∧
        (s.ch x).rxQueuePos ≠ 0#2 := by
  simp only [readsByte, rr0_available, Bool.and_eq_true,
    bne_iff_ne, ne_eq]

theorem addressed_of_dataRead
    (hRead : (nets s i x).dataRead = true) :
    i.cs = true ∧ i.rsData = true ∧ i.side = x := by
  simp only [Nets.dataRead, nets, Bool.and_eq_true,
    beq_iff_eq] at hRead
  exact ⟨hRead.1.1.1.1.2, hRead.1.2, hRead.1.1.2⟩

theorem rdata_data
    (hData : i.rsData = true)
    (hSide : i.side = x) :
    rdata s i = (s.ch x).rxQueue0 := by
  simp [rdata, hData, hSide]

end Scc

------------------------------------------------------------
-- The Balance
------------------------------------------------------------

namespace Scc

open Clocked

variable {x : Side} {s : Chip} {i : In} {g : RxLog}

/- What this clock adds to the queue. -/
def arrival (x : Side) (s : Chip) (i : In) : List Byte :=
  if (i.line x).rxWr = true ∧ (s.ch x).toRxFifo.held.length < 3
  then [(i.line x).rxData]
  else []

theorem noteRx_accepted (hReset : reset s i = false) :
    (noteRx x g s i).accepted = g.accepted ++ arrival x s i := by
  cases hWr : (i.line x).rxWr with
  | false => simp [noteRx, hReset, RxLog.accepted, arrival, hWr]
  | true =>
      by_cases hRoom : (s.ch x).toRxFifo.held.length < 3
      · simp only [RxFifo.length_held] at hRoom
        simp [noteRx, hReset, RxLog.accepted, arrival, hWr,
          hRoom]
      · simp only [RxFifo.length_held] at hRoom
        simp [noteRx, hReset, RxLog.accepted, arrival, hWr,
          hRoom]

theorem step_rxFifo :
    ((step s i).ch x).toRxFifo =
      (s.ch x).toRxFifo.next (nets s i x)
        (s.ch x).toPointer := by
  rw [step_ch]
  rfl

/- The queue and the flag after a clock without a pop. -/
theorem step_unread_push
    (hReset : reset s i = false)
    (hPops : (nets s i x).pops (s.ch x).toRxFifo = false) :
    ((step s i).ch x).toRxFifo.unread =
      ((s.ch x).toRxFifo.held ++ arrival x s i).drop
        ((nets s i x).dataRead ||
          (s.ch x).pendingDequeue).toNat := by
  have hNext := RxFifo.next_eq (k := nets s i x)
    (p := (s.ch x).toPointer) (f := (s.ch x).toRxFifo) hReset
  have hMoved : ((s.ch x).toRxFifo.moved (nets s i x)).held =
      (s.ch x).toRxFifo.held ++ arrival x s i := by
    have hLine : (nets s i x).line = i.line x := rfl
    rw [RxFifo.moved, hPops, if_neg Bool.false_ne_true,
      RxFifo.enqueue_held, hLine, arrival]
    split
    · rfl
    · rw [List.append_nil]
  rw [step_rxFifo, RxFifo.unread, hNext.1, hNext.2.2.2,
    RxFifo.moved_pendingDequeue, hPops, hMoved]
  simp

/- A pop takes away what its flag had taken away already. -/
theorem step_unread_pop
    (hReset : reset s i = false)
    (hPops : (nets s i x).pops (s.ch x).toRxFifo = true) :
    ((step s i).ch x).toRxFifo.unread =
      (s.ch x).toRxFifo.unread := by
  have hNext := RxFifo.next_eq (k := nets s i x)
    (p := (s.ch x).toPointer) (f := (s.ch x).toRxFifo) hReset
  have hFlag := hPops
  simp only [Nets.pops, Bool.and_eq_true,
    Bool.not_eq_true'] at hFlag
  have hRead : (nets s i x).dataRead = false := by
    have hCs : i.cs = false := hFlag.1.1.2
    simp [Nets.dataRead, nets, hCs]
  rw [step_rxFifo, RxFifo.unread, hNext.1, hNext.2.2.2,
    RxFifo.moved_pendingDequeue, hPops, hRead, RxFifo.moved,
    if_pos hPops, RxFifo.dequeue_held, RxFifo.unread, hFlag.1.2]
  simp

theorem noteRx_returned (hReset : reset s i = false) :
    (noteRx x g s i).returned =
      g.returned ++
        if readsByte x s i then [(s.ch x).rxQueue0] else [] := by
  cases hReads : readsByte x s i with
  | false => simp [noteRx, hReset, hReads]
  | true =>
      have hRead := addressed_of_dataRead
        (readsByte_iff.mp hReads).1
      simp [noteRx, hReset, hReads,
        rdata_data hRead.2.1 hRead.2.2]

/- An empty FIFO stays in balance unless a read meets a byte. -/
theorem balance_empty
    (hReset : reset s i = false)
    (hEmpty : (s.ch x).rxQueuePos = 0#2)
    (hKept : g.accepted =
      g.returned ++ (s.ch x).toRxFifo.unread)
    (hPops : (nets s i x).pops (s.ch x).toRxFifo = false) :
    ((noteRx x g s i).accepted =
        (noteRx x g s i).returned ++
          ((step s i).ch x).toRxFifo.unread) ↔
      ((i.line x).rxWr = true →
        (s.ch x).pendingDequeue = false ∧
          (nets s i x).dataRead = false) := by
  have hNil : (s.ch x).toRxFifo.held = [] :=
    (RxFifo.held_eq_nil_iff _).mpr hEmpty
  have hReads : readsByte x s i = false := by
    simp only [readsByte, rr0_available, hEmpty,
      bne_self_eq_false, Bool.and_false]
  rw [noteRx_accepted hReset, noteRx_returned hReset,
    step_unread_push hReset hPops, hKept, hReads, RxFifo.unread]
  cases hWr : (i.line x).rxWr with
  | false => simp [hNil, arrival, hWr]
  | true =>
      cases hRead : (nets s i x).dataRead <;>
        cases hFlag : (s.ch x).pendingDequeue <;>
        simp [hNil, arrival, hWr]

/- A FIFO that holds a byte does, unless it is read twice. -/
theorem balance_filled
    (hReset : reset s i = false)
    (hSome : (s.ch x).rxQueuePos ≠ 0#2)
    (hKept : g.accepted =
      g.returned ++ (s.ch x).toRxFifo.unread)
    (hPops : (nets s i x).pops (s.ch x).toRxFifo = false) :
    ((noteRx x g s i).accepted =
        (noteRx x g s i).returned ++
          ((step s i).ch x).toRxFifo.unread) ↔
      (readsByte x s i = true →
        (s.ch x).pendingDequeue = false) := by
  have hHead := RxFifo.held_head _ hSome
  have hReads : readsByte x s i = (nets s i x).dataRead := by
    cases hRead : (nets s i x).dataRead with
    | false => simp [readsByte, hRead]
    | true => exact readsByte_iff.mpr ⟨hRead, hSome⟩
  rw [noteRx_accepted hReset, noteRx_returned hReset,
    step_unread_push hReset hPops, hKept, hReads,
    RxFifo.unread, hHead]
  cases hRead : (nets s i x).dataRead <;>
    cases hFlag : (s.ch x).pendingDequeue <;>
    simp

theorem balance_iff
    (hReset : reset s i = false)
    (hKept : g.accepted =
      g.returned ++ (s.ch x).toRxFifo.unread) :
    ((noteRx x g s i).accepted =
        (noteRx x g s i).returned ++
          ((step s i).ch x).toRxFifo.unread) ↔
      readsApart x s i := by
  rw [readsApart, hReset]
  cases hPops : (nets s i x).pops (s.ch x).toRxFifo with
  | true =>
      have hFlag := hPops
      simp only [Nets.pops, Bool.and_eq_true,
        Bool.not_eq_true'] at hFlag
      have hCs : i.cs = false := hFlag.1.1.2
      have hWr : (i.line x).rxWr = false := hFlag.2
      have hReads : readsByte x s i = false := by
        simp [readsByte, Nets.dataRead, nets, hCs]
      rw [noteRx_accepted hReset, noteRx_returned hReset,
        step_unread_pop hReset hPops, hReads, hKept]
      simp [arrival, hWr]
  | false =>
      by_cases hEmpty : (s.ch x).rxQueuePos = 0#2
      · have hReads : readsByte x s i = false := by
          simp only [readsByte, rr0_available, hEmpty,
            bne_self_eq_false, Bool.and_false]
        rw [balance_empty hReset hEmpty hKept hPops]
        simp [hEmpty, hReads]
      · rw [balance_filled hReset hEmpty hKept hPops]
        simp [hEmpty]

end Scc

------------------------------------------------------------
-- The Window of a Read
------------------------------------------------------------

namespace Scc

open Clocked

variable {x : Side} {s : Chip} {i : In} {p : Chip × RxLog}

/- The byte of an open window is the head of the queue. -/
def WindowKept (x : Side) (p : Chip × RxLog) : Prop :=
  ∀ b, p.2.window = some b →
    (p.1.ch x).rxQueuePos ≠ 0#2 ∧ (p.1.ch x).rxQueue0 = b

theorem RxFifo.enqueue_filled
    (f : RxFifo)
    (l : Line)
    (hSome : f.rxQueuePos ≠ 0#2) :
    (f.enqueue l).rxQueuePos ≠ 0#2 ∧
      (f.enqueue l).rxQueue0 = f.rxQueue0 := by
  cases hWr : l.rxWr with
  | false => simpa [RxFifo.enqueue, hWr] using hSome
  | true =>
      rcases f.pos_cases with h | h | h | h
      · exact absurd h hSome
      · simp [RxFifo.enqueue, hWr, h]
      · simp [RxFifo.enqueue, hWr, h]
      · simp [RxFifo.enqueue, hWr, h]

theorem windowKept_step
    (hKept : WindowKept x p) :
    WindowKept x (watch step (noteRx x) p i) := by
  intro b hWindow
  cases hReset : reset p.1 i with
  | true => simp [noteRx, hReset, noRx] at hWindow
  | false =>
      have hHead :
          i.cs = true ∧ (p.1.ch x).rxQueuePos ≠ 0#2 ∧
            (p.1.ch x).rxQueue0 = b := by
        simp only [watch_snd, noteRx, hReset,
          Bool.false_eq_true, if_false] at hWindow
        split at hWindow
        · exact absurd hWindow (by simp)
        · next hCs =>
            have hOpen : i.cs = true := by simpa using hCs
            split at hWindow
            · next hReads =>
                have hRead := readsByte_iff.mp hReads
                have hOn := addressed_of_dataRead hRead.1
                refine ⟨hOpen, hRead.2, ?_⟩
                rw [← rdata_data hOn.2.1 hOn.2.2]
                exact Option.some.inj hWindow
            · exact ⟨hOpen, hKept b hWindow⟩
      have hNext := RxFifo.next_eq (k := nets p.1 i x)
        (p := (p.1.ch x).toPointer) (f := (p.1.ch x).toRxFifo)
        hReset
      have hPops :
          (nets p.1 i x).pops (p.1.ch x).toRxFifo = false := by
        simp [Nets.pops, nets, hHead.1]
      have hFilled := RxFifo.enqueue_filled _
        (nets p.1 i x).line hHead.2.1
      rw [RxFifo.moved, hPops, if_neg Bool.false_ne_true]
        at hNext
      rw [watch_fst, step_rxFifo, hNext.2.1, hNext.2.2.1]
      exact ⟨hFilled.1, hFilled.2.trans hHead.2.2⟩

end Scc

------------------------------------------------------------
-- Every Run
------------------------------------------------------------

namespace Scc

open Clocked

variable {x : Side} {s : Chip} {i : In} {p : Chip × RxLog}

theorem rxKept_iff (hWindow : WindowKept x p) :
    RxKept x p ↔
      p.2.accepted =
        p.2.returned ++ (p.1.ch x).toRxFifo.unread := by
  constructor
  · exact RxKept.kept
  · intro hKept
    refine ⟨hKept, fun b hOpen i _ hData hSide => ?_⟩
    rw [rdata_data hData hSide]
    exact (hWindow b hOpen).2

theorem rxKept_reset (hReset : reset p.1 i = true) :
    RxKept x (watch step (noteRx x) p i) := by
  have hFifo : ((step p.1 i).ch x).toRxFifo.unread = [] := by
    have hPos : ((step p.1 i).ch x).rxQueuePos = 0#2 := by
      have hNet : (nets p.1 i x).reset = true := hReset
      rw [step_ch]
      simp [Channel.next, RxFifo.next, hNet]
    have hNil := (RxFifo.held_eq_nil_iff
      ((step p.1 i).ch x).toRxFifo).mpr hPos
    rw [RxFifo.unread, hNil, List.drop_nil]
  constructor
  · rw [watch_fst, watch_snd, hFifo]
    simp [noteRx, hReset, noRx, RxLog.accepted]
  · intro b hOpen
    simp [noteRx, hReset, noRx] at hOpen

/- One clock keeps every byte exactly where reads are apart. -/
theorem rxKept_step_iff
    (hWindow : WindowKept x p)
    (hKept : RxKept x p) :
    RxKept x (watch step (noteRx x) p i) ↔
      readsApart x p.1 i := by
  cases hReset : reset p.1 i with
  | true => simp [rxKept_reset hReset, readsApart, hReset]
  | false =>
      rw [rxKept_iff (windowKept_step hWindow)]
      exact balance_iff hReset hKept.kept

theorem rxKept_start (x : Side) (s : Chip) :
    RxKept x (startRx s) :=
  rxKept_reset (p := (s, noRx)) (i := { resetHw := true })
    (by simp [reset])

theorem windowKept_start (x : Side) (s : Chip) :
    WindowKept x (startRx s) := by
  intro b hOpen
  simp [startRx, noRx] at hOpen

/-
  The receive FIFO keeps every byte all along the runs in
  which reads stay apart from arrivals and from each other,
  and along no other.
-/
theorem rx_kept_iff
    (x : Side)
    (s : Chip)
    (is : List In) :
    Always (watch step (noteRx x)) (RxKept x) (startRx s) is ↔
      Along step (readsApart x) (startRx s).1 is := by
  rw [← along_watch step (noteRx x)]
  exact always_iff_along_under
    (fun _ _ hWindow _ => windowKept_step hWindow)
    (fun _ _ hWindow hKept _ => rxKept_step_iff hWindow hKept)
    (along_of_mem (p := fun _ => True) (fun _ _ => trivial))
    (windowKept_start x s) (rxKept_start x s)

/-
  A read of the empty FIFO of channel A; a byte comes before
  its window ends, and goes when it does.
-/
def emptyReadRun : List In :=
  [{ cen := true, cs := true, rsData := true, rsA := true },
    { cs := true, rsData := true, rsA := true
      lineA := { rxWr := true, rxData := 0x55#8 } },
    { cen := true }]

theorem emptyReadRun_ends :
    (run (watch step (noteRx .a)) (startRx default)
        emptyReadRun).2 =
        ⟨[(0x55#8, 0)], [], none⟩ ∧
      ((run (watch step (noteRx .a)) (startRx default)
        emptyReadRun).1.ch .a).toRxFifo.held = [] := by
  decide

/- The byte is accepted, and no read will ever return it. -/
theorem empty_read_drops_byte :
    ¬ ∀ (x : Side) (s : Chip) (is : List In),
      Always (watch step (noteRx x)) (RxKept x) (startRx s)
        is := by
  intro hAll
  have hKept := (hAll .a default emptyReadRun emptyReadRun
    (List.prefix_refl _)).kept
  rcases emptyReadRun_ends with ⟨hLog, hHeld⟩
  rw [RxFifo.unread, hLog, hHeld] at hKept
  revert hKept
  decide

end Scc
