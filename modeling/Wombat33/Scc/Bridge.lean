import Wombat33.Scc.Pointer

/-
  The serial controller behind the IOSB.

  The IOSB's clock divider makes the chip's enables: `cep` at
  0 and `cen` at 2.  A request raises chip select until the
  next `cen`, and is acknowledged at the `cen` after it, with
  chip select low.  The clock enable of the IOSB is tied high
  on the board.  Its other devices are served elsewhere: a
  request for one of them is no request here.

  Key definitions include:
    * `Port`, `Bridge`, `Request`, `BusIn`
    * `chipIn`, `Port.next`, `Bridge.step`
    * `HeldOk`

  Key theorems include:
    * `busOk_of_windows`
    * `protocol_of_held`
-/

------------------------------------------------------------
-- State
------------------------------------------------------------

namespace Scc

/- `A_IDLE`, `A_SCC_ACC` and `A_SCC_REL`. -/
inductive Astate where
  | idle
  | acc
  | rel
  deriving DecidableEq, Inhabited

/- The IOSB's registers around the chip. -/
structure Port where
  sccClkdiv : BitVec 2
  sccCs : Bool
  astate : Astate
  ack : Bool
  rdata : BitVec 32
  deriving DecidableEq, Inhabited

structure Bridge where
  scc : Chip
  port : Port
  deriving DecidableEq, Inhabited

/- A longword access in the chip's window, `addr[2]` of it. -/
structure Request where
  write : Bool
  addr2 : Bool
  be : BitVec 4
  wdata : BitVec 32
  deriving DecidableEq, Inhabited

structure BusIn extends Request where
  nreset : Bool := true
  sel : Bool := false
  lineA : Line := {}
  lineB : Line := {}
  deriving DecidableEq, Inhabited

namespace Request

variable (q : Request)

/- A1 is in the byte enables: word 0 is the upper lanes. -/
def sccWord0 : Bool := q.be.getLsbD 3 || q.be.getLsbD 2

def sccA1 : Bool := !q.sccWord0

/- The chip is on the upper byte of either word. -/
def sccWbyte : Byte :=
  if q.sccWord0 then q.wdata.extractLsb' 24 8
  else q.wdata.extractLsb' 8 8

/- `scc_rs` is `addr[2]`, then A1. -/
def access : Access :=
  ⟨q.write, q.addr2, q.sccA1, q.sccWbyte⟩

end Request

end Scc

------------------------------------------------------------
-- One Clock
------------------------------------------------------------

namespace Scc

def Port.sccCep (p : Port) : Bool := p.sccClkdiv == 0#2

def Port.sccCen (p : Port) : Bool := p.sccClkdiv == 2#2

def chipIn (p : Port) (i : BusIn) : In where
  cep := p.sccCep
  cen := p.sccCen
  resetHw := !i.nreset
  cs := p.sccCs
  we := i.write
  rsData := i.addr2
  rsA := i.sccA1
  wdata := i.sccWbyte
  lineA := i.lineA
  lineB := i.lineB

/- The byte read, mirrored across the longword. -/
def mirror (d : Byte) : BitVec 32 := d ++ d ++ d ++ d

def Port.next (p : Port) (i : BusIn) (rd : Byte) : Port :=
  if !i.nreset then ⟨0#2, false, .idle, false, 0#32⟩
  else
    let n := { p with
      sccClkdiv := p.sccClkdiv + 1#2, ack := false }
    match p.astate with
    | .idle =>
        if i.sel && !p.ack then
          { n with sccCs := true, astate := .acc }
        else n
    | .acc =>
        if p.sccCen then
          { n with
            rdata := mirror rd, sccCs := false, astate := .rel }
        else n
    | .rel =>
        if p.sccCen then { n with ack := true, astate := .idle }
        else n

def Bridge.step (b : Bridge) (i : BusIn) : Bridge where
  scc := Scc.step b.scc (chipIn b.port i)
  port := b.port.next i (Scc.rdata b.scc (chipIn b.port i))

@[simp] theorem chipIn_access (p : Port) (i : BusIn) :
    (chipIn p i).access = i.access := rfl

end Scc

------------------------------------------------------------
-- The Windows It Makes
------------------------------------------------------------

namespace Scc

/-
  Beside the bridge: the request it last accepted, and the
  log of the windows on the chip's bus.
-/
structure Watch where
  accepted : Request
  log : Log

def Watch.note (g : Watch) (b : Bridge) (i : BusIn) : Watch where
  accepted :=
    if b.port.astate = .idle then i.toRequest else g.accepted
  log := Scc.note g.log b.scc (chipIn b.port i)

/- The bus master holds its request until the acknowledge. -/
def HeldOk (x : Bridge × Watch) (i : BusIn) : Prop :=
  i.nreset = true → x.1.port.astate ≠ .idle →
    i.toRequest = x.2.accepted

instance (x : Bridge × Watch) (i : BusIn) :
    Decidable (HeldOk x i) := by
  unfold HeldOk
  infer_instance

/- A bridge just reset. -/
def Bridge.start (b : Bridge) (q : Request) : Bridge × Watch :=
  (b.step { toRequest := q, nreset := false },
    ⟨q, ⟨[], none, true, 0⟩⟩)

/-
  Chip select follows the access states; an idle bridge has
  seen a `cen` with chip select low.
-/
structure Windows (p : Port) (g : Watch) : Prop where
  cs : p.sccCs = decide (p.astate = .acc)
  idle : p.astate = .idle →
    g.log.current = none ∧ g.log.cenSeen = true
  acc : p.astate = .acc →
    (g.log.current = none ∧ g.log.cenSeen = true) ∨
      g.log.current = some g.accepted.access
  rel : p.astate = .rel →
    g.log.current = none ∨
      (g.log.current = some g.accepted.access ∧
        g.log.cenSeen = true)

theorem windows_start (b : Bridge) (q : Request) :
    Windows (b.start q).1.port (b.start q).2 where
  cs := rfl
  idle _ := ⟨rfl, rfl⟩
  acc hAcc := by cases hAcc
  rel hRel := by cases hRel

variable {b : Bridge} {g : Watch} {i : BusIn}

/- A held request makes windows of one access. -/
theorem busOk_of_windows
    (hWindows : Windows b.port g)
    (hHeld : HeldOk (b, g) i) :
    BusOk g.log (chipIn b.port i) := by
  intro hHw
  have hReset : i.nreset = true := by
    simpa [chipIn] using hHw
  have hCs : (chipIn b.port i).cs =
      decide (b.port.astate = .acc) := hWindows.cs
  cases hState : b.port.astate with
  | idle =>
      rcases hWindows.idle hState with ⟨hNone, hSeen⟩
      simp [hNone, hSeen]
  | acc =>
      have hSame : i.toRequest = g.accepted :=
        hHeld hReset (by simp [hState])
      rcases hWindows.acc hState with ⟨hNone, hSeen⟩ | hSome
      · simp [hNone, hSeen]
      · simp [hSome, hCs, hState, hSame]
  | rel =>
      rcases hWindows.rel hState with hNone | ⟨hSome, hSeen⟩
      · simp [hNone, hCs, hState]
      · simp [hSome, hCs, hState, hSeen]

/- A reset closes the window. -/
theorem windows_reset (hReset : i.nreset = false) :
    Windows (b.step i).port (g.note b i) := by
  have hPort : (b.step i).port =
      ⟨0#2, false, .idle, false, 0#32⟩ := by
    simp [Bridge.step, Port.next, hReset]
  have hLog : (g.note b i).log = ⟨[], none, true, 0⟩ := by
    simp [Watch.note, note, chipIn, hReset]
  rw [hPort]
  refine ⟨rfl, fun _ => ?_, ?_, ?_⟩
  · rw [hLog]
    exact ⟨rfl, rfl⟩
  · intro hAcc
    cases hAcc
  · intro hRel
    cases hRel

/- An idle bridge may take a request. -/
theorem windows_idle
    (hWindows : Windows b.port g)
    (hReset : i.nreset = true)
    (hState : b.port.astate = .idle) :
    Windows (b.step i).port (g.note b i) := by
  have hHw : (chipIn b.port i).resetHw = false := by
    simp [chipIn, hReset]
  have hCs : (chipIn b.port i).cs =
      decide (b.port.astate = .acc) := hWindows.cs
  rcases hWindows.idle hState with ⟨hNone, hSeen⟩
  have hLog : (g.note b i).log = g.log := by
    cases hG : g.log
    rw [hG] at hNone hSeen
    simp_all [Watch.note, note]
  have hCsNow : b.port.sccCs = false := by
    simpa [hState] using hWindows.cs
  cases hTake : (i.sel && !b.port.ack) with
  | true =>
      refine ⟨?_, ?_, fun _ => ?_, ?_⟩ <;>
        simp [Bridge.step, Port.next, hReset, hState,
          hTake, hLog, hNone, hSeen]
  | false =>
      refine ⟨?_, fun _ => ?_, ?_, ?_⟩ <;>
        simp [Bridge.step, Port.next, hReset, hState,
          hTake, hLog, hNone, hSeen, hCsNow]

/- The access is held over a `cen`. -/
theorem windows_acc
    (hWindows : Windows b.port g)
    (hHeld : HeldOk (b, g) i)
    (hReset : i.nreset = true)
    (hState : b.port.astate = .acc) :
    Windows (b.step i).port (g.note b i) := by
  have hHw : (chipIn b.port i).resetHw = false := by
    simp [chipIn, hReset]
  have hCs : (chipIn b.port i).cs =
      decide (b.port.astate = .acc) := hWindows.cs
  have hSame : i.toRequest = g.accepted :=
    hHeld hReset (by simp [hState])
  have hCsNow : b.port.sccCs = true := by
    simpa [hState] using hWindows.cs
  have hCurrent : (g.note b i).log.current =
        some g.accepted.access ∧
      ((chipIn b.port i).cen = true →
        (g.note b i).log.cenSeen = true) := by
    rcases hWindows.acc hState with ⟨hNone, -⟩ | hSome
    · simp [Watch.note, note, hHw, hNone, hCs, hState,
        hSame]
    · simp [Watch.note, note, hHw, hSome, hCs, hState]
      exact fun hCen => Or.inr hCen
  have hAccepted :
      (g.note b i).accepted = g.accepted := by
    simp [Watch.note, hState]
  cases hCen : b.port.sccCen with
  | true =>
      refine ⟨?_, ?_, ?_, fun _ => Or.inr ?_⟩
      · simp [Bridge.step, Port.next, hReset, hState,
          hCen]
      · simp [Bridge.step, Port.next, hReset, hState,
          hCen]
      · simp [Bridge.step, Port.next, hReset, hState,
          hCen]
      · rw [hAccepted]
        exact ⟨hCurrent.1, hCurrent.2 hCen⟩
  | false =>
      refine ⟨?_, ?_, fun _ => Or.inr ?_, ?_⟩
      · simp [Bridge.step, Port.next, hReset, hState,
          hCen, hCsNow]
      · simp [Bridge.step, Port.next, hReset, hState,
          hCen]
      · rw [hAccepted]
        exact hCurrent.1
      · simp [Bridge.step, Port.next, hReset, hState,
          hCen]

/- And the gap behind it over another. -/
theorem windows_rel
    (hWindows : Windows b.port g)
    (hReset : i.nreset = true)
    (hState : b.port.astate = .rel) :
    Windows (b.step i).port (g.note b i) := by
  have hHw : (chipIn b.port i).resetHw = false := by
    simp [chipIn, hReset]
  have hCs : (chipIn b.port i).cs =
      decide (b.port.astate = .acc) := hWindows.cs
  have hCsNow : b.port.sccCs = false := by
    simpa [hState] using hWindows.cs
  have hCurrent : (g.note b i).log.current = none ∧
      ((chipIn b.port i).cen = true →
        (g.note b i).log.cenSeen = true) := by
    rcases hWindows.rel hState with
      hNone | ⟨hSome, -⟩
    · simp [Watch.note, note, hHw, hNone, hCs, hState]
      exact fun hCen => Or.inr hCen
    · simp [Watch.note, note, hHw, hSome, hCs, hState]
  cases hCen : b.port.sccCen with
  | true =>
      refine ⟨?_, fun _ => ?_, ?_, ?_⟩
      · simp [Bridge.step, Port.next, hReset, hState,
          hCen, hCsNow]
      · exact ⟨hCurrent.1, hCurrent.2 hCen⟩
      · simp [Bridge.step, Port.next, hReset, hState,
          hCen]
      · simp [Bridge.step, Port.next, hReset, hState,
          hCen]
  | false =>
      refine ⟨?_, ?_, ?_, fun _ => Or.inl hCurrent.1⟩
      · simp [Bridge.step, Port.next, hReset, hState,
          hCen, hCsNow]
      · simp [Bridge.step, Port.next, hReset, hState,
          hCen]
      · simp [Bridge.step, Port.next, hReset, hState,
          hCen]

theorem windows_step
    (hWindows : Windows b.port g)
    (hHeld : HeldOk (b, g) i) :
    Windows (b.step i).port (g.note b i) := by
  cases hReset : i.nreset with
  | false => exact windows_reset hReset
  | true =>
      cases hState : b.port.astate with
      | idle => exact windows_idle hWindows hReset hState
      | acc => exact windows_acc hWindows hHeld hReset hState
      | rel => exact windows_rel hWindows hReset hState

end Scc

------------------------------------------------------------
-- Runs of the Bridge
------------------------------------------------------------

namespace Scc

/- The bridge with its watch, on one clock. -/
def Bridge.watched (x : Bridge × Watch) (i : BusIn) :
    Bridge × Watch :=
  Clocked.watch Bridge.step Watch.note x i

structure BridgeInv (x : Bridge × Watch) : Prop where
  windows : Windows x.1.port x.2
  pointers : Inv (x.1.scc, x.2.log)

theorem bridgeInv_start (b : Bridge) (q : Request) :
    BridgeInv (b.start q) where
  windows := windows_start b q
  pointers := by
    have hInv := @inv_reset b.scc ⟨[], none, true, 0⟩
      (chipIn b.port { toRequest := q, nreset := false }) rfl
    exact hInv

theorem bridgeInv_step
    (x : Bridge × Watch)
    (i : BusIn)
    (hInv : BridgeInv x)
    (hHeld : HeldOk x i) :
    BridgeInv (Bridge.watched x i) where
  windows := windows_step hInv.windows hHeld
  pointers :=
    inv_step (x.1.scc, x.2.log) (chipIn x.1.port i)
      hInv.pointers (busOk_of_windows hInv.windows hHeld)

/-
  The chip's bus behind the IOSB is one of windows and gaps
  that each span a `cen`, so the pointer protocol holds there.
-/
theorem protocol_of_held
    (b : Bridge)
    (q : Request)
    (is : List BusIn)
    (hHeld : Clocked.Along Bridge.watched HeldOk
      (b.start q) is) :
    Clocked.Along Bridge.watched
      (fun x i =>
        Protocol (x.1.scc, x.2.log) (chipIn x.1.port i))
      (b.start q) is :=
  Clocked.along_of_invariant bridgeInv_step
    (fun x i hInv hOk =>
      protocol_of_inv (x.1.scc, x.2.log) (chipIn x.1.port i)
        hInv.pointers (busOk_of_windows hInv.windows hOk))
    hHeld (bridgeInv_start b q)

/- Between requests the pointers are at rest. -/
theorem idle_of_bridgeInv
    {x : Bridge × Watch}
    (hInv : BridgeInv x)
    (hIdle : x.1.port.astate = .idle) :
    x.1.scc.csAccessDone = false ∧
      ∀ y, (x.1.scc.ch y).toPointer =
        rest (x.1.scc.ch y).rindex := by
  rcases hInv.windows.idle hIdle with ⟨hNone, hSeen⟩
  rcases hInv.pointers.gap hNone with ⟨hGap, hDone⟩
  have hNot : x.1.scc.csAccessDone = false := by
    rw [hDone, hSeen]
    rfl
  refine ⟨hNot, fun y => ?_⟩
  have hRest := hGap.untaken hNot y
  rw [hRest]
  rfl

end Scc
