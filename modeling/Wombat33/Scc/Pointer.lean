import Wombat33.Clocked.Run
import Wombat33.Scc.Chip

/-
  The register pointer protocol of the serial controller.

  A chip-select window is one access.  Beside the chip runs a
  log of the windows on its bus: the accesses of the windows
  closed, the window that is open, and how many accesses the
  chip took in it.  The pointers are a function of the
  accesses alone.

  Key definitions include:
    * `Access`, `pointers`
    * `Log`, `note`, `BusOk`
    * `Protocol`

  Key theorems include:
    * `inv_step`
    * `register_pointer_protocol`
-/

------------------------------------------------------------
-- What the Accesses Select
------------------------------------------------------------

namespace Scc

structure Access where
  we : Bool
  rsData : Bool
  rsA : Bool
  wdata : Byte
  deriving DecidableEq

def In.access (i : In) : Access :=
  ⟨i.we, i.rsData, i.rsA, i.wdata⟩

def Access.side (a : Access) : Side :=
  if a.rsA then .a else .b

/- A control-port access of this channel. -/
def Access.controls (a : Access) (x : Side) : Bool :=
  !a.rsData && a.side == x

/- A hardware reset by WR9, which clears both pointers. -/
def Access.hwResets (p : Side → BitVec 4) (a : Access) : Bool :=
  a.we && !a.rsData && p a.side == 9#4 &&
    resetCmd a.wdata == 0b11#2

/-
  The pointers after an access, from those before it: WR0
  sets its channel's, any other control access uses it up.
-/
def pointersAfter (p : Side → BitVec 4) (a : Access) :
    Side → BitVec 4 :=
  fun x =>
    if a.hwResets p then 0#4
    else if a.controls x then
      if a.we && p x == 0#4 then pointerBits a.wdata else 0#4
    else p x

def pointers (h : List Access) : Side → BitVec 4 :=
  h.foldl pointersAfter (fun _ => 0#4)

theorem pointers_append
    (h : List Access) (a : Access) :
    pointers (h ++ [a]) = pointersAfter (pointers h) a := by
  simp [pointers]

end Scc

------------------------------------------------------------
-- The Windows on the Bus
------------------------------------------------------------

namespace Scc

/-
  The accesses of the windows closed, the window in progress,
  whether a `cen` has been in the window or in the gap since
  the last, and the accesses the chip took in the window.
-/
structure Log where
  finished : List Access
  current : Option Access
  cenSeen : Bool
  counted : Nat
  deriving DecidableEq

/- The chip takes an access on this clock. -/
def counts (s : Chip) (i : In) : Bool :=
  i.cs && !s.csAccessDone && (i.cen || reset s i)

def note (g : Log) (s : Chip) (i : In) : Log :=
  if i.resetHw then ⟨[], none, true, 0⟩
  else
    match g.current with
    | none =>
        if i.cs then
          { g with
            current := some i.access
            cenSeen := i.cen
            counted := (counts s i).toNat }
        else { g with cenSeen := g.cenSeen || i.cen }
    | some a =>
        if i.cs then
          { g with
            cenSeen := g.cenSeen || i.cen
            counted := g.counted + (counts s i).toNat }
        else ⟨g.finished ++ [a], none, i.cen, 0⟩

/-
  The bus holds an access for its whole window, which spans a
  `cen`, as does the gap before the next.
-/
def BusOk (g : Log) (i : In) : Prop :=
  i.resetHw = false →
    match g.current with
    | none => i.cs = true → g.cenSeen = true
    | some a =>
        if i.cs then i.access = a else g.cenSeen = true

instance (g : Log) (i : In) : Decidable (BusOk g i) := by
  unfold BusOk
  cases g.current <;> infer_instance

/- A chip just reset, and an empty log. -/
def start (s : Chip) : Chip × Log :=
  (step s { resetHw := true }, ⟨[], none, true, 0⟩)

/- The windows closed, and the one in progress. -/
def Log.accesses (g : Log) : List Access :=
  g.finished ++ g.current.toList

/- A write register that holds what was written. -/
def Chip.reg (s : Chip) (x : Side) (n : BitVec 4) : Byte :=
  match n with
  | 1#4 => (s.ch x).wr1
  | 2#4 => s.wr2
  | 3#4 => (s.ch x).wr3
  | 4#4 => (s.ch x).wr4
  | 5#4 => (s.ch x).wr5
  | 9#4 => s.wr9.setWidth 8
  | 10#4 => (s.ch x).wr10
  | 11#4 => (s.ch x).wr11
  | 12#4 => (s.ch x).wr12
  | 13#4 => (s.ch x).wr13
  | 14#4 => (s.ch x).wr14
  | 15#4 => (s.ch x).wr15
  | _ => 0x00#8

/- What register `n` keeps of a byte: WR9 its low six bits. -/
def stored (n : BitVec 4) (w : Byte) : Byte :=
  if n = 0#4 ∨ n = 6#4 ∨ n = 7#4 ∨ n = 8#4 then 0x00#8
  else if n = 9#4 then w &&& 0x3F#8
  else w

/- WR2 and WR9 are one register for both channels. -/
def shared (n : BitVec 4) : Bool := n == 2#4 || n == 9#4

/-
  The protocol, on one clock: the register an access selects,
  where its write lands, what a read shows, and where the
  pointers stand.
-/
structure Protocol (x : Chip × Log) (i : In) : Prop where
  chosen : i.resetHw = false → i.cs → i.rsData = false →
    (i.we → x.1.csAccessDone = false) →
    rindexLatch x.1 i = pointers x.2.finished i.side
  shown : i.resetHw = false → i.cs → i.rsData = false →
    i.we = false →
    rdata x.1 i =
      readReg x.1 i.side (pointers x.2.finished i.side)
  lands : ∀ y n, resetCh x.1 i y = false →
    (step x.1 i).reg y n =
      if i.cen ∧ i.cs ∧ i.we ∧ i.rsData = false ∧
          x.1.csAccessDone = false ∧
          (i.side = y ∨ shared n) ∧
          pointers x.2.finished i.side = n then
        stored n i.wdata
      else x.1.reg y n
  once : i.resetHw = false → ∀ a, x.2.current = some a →
    i.cs = false → x.2.counted = 1
  released : x.2.current = none → x.2.cenSeen → ∀ y,
    (x.1.ch y).rindex = pointers x.2.finished y
  usedUp : x.2.current = none → x.2.cenSeen → ∀ h a,
    x.2.finished = h ++ [a] → a.rsData = false →
    pointers h a.side ≠ 0#4 → (x.1.ch a.side).rindex = 0#4
  apart : ∀ a, x.2.current = some a → ∀ y,
    a.controls y = false →
    a.hwResets (pointers x.2.finished) = false →
    (x.1.ch y).rindex = pointers x.2.finished y

end Scc

------------------------------------------------------------
-- One Clock of a Pointer
------------------------------------------------------------

namespace Scc

/- A pointer between accesses. -/
def rest (r : BitVec 4) : Pointer :=
  ⟨r, if r = 0#4 then .ready else .register, false⟩

/- A pointer whose pending cleanup is done. -/
def Pointer.release (p : Pointer) : Pointer :=
  if p.pendingCleanup then rest 0#4 else p

@[simp] theorem rest_rindex (r : BitVec 4) :
    (rest r).rindex = r := rfl

@[simp] theorem rest_pendingCleanup (r : BitVec 4) :
    (rest r).pendingCleanup = false := rfl

theorem rest_zero : rest 0#4 = ⟨0#4, .ready, false⟩ := rfl

@[simp] theorem release_rest (r : BitVec 4) :
    (rest r).release = rest r := rfl

/- The source's test that the new pointer is not zero. -/
theorem pointerBits_eq_zero (w : Byte) :
    (w.extractLsb' 0 3 != 0b000#3 || wr0Cmd w == 0b001#3) =
      !(pointerBits w == 0#4) := by
  have hAll : ∀ (l : BitVec 3) (h : Bool),
      (l != 0b000#3 || h) =
        !((BitVec.ofBool h ++ l : BitVec 4) == 0#4) := by
    decide
  exact hAll (w.extractLsb' 0 3) (wr0Cmd w == 0b001#3)

variable {k : Nets} {p : Pointer}

theorem Pointer.next_reset (hReset : k.reset = true) :
    p.next k = rest 0#4 := by
  simp [Pointer.next, hReset, rest_zero]

/- With chip select low, a `cen` does the pending cleanup. -/
theorem Pointer.next_gap
    (hReset : k.reset = false)
    (hCs : k.cs = false)
    (hAccess : k.access = false) :
    p.next k = if k.cen then p.release else p := by
  unfold Pointer.next Pointer.release
  cases hCen : k.cen <;> simp [hReset, hCs, hAccess, rest_zero]

/- Nothing moves in a window but by the access itself. -/
theorem Pointer.next_window
    (hReset : k.reset = false)
    (hCs : k.cs = true)
    (hAccess : (k.access && !k.rsData) = false) :
    p.next k = p := by
  unfold Pointer.next
  simp [hReset, hCs, hAccess]

/- A read, or a write of the register selected. -/
theorem Pointer.next_use
    {r : BitVec 4}
    (hReset : k.reset = false)
    (hCs : k.cs = true)
    (hAccess : k.access = true)
    (hControl : k.rsData = false)
    (hUse : (k.we && r == 0#4) = false) :
    ((rest r).next k).rindex = r ∧
      ((rest r).next k).release = rest 0#4 := by
  unfold Pointer.next Pointer.release rest
  by_cases hZero : r = 0#4
  · have hRead : k.we = false := by simpa [hZero] using hUse
    simp [hReset, hCs, hAccess, hControl, hRead, hZero]
  · simp [hReset, hCs, hAccess, hControl, hZero]

/- A write of WR0. -/
theorem Pointer.next_wr0
    (hReset : k.reset = false)
    (hCs : k.cs = true)
    (hAccess : k.access = true)
    (hControl : k.rsData = false)
    (hWrite : k.we = true) :
    ((rest 0#4).next k) = rest (pointerBits k.wdata) := by
  have hBits := pointerBits_eq_zero k.wdata
  simp only [Pointer.next, hReset, hCs, hAccess, hControl,
    hWrite, hBits]
  by_cases hZero : pointerBits k.wdata = 0#4
  · simp [rest, hZero]
  · simp [rest, hZero]

end Scc

------------------------------------------------------------
-- The Wires of a Window
------------------------------------------------------------

namespace Scc

variable {s : Chip} {i : In} {y : Side}

@[simp] theorem access_we : i.access.we = i.we := rfl

@[simp] theorem access_wdata : i.access.wdata = i.wdata := rfl

@[simp] theorem access_rsData :
    i.access.rsData = i.rsData := rfl

@[simp] theorem access_side : i.access.side = i.side := rfl

@[simp] theorem access_controls :
    i.access.controls y = (!i.rsData && i.side == y) := rfl

theorem wreg_or :
    (wreg s i .a || wreg s i .b) =
      (i.cs && i.we && !i.rsData && !s.csAccessDone) := by
  unfold wreg
  cases hSide : i.side <;> simp

theorem rindexLatch_control
    (hCs : i.cs = true) (hControl : i.rsData = false) :
    rindexLatch s i = (s.ch i.side).rindex := by
  simp [rindexLatch, hCs, hControl]

/- No strobe, and no reset, outside an access being taken. -/
theorem reset_idle
    (hHw : i.resetHw = false)
    (hIdle : (i.cs && !s.csAccessDone) = false) :
    reset s i = false := by
  have hWreg : (wreg s i .a || wreg s i .b) = false := by
    rw [wreg_or]
    revert hIdle
    cases i.cs <;> cases s.csAccessDone <;> simp
  simp [reset, wregWr9, hWreg, hHw]

/- Before its access is taken, a window's reset is WR9's. -/
theorem reset_window
    {p : Side → BitVec 4}
    (hHw : i.resetHw = false)
    (hCs : i.cs = true)
    (hDone : s.csAccessDone = false)
    (hPointers : ∀ y, (s.ch y).toPointer = rest (p y)) :
    reset s i = i.access.hwResets p := by
  have hIndex : (s.ch i.side).rindex = p i.side :=
    congrArg Pointer.rindex (hPointers i.side)
  unfold reset wregWr9 Access.hwResets
  rw [wreg_or, access_side]
  cases hData : i.rsData with
  | false =>
      rw [rindexLatch_control hCs hData, hIndex]
      simp [hHw, hCs, hDone, hData]
  | true => simp [hHw, hData]

/- What an access leaves in the pointers. -/
theorem pointer_taken
    {p : Side → BitVec 4}
    (hCen : i.cen = true)
    (hCs : i.cs = true)
    (hDone : s.csAccessDone = false)
    (hReset : reset s i = false)
    (hHw : i.access.hwResets p = false)
    (hPointer : (s.ch y).toPointer = rest (p y)) :
    ((step s i).ch y).toPointer.release =
      rest (pointersAfter p i.access y) := by
  have hNext : ((step s i).ch y).toPointer =
      (rest (p y)).next (nets s i y) := by
    rw [step_ch]
    exact congrArg (Pointer.next (nets s i y)) hPointer
  rw [hNext]
  cases hControls : (!i.rsData && i.side == y) with
  | false =>
      have hAfter : pointersAfter p i.access y = p y := by
        simp [pointersAfter, hHw, hControls]
      have hApart : ((nets s i y).access &&
          !(nets s i y).rsData) = false := by
        have hEither : (i.side == y && !i.rsData) = false := by
          rw [Bool.and_comm]
          exact hControls
        simp [nets, Bool.and_assoc, hEither]
      rw [hAfter, Pointer.next_window hReset hCs hApart,
        release_rest]
  | true =>
      rcases Bool.and_eq_true_iff.mp hControls with
        ⟨hNotData, hSide⟩
      have hControl : i.rsData = false := by
        simpa using hNotData
      have hAccess : (nets s i y).access = true := by
        simp [nets, hCen, hCs, hDone, hSide]
      cases hUse : (i.we && p y == 0#4) with
      | true =>
          rcases Bool.and_eq_true_iff.mp hUse with
            ⟨hWrite, hEq⟩
          have hZero : p y = 0#4 := eq_of_beq hEq
          have hAfter : pointersAfter p i.access y =
              pointerBits i.wdata := by
            simp [pointersAfter, hHw, hControls, hZero, hWrite]
          rw [hAfter, hZero, Pointer.next_wr0 hReset hCs hAccess
            hControl hWrite]
          rfl
      | false =>
          have hAfter : pointersAfter p i.access y = 0#4 := by
            simp only [pointersAfter, hHw, access_controls,
              hControls, access_we, hUse]
            simp
          rw [hAfter]
          exact (Pointer.next_use hReset hCs hAccess
            hControl hUse).2

end Scc

------------------------------------------------------------
-- Gaps
------------------------------------------------------------

namespace Scc

/-
  In a gap the cleanup of the last access is pending until a
  `cen`; then the pointers are the ones the accesses leave.
-/
structure InGap (h : List Access) (s : Chip) : Prop where
  untaken : s.csAccessDone = false →
    ∀ y, (s.ch y).toPointer = rest (pointers h y)
  taken : s.csAccessDone = true →
    ∀ y, (s.ch y).toPointer.release = rest (pointers h y)

variable {s : Chip} {i : In} {h : List Access}

theorem step_pointer (y : Side) :
    ((step s i).ch y).toPointer =
      (s.ch y).toPointer.next (nets s i y) := by
  rw [step_ch]
  rfl

theorem step_csAccessDone :
    (step s i).csAccessDone = csAccessDoneNext s i := rfl

/- A reset clears the pointers. -/
theorem inGap_reset (hHw : i.resetHw = true) :
    InGap [] (step s i) ∧ (step s i).csAccessDone = false := by
  have hReset : reset s i = true := by simp [reset, hHw]
  have hDone : (step s i).csAccessDone = false := by
    simp [step_csAccessDone, csAccessDoneNext, hReset, hHw]
  refine ⟨⟨?_, ?_⟩, hDone⟩
  · intro _ y
    rw [step_pointer, Pointer.next_reset hReset]
    rfl
  · intro hNow
    rw [hDone] at hNow
    cases hNow

/- With chip select low, a `cen` ends the window for good. -/
theorem gap_csAccessDone
    (hHw : i.resetHw = false)
    (hCs : i.cs = false) :
    (step s i).csAccessDone = (s.csAccessDone && !i.cen) := by
  have hReset : reset s i = false :=
    reset_idle hHw (by simp [hCs])
  rw [step_csAccessDone, csAccessDoneNext, hReset, hCs]
  cases i.cen <;> simp

theorem gap_pointer
    (hHw : i.resetHw = false)
    (hCs : i.cs = false)
    (y : Side) :
    ((step s i).ch y).toPointer =
      if i.cen then (s.ch y).toPointer.release
      else (s.ch y).toPointer := by
  have hReset : reset s i = false :=
    reset_idle hHw (by simp [hCs])
  rw [step_pointer]
  exact Pointer.next_gap hReset hCs (by simp [nets, hCs])

theorem inGap_step
    (hGap : InGap h s)
    (hHw : i.resetHw = false)
    (hCs : i.cs = false) :
    InGap h (step s i) := by
  constructor
  · intro hNow y
    rw [gap_csAccessDone hHw hCs] at hNow
    rw [gap_pointer hHw hCs]
    cases hWas : s.csAccessDone with
    | false =>
        rw [hGap.untaken hWas y]
        simp
    | true =>
        have hCen : i.cen = true := by
          simpa [hWas] using hNow
        rw [hCen, if_pos rfl]
        exact hGap.taken hWas y
  · intro hNow y
    rw [gap_csAccessDone hHw hCs] at hNow
    rcases Bool.and_eq_true_iff.mp hNow with ⟨hWas, hCen⟩
    have hCen : i.cen = false := by simpa using hCen
    rw [gap_pointer hHw hCs, hCen]
    exact hGap.taken hWas y

end Scc

------------------------------------------------------------
-- Windows
------------------------------------------------------------

namespace Scc

/-
  In a window the pointers stand until its access is taken.
  Afterwards a read's is still the one it was selected by,
  and the pointers it does not address have not moved.
-/
structure InWindow (h : List Access) (a : Access) (s : Chip) :
    Prop where
  untaken : s.csAccessDone = false →
    ∀ y, (s.ch y).toPointer = rest (pointers h y)
  taken : s.csAccessDone = true →
    ∀ y, (s.ch y).toPointer.release =
      rest (pointers (h ++ [a]) y)
  read : a.rsData = false → a.we = false →
    (s.ch a.side).rindex = pointers h a.side
  apart : a.hwResets (pointers h) = false →
    ∀ y, a.controls y = false →
      (s.ch y).toPointer = rest (pointers h y)

variable {s : Chip} {i : In} {h : List Access} {a : Access}

/- A window opens on pointers at rest. -/
theorem inWindow_of_inGap
    (hGap : InGap h s)
    (hDone : s.csAccessDone = false) :
    InWindow h a s where
  untaken := hGap.untaken
  taken := by
    intro hNow
    rw [hDone] at hNow
    cases hNow
  read _ _ :=
    congrArg Pointer.rindex (hGap.untaken hDone a.side)
  apart _ y _ := hGap.untaken hDone y

/- A window closes with its access among those finished. -/
theorem inGap_of_inWindow
    (hWindow : InWindow h a s)
    (hDone : s.csAccessDone = true) :
    InGap (h ++ [a]) s where
  untaken := by
    intro hNow
    rw [hDone] at hNow
    cases hNow
  taken := hWindow.taken

/- While no access is taken, nothing moves. -/
theorem inWindow_still
    (hWindow : InWindow h a s)
    (hPointer : ∀ y,
      ((step s i).ch y).toPointer = (s.ch y).toPointer)
    (hDone : (step s i).csAccessDone = s.csAccessDone) :
    InWindow h a (step s i) where
  untaken := by
    intro hNow y
    rw [hPointer]
    exact hWindow.untaken (hDone ▸ hNow) y
  taken := by
    intro hNow y
    rw [hPointer]
    exact hWindow.taken (hDone ▸ hNow) y
  read hData hRead := by
    have hIndex :=
      congrArg Pointer.rindex (hPointer a.side)
    exact hIndex.trans (hWindow.read hData hRead)
  apart hHw y hApart :=
    (hPointer y).trans (hWindow.apart hHw y hApart)

/- The clock that takes the access, WR9's reset included. -/
theorem inWindow_take
    (hWindow : InWindow h a s)
    (hAccess : i.access = a)
    (hHw : i.resetHw = false)
    (hCs : i.cs = true)
    (hDone : s.csAccessDone = false)
    (hTake : (i.cen || reset s i) = true)
    (hNow : (step s i).csAccessDone = true) :
    InWindow h a (step s i) := by
  subst hAccess
  have hRest := hWindow.untaken hDone
  have hIsReset : reset s i = i.access.hwResets (pointers h) :=
    reset_window hHw hCs hDone hRest
  cases hReset : reset s i with
  | true =>
      have hResets : i.access.hwResets (pointers h) = true :=
        hIsReset.symm.trans hReset
      have hZero : ∀ y,
          ((step s i).ch y).toPointer = rest 0#4 := by
        intro y
        rw [step_pointer]
        exact Pointer.next_reset hReset
      refine ⟨?_, ?_, ?_, ?_⟩
      · intro hNot
        rw [hNow] at hNot
        cases hNot
      · intro _ y
        have hAfter : pointers (h ++ [i.access]) y = 0#4 := by
          simp [pointers_append, pointersAfter, hResets]
        rw [hZero, hAfter]
        rfl
      · intro _ hRead
        have hWrite : i.access.we = true := by
          unfold Access.hwResets at hResets
          simp only [Bool.and_eq_true] at hResets
          exact hResets.1.1.1
        rw [hWrite] at hRead
        cases hRead
      · intro hNot
        rw [hResets] at hNot
        cases hNot
  | false =>
      have hResets : i.access.hwResets (pointers h) = false :=
        hIsReset.symm.trans hReset
      have hCen : i.cen = true := by
        simpa [hReset] using hTake
      refine ⟨?_, ?_, ?_, ?_⟩
      · intro hNot
        rw [hNow] at hNot
        cases hNot
      · intro _ y
        rw [pointers_append]
        exact pointer_taken hCen hCs hDone hReset hResets
          (hRest y)
      · intro hControl hRead
        have hUse : (i.we &&
            pointers h i.side == 0#4) = false := by
          rw [show i.we = false from hRead]
          rfl
        have hTaken : (nets s i i.side).access = true := by
          simp [nets, hCen, hCs, hDone]
        have hKept := (Pointer.next_use
          (r := pointers h i.side) hReset hCs hTaken
          hControl hUse).1
        have hNext := @step_pointer s i i.side
        rw [hRest i.side] at hNext
        exact (congrArg Pointer.rindex hNext).trans hKept
      · intro _ y hApart
        have hEither : ((nets s i y).access &&
            !(nets s i y).rsData) = false := by
          have hSwap : (i.side == y && !i.rsData) = false := by
            rw [Bool.and_comm]
            exact hApart
          simp [nets, Bool.and_assoc, hSwap]
        rw [step_pointer, hRest y]
        exact Pointer.next_window hReset hCs hEither

/-
  One clock of a window.  Its access is taken on the first
  `cen`, if not before by a reset, and never again.
-/
theorem inWindow_step
    (hWindow : InWindow h a s)
    (hAccess : i.access = a)
    (hHw : i.resetHw = false)
    (hCs : i.cs = true) :
    InWindow h a (step s i) ∧
      (step s i).csAccessDone =
        (s.csAccessDone || counts s i) := by
  cases hDone : s.csAccessDone with
  | true =>
      have hReset : reset s i = false :=
        reset_idle hHw (by simp [hDone])
      have hStays : (step s i).csAccessDone = true := by
        simp [step_csAccessDone, csAccessDoneNext, hReset, hCs,
          hDone]
      refine ⟨inWindow_still hWindow ?_ ?_, ?_⟩
      · intro y
        rw [step_pointer]
        exact Pointer.next_window hReset hCs
          (by simp [nets, hDone])
      · rw [hStays, hDone]
      · rw [hStays]
        rfl
  | false =>
      cases hTake : (i.cen || reset s i) with
      | true =>
          have hNow : (step s i).csAccessDone = true := by
            simp only [step_csAccessDone, csAccessDoneNext]
            cases hReset : reset s i with
            | true => simp [hHw]
            | false =>
                have hCen : i.cen = true := by
                  simpa [hReset] using hTake
                simp [hCen, hCs]
          refine ⟨inWindow_take hWindow hAccess hHw hCs hDone
            hTake hNow, ?_⟩
          rw [hNow]
          simp [counts, hCs, hDone, hTake]
      | false =>
          rcases Bool.or_eq_false_iff.mp hTake with
            ⟨hCen, hReset⟩
          have hStays : (step s i).csAccessDone = false := by
            simp [step_csAccessDone, csAccessDoneNext, hReset,
              hCen, hDone]
          refine ⟨inWindow_still hWindow ?_ ?_, ?_⟩
          · intro y
            rw [step_pointer]
            exact Pointer.next_window hReset hCs
              (by simp [nets, hCen])
          · rw [hStays, hDone]
          · rw [hStays]
            simp [counts, hTake]

end Scc

------------------------------------------------------------
-- Runs
------------------------------------------------------------

namespace Scc

structure Inv (x : Chip × Log) : Prop where
  gap : x.2.current = none →
    InGap x.2.finished x.1 ∧
      x.1.csAccessDone = !x.2.cenSeen
  window : ∀ a, x.2.current = some a →
    InWindow x.2.finished a x.1 ∧
      (x.2.cenSeen = true → x.1.csAccessDone = true) ∧
      x.2.counted = x.1.csAccessDone.toNat

variable {s : Chip} {g : Log} {i : In}

theorem inv_start (s : Chip) : Inv (start s) where
  gap _ := inGap_reset rfl
  window := by
    intro a hNone
    cases hNone

theorem inv_reset (hHw : i.resetHw = true) :
    Inv (step s i, note g s i) := by
  have hNote : note g s i = ⟨[], none, true, 0⟩ := by
    simp [note, hHw]
  rw [hNote]
  refine ⟨fun _ => inGap_reset hHw, ?_⟩
  intro a hNone
  cases hNone

/- A clock in a gap, the first of it included. -/
theorem inv_gap
    (hInv : Inv (s, g))
    (hHw : i.resetHw = false)
    (hCs : i.cs = false)
    (hBus : BusOk g i) :
    Inv (step s i, note g s i) := by
  have hDone := gap_csAccessDone (s := s) hHw hCs
  cases hCurrent : g.current with
  | none =>
      have hNote : note g s i =
          { g with cenSeen := g.cenSeen || i.cen } := by
        simp [note, hHw, hCurrent, hCs]
      rcases hInv.gap hCurrent with ⟨hGap, hSeen⟩
      rw [hNote]
      refine ⟨fun _ => ⟨inGap_step hGap hHw hCs, ?_⟩, ?_⟩
      · change s.csAccessDone = !g.cenSeen at hSeen
        change (step s i).csAccessDone = !(g.cenSeen || i.cen)
        rw [hDone, hSeen, Bool.not_or]
      · intro a hSome
        simp [hCurrent] at hSome
  | some a =>
      rcases hInv.window a hCurrent with ⟨hWindow, hTaken, -⟩
      have hSeen : g.cenSeen = true := by
        have hContract := hBus hHw
        simpa [hCurrent, hCs] using hContract
      have hWas : s.csAccessDone = true := hTaken hSeen
      have hNote : note g s i =
          ⟨g.finished ++ [a], none, i.cen, 0⟩ := by
        simp [note, hHw, hCurrent, hCs]
      have hGap := inGap_of_inWindow hWindow hWas
      rw [hNote]
      refine ⟨fun _ => ⟨inGap_step hGap hHw hCs, ?_⟩, ?_⟩
      · change (step s i).csAccessDone = !i.cen
        rw [hDone, hWas]
        rfl
      · intro b hSome
        cases hSome

/- What the bus may do while chip select is high. -/
theorem window_open
    (hInv : Inv (s, g))
    (hHw : i.resetHw = false)
    (hCs : i.cs = true)
    (hBus : BusOk g i) :
    InWindow g.finished i.access s ∧
      ∃ seen, (seen = true → s.csAccessDone = true) ∧
        note g s i =
          ⟨g.finished, some i.access, seen || i.cen,
            s.csAccessDone.toNat + (counts s i).toNat⟩ := by
  have hContract := hBus hHw
  cases hCurrent : g.current with
  | none =>
      rcases hInv.gap hCurrent with ⟨hGap, hSeen⟩
      have hOpen : g.cenSeen = true := by
        simpa [hCurrent, hCs] using hContract
      have hDone : s.csAccessDone = false := by
        simpa [hOpen] using hSeen
      refine ⟨inWindow_of_inGap hGap hDone, false, ?_, ?_⟩
      · intro hNot
        cases hNot
      · simp [note, hHw, hCurrent, hCs, hDone]
  | some a =>
      rcases hInv.window a hCurrent with
        ⟨hWindow, hTaken, hCounted⟩
      have hSame : i.access = a := by
        simpa [hCurrent, hCs] using hContract
      rw [hSame]
      refine ⟨hWindow, g.cenSeen, hTaken, ?_⟩
      change g.counted = _ at hCounted
      simp [note, hHw, hCurrent, hCs, hCounted]

theorem inv_window
    (hInv : Inv (s, g))
    (hHw : i.resetHw = false)
    (hCs : i.cs = true)
    (hBus : BusOk g i) :
    Inv (step s i, note g s i) := by
  rcases window_open hInv hHw hCs hBus with
    ⟨hWindow, seen, hSeen, hNote⟩
  rcases inWindow_step hWindow rfl hHw hCs with
    ⟨hNext, hDone⟩
  rw [hNote]
  refine ⟨?_, ?_⟩
  · intro hNone
    cases hNone
  · intro a hSome
    cases hSome
    refine ⟨hNext, ?_, ?_⟩
    · intro hEither
      change (step s i).csAccessDone = true
      rw [hDone]
      cases hWas : s.csAccessDone with
      | true => rfl
      | false =>
          have hCen : i.cen = true := by
            cases seen with
            | true => simp [hSeen rfl] at hWas
            | false => exact hEither
          simp [counts, hCs, hWas, hCen]
    · change _ = (step s i).csAccessDone.toNat
      rw [hDone]
      cases hWas : s.csAccessDone with
      | true => simp [counts, hWas]
      | false => simp

theorem inv_step
    (x : Chip × Log)
    (i : In)
    (hInv : Inv x)
    (hBus : BusOk x.2 i) :
    Inv (Clocked.watch step note x i) := by
  cases hHw : i.resetHw with
  | true => exact inv_reset hHw
  | false =>
      cases hCs : i.cs with
      | false => exact inv_gap hInv hHw hCs hBus
      | true => exact inv_window hInv hHw hCs hBus

end Scc

------------------------------------------------------------
-- Where a Write Lands
------------------------------------------------------------

namespace Scc

variable {s : Chip} {i : In} {y : Side}

/- A register, after a clock without a reset of its channel. -/
theorem kept_or_written
    {k : Nets} {n : BitVec 4} {r : Byte → Byte} {w : Byte}
    (hHw : k.resetHw = false)
    (hCh : k.resetCh = false) :
    k.kept n r w =
      if k.cen && k.writes n then k.wdata else w := by
  unfold Nets.kept
  cases k.cen <;> simp [hHw, hCh]

theorem plain_or_written
    {k : Nets} {n : BitVec 4} {w : Byte}
    (hHw : k.resetHw = false) :
    k.plain n w =
      if k.cen && k.writes n then k.wdata else w := by
  simp [Nets.plain, hHw]

/- WR9 keeps the low six bits. -/
theorem low_six (w : Byte) :
    (w.extractLsb' 0 6).setWidth 8 = w &&& 0x3F#8 := by
  apply BitVec.eq_of_getLsbD_eq
  intro j hj
  have hMask : ∀ j : Fin 8,
      (0x3F#8).getLsbD j = decide (j.val < 6) := by
    decide
  have hBit : (0x3F#8).getLsbD j = decide (j < 6) :=
    hMask ⟨j, hj⟩
  rw [BitVec.getLsbD_and, hBit, Bool.and_comm]
  simp [hj]

/- A register held behind its own enables. -/
theorem gated_or_written
    {c e : Bool} {v w : Byte} :
    (if c then if e then v else w else w) =
      if c && e then v else w := by
  cases c <;> simp

theorem resets_of_resetCh
    (hCh : resetCh s i y = false) :
    reset s i = false ∧ i.resetHw = false := by
  have hReset : reset s i = false :=
    (Bool.or_eq_false_iff.mp hCh).2
  exact ⟨hReset, (Bool.or_eq_false_iff.mp hReset).2⟩

/- The strobe that register `n` of a channel answers to. -/
def strobe (s : Chip) (i : In) (y : Side) (n : BitVec 4) :
    Bool :=
  (if shared n then wreg s i .a || wreg s i .b
    else wreg s i y) &&
    rindexLatch s i == n

/- Every register that holds its byte is written this way. -/
theorem reg_step
    (hCh : resetCh s i y = false)
    (n : BitVec 4) :
    (step s i).reg y n =
      if i.cen && strobe s i y n then stored n i.wdata
      else s.reg y n := by
  rcases resets_of_resetCh hCh with ⟨hReset, hHw⟩
  have hNetHw : (nets s i y).resetHw = false := hHw
  have hNetCh : (nets s i y).resetCh = false := hCh
  have hNetReset : (nets s i y).reset = false := hReset
  unfold Chip.reg
  split
  case h_1 | h_5 =>
    simp only [step_ch, Channel.next, Regs.next,
      kept_or_written hNetHw hNetCh]
    simp [strobe, shared, stored, Nets.writes, nets]
  case h_2 =>
    simp [step, hHw, strobe, shared, stored, and_assoc]
  case h_3 | h_4 | h_9 | h_10 =>
    simp only [step_ch, Channel.next, Regs.next,
      plain_or_written hNetHw]
    simp [strobe, shared, stored, Nets.writes, nets]
  case h_6 =>
    have hWr9 : (step s i).wr9 =
        if i.cen && wregWr9 s i then i.wdata.extractLsb' 0 6
        else s.wr9 := by
      simp [step, hHw]
    rw [hWr9, apply_ite (BitVec.setWidth 8), low_six]
    simp [strobe, shared, stored, wregWr9]
  case h_7 =>
    simp only [step_ch, Channel.next, Regs.next, hNetReset,
      kept_or_written hNetHw hNetCh]
    simp [strobe, shared, stored, Nets.writes, nets]
  case h_8 | h_11 | h_12 =>
    simp only [step_ch, Channel.next, Regs.next, hNetReset,
      hNetHw, hNetCh, Bool.false_eq_true, if_false,
      gated_or_written]
    simp [strobe, shared, stored, Nets.writes, nets]
  case h_13 =>
    have hUnused :
        n = 0#4 ∨ n = 6#4 ∨ n = 7#4 ∨ n = 8#4 := by
      revert n
      decide
    simp [stored, hUnused]

end Scc

------------------------------------------------------------
-- The Protocol
------------------------------------------------------------

namespace Scc

variable {s : Chip} {g : Log} {i : In}

/- A pointer that was used is used up. -/
theorem pointers_usedUp
    {h : List Access} {a : Access}
    (hControl : a.rsData = false)
    (hUsed : pointers h a.side ≠ 0#4) :
    pointers (h ++ [a]) a.side = 0#4 := by
  have hControls : a.controls a.side = true := by
    simp [Access.controls, hControl]
  rw [pointers_append]
  cases hResets : a.hwResets (pointers h) <;>
    simp [pointersAfter, hResets, hControls, hUsed]

theorem chosen_of_inv
    (hInv : Inv (s, g))
    (hBus : BusOk g i)
    (hHw : i.resetHw = false)
    (hCs : i.cs = true)
    (hControl : i.rsData = false)
    (hWrite : i.we = true → s.csAccessDone = false) :
    rindexLatch s i = pointers g.finished i.side := by
  have hWindow := (window_open hInv hHw hCs hBus).1
  rw [rindexLatch_control hCs hControl]
  cases hWe : i.we with
  | true =>
      exact congrArg Pointer.rindex
        (hWindow.untaken (hWrite hWe) i.side)
  | false => exact hWindow.read hControl hWe

/- The strobe of a register is its channel's access to it. -/
theorem strobe_of_inv
    (hInv : Inv (s, g))
    (hBus : BusOk g i)
    (hHw : i.resetHw = false)
    (y : Side)
    (n : BitVec 4) :
    strobe s i y n = true ↔
      i.cs ∧ i.we ∧ i.rsData = false ∧
        s.csAccessDone = false ∧ (i.side = y ∨ shared n) ∧
        pointers g.finished i.side = n := by
  by_cases hAccess : i.cs = true ∧ i.we = true ∧
      i.rsData = false ∧ s.csAccessDone = false
  · rcases hAccess with ⟨hCs, hWe, hControl, hDone⟩
    have hIndex := chosen_of_inv hInv hBus hHw hCs hControl
      (fun _ => hDone)
    unfold strobe
    rw [wreg_or, hIndex]
    cases hShared : shared n <;>
      simp [wreg, hCs, hWe, hControl, hDone]
  · have hNone : (i.cs && i.we && !i.rsData &&
        !s.csAccessDone) = false := by
      simpa [and_assoc] using hAccess
    have hWreg : wreg s i y = false := by
      have hEither := hNone
      rw [← wreg_or] at hEither
      rcases Bool.or_eq_false_iff.mp hEither with ⟨hA, hB⟩
      cases y
      · exact hA
      · exact hB
    constructor
    · intro hStrobe
      unfold strobe at hStrobe
      rw [wreg_or, hNone, hWreg] at hStrobe
      simp at hStrobe
    · rintro ⟨hCs, hWe, hControl, hDone, -⟩
      exact absurd ⟨hCs, hWe, hControl, hDone⟩ hAccess

theorem protocol_of_inv
    (x : Chip × Log)
    (i : In)
    (hInv : Inv x)
    (hBus : BusOk x.2 i) :
    Protocol x i where
  chosen hHw hCs hControl hWrite :=
    chosen_of_inv hInv hBus hHw hCs hControl hWrite
  shown := by
    intro hHw hCs hControl hRead
    have hIndex := chosen_of_inv hInv hBus hHw hCs hControl
      (fun hWrite => by simp [hRead] at hWrite)
    rw [← hIndex]
    simp [rdata, hControl]
  lands := by
    intro y n hCh
    have hHw := (resets_of_resetCh hCh).2
    have hStrobe := strobe_of_inv hInv hBus hHw y n
    rw [reg_step hCh n]
    simp only [Bool.and_eq_true, hStrobe]
  once := by
    intro hHw a hCurrent hCs
    rcases hInv.window a hCurrent with ⟨-, hTaken, hCounted⟩
    have hSeen : x.2.cenSeen = true := by
      have hContract := hBus hHw
      simpa [hCurrent, hCs] using hContract
    rw [hCounted, hTaken hSeen]
    rfl
  released := by
    intro hCurrent hSeen y
    rcases hInv.gap hCurrent with ⟨hGap, hDone⟩
    have hNot : x.1.csAccessDone = false := by
      rw [hDone, hSeen]
      rfl
    exact congrArg Pointer.rindex (hGap.untaken hNot y)
  usedUp := by
    intro hCurrent hSeen h a hFinished hControl hUsed
    rcases hInv.gap hCurrent with ⟨hGap, hDone⟩
    have hNot : x.1.csAccessDone = false := by
      rw [hDone, hSeen]
      rfl
    have hRest :=
      congrArg Pointer.rindex (hGap.untaken hNot a.side)
    rw [hFinished, pointers_usedUp hControl hUsed] at hRest
    exact hRest
  apart := by
    intro a hCurrent y hApart hResets
    have hWindow := (hInv.window a hCurrent).1
    exact congrArg Pointer.rindex
      (hWindow.apart hResets y hApart)

/-
  On every run of windows and gaps from a reset, whatever the
  enables, the serial lines and later resets do, each control
  access reaches the register chosen by the access before it
  on its channel.
-/
theorem register_pointer_protocol
    (s : Chip)
    (is : List In)
    (hBus : Clocked.Along (Clocked.watch step note)
      (fun x i => BusOk x.2 i) (start s) is) :
    Clocked.Along (Clocked.watch step note)
      Protocol (start s) is :=
  Clocked.along_of_invariant inv_step protocol_of_inv hBus
    (inv_start s)

/- A write of WR0 pointing at WR4, then of WR4. -/
theorem register_pointer_protocol_wr4 :
    let ptr : In := { cs := true, we := true, wdata := 0x04#8 }
    let val : In := { cs := true, we := true, wdata := 0x4C#8 }
    let is := [ptr, { ptr with cen := true }, { cen := true },
      { val with cen := true }, val, { cen := true }]
    Clocked.Along (Clocked.watch step note)
        (fun x i => BusOk x.2 i) (start default) is ∧
      Clocked.Along (Clocked.watch step note)
        Protocol (start default) is :=
  ⟨by decide,
    register_pointer_protocol default _ (by decide)⟩

end Scc
