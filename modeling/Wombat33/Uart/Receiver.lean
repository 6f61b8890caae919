import Wombat33.Uart.Setup

/-
  The serial receiver `rxuart`.

  The line is seen three clocks late.  A counter of the clocks
  since the last change finds breaks, idle lines and the
  middle of a start bit; from there on a second counter finds
  the middle of every bit of the frame.

  Key definitions include:
    * `RxState`, `Receiver`, `Receiver.step`
    * `owed`, `strobed`
    * `Receives`

  Key theorems include:
    * `owed_between`
    * `receives_between`
    * `receives_sample`
-/

------------------------------------------------------------
-- The Receiver
------------------------------------------------------------

namespace Uart

inductive RxState where
  | bit (k : BitVec 3)
  | parity
  | stop
  | secondStop
  | break_
  | resetIdle
  | idle
  deriving DecidableEq, Inhabited

namespace RxState

/- The states from `RXU_RESET_IDLE` on. -/
def waits (x : RxState) : Bool :=
  x == .resetIdle || x == .idle

/- The states from `RXU_BREAK` on. -/
def quiet (x : RxState) : Bool := x == .break_ || x.waits

end RxState

structure Receiver where
  rSetup : BitVec 30
  qUart : Bool
  qqUart : Bool
  ckUart : Bool
  chgCounter : BitVec 28
  oBreak : Bool
  lineSynch : Bool
  halfBaudTime : Bool
  state : RxState
  dataReg : Byte
  calcParity : Bool
  oParityErr : Bool
  oFrameErr : Bool
  preWr : Bool
  oData : Byte
  oWr : Bool
  baudCounter : BitVec 28
  zeroBaudCounter : Bool
  deriving DecidableEq, Inhabited

structure RxIn where
  reset : Bool := false
  setup : BitVec 31
  uartRx : Bool

namespace Receiver

variable (r : Receiver) (i : RxIn)

def firstBit (bits : BitVec 2) : RxState :=
  if bits == 0b00#2 then .bit 0#3
  else if bits == 0b01#2 then .bit 1#3
  else if bits == 0b10#2 then .bit 2#3
  else .bit 3#3

def chgCounterEdge : BitVec 28 :=
  if i.reset then 0#28
  else if r.qqUart != r.ckUart then 0#28
  else if r.chgCounter < breakCondition r.rSetup then
    r.chgCounter + 1#28
  else r.chgCounter

/- The line has not changed for sixteen bits. -/
def unchanged : Bool := breakCondition r.rSetup ≤ r.chgCounter

/- In the middle of a bit of a frame. -/
def sampled : RxState :=
  match r.state with
  | .bit k =>
      if k == 7#3 then
        (if useParity r.rSetup then .parity else .stop)
      else .bit (k + 1#3)
  | .parity => .stop
  | .stop =>
      if !r.ckUart then .resetIdle
      else if dblstop r.rSetup then .secondStop
      else .idle
  | _ => if !r.ckUart then .resetIdle else .idle

def stateEdge : RxState :=
  if i.reset then .resetIdle
  else if r.state == .resetIdle then
    (if r.lineSynch then .idle else .resetIdle)
  else if r.oBreak then .break_
  else if r.state == .break_ then
    (if r.ckUart then .idle else .break_)
  else if r.state == .idle then
    (if !r.ckUart && r.halfBaudTime then
      firstBit (dataBits r.rSetup)
    else .idle)
  else if r.zeroBaudCounter then r.sampled
  else r.state

def dataRegEdge : Byte :=
  if r.zeroBaudCounter && r.state != .parity then
    BitVec.ofBool r.ckUart ++ r.dataReg.extractLsb' 1 7
  else r.dataReg

def calcParityEdge : Bool :=
  if r.state == .idle then false
  else if r.zeroBaudCounter then r.calcParity ^^ r.ckUart
  else r.calcParity

def oParityErrEdge : Bool :=
  if r.zeroBaudCounter && r.state == .parity then
    (if fixdParity r.rSetup then r.ckUart ^^ parityBit r.rSetup
    else if parityBit r.rSetup then r.calcParity != r.ckUart
    else r.calcParity == r.ckUart)
  else if r.state.quiet then false
  else r.oParityErr

def oFrameErrEdge : Bool :=
  if r.zeroBaudCounter &&
      (r.state == .stop || r.state == .secondStop) then
    r.oFrameErr || !r.ckUart
  else if r.zeroBaudCounter || r.state.quiet then false
  else r.oFrameErr

/- The data bits, moved down from the top of the register. -/
def received : Byte :=
  if dataBits r.rSetup == 0b00#2 then r.dataReg
  else if dataBits r.rSetup == 0b01#2 then r.dataReg >>> 1
  else if dataBits r.rSetup == 0b10#2 then r.dataReg >>> 2
  else r.dataReg >>> 3

def preWrEdge : Bool × Byte :=
  if i.reset then (false, 0x00#8)
  else if r.zeroBaudCounter && r.state == .stop then
    (true, r.received)
  else if r.zeroBaudCounter || r.state == .idle then
    (false, r.oData)
  else (r.preWr, r.oData)

def oWrEdge : Bool :=
  if r.zeroBaudCounter || r.state == .idle then
    r.preWr && !i.reset
  else false

def baudCounterEdge : BitVec 28 :=
  if i.reset || r.zeroBaudCounter || r.state.quiet then
    clocksPerBaud r.rSetup - 1#28
  else r.baudCounter - 1#28

def step : Receiver where
  rSetup :=
    if r.state.waits then i.setup.setWidth 30 else r.rSetup
  qUart := i.uartRx
  qqUart := r.qUart
  ckUart := r.qqUart
  chgCounter := r.chgCounterEdge i
  oBreak := r.unchanged && !r.ckUart
  lineSynch := r.unchanged && r.ckUart
  halfBaudTime := !r.ckUart && halfBaud r.rSetup ≤ r.chgCounter
  state := r.stateEdge i
  dataReg := r.dataRegEdge
  calcParity := r.calcParityEdge
  oParityErr := r.oParityErrEdge
  oFrameErr := r.oFrameErrEdge
  preWr := (r.preWrEdge i).1
  oData := (r.preWrEdge i).2
  oWr := r.oWrEdge i
  baudCounter := r.baudCounterEdge i
  zeroBaudCounter :=
    if r.state == .idle then false else r.baudCounter == 1#28

end Receiver

end Uart

------------------------------------------------------------
-- Data in the Register
------------------------------------------------------------

namespace Uart

variable {v : BitVec 30} {r : Receiver} {d : Byte} {j : Nat}

/- The first data bits, at the top of the data register. -/
def Collected (reg d : Byte) (j : Nat) : Prop :=
  ∀ k < j, reg.getLsbD (8 - j + k) = d.getLsbD k

theorem collected_zero (reg d : Byte) : Collected reg d 0 := by
  intro k hk
  omega

theorem collected_succ
    {reg : Byte}
    (hCollected : Collected reg d j)
    (hj : j < 8) :
    Collected
      (BitVec.ofBool (d.getLsbD j) ++ reg.extractLsb' 1 7)
      d (j + 1) := by
  intro k hk
  rw [BitVec.getLsbD_append]
  by_cases hLast : k = j
  · subst hLast
    have hTop : ¬ 8 - (k + 1) + k < 7 := by omega
    have hBit : 8 - (k + 1) + k - 7 = 0 := by omega
    rw [if_neg hTop, hBit]
    simp
  · have hLow : 8 - (j + 1) + k < 7 := by omega
    have hPlace : 1 + (8 - (j + 1) + k) = 8 - j + k := by omega
    rw [if_pos hLow, BitVec.getLsbD_extractLsb', hPlace,
      decide_eq_true hLow, Bool.true_and]
    exact hCollected k (by omega)

/- All of them, moved down, are the byte that is shown. -/
theorem received_shown
    (hSetup : r.rSetup = v)
    (hCollected : Collected r.dataReg d (dataCount v)) :
    r.received = shown v d := by
  have hBits := dataCount_bounds (u := v)
  have hShift : r.received =
      r.dataReg >>> (8 - dataCount v) := by
    have hAll : ∀ (bits : BitVec 2) (reg : Byte),
        (if bits == 0b00#2 then reg
          else if bits == 0b01#2 then reg >>> 1
          else if bits == 0b10#2 then reg >>> 2
          else reg >>> 3) = reg >>> (8 - (8 - bits.toNat)) := by
      intro bits reg
      have hCases : ∀ bits : BitVec 2, bits = 0b00#2 ∨
          bits = 0b01#2 ∨ bits = 0b10#2 ∨ bits = 0b11#2 := by
        decide
      rcases hCases bits with rfl | rfl | rfl | rfl
      · exact (BitVec.ushiftRight_zero reg).symm
      all_goals rfl
    rw [Receiver.received, hSetup]
    exact hAll (dataBits v) r.dataReg
  rw [hShift]
  apply BitVec.eq_of_getLsbD_eq
  intro k hk
  have hMask : (0xFF#8 >>> (8 - dataCount v)).getLsbD k =
      decide (k < dataCount v) := by
    have hOnes (n : Nat) :
        (0xFF#8).getLsbD n = decide (n < 8) := by
      have hAll : (0xFF#8) = BitVec.allOnes 8 := rfl
      rw [hAll, BitVec.getLsbD_allOnes]
    rw [BitVec.getLsbD_ushiftRight, hOnes]
    simp only [decide_eq_decide]
    omega
  rw [shown, BitVec.getLsbD_and, hMask, BitVec.getLsbD_ushiftRight]
  by_cases hIn : k < dataCount v
  · simpa [hIn] using hCollected k hIn
  · simp only [hIn, decide_false, Bool.and_false]
    exact BitVec.getLsbD_of_ge _ _ (by omega)

theorem parityOf_succ :
    parityOf (dataLevels d (j + 1)) =
      (parityOf (dataLevels d j) ^^ d.getLsbD j) := by
  have hAppend (xs : List Bool) (b : Bool) :
      parityOf (xs ++ [b]) = (parityOf xs ^^ b) := by
    induction xs with
    | nil => simp [parityOf]
    | cons x xs ih =>
        rw [List.cons_append, parityOf_cons, ih, parityOf_cons,
          Bool.xor_assoc]
  rw [dataLevels, List.range_succ, List.map_append]
  exact hAppend _ _

end Uart

------------------------------------------------------------
-- A Frame Taken In
------------------------------------------------------------

namespace Uart

/- The byte strobed at this edge. -/
def strobed (r : Receiver) : List Byte :=
  if r.oWr then [r.oData] else []

/- The bytes of complete frames that are not yet strobed. -/
def owed (r : Receiver) : List Byte :=
  strobed r ++
    if r.preWr && r.state == .idle then [r.oData] else []

/- The parity is computed, not fixed. -/
def computedParity (v : BitVec 30) : Bool :=
  useParity v && !fixdParity v

/- The receiver within the frame of a byte, and what follows. -/
inductive Receives
    (v : BitVec 30)
    (d : Byte)
    (r : Receiver) :
    List Bool → Prop where
  | bit
      (j : Nat)
      (k : BitVec 3)
      (hState : r.state = .bit k)
      (hPlace : k.toNat = 8 - dataCount v + j)
      (hMore : j < dataCount v)
      (hData : Collected r.dataReg d j)
      (hParity : r.calcParity = parityOf (dataLevels d j))
      (hClear : r.oParityErr = false)
      (hOpen : r.preWr = false) :
      Receives v d r
        (dataLevels (d >>> j) (dataCount v - j) ++
          parityLevels v (parityOf (dataLevels d (dataCount v))) ++
          stopLevels v)
  | parity
      (hState : r.state = .parity)
      (hUse : useParity v = true)
      (hData : Collected r.dataReg d (dataCount v))
      (hParity : r.calcParity =
        parityOf (dataLevels d (dataCount v)))
      (hOpen : r.preWr = false) :
      Receives v d r
        (parityLevels v (parityOf (dataLevels d (dataCount v))) ++
          stopLevels v)
  | stop
      (hState : r.state = .stop)
      (hData : Collected r.dataReg d (dataCount v))
      (hJudged : r.oParityErr = computedParity v)
      (hOpen : r.preWr = false) :
      Receives v d r (stopLevels v)
  | secondStop
      (hState : r.state = .secondStop)
      (hDouble : dblstop v = true)
      (hJudged : r.oParityErr = computedParity v)
      (hClosed : r.preWr = true)
      (hData : r.oData = shown v d) :
      Receives v d r [true]

end Uart

------------------------------------------------------------
-- Between Samples
------------------------------------------------------------

namespace Uart

open Receiver

variable {v : BitVec 30} {r : Receiver} {i : RxIn} {d : Byte}
variable {levels : List Bool} {b : Bool}

/- Within a frame the receiver does not wait. -/
theorem receives_busy (hReceives : Receives v d r levels) :
    r.state.quiet = false ∧ r.state.waits = false ∧
      r.state ≠ .resetIdle ∧ r.state ≠ .break_ ∧
      r.state ≠ .idle := by
  cases hReceives with
  | bit j k hState => simp [hState, RxState.quiet, RxState.waits]
  | parity hState => simp [hState, RxState.quiet, RxState.waits]
  | stop hState => simp [hState, RxState.quiet, RxState.waits]
  | secondStop hState =>
      simp [hState, RxState.quiet, RxState.waits]

/- What a receiver in a frame keeps between two samples. -/
theorem step_between
    (hReset : i.reset = false)
    (hBreak : r.oBreak = false)
    (hZero : r.zeroBaudCounter = false)
    (hReceives : Receives v d r levels) :
    (r.step i).state = r.state ∧
      (r.step i).dataReg = r.dataReg ∧
      (r.step i).calcParity = r.calcParity ∧
      (r.step i).oParityErr = r.oParityErr ∧
      (r.step i).preWr = r.preWr ∧
      (r.step i).oData = r.oData ∧
      (r.step i).oWr = false := by
  rcases receives_busy hReceives with
    ⟨hQuiet, -, hWaits, hNoBreak, hIdle⟩
  simp [step, stateEdge, dataRegEdge, calcParityEdge,
    oParityErrEdge, preWrEdge, oWrEdge, hReset, hBreak, hZero,
    hQuiet, hWaits, hNoBreak, hIdle]

theorem receives_between
    (hReset : i.reset = false)
    (hBreak : r.oBreak = false)
    (hZero : r.zeroBaudCounter = false)
    (hReceives : Receives v d r levels) :
    Receives v d (r.step i) levels ∧
      strobed r ++ owed (r.step i) = owed r := by
  rcases step_between hReset hBreak hZero hReceives with
    ⟨hState, hReg, hCalc, hErr, hPre, hData, hWr⟩
  have hIdle := (receives_busy hReceives).2.2.2.2
  constructor
  · cases hReceives with
    | bit j k hBit hPlace hMore hIn hParity hClear hOpen =>
        exact .bit j k (hState.trans hBit) hPlace hMore
          (hReg ▸ hIn) (hCalc.trans hParity) (hErr.trans hClear)
          (hPre.trans hOpen)
    | parity hBit hUse hIn hParity hOpen =>
        exact .parity (hState.trans hBit) hUse (hReg ▸ hIn)
          (hCalc.trans hParity) (hPre.trans hOpen)
    | stop hBit hIn hJudged hOpen =>
        exact .stop (hState.trans hBit) (hReg ▸ hIn)
          (hErr.trans hJudged) (hPre.trans hOpen)
    | secondStop hBit hDouble hJudged hClosed hIn =>
        exact .secondStop (hState.trans hBit) hDouble
          (hErr.trans hJudged) (hPre.trans hClosed)
          (hData.trans hIn)
  · simp [owed, strobed, hState, hWr, hIdle]

end Uart

------------------------------------------------------------
-- A Sample
------------------------------------------------------------

namespace Uart

open Receiver

variable {v : BitVec 30} {r : Receiver} {i : RxIn} {d : Byte}
variable {levels : List Bool} {b : Bool}

/- The registers of a frame at a sample. -/
theorem step_sample
    (hReset : i.reset = false)
    (hBreak : r.oBreak = false)
    (hZero : r.zeroBaudCounter = true)
    (hReceives : Receives v d r levels) :
    (r.step i).state = r.sampled ∧
      (r.step i).dataReg = r.dataRegEdge ∧
      (r.step i).calcParity = (r.calcParity ^^ r.ckUart) ∧
      (r.step i).oParityErr = r.oParityErrEdge ∧
      (r.step i).preWr = (r.state == .stop) ∧
      (r.step i).oData =
        (if r.state == .stop then r.received else r.oData) ∧
      (r.step i).oWr = r.preWr := by
  rcases receives_busy hReceives with
    ⟨-, -, hWaits, hNoBreak, hIdle⟩
  simp [step, stateEdge, calcParityEdge, preWrEdge, oWrEdge,
    hReset, hBreak, hZero, hWaits, hNoBreak, hIdle]
  split_ifs <;> simp_all

/- What a sample leaves of a frame. -/
inductive Sampled
    (v : BitVec 30)
    (d : Byte)
    (r r' : Receiver) :
    List Bool → Prop where
  | going
      {levels : List Bool}
      (hReceives : Receives v d r' levels)
      (hOwed : strobed r ++ owed r' = owed r) :
      Sampled v d r r' levels
  | done
      (hState : r'.state = .idle)
      (hLast : r.ckUart = true)
      (hSingle : r'.preWr = true → dblstop v = false)
      (hOwed : strobed r ++ owed r' = owed r ++ [shown v d]) :
      Sampled v d r r' []

theorem strobed_none (hWr : r.oWr = false) :
    strobed r = [] := by
  simp [strobed, hWr]

/- Nothing is owed within a frame but what is strobed now. -/
theorem owed_busy (hIdle : r.state ≠ .idle) :
    owed r = strobed r := by
  simp [owed, hIdle]

theorem dataLevels_from
    {j count : Nat}
    (hMore : j < count) :
    dataLevels (d >>> j) (count - j) =
      d.getLsbD j ::
        dataLevels (d >>> (j + 1)) (count - (j + 1)) := by
  have hSucc : count - j = count - (j + 1) + 1 := by omega
  have hHead : (d >>> j).getLsbD 0 = d.getLsbD j := by simp
  rw [hSucc, dataLevels_succ, hHead, ← BitVec.shiftRight_add]

/- A data bit. -/
theorem sample_bit
    {j : Nat}
    {k : BitVec 3}
    (hReset : i.reset = false)
    (hBreak : r.oBreak = false)
    (hZero : r.zeroBaudCounter = true)
    (hSetup : r.rSetup = v)
    (hState : r.state = .bit k)
    (hPlace : k.toNat = 8 - dataCount v + j)
    (hMore : j < dataCount v)
    (hData : Collected r.dataReg d j)
    (hParity : r.calcParity = parityOf (dataLevels d j))
    (hClear : r.oParityErr = false)
    (hOpen : r.preWr = false)
    (hLine : r.ckUart = d.getLsbD j) :
    Sampled v d r (r.step i)
      (dataLevels (d >>> (j + 1)) (dataCount v - (j + 1)) ++
        parityLevels v (parityOf (dataLevels d (dataCount v))) ++
        stopLevels v) := by
  have hBits := dataCount_bounds (u := v)
  rcases step_sample (i := i) hReset hBreak hZero
      (.bit j k hState hPlace hMore hData hParity hClear hOpen)
    with ⟨hNext, hReg, hCalc, hErr, hPre, -, hWr⟩
  have hReg' : Collected (r.step i).dataReg d (j + 1) := by
    have hShift : r.dataRegEdge =
        BitVec.ofBool (d.getLsbD j) ++
          r.dataReg.extractLsb' 1 7 := by
      simp [dataRegEdge, hZero, hState, hLine]
    rw [hReg, hShift]
    exact collected_succ hData (by omega)
  have hCalc' : (r.step i).calcParity =
      parityOf (dataLevels d (j + 1)) := by
    rw [hCalc, hParity, hLine, parityOf_succ]
  have hErr' : (r.step i).oParityErr = false := by
    rw [hErr, oParityErrEdge, hState]
    simp [RxState.quiet, RxState.waits, hClear]
  have hPre' : (r.step i).preWr = false := by
    rw [hPre, hState]
    rfl
  have hOwed (hBusy : (r.step i).state ≠ .idle) :
      strobed r ++ owed (r.step i) = owed r := by
    have hNow : r.state ≠ .idle := by simp [hState]
    rw [owed_busy hNow, owed_busy hBusy,
      strobed_none (hWr.trans hOpen), List.append_nil]
  by_cases hLast : j + 1 = dataCount v
  · have hVal : k.toNat = 7 := by omega
    have hSeven : k = 7#3 := BitVec.eq_of_toNat_eq hVal
    have hNone : dataLevels (d >>> (j + 1))
        (dataCount v - (j + 1)) = [] := by
      rw [hLast, Nat.sub_self]
      rfl
    rw [hLast] at hReg' hCalc'
    rw [hNone, List.nil_append]
    cases hUse : useParity v with
    | true =>
        have hTo : (r.step i).state = .parity := by
          simp [hNext, sampled, hState, hSeven, hSetup, hUse]
        exact .going (.parity hTo hUse hReg' hCalc' hPre')
          (hOwed (by simp [hTo]))
    | false =>
        have hTo : (r.step i).state = .stop := by
          simp [hNext, sampled, hState, hSeven, hSetup, hUse]
        have hJudged : (r.step i).oParityErr =
            computedParity v := by
          simp [hErr', computedParity, hUse]
        have hNoParity (odd : Bool) : parityLevels v odd = [] := by
          simp [parityLevels, hUse]
        rw [hNoParity, List.nil_append]
        exact .going (.stop hTo hReg' hJudged hPre')
          (hOwed (by simp [hTo]))
  · have hLess : k.toNat < 7 := by omega
    have hNotSeven : k ≠ 7#3 :=
      fun hSeven => absurd (hSeven ▸ hLess) (by decide)
    have hVal := nextBit_toNat hLess
    have hTo : (r.step i).state = .bit (k + 1#3) := by
      simp [hNext, sampled, hState, hNotSeven]
    exact .going
      (.bit (j + 1) (k + 1#3) hTo (by omega) (by omega) hReg'
        hCalc' hErr' hPre')
      (hOwed (by simp [hTo]))

/- The parity bit: computed parity is always found wrong. -/
theorem sample_parity
    (hReset : i.reset = false)
    (hBreak : r.oBreak = false)
    (hZero : r.zeroBaudCounter = true)
    (hSetup : r.rSetup = v)
    (hState : r.state = .parity)
    (hUse : useParity v = true)
    (hData : Collected r.dataReg d (dataCount v))
    (hParity : r.calcParity =
      parityOf (dataLevels d (dataCount v)))
    (hOpen : r.preWr = false)
    (hLine : r.ckUart =
      if fixdParity v then parityBit v
      else parityBit v ^^
        parityOf (dataLevels d (dataCount v))) :
    Sampled v d r (r.step i) (stopLevels v) := by
  rcases step_sample (i := i) hReset hBreak hZero
      (.parity hState hUse hData hParity hOpen)
    with ⟨hNext, hReg, -, hErr, hPre, -, hWr⟩
  have hTo : (r.step i).state = .stop := by
    simp [hNext, sampled, hState]
  have hReg' : (r.step i).dataReg = r.dataReg := by
    simp [hReg, dataRegEdge, hState]
  have hJudged : (r.step i).oParityErr = computedParity v := by
    rw [hErr, oParityErrEdge, hState, hSetup, hLine, hParity,
      computedParity, hUse, hZero]
    cases fixdParity v <;> cases parityBit v <;> simp
  have hPre' : (r.step i).preWr = false := by
    rw [hPre, hState]
    rfl
  have hNow : r.state ≠ .idle := by simp [hState]
  have hThen : (r.step i).state ≠ .idle := by simp [hTo]
  refine .going (.stop hTo (hReg' ▸ hData) hJudged hPre') ?_
  rw [owed_busy hNow, owed_busy hThen,
    strobed_none (hWr.trans hOpen), List.append_nil]

/- The first stop bit. -/
theorem sample_stop
    (hReset : i.reset = false)
    (hBreak : r.oBreak = false)
    (hZero : r.zeroBaudCounter = true)
    (hSetup : r.rSetup = v)
    (hState : r.state = .stop)
    (hData : Collected r.dataReg d (dataCount v))
    (hJudged : r.oParityErr = computedParity v)
    (hOpen : r.preWr = false)
    (hLine : r.ckUart = true) :
    Sampled v d r (r.step i)
      (if dblstop v then [true] else []) := by
  rcases step_sample (i := i) hReset hBreak hZero
      (.stop hState hData hJudged hOpen)
    with ⟨hNext, -, -, hErr, hPre, hByte, hWr⟩
  have hShown : (r.step i).oData = shown v d := by
    rw [hByte, hState, received_shown hSetup hData]
    rfl
  have hPre' : (r.step i).preWr = true := by
    rw [hPre, hState]
    rfl
  have hErr' : (r.step i).oParityErr = computedParity v := by
    rw [hErr, oParityErrEdge, hState]
    simp [RxState.quiet, RxState.waits, hJudged]
  have hNow : r.state ≠ .idle := by simp [hState]
  cases hDouble : dblstop v with
  | true =>
      have hTo : (r.step i).state = .secondStop := by
        simp [hNext, sampled, hState, hLine, hSetup, hDouble]
      have hThen : (r.step i).state ≠ .idle := by simp [hTo]
      refine .going
        (.secondStop hTo hDouble hErr' hPre' hShown) ?_
      rw [owed_busy hNow, owed_busy hThen,
        strobed_none (hWr.trans hOpen), List.append_nil]
  | false =>
      have hTo : (r.step i).state = .idle := by
        simp [hNext, sampled, hState, hLine, hSetup, hDouble]
      refine .done hTo hLine (fun _ => hDouble) ?_
      rw [owed_busy hNow]
      simp [owed, strobed, hWr, hOpen, hPre', hTo, hShown]

/- The second stop bit. -/
theorem sample_second
    (hReset : i.reset = false)
    (hBreak : r.oBreak = false)
    (hZero : r.zeroBaudCounter = true)
    (hState : r.state = .secondStop)
    (hDouble : dblstop v = true)
    (hJudged : r.oParityErr = computedParity v)
    (hClosed : r.preWr = true)
    (hData : r.oData = shown v d)
    (hLine : r.ckUart = true) :
    Sampled v d r (r.step i) [] := by
  rcases step_sample (i := i) hReset hBreak hZero
      (.secondStop hState hDouble hJudged hClosed hData)
    with ⟨hNext, -, -, -, hPre, hByte, hWr⟩
  have hTo : (r.step i).state = .idle := by
    simp [hNext, sampled, hState, hLine]
  have hNow : r.state ≠ .idle := by simp [hState]
  have hPre' : (r.step i).preWr = false := by
    rw [hPre, hState]
    rfl
  refine .done hTo hLine (by simp [hPre']) ?_
  rw [owed_busy hNow]
  simp [owed, strobed, hWr, hClosed, hPre', hByte, hState, hData]

/- Every level of the frame is taken in as what it is. -/
theorem receives_sample
    (hReset : i.reset = false)
    (hBreak : r.oBreak = false)
    (hZero : r.zeroBaudCounter = true)
    (hSetup : r.rSetup = v)
    (hReceives : Receives v d r (r.ckUart :: levels)) :
    Sampled v d r (r.step i) levels := by
  generalize hAll : r.ckUart :: levels = all at hReceives
  cases hReceives with
  | bit j k hState hPlace hMore hData hParity hClear hOpen =>
      rw [dataLevels_from hMore, List.cons_append,
        List.cons_append, List.cons.injEq] at hAll
      rw [hAll.2]
      exact sample_bit hReset hBreak hZero hSetup hState hPlace
        hMore hData hParity hClear hOpen hAll.1
  | parity hState hUse hData hParity hOpen =>
      rw [parityLevels, if_pos hUse, List.singleton_append,
        List.cons.injEq] at hAll
      rw [hAll.2]
      exact sample_parity hReset hBreak hZero hSetup hState hUse
        hData hParity hOpen hAll.1
  | stop hState hData hJudged hOpen =>
      have hStops : stopLevels v =
          true :: (if dblstop v then [true] else []) := by
        unfold stopLevels
        split_ifs <;> rfl
      rw [hStops, List.cons.injEq] at hAll
      rw [hAll.2]
      exact sample_stop hReset hBreak hZero hSetup hState hData
        hJudged hOpen hAll.1
  | secondStop hState hDouble hJudged hClosed hData =>
      rw [List.cons.injEq] at hAll
      rw [hAll.2]
      exact sample_second hReset hBreak hZero hState hDouble
        hJudged hClosed hData hAll.1

end Uart
