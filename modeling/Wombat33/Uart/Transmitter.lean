import Wombat33.Uart.Setup

/-
  The serial transmitter `txuart`.

  A counter measures the bits; when it is done the state
  machine puts the next level on the line.  The last stop bit
  is counted a clock short, for the clock in which the
  transmitter is found not busy.  On the line this is the
  sender of the frames, whatever is written and whatever the
  flow control holds back.

  Key definitions include:
    * `Transmitter`, `Transmitter.step`
    * `remaining`, `Sends`

  Key theorems include:
    * `sends_reset`
    * `sends_step`
-/

------------------------------------------------------------
-- The Transmitter
------------------------------------------------------------

namespace Uart

/- The transmitter's states; a state names the level to come. -/
inductive TxState where
  | bit (k : BitVec 3)
  | parity
  | stop
  | secondStop
  | break_
  | idle
  deriving DecidableEq, Inhabited

structure Transmitter where
  rSetup : BitVec 31
  state : TxState
  rBusy : Bool
  lclData : Byte
  uartTx : Bool
  calcParity : Bool
  baudCounter : BitVec 28
  zeroBaudCounter : Bool
  lastState : Bool
  qCtsN : Bool
  qqCtsN : Bool
  ckCts : Bool
  deriving DecidableEq, Inhabited

structure TxIn where
  reset : Bool := false
  setup : BitVec 31
  brk : Bool := false
  wr : Bool := false
  data : Byte := 0#8
  ctsN : Bool := false

namespace Transmitter

variable (t : Transmitter) (i : TxIn)

def accepts : Bool := i.wr && !t.rBusy

/- The first data bit: fewer bits start further on. -/
def firstBit (bits : BitVec 2) : TxState :=
  if bits == 0b00#2 then .bit 0#3
  else if bits == 0b01#2 then .bit 1#3
  else if bits == 0b10#2 then .bit 2#3
  else .bit 3#3

/- At the end of a bit: after the last stop bit still busy. -/
def bitEnd : TxState :=
  match t.state with
  | .bit k =>
      if k == 7#3 then
        (if useParity t.rSetup then .parity else .stop)
      else .bit (k + 1#3)
  | .parity => .stop
  | .stop => if dblstop t.rSetup then .secondStop else .idle
  | _ => .idle

def stateEdge : TxState × Bool :=
  if i.reset then (.idle, true)
  else if i.brk then (.break_, true)
  else if !t.zeroBaudCounter then (t.state, true)
  else if t.state == .break_ then (.idle, !t.ckCts)
  else if t.state == .idle then
    (if t.accepts i then (firstBit (dataBits i.setup), true)
    else (.idle, !t.ckCts))
  else (t.bitEnd, true)

def lclDataEdge : Byte :=
  if !t.rBusy then i.data
  else if t.zeroBaudCounter then t.lclData >>> 1
  else t.lclData

def uartTxEdge : Bool :=
  if i.reset then true
  else if i.brk || t.accepts i then false
  else if t.zeroBaudCounter then
    (match t.state with
    | .bit _ => t.lclData.getLsbD 0
    | .parity => t.calcParity
    | _ => true)
  else t.uartTx

def calcParityEdge : Bool :=
  if !t.rBusy then parityBit i.setup
  else if fixdParity t.rSetup then parityBit t.rSetup
  else if t.zeroBaudCounter then
    (match t.state with
    | .bit _ => t.calcParity ^^ t.lclData.getLsbD 0
    | .idle => parityBit t.rSetup
    | _ => t.calcParity)
  else t.calcParity

/- The baud counter, and the flag that it is zero. -/
def baudEdge : BitVec 28 × Bool :=
  let zero := t.baudCounter == 1#28
  if i.reset || i.brk then (breakCondition t.rSetup, false)
  else if !t.zeroBaudCounter then (t.baudCounter - 1#28, zero)
  else if t.state == .break_ then (0#28, true)
  else if t.state == .idle then
    (if t.accepts i then (clocksPerBaud i.setup - 1#28, false)
    else (0#28, true))
  else if t.lastState then (clocksPerBaud t.rSetup - 2#28, zero)
  else (clocksPerBaud t.rSetup - 1#28, zero)

/- In this state the last stop bit comes next. -/
def lastStop : Bool :=
  if dblstop t.rSetup then t.state == .secondStop
  else t.state == .stop

def step : Transmitter where
  rSetup := if !t.rBusy then i.setup else t.rSetup
  state := (t.stateEdge i).1
  rBusy := (t.stateEdge i).2
  lclData := t.lclDataEdge i
  uartTx := t.uartTxEdge i
  calcParity := t.calcParityEdge i
  baudCounter := (t.baudEdge i).1
  zeroBaudCounter := (t.baudEdge i).2
  lastState := t.lastStop
  qCtsN := i.ctsN
  qqCtsN := t.qCtsN
  ckCts := !t.qqCtsN || !hwFlowControl t.rSetup

end Transmitter

end Uart

------------------------------------------------------------
-- The Sender on Its Line
------------------------------------------------------------

namespace Uart

open Clocked Transmitter

/- The levels that follow in a state. -/
def remaining (t : Transmitter) : List Bool :=
  match t.state with
  | .bit k =>
      let bits := dataLevels t.lclData (8 - k.toNat)
      bits ++
        (if useParity t.rSetup then
          [if fixdParity t.rSetup then parityBit t.rSetup
            else t.calcParity ^^ parityOf bits]
        else []) ++
        stopLevels t.rSetup
  | .parity => t.calcParity :: stopLevels t.rSetup
  | .stop => stopLevels t.rSetup
  | .secondStop => [true]
  | .break_ => []
  | .idle => []

variable {u : BitVec 31} {t : Transmitter}
variable {s : Sender Bool Byte}

/- A frame is under way. -/
structure Framing
    (u : BitVec 31)
    (t : Transmitter)
    (s : Sender Bool Byte) : Prop where
  setup : t.rSetup = u
  busy : t.rBusy = true
  count : t.baudCounter.toNat = s.left
  zero : t.zeroBaudCounter = true ↔ s.left = 0
  inside : s.left < baud u
  stop : t.state = .secondStop → dblstop u = true
  fixed : fixdParity u = true → t.calcParity = parityBit u
  early : t.lastStop = false → t.lastState = false
  late : t.lastStop = true → s.left + 1 < baud u →
    t.lastState = true

/- Nothing follows; the counter runs out, or has run out. -/
structure Resting
    (t : Transmitter)
    (s : Sender Bool Byte) : Prop where
  line : s.level = true
  counting : t.zeroBaudCounter = false →
    s.left = t.baudCounter.toNat + 1 ∧
      0 < t.baudCounter.toNat ∧ t.rBusy = true
  counted : t.zeroBaudCounter = true →
    s.left = 0 ∨ s.left = 1 ∧ t.rBusy = true

/- The transmitter's line is that of a sender of frames. -/
structure Sends
    (u : BitVec 31)
    (t : Transmitter)
    (s : Sender Bool Byte) : Prop where
  level : t.uartTx = s.level
  rest : s.rest = remaining t
  sound : t.state ≠ .break_
  framing : t.state ≠ .idle → Framing u t s
  resting : t.state = .idle → Resting t s

end Uart

------------------------------------------------------------
-- Bits Going On
------------------------------------------------------------

namespace Uart

open Clocked Transmitter

variable {u : BitVec 31} {t : Transmitter} {i : TxIn}
variable {s : Sender Bool Byte}

/- An edge without reset and without a break. -/
structure Plain (u : BitVec 31) (i : TxIn) : Prop where
  reset : i.reset = false
  brk : i.brk = false
  setup : i.setup = u

/- The byte taken over by this edge. -/
def taken (t : Transmitter) (i : TxIn) : Option Byte :=
  if t.accepts i then some i.data else none

theorem accepts_busy (hBusy : t.rBusy = true) :
    t.accepts i = false := by
  simp [accepts, hBusy]

theorem counter_pred
    {x : BitVec 28}
    (hPos : 0 < x.toNat) :
    (x - 1#28).toNat = x.toNat - 1 := by
  have hOne : (1#28).toNat = 1 := rfl
  rw [BitVec.toNat_sub, hOne]
  have hLt := x.isLt
  omega

theorem counter_one {x : BitVec 28} :
    (x == 1#28) = true ↔ x.toNat = 1 := by
  rw [beq_iff_eq, ← BitVec.toNat_inj]
  rfl

/- The flow control registers go their own way. -/
def flow (t : Transmitter) (i : TxIn) : Transmitter :=
  { t with
    lastState := t.lastStop
    qCtsN := i.ctsN
    qqCtsN := t.qCtsN
    ckCts := !t.qqCtsN || !hwFlowControl t.rSetup }

/- The parity of a busy transmitter between two bits. -/
def keptParity (t : Transmitter) : Bool :=
  if fixdParity t.rSetup then parityBit t.rSetup
  else t.calcParity

theorem step_counting
    (hPlain : Plain u i)
    (hBusy : t.rBusy = true)
    (hZero : t.zeroBaudCounter = false) :
    t.step i =
      { flow t i with
        calcParity := keptParity t
        baudCounter := t.baudCounter - 1#28
        zeroBaudCounter := t.baudCounter == 1#28 } := by
  simp [step, flow, stateEdge, lclDataEdge, uartTxEdge,
    calcParityEdge, baudEdge, keptParity, accepts,
    hPlain.reset, hPlain.brk, hBusy, hZero]

/- A level is held while the counter counts. -/
theorem sends_hold
    (hPlain : Plain u i)
    (hSends : Sends u t s)
    (hState : t.state ≠ .idle)
    (hZero : t.zeroBaudCounter = false) :
    Sends u (t.step i) (s.next (lineCode u) (taken t i)) := by
  have hFraming := hSends.framing hState
  have hCount := hFraming.count
  have hLeft : 0 < s.left := by
    have hNot := mt hFraming.zero.mpr
    rw [hZero] at hNot
    exact Nat.pos_of_ne_zero (hNot (by decide))
  have hNext : s.next (lineCode u) (taken t i) =
      { s with left := s.left - 1 } :=
    Sender.next_hold (by omega)
  have hParity : keptParity t = t.calcParity := by
    unfold keptParity
    split_ifs with hFixed
    · rw [hFraming.setup] at hFixed ⊢
      exact (hFraming.fixed hFixed).symm
    · rfl
  rw [hNext, step_counting hPlain hFraming.busy hZero, hParity]
  refine ⟨hSends.level, hSends.rest, hSends.sound, fun _ => ?_,
    fun hIdle => absurd hIdle hState⟩
  refine ⟨hFraming.setup, hFraming.busy, ?_, ?_, ?_,
    hFraming.stop, hFraming.fixed, ?_, ?_⟩
  · show (t.baudCounter - 1#28).toNat = s.left - 1
    rw [counter_pred (by omega), hCount]
  · show (t.baudCounter == 1#28) = true ↔ s.left - 1 = 0
    rw [counter_one, hCount]
    omega
  · show s.left - 1 < baud u
    have hInside := hFraming.inside
    omega
  · intro hEarly
    exact hEarly
  · intro hLate hTime
    exact hLate

end Uart

------------------------------------------------------------
-- From Bit to Bit
------------------------------------------------------------

namespace Uart

open Clocked Transmitter

variable {u : BitVec 31} {t : Transmitter} {i : TxIn}
variable {s : Sender Bool Byte}

/- The level put on the line at the end of a bit. -/
def levelNext (t : Transmitter) : Bool :=
  match t.state with
  | .bit _ => t.lclData.getLsbD 0
  | .parity => t.calcParity
  | _ => true

/- The parity with the bit that is put on the line. -/
def parityNext (t : Transmitter) : Bool :=
  if fixdParity t.rSetup then parityBit t.rSetup
  else
    match t.state with
    | .bit _ => t.calcParity ^^ t.lclData.getLsbD 0
    | _ => t.calcParity

def atBitEnd (t : Transmitter) : Transmitter :=
  { t with
    state := t.bitEnd
    lclData := t.lclData >>> 1
    calcParity := parityNext t }

theorem step_bit
    (hPlain : Plain u i)
    (hBusy : t.rBusy = true)
    (hZero : t.zeroBaudCounter = true)
    (hIdle : t.state ≠ .idle)
    (hBreak : t.state ≠ .break_) :
    t.step i =
      { flow t i with
        state := t.bitEnd
        lclData := t.lclData >>> 1
        uartTx := levelNext t
        calcParity := parityNext t
        baudCounter :=
          if t.lastState then clocksPerBaud t.rSetup - 2#28
          else clocksPerBaud t.rSetup - 1#28
        zeroBaudCounter := t.baudCounter == 1#28 } := by
  have hAccepts : t.accepts i = false := accepts_busy hBusy
  have hParity : t.calcParityEdge i = parityNext t := by
    unfold calcParityEdge parityNext
    simp only [hBusy, hZero]
    cases hState : t.state with
    | idle => exact absurd hState hIdle
    | _ => simp
  have hLine : t.uartTxEdge i = levelNext t := by
    simp [uartTxEdge, levelNext, hPlain.reset, hPlain.brk,
      hAccepts, hZero]
  have hBaud : t.baudEdge i =
      (if t.lastState then clocksPerBaud t.rSetup - 2#28
        else clocksPerBaud t.rSetup - 1#28,
        t.baudCounter == 1#28) := by
    simp [baudEdge, hPlain.reset, hPlain.brk, hZero, hIdle,
      hBreak]
    split_ifs <;> rfl
  simp [step, flow, stateEdge, lclDataEdge, hParity, hLine,
    hBaud, hPlain.reset, hPlain.brk, hBusy, hZero, hIdle,
    hBreak]

/- What remains begins with the next level. -/
theorem remaining_bit
    (hIdle : t.state ≠ .idle)
    (hBreak : t.state ≠ .break_) :
    remaining t = levelNext t :: remaining (atBitEnd t) := by
  cases hState : t.state with
  | bit k =>
      by_cases hLast : k = 7#3
      · subst hLast
        have hOne : dataLevels t.lclData 1 =
            [t.lclData.getLsbD 0] :=
          rfl
        cases hUse : useParity t.rSetup with
        | true =>
            by_cases hFixed : fixdParity t.rSetup = true
            · simp [remaining, levelNext, atBitEnd, bitEnd,
                parityNext, hState, hOne, hUse, hFixed]
            · simp [remaining, levelNext, atBitEnd, bitEnd,
                parityNext, hState, hOne, hUse, hFixed,
                parityOf]
        | false =>
            simp [remaining, levelNext, atBitEnd, bitEnd, hState,
              hOne, hUse]
      · have hLess : k.toNat < 7 := by
          have hNot : k.toNat ≠ 7 :=
            fun hSeven => hLast (BitVec.eq_of_toNat_eq hSeven)
          have hLt := k.isLt
          omega
        have hVal := nextBit_toNat hLess
        have hMore : 8 - k.toNat = 8 - (k.toNat + 1) + 1 := by
          omega
        simp [remaining, levelNext, atBitEnd, bitEnd, parityNext,
          hState, hLast, hVal, hMore, dataLevels_succ]
        by_cases hFixed : fixdParity t.rSetup = true
        · simp [hFixed]
        · simp [hFixed]
  | parity =>
      simp [remaining, levelNext, atBitEnd, bitEnd, hState]
  | stop =>
      cases hDouble : dblstop t.rSetup with
      | true =>
          simp [remaining, levelNext, atBitEnd, bitEnd, hState,
            stopLevels, hDouble]
      | false =>
          simp [remaining, levelNext, atBitEnd, bitEnd, hState,
            stopLevels, hDouble]
  | secondStop =>
      simp [remaining, levelNext, atBitEnd, bitEnd, hState]
  | break_ => exact absurd hState hBreak
  | idle => exact absurd hState hIdle

/- After the last stop bit, and only then, it rests. -/
theorem bitEnd_idle
    (hIdle : t.state ≠ .idle)
    (hBreak : t.state ≠ .break_)
    (hStop : t.state = .secondStop → dblstop t.rSetup = true) :
    t.bitEnd = .idle ↔ t.lastStop = true := by
  cases hState : t.state with
  | bit k =>
      simp only [bitEnd, lastStop, hState]
      split_ifs <;> simp
  | parity =>
      simp only [bitEnd, lastStop, hState]
      split_ifs <;> simp
  | stop =>
      simp only [bitEnd, lastStop, hState]
      split_ifs <;> simp
  | secondStop => simp [bitEnd, lastStop, hState, hStop hState]
  | break_ => exact absurd hState hBreak
  | idle => exact absurd hState hIdle

theorem bitEnd_sound : t.bitEnd ≠ .break_ := by
  unfold bitEnd
  split <;> (try split_ifs) <;> simp

theorem bitEnd_second (hSecond : t.bitEnd = .secondStop) :
    dblstop t.rSetup = true := by
  unfold bitEnd at hSecond
  split at hSecond
  next => split_ifs at hSecond
  next => cases hSecond
  next =>
      split_ifs at hSecond with hDouble
      exact hDouble
  next => cases hSecond

theorem counter_reload
    (hBaud : 3 ≤ baud u)
    (hSetup : t.rSetup = u) :
    (clocksPerBaud t.rSetup - 1#28).toNat = baud u - 1 ∧
      (clocksPerBaud t.rSetup - 2#28).toNat = baud u - 2 := by
  have hOne : (1#28).toNat = 1 := rfl
  have hTwo : (2#28).toNat = 2 := rfl
  have hLt := baud_lt (u := u)
  rw [hSetup, BitVec.toNat_sub, BitVec.toNat_sub,
    clocksPerBaud_toNat, hOne, hTwo]
  omega

/- The next level is put on the line. -/
theorem sends_bit
    (hBaud : 3 ≤ baud u)
    (hPlain : Plain u i)
    (hSends : Sends u t s)
    (hState : t.state ≠ .idle)
    (hZero : t.zeroBaudCounter = true) :
    Sends u (t.step i) (s.next (lineCode u) (taken t i)) := by
  have hFraming := hSends.framing hState
  have hSetup := hFraming.setup
  have hBreak := hSends.sound
  have hLeft : s.left = 0 := hFraming.zero.mp hZero
  have hStop : t.state = .secondStop → dblstop t.rSetup = true :=
    hSetup ▸ hFraming.stop
  have hRest : s.rest = levelNext t :: remaining (atBitEnd t) :=
    hSends.rest.trans (remaining_bit hState hBreak)
  have hNext : s.next (lineCode u) (taken t i) =
      { s with
        level := levelNext t
        left := baud u - 1
        rest := remaining (atBitEnd t) } :=
    Sender.next_symbol hLeft hRest
  have hReload := counter_reload hBaud hSetup
  have hCounter : (t.baudCounter == 1#28) = false := by
    rw [← Bool.not_eq_true, counter_one, hFraming.count, hLeft]
    decide
  have hIdle := bitEnd_idle hState hBreak hStop
  rw [hNext, step_bit hPlain hFraming.busy hZero hState hBreak]
  refine ⟨rfl, rfl, bitEnd_sound, fun hGoesOn => ?_,
    fun hRests => ?_⟩
  · have hLast : t.lastStop = false :=
      Bool.eq_false_iff.mpr (mt hIdle.mpr hGoesOn)
    have hEarly := hFraming.early hLast
    refine ⟨hSetup, hFraming.busy, ?_, ?_, ?_, ?_, ?_, ?_, ?_⟩
    · simpa [hEarly] using hReload.1
    · simp only [hCounter]
      simp
      omega
    · simp only []
      omega
    · intro hSecond
      exact hSetup ▸ bitEnd_second hSecond
    · intro hFixed
      simp only [parityNext, hSetup, hFixed, if_true]
    · intro _
      exact hLast
    · intro _ hTime
      simp only [] at hTime
      omega
  · have hLast := hIdle.mp hRests
    have hLate := hFraming.late hLast (by omega)
    refine ⟨?_, ?_, ?_⟩
    · have hLevel : levelNext t = true := by
        have hEither :
            t.state = .stop ∨ t.state = .secondStop := by
          unfold lastStop at hLast
          split_ifs at hLast <;> simp_all
        rcases hEither with hOne | hTwo
        · simp [levelNext, hOne]
        · simp [levelNext, hTwo]
      exact hLevel
    · intro _
      refine ⟨?_, ?_, hFraming.busy⟩
      · simp only [hLate, if_true]
        rw [hReload.2]
        omega
      · simp only [hLate, if_true]
        rw [hReload.2]
        omega
    · intro hAtOnce
      rw [hCounter] at hAtOnce
      cases hAtOnce

end Uart

------------------------------------------------------------
-- At Rest
------------------------------------------------------------

namespace Uart

open Clocked Transmitter

variable {u : BitVec 31} {t : Transmitter} {i : TxIn}
variable {s : Sender Bool Byte}

/- The counter of an idle transmitter goes on to its end. -/
theorem sends_counting
    (hPlain : Plain u i)
    (hSends : Sends u t s)
    (hState : t.state = .idle)
    (hZero : t.zeroBaudCounter = false) :
    Sends u (t.step i) (s.next (lineCode u) (taken t i)) := by
  have hResting := hSends.resting hState
  rcases hResting.counting hZero with ⟨hLeft, hPos, hBusy⟩
  have hNext : s.next (lineCode u) (taken t i) =
      { s with left := t.baudCounter.toNat } :=
    Sender.next_hold hLeft
  have hRest : s.rest = [] := by
    rw [hSends.rest, remaining, hState]
  rw [hNext, step_counting hPlain hBusy hZero]
  refine ⟨hSends.level, ?_, hSends.sound,
    fun hGoesOn => absurd hState hGoesOn, fun _ => ?_⟩
  · simp only [remaining, flow, hState]
    exact hRest
  · refine ⟨hResting.line, ?_, ?_⟩
    · intro hGoesOn
      have hNotOne : ¬ t.baudCounter.toNat = 1 := by
        rw [← counter_one]
        simpa using hGoesOn
      refine ⟨?_, ?_, hBusy⟩
      · simp only [counter_pred hPos]
        omega
      · simp only [counter_pred hPos]
        omega
    · intro hEnds
      exact .inr ⟨counter_one.mp hEnds, hBusy⟩

/- Nothing is written, or the transmitter is still busy. -/
theorem sends_waiting
    (hPlain : Plain u i)
    (hSends : Sends u t s)
    (hState : t.state = .idle)
    (hZero : t.zeroBaudCounter = true)
    (hAccepts : t.accepts i = false) :
    Sends u (t.step i) (s.next (lineCode u) (taken t i)) := by
  have hResting := hSends.resting hState
  have hRest : s.rest = [] := by
    rw [hSends.rest, remaining, hState]
  have hNone : taken t i = none := by
    simp [taken, hAccepts]
  have hNext : s.next (lineCode u) (taken t i) =
      { s with level := true, left := 0 } := by
    rw [hNone]
    rcases hResting.counted hZero with hLeft | ⟨hLeft, -⟩
    · rw [Sender.next_mark hLeft hRest, ← hLeft]
      rfl
    · rw [Sender.next_hold hLeft, ← hResting.line]
  have hStep : (t.step i).state = .idle ∧
      (t.step i).uartTx = true ∧
      (t.step i).zeroBaudCounter = true := by
    simp [step, stateEdge, uartTxEdge, baudEdge, hPlain.reset,
      hPlain.brk, hState, hZero, hAccepts]
  rcases hStep with ⟨hIdle, hLine, hCounted⟩
  rw [hNext]
  refine ⟨hLine, ?_, ?_, fun hGoesOn => absurd hIdle hGoesOn,
    fun _ => ⟨rfl, ?_, fun _ => .inl rfl⟩⟩
  · simp only [remaining, hIdle]
    exact hRest
  · rw [hIdle]
    decide
  · intro hGoesOn
    rw [hCounted] at hGoesOn
    cases hGoesOn

/- The first state of a frame, by the number of data bits. -/
theorem firstBit_eq (bits : BitVec 2) :
    ∃ k : BitVec 3, firstBit bits = .bit k ∧
      8 - k.toNat = 8 - bits.toNat := by
  revert bits
  decide

theorem accepts_free (hAccepts : t.accepts i = true) :
    t.rBusy = false := by
  unfold accepts at hAccepts
  simp at hAccepts
  exact hAccepts.2

/- A byte is taken over only where nothing is left to send. -/
theorem accepts_ready
    (hSends : Sends u t s)
    (hAccepts : t.accepts i = true) :
    s.left = 0 ∧ s.rest = [] := by
  have hFree := accepts_free hAccepts
  have hBusy : ¬ t.rBusy = true := by simp [hFree]
  have hState : t.state = .idle := by
    by_contra hGoesOn
    exact hBusy (hSends.framing hGoesOn).busy
  have hResting := hSends.resting hState
  have hRest : s.rest = [] := by
    rw [hSends.rest, remaining, hState]
  cases hZero : t.zeroBaudCounter with
  | false => exact absurd (hResting.counting hZero).2.2 hBusy
  | true =>
      rcases hResting.counted hZero with hLeft | ⟨-, hStill⟩
      · exact ⟨hLeft, hRest⟩
      · exact absurd hStill hBusy

/- So the sender's items are the bytes taken over. -/
theorem sent_taken
    (hSends : Sends u t s)
    {c : LineCode Bool Byte} :
    (s.next c (taken t i)).sent =
      s.sent ++ (taken t i).toList := by
  cases hAccepts : t.accepts i with
  | false =>
      rw [taken, hAccepts]
      simp [Sender.sent_quiet]
  | true =>
      rcases accepts_ready hSends hAccepts with ⟨hLeft, hRest⟩
      rw [taken, if_pos hAccepts,
        Sender.next_start i.data hLeft hRest]
      rfl

/- A byte is taken over; its start bit is put on the line. -/
theorem sends_start
    (hBaud : 3 ≤ baud u)
    (hPlain : Plain u i)
    (hSends : Sends u t s)
    (hState : t.state = .idle)
    (hZero : t.zeroBaudCounter = true)
    (hAccepts : t.accepts i = true) :
    Sends u (t.step i) (s.next (lineCode u) (taken t i)) := by
  have hFree := accepts_free hAccepts
  rcases accepts_ready hSends hAccepts with ⟨hLeft, hRest⟩
  have hNext : s.next (lineCode u) (taken t i) =
      { level := false
        left := baud u - 1
        rest := payload u i.data
        sent := s.sent ++ [i.data] } := by
    rw [taken, if_pos hAccepts]
    exact Sender.next_start i.data hLeft hRest
  rcases firstBit_eq (dataBits u) with ⟨k, hFirst, hCount⟩
  have hStep : t.step i =
      { flow t i with
        rSetup := u
        state := .bit k
        rBusy := true
        lclData := i.data
        uartTx := false
        calcParity := parityBit u
        baudCounter := clocksPerBaud u - 1#28
        zeroBaudCounter := false } := by
    simp [step, flow, stateEdge, lclDataEdge, uartTxEdge,
      calcParityEdge, baudEdge, hPlain.reset, hPlain.brk,
      hPlain.setup, hState, hZero, hAccepts, hFree, hFirst]
  have hLast : t.lastStop = false := by
    unfold lastStop
    split_ifs <;> simp [hState]
  rw [hNext, hStep]
  refine ⟨rfl, ?_, ?_, fun _ => ?_, ?_⟩
  · simp only [remaining, hCount]
    rfl
  · simp
  · refine ⟨rfl, rfl, ?_, ?_, ?_, ?_, fun _ => rfl,
      fun _ => hLast, ?_⟩
    · have hLt := baud_lt (u := u)
      have hOne : (1#28).toNat = 1 := rfl
      simp only [BitVec.toNat_sub, clocksPerBaud_toNat, hOne]
      omega
    · simp
      omega
    · simp only []
      omega
    · intro hSecond
      cases hSecond
    · intro _ hTime
      simp only [] at hTime
      omega
  · intro hIdle
    cases hIdle

/- One clock of the transmitter is one clock of its sender. -/
theorem sends_step
    (hBaud : 3 ≤ baud u)
    (hPlain : Plain u i)
    (hSends : Sends u t s) :
    Sends u (t.step i) (s.next (lineCode u) (taken t i)) := by
  by_cases hState : t.state = .idle
  · cases hZero : t.zeroBaudCounter with
    | false => exact sends_counting hPlain hSends hState hZero
    | true =>
        cases hAccepts : t.accepts i with
        | false =>
            exact sends_waiting hPlain hSends hState hZero
              hAccepts
        | true =>
            exact sends_start hBaud hPlain hSends hState hZero
              hAccepts
  · cases hZero : t.zeroBaudCounter with
    | false => exact sends_hold hPlain hSends hState hZero
    | true => exact sends_bit hBaud hPlain hSends hState hZero

/- A sender with nothing to send for some clocks. -/
def quietSender (left : Nat) : Sender Bool Byte where
  level := true
  left := left
  rest := []
  sent := []

/- After a reset nothing is sent for sixteen bits. -/
theorem sends_reset
    (hBaud : 0 < baud t.rSetup)
    (hReset : i.reset = true) :
    Sends u (t.step i)
      (quietSender (16 * baud t.rSetup + 1)) := by
  have hState : (t.step i).state = .idle := by
    simp [step, stateEdge, hReset]
  have hLine : (t.step i).uartTx = true := by
    simp [step, uartTxEdge, hReset]
  have hCounter : (t.step i).baudCounter.toNat =
      16 * baud t.rSetup := by
    simp [step, baudEdge, hReset, breakCondition_toNat]
  have hZero : (t.step i).zeroBaudCounter = false := by
    simp [step, baudEdge, hReset]
  have hBusy : (t.step i).rBusy = true := by
    simp [step, stateEdge, hReset]
  refine ⟨hLine, ?_, ?_, fun hGoesOn => absurd hState hGoesOn,
    fun _ => ⟨rfl, fun _ => ⟨?_, ?_, hBusy⟩, ?_⟩⟩
  · simp [remaining, hState, quietSender]
  · simp [hState]
  · rw [hCounter]
    rfl
  · omega
  · intro hAtOnce
    rw [hZero] at hAtOnce
    cases hAtOnce

end Uart

------------------------------------------------------------
-- Runs
------------------------------------------------------------

namespace Uart

open Clocked Transmitter

/- The bytes taken over along a run, clock by clock. -/
def takenAlong (t : Transmitter) : List TxIn → List (Option Byte)
  | [] => []
  | i :: is => taken t i :: takenAlong (t.step i) is

variable {u : BitVec 31} {t : Transmitter} {i : TxIn}
variable {s : Sender Bool Byte} {is : List TxIn}

theorem sends_run
    (hBaud : 3 ≤ baud u)
    (hPlain : ∀ i ∈ is, Plain u i)
    (hSends : Sends u t s) :
    Sends u (run Transmitter.step t is)
      (run (Sender.next (lineCode u)) s (takenAlong t is)) := by
  induction is generalizing t s with
  | nil => exact hSends
  | cons i is ih =>
      have hFirst := sends_step hBaud
        (hPlain i List.mem_cons_self) hSends
      exact ih (fun j hMem =>
        hPlain j (List.mem_cons_of_mem i hMem)) hFirst

/-
  From a reset on the line is that of the sender of frames:
  every level lasts its bit, frames follow each other as close
  as they can, and the transmitter is free to take a byte only
  where nothing is left to send.
-/
theorem line_of_sender
    (u : BitVec 31)
    (t : Transmitter)
    (i : TxIn)
    (is : List TxIn)
    (hBaud : 3 ≤ baud u)
    (hOld : 0 < baud t.rSetup)
    (hReset : i.reset = true)
    (hPlain : ∀ j ∈ is, Plain u j) :
    let t' := run Transmitter.step (t.step i) is
    let s := run (Sender.next (lineCode u))
      (quietSender (16 * baud t.rSetup + 1))
      (takenAlong (t.step i) is)
    t'.uartTx = s.level ∧
      (t'.rBusy = false → s.total (lineCode u) = 0) := by
  intro t' s
  have hSends : Sends u t' s :=
    sends_run hBaud hPlain (sends_reset hOld hReset)
  refine ⟨hSends.level, fun hFree => ?_⟩
  have hSymbol : 0 < (lineCode u).symbol := by
    show 0 < baud u
    omega
  have hAccepts : t'.accepts { setup := u, wr := true } = true := by
    simp [accepts, hFree]
  rcases accepts_ready hSends hAccepts with ⟨hLeft, hRest⟩
  exact (Sender.total_eq_zero hSymbol).mpr ⟨hRest, hLeft⟩

/- A transmitter at four clocks a bit, reset and written. -/
theorem line_of_sender_fast :
    let t : Transmitter := { (default : Transmitter) with
      rSetup := 4#31 }
    let reset : TxIn := { reset := true, setup := 4#31 }
    let t' := run Transmitter.step (t.step reset)
      (List.replicate 99
        ({ setup := 4#31, wr := true, data := 0x5A#8 } : TxIn))
    let s := run (Sender.next (lineCode 4#31))
      (quietSender (16 * baud t.rSetup + 1))
      (takenAlong (t.step reset) (List.replicate 99
        ({ setup := 4#31, wr := true, data := 0x5A#8 } : TxIn)))
    t'.uartTx = s.level ∧
      (t'.rBusy = false → s.total (lineCode 4#31) = 0) :=
  line_of_sender 4#31 _ _ _ (by decide) (by decide) rfl
    (fun _ hMem =>
      List.eq_of_mem_replicate hMem ▸ ⟨rfl, rfl, rfl⟩)

end Uart
