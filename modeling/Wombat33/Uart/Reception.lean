import Wombat33.Uart.Receiver

/-
  The receiver beside the sender of its line.

  The receiver's own picture of the line, three clocks late,
  is compared with the sender as it was then.  A start bit is
  recognised after half a bit, and from there on every level
  of the frame is sampled half a bit after it began.

  Key definitions include:
    * `since`, `Primed`
    * `Phase`, `Tuned`

  Key theorems include:
    * `phase_step`
-/

------------------------------------------------------------
-- The Phases
------------------------------------------------------------

namespace Uart

open Clocked

/- Clocks since the level of the line began. -/
def since (v : BitVec 30) (s : Sender Bool Byte) : Nat :=
  baud v - 1 - s.left

def half (v : BitVec 30) : Nat := baud v / 2

/- The levels of the frame that are not yet sampled. -/
def unsampled
    (v : BitVec 30)
    (s : Sender Bool Byte) : List Bool :=
  if since v s ≤ half v then s.level :: s.rest else s.rest

/- The clocks to the next sample. -/
def due (v : BitVec 30) (s : Sender Bool Byte) : Nat :=
  if since v s ≤ half v then half v - since v s
  else baud v + half v - since v s

/- The baud counter stands ready for the first data bit. -/
structure Primed (v : BitVec 30) (r : Receiver) : Prop where
  counter : r.baudCounter.toNat = baud v - 1
  zero : r.zeroBaudCounter = false

/- The baud counter runs to the next sample. -/
structure Counting
    (v : BitVec 30)
    (s : Sender Bool Byte)
    (r : Receiver) : Prop where
  counter : r.baudCounter.toNat = due v s
  zero : r.zeroBaudCounter = true ↔ due v s = 0

/- Where the receiver is in what the sender sends. -/
inductive Phase
    (v : BitVec 30)
    (s : Sender Bool Byte)
    (r : Receiver) :
    List Byte → Prop where
  | waiting
      (hState : r.state = .resetIdle)
      (hLine : s.level = true)
      (hRest : s.rest = [])
      (hSent : s.sent = [])
      (hPrimed : Primed v r)
      (hNone : r.preWr = false ∧ r.oWr = false)
      (hLead : 16 * baud v + 3 ≤
        s.left + r.chgCounter.toNat + r.lineSynch.toNat)
      (hStay : r.chgCounter.toNat ≤ 16 * baud v) :
      Phase v s r []
  | resting
      (hState : r.state = .idle)
      (hLine : s.level = true)
      (hRest : s.rest = [])
      (hPrimed : Primed v r)
      (hHigh : r.halfBaudTime = false)
      (hSingle : r.preWr = true → dblstop v = false) :
      Phase v s r s.sent
  | starting
      (d : Byte)
      (bytes : List Byte)
      (hSent : s.sent = bytes ++ [d])
      (hState : r.state = .idle)
      (hLine : s.level = false)
      (hRest : s.rest = payload v d)
      (hLeft : s.left < baud v)
      (hTime : since v s ≤ half v)
      (hPrimed : Primed v r)
      (hChg : r.chgCounter.toNat = since v s)
      (hHalf : r.halfBaudTime = decide (half v ≤ since v s))
      (hClear : r.oParityErr = false)
      (hOpen : r.preWr = false) :
      Phase v s r bytes
  | receiving
      (d : Byte)
      (bytes : List Byte)
      (hSent : s.sent = bytes ++ [d])
      (hLeft : s.left < baud v)
      (hLevels : s.rest.length ≤ 11)
      (hReceives : Receives v d r (unsampled v s))
      (hCounting : Counting v s r)
      (hLow : s.level = false →
        r.chgCounter.toNat + baud v * s.rest.length +
          s.left + 1 ≤ 12 * baud v) :
      Phase v s r bytes

/- The receiver follows the line and has seen no error. -/
structure Tuned
    (v : BitVec 30)
    (s : Sender Bool Byte)
    (r : Receiver)
    (bytes : List Byte) : Prop where
  setup : r.rSetup = v
  line : r.ckUart = s.level
  noBreak : r.oBreak = false
  noFrameErr : r.oFrameErr = false
  verdict : r.oWr = true →
    r.oParityErr = (dblstop v && computedParity v)
  phase : Phase v s r bytes

end Uart

------------------------------------------------------------
-- Counters
------------------------------------------------------------

namespace Uart

open Clocked Receiver

variable {v : BitVec 30} {r : Receiver} {i : RxIn}
variable {s : Sender Bool Byte} {offer : Option Byte}
variable {bytes : List Byte}

/- An edge without reset, at the line's setup. -/
structure Steady (v : BitVec 30) (i : RxIn) : Prop where
  reset : i.reset = false
  setup : i.setup.setWidth 30 = v

theorem unchanged_eq (hSetup : r.rSetup = v) :
    r.unchanged = decide (16 * baud v ≤ r.chgCounter.toNat) := by
  rw [unchanged, hSetup]
  simp only [BitVec.le_def, breakCondition_toNat]

theorem chg_step
    (hSteady : Steady v i)
    (hSetup : r.rSetup = v) :
    (r.step i).chgCounter.toNat =
      if r.qqUart = r.ckUart then
        (if r.chgCounter.toNat < 16 * baud v then
          r.chgCounter.toNat + 1
        else r.chgCounter.toNat)
      else 0 := by
  show (r.chgCounterEdge i).toNat = _
  unfold chgCounterEdge
  rw [hSteady.reset, hSetup]
  by_cases hSame : r.qqUart = r.ckUart
  · have hBreak := breakCondition_toNat (u := v)
    by_cases hLess : r.chgCounter.toNat < 16 * baud v
    · have hBelow : r.chgCounter < breakCondition v := by
        rw [BitVec.lt_def, hBreak]
        exact hLess
      have hLt := (breakCondition v).isLt
      have hOne : (1#28).toNat = 1 := rfl
      simp only [hSame, bne_self_eq_false, hBelow, hLess, if_true,
        Bool.false_eq_true, if_false, BitVec.toNat_add, hOne]
      omega
    · have hNotBelow : ¬ r.chgCounter < breakCondition v := by
        rw [BitVec.lt_def, hBreak]
        exact hLess
      simp [hSame, hNotBelow, hLess]
  · simp [hSame]

/- The half-bit flag, a clock after its comparison. -/
theorem half_step
    (hBaud : 3 ≤ baud v)
    (hSetup : r.rSetup = v) :
    (r.step i).halfBaudTime =
      (!r.ckUart &&
        decide (half v ≤ r.chgCounter.toNat + 1)) := by
  show (!r.ckUart && decide (halfBaud r.rSetup ≤ _)) = _
  have hHalf := halfBaud_toNat (u := v) (by omega)
  have hIff : halfBaud v ≤ r.chgCounter ↔
      half v ≤ r.chgCounter.toNat + 1 := by
    rw [BitVec.le_def, hHalf, half]
    omega
  rw [hSetup]
  simp only [hIff]

theorem reload_toNat
    (hBaud : 3 ≤ baud v)
    (hSetup : r.rSetup = v) :
    (clocksPerBaud r.rSetup - 1#28).toNat = baud v - 1 := by
  have hOne : (1#28).toNat = 1 := rfl
  have hLt := baud_lt (u := v)
  rw [hSetup, BitVec.toNat_sub, clocksPerBaud_toNat, hOne]
  omega

theorem counter_eq_one {x : BitVec 28} :
    (x == 1#28) = true ↔ x.toNat = 1 := by
  rw [beq_iff_eq, ← BitVec.toNat_inj]
  rfl

theorem primed_step
    (hBaud : 3 ≤ baud v)
    (hSetup : r.rSetup = v)
    (hQuiet : r.state.waits = true)
    (hPrimed : Primed v r) :
    Primed v (r.step i) where
  counter := by
    show (r.baudCounterEdge i).toNat = _
    simp [baudCounterEdge, RxState.quiet, hQuiet,
      reload_toNat hBaud hSetup]
  zero := by
    show (if r.state == .idle then false
      else r.baudCounter == 1#28) = false
    have hNotOne : (r.baudCounter == 1#28) = false := by
      rw [← Bool.not_eq_true, counter_eq_one, hPrimed.counter]
      omega
    rw [hNotOne]
    split_ifs <;> rfl

/- A low level has not lasted long enough for a break. -/
theorem phase_low
    (hPhase : Phase v s r bytes)
    (hLevel : s.level = false) :
    r.chgCounter.toNat < 16 * baud v := by
  cases hPhase with
  | waiting hState hLine =>
      rw [hLine] at hLevel
      cases hLevel
  | resting hState hLine =>
      rw [hLine] at hLevel
      cases hLevel
  | starting d bytes hSent hState hLine hRest hLeft hTime hPrimed
      hChg =>
      rw [hChg]
      unfold half at hTime
      omega
  | receiving d bytes hSent hLeft hLevels hReceives hCounting
      hLow =>
      have hBound := hLow hLevel
      omega

/- A stop bit is high where it is sampled. -/
theorem phase_stop
    (hPhase : Phase v s r bytes)
    (hZero : r.zeroBaudCounter = true)
    (hState : r.state = .stop ∨ r.state = .secondStop) :
    s.level = true := by
  cases hPhase with
  | waiting hReset hLine => exact hLine
  | resting hIdle hLine => exact hLine
  | starting d bytes hSent hIdle =>
      rw [hIdle] at hState
      rcases hState with hNo | hNo
      · cases hNo
      · cases hNo
  | receiving d bytes hSent hLeft hLevels hReceives hCounting =>
      have hMiddle : since v s ≤ half v := by
        have hDue := hCounting.zero.mp hZero
        unfold due since at hDue
        unfold since
        split_ifs at hDue <;> omega
      rw [unsampled, if_pos hMiddle] at hReceives
      generalize hAll : s.level :: s.rest = all at hReceives
      cases hReceives with
      | bit j k hBit =>
          rw [hBit] at hState
          rcases hState with hNo | hNo
          · cases hNo
          · cases hNo
      | parity hBit =>
          rw [hBit] at hState
          rcases hState with hNo | hNo
          · cases hNo
          · cases hNo
      | stop =>
          unfold stopLevels at hAll
          split_ifs at hAll
          · exact (List.cons.inj hAll).1
          · exact (List.cons.inj hAll).1
      | secondStop => exact (List.cons.inj hAll).1

/- The stop bits find the verdict on the parity. -/
theorem phase_judged
    (hPhase : Phase v s r bytes)
    (hState : r.state = .stop ∨ r.state = .secondStop) :
    r.oParityErr = computedParity v := by
  have hOther (hWaits : r.state.waits = true) : False := by
    rcases hState with hStop | hStop
    · simp [hStop, RxState.waits] at hWaits
    · simp [hStop, RxState.waits] at hWaits
  cases hPhase with
  | waiting hReset =>
      exact (hOther (by simp [hReset, RxState.waits])).elim
  | resting hIdle =>
      exact (hOther (by simp [hIdle, RxState.waits])).elim
  | starting d bytes hSent hIdle =>
      exact (hOther (by simp [hIdle, RxState.waits])).elim
  | receiving d bytes hSent hLeft hLevels hReceives =>
      generalize unsampled v s = levels at hReceives
      cases hReceives with
      | bit j k hBit => simp [hBit] at hState
      | parity hBit => simp [hBit] at hState
      | stop hBit hData hJudged => exact hJudged
      | secondStop hBit hDouble hJudged => exact hJudged

/- A strobe comes with the verdict on the parity, if at all. -/
theorem phase_verdict
    (hSteady : Steady v i)
    (hPhase : Phase v s r bytes)
    (hWr : (r.step i).oWr = true) :
    (r.step i).oParityErr = (dblstop v && computedParity v) := by
  have hDue : (r.zeroBaudCounter = true ∨ r.state = .idle) ∧
      r.preWr = true := by
    have hEdge : r.oWrEdge i = true := hWr
    unfold oWrEdge at hEdge
    split_ifs at hEdge with hTime
    simpa [hSteady.reset] using And.intro hTime hEdge
  rcases hDue with ⟨hTime, hPre⟩
  show r.oParityErrEdge = _
  cases hPhase with
  | waiting hState hLine hRest hSent hPrimed hNone =>
      rw [hNone.1] at hPre
      cases hPre
  | resting hState hLine hRest hPrimed hHigh hSingle =>
      rw [oParityErrEdge, hPrimed.zero, hState, hSingle hPre]
      rfl
  | starting d bytes hSent hState hLine hRest hLeft hSince hPrimed
      hChg hHalf hClear hOpen =>
      rw [hOpen] at hPre
      cases hPre
  | receiving d bytes hSent hLeft hLevels hReceives =>
      generalize unsampled v s = levels at hReceives
      cases hReceives with
      | bit j k hState hPlace hMore hData hParity hClear hOpen =>
          rw [hOpen] at hPre
          cases hPre
      | parity hState hUse hData hParity hOpen =>
          rw [hOpen] at hPre
          cases hPre
      | stop hState hData hJudged hOpen =>
          rw [hOpen] at hPre
          cases hPre
      | secondStop hState hDouble hJudged =>
          simp [oParityErrEdge, RxState.quiet, RxState.waits,
            hState, hDouble, hJudged]

end Uart

------------------------------------------------------------
-- Idle Receivers
------------------------------------------------------------

namespace Uart

open Clocked Receiver

variable {v : BitVec 30} {r : Receiver} {i : RxIn}
variable {s : Sender Bool Byte} {offer : Option Byte}
variable {bytes : List Byte}

/- What a step adds to the complete frames. -/
structure Goes
    (v : BitVec 30)
    (s' : Sender Bool Byte)
    (r r' : Receiver)
    (bytes : List Byte) : Prop where
  phase : ∃ new, Phase v s' r' (bytes ++ new) ∧
    strobed r ++ owed r' = owed r ++ new.map (shown v)

theorem goes_same
    {s' : Sender Bool Byte}
    {r' : Receiver}
    (hPhase : Phase v s' r' bytes)
    (hOwed : strobed r ++ owed r' = owed r) :
    Goes v s' r r' bytes := by
  refine ⟨[], ?_, ?_⟩
  · rw [List.append_nil]
    exact hPhase
  · rw [List.map_nil, List.append_nil]
    exact hOwed

/- A held level counts on, a new one begins at zero. -/
theorem chg_next
    (hSteady : Steady v i)
    (hSetup : r.rSetup = v)
    (hLine : r.ckUart = s.level)
    {level : Bool}
    (hNext : r.qqUart = level) :
    (r.step i).chgCounter.toNat =
      if level = s.level then
        (if r.chgCounter.toNat < 16 * baud v then
          r.chgCounter.toNat + 1
        else r.chgCounter.toNat)
      else 0 := by
  rw [chg_step hSteady hSetup, hLine, hNext]

/- Waiting after a reset until the line has long been high. -/
theorem waiting_step
    (hBaud : 3 ≤ baud v)
    (hSteady : Steady v i)
    (hSetup : r.rSetup = v)
    (hLine : r.ckUart = s.level)
    (hNext : r.qqUart = (s.next (lineCode v) offer).level)
    (hState : r.state = .resetIdle)
    (hHigh : s.level = true)
    (hRest : s.rest = [])
    (hSent : s.sent = [])
    (hPrimed : Primed v r)
    (hNone : r.preWr = false ∧ r.oWr = false)
    (hLead : 16 * baud v + 3 ≤
      s.left + r.chgCounter.toNat + r.lineSynch.toNat)
    (hStay : r.chgCounter.toNat ≤ 16 * baud v) :
    Goes v (s.next (lineCode v) offer) r (r.step i) [] := by
  have hSynch := Bool.toNat_le r.lineSynch
  have hHold : s.next (lineCode v) offer =
      { s with left := s.left - 1 } :=
    Sender.next_hold (by omega)
  have hChg := chg_next hSteady hSetup hLine hNext
  have hWaits : r.state.waits = true := by
    simp [hState, RxState.waits]
  have hPrimed' : Primed v (r.step i) :=
    primed_step hBaud hSetup hWaits hPrimed
  have hPre : (r.step i).preWr = false := by
    simp [step, preWrEdge, hSteady.reset, hPrimed.zero, hState,
      hNone]
  have hWr : (r.step i).oWr = false := by
    simp [step, oWrEdge, hPrimed.zero, hState]
  have hOwed : strobed r ++ owed (r.step i) = owed r := by
    simp [owed, strobed, hPre, hWr, hNone]
  rw [hHold] at hChg ⊢
  rw [if_pos rfl] at hChg
  refine goes_same ?_ hOwed
  cases hReady : r.lineSynch with
  | true =>
      have hState' : (r.step i).state = .idle := by
        simp [step, stateEdge, hSteady.reset, hState, hReady]
      have hHalf : (r.step i).halfBaudTime = false := by
        rw [half_step hBaud hSetup, hLine, hHigh]
        rfl
      rw [← hSent]
      exact .resting hState' hHigh hRest hPrimed' hHalf
        (by simp [hPre])
  | false =>
      have hState' : (r.step i).state = .resetIdle := by
        simp [step, stateEdge, hSteady.reset, hState, hReady]
      have hSynch' : (r.step i).lineSynch =
          decide (16 * baud v ≤ r.chgCounter.toNat) := by
        show (r.unchanged && r.ckUart) = _
        rw [unchanged_eq hSetup, hLine, hHigh, Bool.and_true]
      rw [hReady] at hLead
      refine .waiting hState' hHigh hRest hSent hPrimed'
        ⟨hPre, hWr⟩ ?_ ?_
      · rw [hSynch', hChg]
        by_cases hFull : r.chgCounter.toNat < 16 * baud v
        · simp only [hFull, if_true, Bool.toNat_false] at hLead ⊢
          omega
        · have hLong : 16 * baud v ≤ r.chgCounter.toNat := by
            omega
          simp only [hFull, hLong, if_false, decide_true,
            Bool.toNat_true, Bool.toNat_false] at hLead ⊢
          omega
      · rw [hChg]
        split_ifs <;> omega

/- An idle receiver passes on the byte it still owes. -/
theorem owed_idle
    (hSteady : Steady v i)
    (hState : r.state = .idle)
    (hZero : r.zeroBaudCounter = false) :
    (r.step i).preWr = false ∧
      (r.step i).oParityErr = false ∧
      strobed r ++ owed (r.step i) = owed r := by
  have hStep : (r.step i).preWr = false ∧
      (r.step i).oData = r.oData ∧
      (r.step i).oWr = r.preWr ∧
      (r.step i).oParityErr = false := by
    simp [step, preWrEdge, oWrEdge, oParityErrEdge,
      RxState.quiet, RxState.waits, hSteady.reset, hState, hZero]
  rcases hStep with ⟨hPre, hData, hWr, hErr⟩
  refine ⟨hPre, hErr, ?_⟩
  simp [owed, strobed, hPre, hData, hWr, hState]

/- Idle on a high line, until a start bit begins. -/
theorem resting_step
    (hBaud : 3 ≤ baud v)
    (hSteady : Steady v i)
    (hSetup : r.rSetup = v)
    (hLine : r.ckUart = s.level)
    (hBreak : r.oBreak = false)
    (hNext : r.qqUart = (s.next (lineCode v) offer).level)
    (hState : r.state = .idle)
    (hHigh : s.level = true)
    (hRest : s.rest = [])
    (hPrimed : Primed v r)
    (hHalf : r.halfBaudTime = false) :
    Goes v (s.next (lineCode v) offer) r (r.step i) s.sent := by
  have hChg := chg_next hSteady hSetup hLine hNext
  have hWaits : r.state.waits = true := by
    simp [hState, RxState.waits]
  have hPrimed' : Primed v (r.step i) :=
    primed_step hBaud hSetup hWaits hPrimed
  rcases owed_idle hSteady hState hPrimed.zero with
    ⟨hPre, hErr, hOwed⟩
  have hState' : (r.step i).state = .idle := by
    simp [step, stateEdge, hSteady.reset, hState, hBreak, hHalf]
  have hHalf' : (r.step i).halfBaudTime = false := by
    rw [half_step hBaud hSetup, hLine, hHigh]
    rfl
  have hStays
      {s' : Sender Bool Byte}
      (hLevel : s'.level = true)
      (hNone : s'.rest = [])
      (hSame : s'.sent = s.sent) :
      Goes v s' r (r.step i) s.sent := by
    have hResting : Phase v s' (r.step i) s'.sent :=
      .resting hState' hLevel hNone hPrimed' hHalf'
        (by simp [hPre])
    rw [hSame] at hResting
    exact goes_same hResting hOwed
  rcases hLeft : s.left with _ | k
  · cases offer with
    | none =>
        rw [Sender.next_mark hLeft hRest]
        exact hStays rfl hRest rfl
    | some d =>
        rw [Sender.next_start d hLeft hRest] at hChg ⊢
        have hZero : (r.step i).chgCounter.toNat = 0 := by
          rw [hChg, hHigh]
          rfl
        have hSince : baud v - 1 - (baud v - 1) = 0 :=
          Nat.sub_self _
        have hHalfPos : 0 < half v := by
          unfold half
          omega
        refine goes_same (.starting d s.sent rfl hState' rfl rfl
          ?_ ?_ hPrimed' ?_ ?_ hErr hPre) hOwed
        · show baud v - 1 < baud v
          omega
        · show baud v - 1 - (baud v - 1) ≤ half v
          omega
        · show _ = baud v - 1 - (baud v - 1)
          rw [hZero, hSince]
        · show _ = decide (half v ≤ baud v - 1 - (baud v - 1))
          rw [hHalf', hSince]
          simp
          omega
  · rw [Sender.next_hold hLeft]
    exact hStays hHigh hRest rfl

end Uart

------------------------------------------------------------
-- Frames
------------------------------------------------------------

namespace Uart

open Clocked Receiver

variable {v : BitVec 30} {r : Receiver} {i : RxIn}
variable {s : Sender Bool Byte} {offer : Option Byte}
variable {bytes : List Byte} {d : Byte}

/- The receiver's first state by the number of data bits. -/
theorem firstBit_rx (bits : BitVec 2) :
    ∃ k : BitVec 3, firstBit bits = .bit k ∧
      k.toNat = 8 - (8 - bits.toNat) := by
  revert bits
  decide

theorem half_bounds (hBaud : 3 ≤ baud v) :
    0 < half v ∧ half v + 1 < baud v := by
  unfold half
  omega

/- A start bit is watched, and half a bit on it is believed. -/
theorem starting_step
    (hBaud : 3 ≤ baud v)
    (hSteady : Steady v i)
    (hSetup : r.rSetup = v)
    (hLine : r.ckUart = s.level)
    (hBreak : r.oBreak = false)
    (hNext : r.qqUart = (s.next (lineCode v) offer).level)
    (hSent : s.sent = bytes ++ [d])
    (hState : r.state = .idle)
    (hLow : s.level = false)
    (hRest : s.rest = payload v d)
    (hLeft : s.left < baud v)
    (hTime : since v s ≤ half v)
    (hPrimed : Primed v r)
    (hChg : r.chgCounter.toNat = since v s)
    (hHalf : r.halfBaudTime = decide (half v ≤ since v s)) :
    Goes v (s.next (lineCode v) offer) r (r.step i) bytes := by
  have hBounds := half_bounds hBaud
  have hMore : 0 < s.left := by
    unfold since at hTime
    omega
  have hHold : s.next (lineCode v) offer =
      { s with left := s.left - 1 } :=
    Sender.next_hold (by omega)
  have hChg' := chg_next hSteady hSetup hLine hNext
  have hWaits : r.state.waits = true := by
    simp [hState, RxState.waits]
  have hPrimed' : Primed v (r.step i) :=
    primed_step hBaud hSetup hWaits hPrimed
  rcases owed_idle hSteady hState hPrimed.zero with
    ⟨hPre, hErr, hOwed⟩
  rw [hHold] at hChg' ⊢
  have hSince : since v { s with left := s.left - 1 } =
      since v s + 1 := by
    unfold since
    show baud v - 1 - (s.left - 1) = baud v - 1 - s.left + 1
    omega
  have hCount : (r.step i).chgCounter.toNat = since v s + 1 := by
    have hShort : since v s < 16 * baud v := by omega
    rw [hChg', if_pos rfl, hChg, if_pos hShort]
  by_cases hMiddle : half v ≤ since v s
  · have hThere : since v s = half v :=
      Nat.le_antisymm hTime hMiddle
    rcases firstBit_rx (dataBits v) with ⟨k, hFirst, hPlace⟩
    have hState' : (r.step i).state = .bit k := by
      simp [step, stateEdge, hSteady.reset, hState, hBreak,
        hLine, hLow, hHalf, hMiddle, hSetup, hFirst]
    have hCalc : (r.step i).calcParity = false := by
      simp [step, calcParityEdge, hState]
    have hAfter : ¬ since v { s with left := s.left - 1 } ≤
        half v := by
      rw [hSince]
      omega
    have hBits := dataCount_bounds (u := v)
    have hUnsampled :
        unsampled v { s with left := s.left - 1 } =
          payload v d := by
      rw [unsampled, if_neg hAfter]
      exact hRest
    have hReceives : Receives v d (r.step i) (payload v d) := by
      have hFrame := Receives.bit 0 k hState'
        (v := v) (d := d) hPlace (by omega)
        (collected_zero _ d) hCalc hErr hPre
      simpa [payload] using hFrame
    refine goes_same (.receiving d bytes hSent ?_ ?_ ?_ ?_ ?_)
      hOwed
    · show s.left - 1 < baud v
      omega
    · show s.rest.length ≤ 11
      rw [hRest]
      exact payload_length d
    · rw [hUnsampled]
      exact hReceives
    · refine ⟨?_, ?_⟩
      · rw [due, if_neg hAfter, hPrimed'.counter, hSince]
        omega
      · rw [due, if_neg hAfter, hPrimed'.zero, hSince]
        simp
        omega
    · intro _
      show (r.step i).chgCounter.toNat +
        baud v * s.rest.length + (s.left - 1) + 1 ≤ 12 * baud v
      have hLength := payload_length (u := v) d
      have hFull : baud v * s.rest.length ≤ baud v * 11 := by
        rw [hRest]
        exact Nat.mul_le_mul_left _ hLength
      rw [hCount]
      unfold since
      omega
  · have hState' : (r.step i).state = .idle := by
      simp [step, stateEdge, hSteady.reset, hState, hBreak,
        hLine, hLow, hHalf, hMiddle]
    have hHalf' : (r.step i).halfBaudTime =
        decide (half v ≤ since v s + 1) := by
      rw [half_step hBaud hSetup, hLine, hLow, hChg]
      rfl
    refine goes_same (.starting d bytes hSent hState' hLow hRest
      ?_ ?_ hPrimed' ?_ ?_ hErr hPre) hOwed
    · show s.left - 1 < baud v
      omega
    · rw [hSince]
      omega
    · rw [hCount, hSince]
    · rw [hHalf', hSince]

theorem receives_more
    {levels : List Bool}
    (hReceives : Receives v d r levels) :
    levels ≠ [] := by
  have hStops : stopLevels v ≠ [] := by
    unfold stopLevels
    split_ifs <;> simp
  cases hReceives with
  | bit => simp [hStops]
  | parity => simp [hStops]
  | stop => exact hStops
  | secondStop => simp

/- The sender between two samples of a frame. -/
theorem sender_between
    (offer : Option Byte)
    (hBaud : 3 ≤ baud v)
    (hLeft : s.left < baud v)
    (hMore : unsampled v s ≠ [])
    (hDue : due v s ≠ 0) :
    (s.next (lineCode v) offer).sent = s.sent ∧
      unsampled v (s.next (lineCode v) offer) = unsampled v s ∧
      due v (s.next (lineCode v) offer) = due v s - 1 ∧
      (s.next (lineCode v) offer).left < baud v ∧
      (s.next (lineCode v) offer).rest.length ≤ s.rest.length ∧
      baud v * (s.next (lineCode v) offer).rest.length +
          (s.next (lineCode v) offer).left + 1 =
        baud v * s.rest.length + s.left := by
  have hBounds := half_bounds hBaud
  rcases hNow : s.left with _ | k
  · have hLate : ¬ since v s ≤ half v := by
      unfold since
      omega
    have hAll : unsampled v s = s.rest := if_neg hLate
    have hNowDue : due v s = half v + 1 := by
      rw [due, if_neg hLate, since, hNow]
      omega
    rw [hAll] at hMore ⊢
    rcases hRest : s.rest with _ | ⟨b, bs⟩
    · exact absurd hRest hMore
    · rw [Sender.next_symbol hNow hRest, hNowDue]
      simp only [unsampled, due, since, lineCode, Nat.sub_self,
        Nat.zero_le, if_true, List.length_cons, Nat.mul_add,
        Nat.mul_one]
      refine ⟨trivial, trivial, ?_, ?_, ?_, ?_⟩
      · omega
      · omega
      · omega
      · omega
  · rw [Sender.next_hold hNow]
    unfold unsampled due since at *
    rw [hNow] at hDue hLeft ⊢
    refine ⟨rfl, ?_, ?_, by simp only []; omega, Nat.le_refl _,
      by simp only []; omega⟩
    · simp only []
      by_cases hEarly : baud v - 1 - (k + 1) ≤ half v
      · have hStill : baud v - 1 - k ≤ half v := by
          rw [if_pos hEarly] at hDue
          omega
        rw [if_pos hEarly, if_pos hStill]
      · have hStill : ¬ baud v - 1 - k ≤ half v := by omega
        rw [if_neg hEarly, if_neg hStill]
    · simp only []
      split_ifs at hDue ⊢ <;> omega

/- The counter and the bound on low levels go along. -/
theorem between_step
    (hBaud : 3 ≤ baud v)
    (hSteady : Steady v i)
    (hSetup : r.rSetup = v)
    (hLine : r.ckUart = s.level)
    (hBreak : r.oBreak = false)
    (hNext : r.qqUart = (s.next (lineCode v) offer).level)
    (hSent : s.sent = bytes ++ [d])
    (hLeft : s.left < baud v)
    (hLevels : s.rest.length ≤ 11)
    (hReceives : Receives v d r (unsampled v s))
    (hCounting : Counting v s r)
    (hLow : s.level = false →
      r.chgCounter.toNat + baud v * s.rest.length +
        s.left + 1 ≤ 12 * baud v)
    (hDue : due v s ≠ 0) :
    Goes v (s.next (lineCode v) offer) r (r.step i) bytes := by
  have hZero : r.zeroBaudCounter = false :=
    Bool.eq_false_iff.mpr (mt hCounting.zero.mp hDue)
  rcases receives_between (i := i) hSteady.reset hBreak hZero
      hReceives with ⟨hReceives', hOwed⟩
  rcases sender_between offer hBaud hLeft
      (receives_more hReceives) hDue with
    ⟨hSent', hUnsampled, hDue', hLeft', hRest', hTotal⟩
  have hChg := chg_next hSteady hSetup hLine hNext
  have hQuiet := (receives_busy hReceives).1
  have hIdle := (receives_busy hReceives).2.2.2.2
  have hCounter : (r.step i).baudCounter.toNat = due v s - 1 := by
    have hOne : (1#28).toNat = 1 := rfl
    have hLt := r.baudCounter.isLt
    have hNow := hCounting.counter
    show (r.baudCounterEdge i).toNat = _
    simp only [baudCounterEdge, hSteady.reset, hZero, hQuiet,
      Bool.or_self, Bool.false_eq_true, if_false,
      BitVec.toNat_sub, hOne]
    omega
  have hZero' : (r.step i).zeroBaudCounter = true ↔
      due v s - 1 = 0 := by
    show (if r.state == .idle then false
      else r.baudCounter == 1#28) = true ↔ _
    simp only [beq_eq_false_iff_ne.mpr hIdle,
      Bool.false_eq_true, if_false, counter_eq_one,
      hCounting.counter]
    omega
  refine goes_same (.receiving d bytes (hSent'.trans hSent) hLeft'
    (Nat.le_trans hRest' hLevels) ?_ ⟨?_, ?_⟩ ?_) hOwed
  · rw [hUnsampled]
    exact hReceives'
  · rw [hCounter, hDue']
  · rw [hZero', hDue']
  · intro hLevel
    rw [hChg]
    have hFull : baud v * s.rest.length ≤ baud v * 11 :=
      Nat.mul_le_mul_left _ hLevels
    split_ifs with hSame hShort
    · rw [hLevel] at hSame
      have hBefore := hLow hSame.symm
      omega
    · rw [hLevel] at hSame
      have hBefore := hLow hSame.symm
      omega
    · omega

/- In the middle of a level the receiver takes it in. -/
theorem middle_step
    (hBaud : 3 ≤ baud v)
    (hSteady : Steady v i)
    (hSetup : r.rSetup = v)
    (hLine : r.ckUart = s.level)
    (hBreak : r.oBreak = false)
    (hNext : r.qqUart = (s.next (lineCode v) offer).level)
    (hSent : s.sent = bytes ++ [d])
    (hLeft : s.left < baud v)
    (hLevels : s.rest.length ≤ 11)
    (hReceives : Receives v d r (unsampled v s))
    (hCounting : Counting v s r)
    (hLow : s.level = false →
      r.chgCounter.toNat + baud v * s.rest.length +
        s.left + 1 ≤ 12 * baud v)
    (hDue : due v s = 0) :
    Goes v (s.next (lineCode v) offer) r (r.step i) bytes := by
  have hBounds := half_bounds hBaud
  have hThere : since v s = half v := by
    unfold due since at hDue
    unfold since
    split_ifs at hDue <;> omega
  have hMore : 0 < s.left := by
    unfold since at hThere
    omega
  have hHold : s.next (lineCode v) offer =
      { s with left := s.left - 1 } :=
    Sender.next_hold (by omega)
  have hSince : since v { s with left := s.left - 1 } =
      half v + 1 := by
    unfold since at hThere ⊢
    show baud v - 1 - (s.left - 1) = half v + 1
    omega
  have hAfter : ¬ since v { s with left := s.left - 1 } ≤
      half v := by
    rw [hSince]
    omega
  have hZero : r.zeroBaudCounter = true := hCounting.zero.mpr hDue
  have hAll : unsampled v s = r.ckUart :: s.rest := by
    rw [unsampled, if_pos (Nat.le_of_eq hThere), hLine]
  have hIdle := (receives_busy hReceives).2.2.2.2
  have hChg := chg_next hSteady hSetup hLine hNext
  have hCounter : (r.step i).baudCounter.toNat = baud v - 1 := by
    show (r.baudCounterEdge i).toNat = _
    simp [baudCounterEdge, hZero, reload_toNat hBaud hSetup]
  have hZero' : (r.step i).zeroBaudCounter = false := by
    have hNotOne : (r.baudCounter == 1#28) = false := by
      rw [← Bool.not_eq_true, counter_eq_one, hCounting.counter,
        hDue]
      decide
    show (if r.state == .idle then false
      else r.baudCounter == 1#28) = false
    rw [hNotOne]
    split_ifs <;> rfl
  rw [hHold] at hChg ⊢
  rw [if_pos rfl] at hChg
  rw [hAll] at hReceives
  have hSampled : ∃ rest, s.rest = rest ∧
      Sampled v d r (r.step i) rest :=
    ⟨_, rfl, receives_sample hSteady.reset hBreak hZero hSetup
      hReceives⟩
  rcases hSampled with ⟨rest, hRest, hSampled⟩
  cases hSampled with
  | going hReceives' hOwed =>
      have hUnsampled :
          unsampled v { s with left := s.left - 1 } = rest := by
        rw [unsampled, if_neg hAfter]
        exact hRest
      refine goes_same (.receiving d bytes hSent ?_ hLevels ?_
        ⟨?_, ?_⟩ ?_) hOwed
      · show s.left - 1 < baud v
        omega
      · rw [hUnsampled]
        exact hReceives'
      · rw [due, if_neg hAfter, hCounter, hSince]
        omega
      · rw [due, if_neg hAfter, hZero', hSince]
        simp
        omega
      · intro hLevel
        have hBefore := hLow hLevel
        show (r.step i).chgCounter.toNat +
          baud v * s.rest.length + (s.left - 1) + 1 ≤ 12 * baud v
        rw [hChg]
        split_ifs <;> omega
  | done hState hLast hSingle hOwed =>
      have hHigh : s.level = true := hLine.symm.trans hLast
      have hHalf : (r.step i).halfBaudTime = false := by
        rw [half_step hBaud hSetup, hLast]
        rfl
      have hResting : Phase v { s with left := s.left - 1 }
          (r.step i) s.sent :=
        .resting hState hHigh hRest ⟨hCounter, hZero'⟩ hHalf
          hSingle
      refine ⟨[d], ?_, hOwed⟩
      rw [← hSent]
      exact hResting

end Uart

------------------------------------------------------------
-- One Clock
------------------------------------------------------------

namespace Uart

open Clocked Receiver

variable {v : BitVec 30} {r : Receiver} {i : RxIn}
variable {s : Sender Bool Byte} {offer : Option Byte}
variable {bytes : List Byte}

theorem phase_step
    (hBaud : 3 ≤ baud v)
    (hSteady : Steady v i)
    (hTuned : Tuned v s r bytes)
    (hNext : r.qqUart = (s.next (lineCode v) offer).level) :
    Goes v (s.next (lineCode v) offer) r (r.step i) bytes := by
  have hSetup := hTuned.setup
  have hLine := hTuned.line
  have hBreak := hTuned.noBreak
  cases hTuned.phase with
  | waiting hState hHigh hRest hSent hPrimed hNone hLead hStay =>
      exact waiting_step hBaud hSteady hSetup hLine hNext hState
        hHigh hRest hSent hPrimed hNone hLead hStay
  | resting hState hHigh hRest hPrimed hHalf =>
      exact resting_step hBaud hSteady hSetup hLine hBreak hNext
        hState hHigh hRest hPrimed hHalf
  | starting d bytes hSent hState hLow hRest hLeft hTime hPrimed
      hChg hHalf =>
      exact starting_step hBaud hSteady hSetup hLine hBreak hNext
        hSent hState hLow hRest hLeft hTime hPrimed hChg hHalf
  | receiving d bytes hSent hLeft hLevels hReceives hCounting
      hLow =>
      by_cases hDue : due v s = 0
      · exact middle_step hBaud hSteady hSetup hLine hBreak hNext
          hSent hLeft hLevels hReceives hCounting hLow hDue
      · exact between_step hBaud hSteady hSetup hLine hBreak hNext
          hSent hLeft hLevels hReceives hCounting hLow hDue

/-
  The receiver stays in tune with the sender; the frames it
  completes are those the sender has sent.
-/
theorem tuned_step
    (hBaud : 3 ≤ baud v)
    (hSteady : Steady v i)
    (hTuned : Tuned v s r bytes)
    (hNext : r.qqUart = (s.next (lineCode v) offer).level) :
    ∃ new,
      Tuned v (s.next (lineCode v) offer) (r.step i)
        (bytes ++ new) ∧
      strobed r ++ owed (r.step i) =
        owed r ++ new.map (shown v) := by
  rcases (phase_step hBaud hSteady hTuned hNext).phase with
    ⟨new, hPhase, hOwed⟩
  refine ⟨new, ⟨?_, hNext, ?_, ?_, ?_, hPhase⟩, hOwed⟩
  · show (if r.state.waits then i.setup.setWidth 30
      else r.rSetup) = v
    rw [hSteady.setup, hTuned.setup, ite_self]
  · show (r.unchanged && !r.ckUart) = false
    rw [unchanged_eq hTuned.setup, hTuned.line]
    cases hLevel : s.level with
    | true => simp
    | false =>
        have hShort := phase_low hTuned.phase hLevel
        simp
        omega
  · show r.oFrameErrEdge = false
    unfold oFrameErrEdge
    rw [hTuned.noFrameErr, hTuned.line]
    split_ifs with hStop
    · simp only [Bool.and_eq_true, Bool.or_eq_true,
        beq_iff_eq] at hStop
      rw [phase_stop hTuned.phase hStop.1 hStop.2]
      rfl
    · rfl
    · rfl
  · exact phase_verdict hSteady hTuned.phase

end Uart
