import Wombat33.Via6522.Chip

/-
  The interrupts of the two timers.

  A timer that is written counts down to zero; it raises its
  event two ticks later than its count says, one tick to show
  the end and one to reload.  Everything is about whole runs,
  with any accesses to the other registers in between.

  Key definitions include:
    * `ticks`, `dueA`
    * `OneShot`, `FreeRun`, `Timed`

  Key theorems include:
    * `timerA_one_shot`, `timerA_free_run`
    * `timerB_one_shot`
-/

------------------------------------------------------------
-- Timer 1
------------------------------------------------------------

namespace Via6522

open Clocked

/- The ticks of a run. -/
def ticks (is : List In) : Nat := is.countP In.timerTick

@[simp] theorem ticks_nil : ticks [] = 0 := rfl

theorem ticks_cons (i : In) (is : List In) :
    ticks (i :: is) = ticks is + if i.timerTick then 1 else 0 :=
  List.countP_cons

/- The ticks before the one that finds the timer at its end. -/
def dueA (t : TimerA) : Nat :=
  if t.reload then 0 else t.count.toNat + 1

/- Timer 1 is neither reset nor written. -/
structure Left (i : In) : Prop where
  reset : i.reset = false
  written : i.writes rT1CH = false

/- And in one-shot mode. -/
structure OneShot (s : Via) (i : In) : Prop extends Left i where
  mode : tmrAFreerun s = false

/- Or in free-run mode, its latch left as it is. -/
structure FreeRun (s : Via) (i : In) : Prop extends Left i where
  mode : tmrAFreerun s = true
  low : writeT1CL i = false
  high : i.writes rT1LH = false

variable {s : Via} {i : In} {is : List In}

theorem timerA_still
    (hLeft : Left i)
    (hTick : i.timerTick = false) :
    dueA (s.step i).timerA = dueA s.timerA ∧
      (s.step i).timerA.mayInterrupt = s.timerA.mayInterrupt := by
  simp [Via.step, timerAEdge, dueA, hLeft.reset, hLeft.written,
    hTick]

/- A tick of the timer that is not yet at its end. -/
theorem timerA_count
    (hLeft : Left i)
    (hTick : i.timerTick = true)
    (hDue : 0 < dueA s.timerA) :
    dueA (s.step i).timerA = dueA s.timerA - 1 ∧
      (s.step i).timerA.mayInterrupt = s.timerA.mayInterrupt := by
  have hReload : s.timerA.reload = false := by
    unfold dueA at hDue
    split_ifs at hDue with hReload
    · omega
    · simpa using hReload
  have hStep : (s.step i).timerA.count = s.timerA.count - 1#16 ∧
      (s.step i).timerA.reload = (s.timerA.count == 0#16) ∧
      (s.step i).timerA.mayInterrupt =
        s.timerA.mayInterrupt := by
    simp [Via.step, timerAEdge, tickA, hLeft.reset,
      hLeft.written, hTick, hReload]
  rcases hStep with ⟨hCount, hEnd, hMay⟩
  refine ⟨?_, hMay⟩
  simp only [dueA, hReload, hEnd, hCount, beq_iff_eq,
    Bool.false_eq_true, if_false]
  by_cases hZero : s.timerA.count = 0#16
  · simp [hZero]
  · have hPos : s.timerA.count.toNat ≠ 0 := fun hNat =>
      hZero (BitVec.eq_of_toNat_eq hNat)
    have hOne : (1#16).toNat = 1 := rfl
    have hLt := s.timerA.count.isLt
    rw [if_neg hZero, BitVec.toNat_sub, hOne]
    omega

/- The tick of the event: the latch is loaded. -/
theorem timerA_reload
    (hLeft : Left i)
    (hTick : i.timerTick = true)
    (hDue : dueA s.timerA = 0) :
    (s.step i).timerA.reload = false ∧
      (s.step i).timerA.mayInterrupt =
        (s.timerA.mayInterrupt && tmrAFreerun s) ∧
      (writeT1CL i = false →
        (s.step i).timerA.count = s.timerA.latch) := by
  have hReload : s.timerA.reload = true := by
    unfold dueA at hDue
    split_ifs at hDue with hReload
    exact hReload
  simp +contextual [Via.step, timerAEdge, tickA, hLeft.reset,
    hLeft.written, hTick, hReload]

theorem timerA_event :
    timerAEvent s i =
      (i.timerTick && decide (dueA s.timerA = 0) &&
        s.timerA.mayInterrupt) := by
  unfold timerAEvent dueA
  cases s.timerA.reload <;> simp

theorem timerA_over
    (hLeft : Left i)
    (hMay : s.timerA.mayInterrupt = false) :
    (s.step i).timerA.mayInterrupt = false := by
  cases hTick : i.timerTick with
  | false => rw [(timerA_still hLeft hTick).2, hMay]
  | true =>
      by_cases hDue : dueA s.timerA = 0
      · rw [(timerA_reload hLeft hTick hDue).2.1, hMay]
        rfl
      · rw [(timerA_count hLeft hTick
          (Nat.pos_of_ne_zero hDue)).2, hMay]

/- A timer that may not interrupt does not, until written. -/
theorem timerA_silent
    (hAlong : Along Via.step (fun _ i => Left i) s is)
    (hMay : s.timerA.mayInterrupt = false) :
    enabledCount Via.step timerAEvent s is = 0 := by
  induction is generalizing s with
  | nil => rfl
  | cons i is ih =>
      have hLeft := hAlong.1
      have hNext := timerA_over hLeft hMay
      have hEvent : timerAEvent s i = false := by
        rw [timerA_event, hMay, Bool.and_false]
      rw [enabledCount, hEvent, ih hAlong.2 hNext]
      rfl

/- One event, at the tick that is due. -/
theorem oneShot_events
    (hAlong : Along Via.step OneShot s is)
    (hMay : s.timerA.mayInterrupt = true) :
    enabledCount Via.step timerAEvent s is =
      if dueA s.timerA < ticks is then 1 else 0 := by
  induction is generalizing s with
  | nil => simp [enabledCount]
  | cons i is ih =>
      have hOne : OneShot s i := hAlong.1
      have hLeft : Left i := hOne.toLeft
      rw [enabledCount, timerA_event, hMay, ticks_cons]
      cases hTick : i.timerTick with
      | false =>
          rcases timerA_still (s := s) hLeft hTick with
            ⟨hDue, hStill⟩
          rw [ih hAlong.2 (hStill.trans hMay), hDue]
          simp
      | true =>
          by_cases hDue : dueA s.timerA = 0
          · have hReload := timerA_reload hLeft hTick hDue
            have hOver : (s.step i).timerA.mayInterrupt =
                false := by
              rw [hReload.2.1, hOne.mode, Bool.and_false]
            have hSilent := timerA_silent (s := s.step i)
              (along_mono (fun _ _ hOk => hOk.toLeft) hAlong.2)
              hOver
            rw [hSilent, hDue]
            simp
          · rcases timerA_count hLeft hTick
              (Nat.pos_of_ne_zero hDue) with ⟨hLess, hStill⟩
            rw [ih hAlong.2 (hStill.trans hMay), hLess]
            simp only [hDue, Bool.and_true, decide_false,
              Bool.and_false, Bool.false_eq_true, if_false,
              if_true]
            split_ifs <;> omega

/- The latch is not written. -/
theorem latch_still (hFree : FreeRun s i) :
    (s.step i).timerA.latch = s.timerA.latch := by
  simp [Via.step, timerAEdge, latchAEdge, hFree.reset, hFree.low,
    hFree.high, hFree.written]

/- One event in each turn of the latch's count and two ticks. -/
theorem freeRun_events
    (hAlong : Along Via.step FreeRun s is)
    (hMay : s.timerA.mayInterrupt = true)
    (hDue : dueA s.timerA ≤ s.timerA.latch.toNat + 1) :
    enabledCount Via.step timerAEvent s is =
      (ticks is + (s.timerA.latch.toNat + 1 - dueA s.timerA)) /
        (s.timerA.latch.toNat + 2) := by
  induction is generalizing s with
  | nil =>
      symm
      rw [ticks_nil, Nat.zero_add]
      exact Nat.div_eq_of_lt (by omega)
  | cons i is ih =>
      have hFree : FreeRun s i := hAlong.1
      have hLeft : Left i := hFree.toLeft
      have hLatch := latch_still hFree
      rw [enabledCount, timerA_event, hMay, ticks_cons]
      cases hTick : i.timerTick with
      | false =>
          rcases timerA_still (s := s) hLeft hTick with
            ⟨hSame, hStill⟩
          have hRest := ih hAlong.2 (hStill.trans hMay)
            (by rw [hSame, hLatch]; exact hDue)
          rw [hSame, hLatch] at hRest
          rw [hRest]
          simp
      | true =>
          by_cases hZero : dueA s.timerA = 0
          · rcases timerA_reload hLeft hTick hZero with
              ⟨hReload, hGoes, hCount⟩
            have hAgain : (s.step i).timerA.mayInterrupt =
                true := by
              rw [hGoes, hMay, hFree.mode]
              rfl
            have hFull : dueA (s.step i).timerA =
                s.timerA.latch.toNat + 1 := by
              simp [dueA, hReload, hCount hFree.low]
            have hRest := ih hAlong.2 hAgain
              (Nat.le_of_eq (by rw [hFull, hLatch]))
            rw [hFull, hLatch, Nat.sub_self, Nat.add_zero]
              at hRest
            have hTurn : ticks is + 1 +
                (s.timerA.latch.toNat + 1) =
                ticks is + (s.timerA.latch.toNat + 2) := by
              omega
            rw [hRest, hZero, Nat.sub_zero, if_pos rfl, hTurn,
              Nat.add_div_right _ (by omega)]
            simp [Nat.add_comm]
          · rcases timerA_count hLeft hTick
              (Nat.pos_of_ne_zero hZero) with ⟨hLess, hStill⟩
            have hRest := ih hAlong.2 (hStill.trans hMay)
              (by rw [hLess, hLatch]; omega)
            rw [hLess, hLatch] at hRest
            have hSum : ticks is + (s.timerA.latch.toNat + 1 -
                (dueA s.timerA - 1)) =
                ticks is + 1 + (s.timerA.latch.toNat + 1 -
                  dueA s.timerA) := by
              omega
            rw [hRest, hSum, if_pos rfl]
            simp [hZero]

end Via6522

------------------------------------------------------------
-- Timer 1 Written
------------------------------------------------------------

namespace Via6522

open Clocked

variable {s : Via} {i : In} {is : List In}

/- The count that a write of the high byte starts. -/
def startCount (s : Via) (i : In) : Nat :=
  (setHigh s.timerA.latch i.dataIn).toNat

theorem timerA_start
    (hReset : i.reset = false)
    (hWrite : i.writes rT1CH = true) :
    (s.step i).timerA.mayInterrupt = true ∧
      dueA (s.step i).timerA = startCount s i + 1 ∧
      (s.step i).timerA.latch.toNat = startCount s i ∧
      (s.step i).timerA.toggle = !tmrAOutputEn s := by
  have hAddr : i.addr = rT1CH := by
    simp only [In.writes, Bool.and_eq_true, beq_iff_eq] at hWrite
    exact hWrite.2
  have hLow : writeT1CL i = false := by
    simp [writeT1CL, In.writes, hAddr, rT1CH, rT1CL, rT1LL]
  simp [Via.step, timerAEdge, latchAEdge, dueA, startCount,
    hReset, hWrite, hLow]

/- The output toggles with every event. -/
theorem toggle_run
    (hAlong : Along Via.step
      (fun s i => Left i ∧ tmrAOutputEn s = true) s is) :
    (run Via.step s is).timerA.toggle =
      (s.timerA.toggle ^^
        decide (enabledCount Via.step timerAEvent s is % 2 =
          1)) := by
  induction is generalizing s with
  | nil => simp [enabledCount]
  | cons i is ih =>
      have hLeft := hAlong.1.1
      have hOut := hAlong.1.2
      have hStep : (s.step i).timerA.toggle =
          (s.timerA.toggle ^^ timerAEvent s i) := by
        simp [Via.step, timerAEdge, hLeft.reset, hLeft.written,
          hOut]
      rw [run_cons, ih hAlong.2, hStep, enabledCount]
      cases hEvent : timerAEvent s i with
      | false => simp
      | true =>
          have hOdd (n : Nat) :
              decide ((1 + n) % 2 = 1) = !decide (n % 2 = 1) := by
            rw [← decide_not, decide_eq_decide]
            omega
          rw [if_pos rfl, hOdd]
          cases s.timerA.toggle <;> simp

theorem portBO_toggle (hOut : tmrAOutputEn s = true) :
    (portBO s).getLsbD 7 = s.timerA.toggle := by
  rw [portBO, if_pos hOut, BitVec.getLsbD_append]
  simp

/- The output is on all along. -/
theorem output_along
    (hLeft : Along Via.step (fun _ i => Left i) s is)
    (hOut : Always Via.step (fun s => tmrAOutputEn s = true)
      s is) :
    Along Via.step (fun s i => Left i ∧ tmrAOutputEn s = true)
      s is := by
  induction is generalizing s with
  | nil => trivial
  | cons i is ih =>
      rw [always_cons] at hOut
      exact ⟨⟨hLeft.1, hOut.1⟩, ih hLeft.2 hOut.2⟩

/-
  A one-shot raises its event once, at the tick two beyond its
  count, whatever the latch and the other registers are set to
  meanwhile; PB7, where it is the output, is low until then.
-/
theorem timerA_one_shot
    (s : Via)
    (i : In)
    (is : List In)
    (hReset : i.reset = false)
    (hWrite : i.writes rT1CH = true)
    (hAlong : Along Via.step OneShot (s.step i) is) :
    enabledCount Via.step timerAEvent (s.step i) is =
        (if startCount s i + 2 ≤ ticks is then 1 else 0) ∧
      (tmrAOutputEn s = true →
        Always Via.step (fun s => tmrAOutputEn s = true)
          (s.step i) is →
        (portBO (run Via.step (s.step i) is)).getLsbD 7 =
          decide (startCount s i + 2 ≤ ticks is)) := by
  rcases timerA_start hReset hWrite with
    ⟨hMay, hDue, -, hToggle⟩
  have hEvents := oneShot_events hAlong hMay
  rw [hDue] at hEvents
  have hLess : startCount s i + 1 < ticks is ↔
      startCount s i + 2 ≤ ticks is :=
    Iff.rfl
  rw [if_congr hLess rfl rfl] at hEvents
  refine ⟨hEvents, fun hOn hOut => ?_⟩
  have hLast := hOut is List.prefix_rfl
  rw [portBO_toggle hLast, toggle_run (output_along
    (along_mono (fun _ _ hOk => hOk.toLeft) hAlong) hOut),
    hEvents, hToggle, hOn]
  split_ifs with hTime
  · simp [hTime]
  · simp [hTime]

/- A shot of three ticks with PB7 as the output. -/
def pulseVia : Via := { (default : Via) with acr := 0x80#8 }

def startT1 : In :=
  { falling := true, wen := true, addr := rT1CH,
    dataIn := 0x00#8 }

def threeTicks : List In :=
  List.replicate 3 { timerTick := true }

theorem timerA_one_shot_pulse :
    enabledCount Via.step timerAEvent (pulseVia.step startT1)
        threeTicks =
        (if startCount pulseVia startT1 + 2 ≤ ticks threeTicks
          then 1 else 0) ∧
      (portBO (run Via.step (pulseVia.step startT1)
        threeTicks)).getLsbD 7 =
        decide (startCount pulseVia startT1 + 2 ≤
          ticks threeTicks) := by
  have hShot := timerA_one_shot pulseVia startT1 threeTicks rfl rfl
    ⟨⟨⟨rfl, rfl⟩, rfl⟩, ⟨⟨rfl, rfl⟩, rfl⟩,
      ⟨⟨rfl, rfl⟩, rfl⟩, trivial⟩
  refine ⟨hShot.1, hShot.2 rfl ?_⟩
  simp only [threeTicks, List.replicate, always_cons, always_nil]
  exact ⟨rfl, rfl, rfl, rfl⟩

/-
  In free-run mode events come at every turn of the count and
  two ticks, and PB7 is a square wave of them.
-/
theorem timerA_free_run
    (s : Via)
    (i : In)
    (is : List In)
    (hReset : i.reset = false)
    (hWrite : i.writes rT1CH = true)
    (hAlong : Along Via.step FreeRun (s.step i) is) :
    enabledCount Via.step timerAEvent (s.step i) is =
        ticks is / (startCount s i + 2) ∧
      (tmrAOutputEn s = true →
        Always Via.step (fun s => tmrAOutputEn s = true)
          (s.step i) is →
        (portBO (run Via.step (s.step i) is)).getLsbD 7 =
          decide (ticks is / (startCount s i + 2) % 2 = 1)) := by
  rcases timerA_start hReset hWrite with
    ⟨hMay, hDue, hLatch, hToggle⟩
  have hEvents := freeRun_events hAlong hMay
    (Nat.le_of_eq (by rw [hDue, hLatch]))
  rw [hDue, hLatch, Nat.sub_self, Nat.add_zero] at hEvents
  refine ⟨hEvents, fun hOn hOut => ?_⟩
  have hLast := hOut is List.prefix_rfl
  rw [portBO_toggle hLast, toggle_run (output_along
    (along_mono (fun _ _ hOk => hOk.toLeft) hAlong) hOut),
    hEvents, hToggle, hOn]
  simp

/- A square wave of a tick high and a tick low. -/
def waveVia : Via := { (default : Via) with acr := 0xC0#8 }

theorem timerA_free_run_wave :
    enabledCount Via.step timerAEvent (waveVia.step startT1)
        threeTicks =
        ticks threeTicks / (startCount waveVia startT1 + 2) ∧
      (portBO (run Via.step (waveVia.step startT1)
        threeTicks)).getLsbD 7 =
        decide (ticks threeTicks /
          (startCount waveVia startT1 + 2) % 2 = 1) := by
  have hWave := timerA_free_run waveVia startT1 threeTicks rfl rfl
    ⟨⟨⟨rfl, rfl⟩, rfl, rfl, rfl⟩,
      ⟨⟨rfl, rfl⟩, rfl, rfl, rfl⟩,
      ⟨⟨rfl, rfl⟩, rfl, rfl, rfl⟩, trivial⟩
  refine ⟨hWave.1, hWave.2 rfl ?_⟩
  simp only [threeTicks, List.replicate, always_cons, always_nil]
  exact ⟨rfl, rfl, rfl, rfl⟩

end Via6522

------------------------------------------------------------
-- Timer 2
------------------------------------------------------------

namespace Via6522

open Clocked

/- Timer 2 counts ticks and is neither reset nor written. -/
structure Timed (s : Via) (i : In) : Prop where
  reset : i.reset = false
  written : i.writes rT2CH = false
  mode : tmrBCountMode s = false
  apart : shiftTimed s = false

variable {s : Via} {i : In} {is : List In}

theorem timerB_still
    (hTimed : Timed s i)
    (hTick : i.timerTick = false) :
    (s.step i).timerB.count = s.timerB.count ∧
      (s.step i).timerB.oneshotTrig = s.timerB.oneshotTrig ∧
      (s.step i).timerB.timeout = s.timerB.timeout ∧
      (s.step i).timerB.reloadLo = s.timerB.reloadLo := by
  simp [Via.step, timerBEdge, hTimed.reset, hTimed.written,
    hTick]

theorem timerB_tick
    (hTimed : Timed s i)
    (hTick : i.timerTick = true)
    (hReload : s.timerB.reloadLo = false) :
    (s.step i).timerB.count = s.timerB.count - 1#16 ∧
      (s.step i).timerB.oneshotTrig =
        (s.timerB.oneshotTrig && s.timerB.count != 0#16) ∧
      (s.step i).timerB.timeout =
        (s.timerB.count == 0#16 && s.timerB.oneshotTrig) ∧
      (s.step i).timerB.reloadLo = false := by
  simp [Via.step, timerBEdge, tickB, decrements, hTimed.reset,
    hTimed.written, hTimed.mode, hTimed.apart, hTick, hReload,
    bne]

/- The event of a shot that has ended, and of one that runs. -/
theorem timed_events
    (hAlong : Along Via.step Timed s is)
    (hReload : s.timerB.reloadLo = false) :
    enabledCount Via.step timerBEvent s is =
      (if s.timerB.timeout ∧ 1 ≤ ticks is then 1 else 0) +
        (if s.timerB.oneshotTrig ∧
            s.timerB.count.toNat + 2 ≤ ticks is then 1
          else 0) := by
  induction is generalizing s with
  | nil => simp [enabledCount]
  | cons i is ih =>
      have hTimed : Timed s i := hAlong.1
      rw [enabledCount, timerBEvent, ticks_cons]
      cases hTick : i.timerTick with
      | false =>
          rcases timerB_still hTimed hTick with
            ⟨hCount, hTrig, hTimeout, hStill⟩
          rw [ih hAlong.2 (hStill.trans hReload), hCount, hTrig,
            hTimeout]
          simp
      | true =>
          rcases timerB_tick hTimed hTick hReload with
            ⟨hCount, hTrig, hTimeout, hStill⟩
          rw [ih hAlong.2 hStill, hCount, hTrig, hTimeout]
          by_cases hZero : s.timerB.count = 0#16
          · cases s.timerB.timeout <;>
              cases s.timerB.oneshotTrig <;> simp [hZero]
          · have hPos : s.timerB.count.toNat ≠ 0 := fun hNat =>
              hZero (BitVec.eq_of_toNat_eq hNat)
            have hOne : (1#16).toNat = 1 := rfl
            have hLt := s.timerB.count.isLt
            have hLess : (s.timerB.count - 1#16).toNat + 2 ≤
                ticks is ↔
                s.timerB.count.toNat + 2 ≤ ticks is + 1 := by
              rw [BitVec.toNat_sub, hOne]
              omega
            have hNot : (s.timerB.count == 0#16) = false :=
              beq_eq_false_iff_ne.mpr hZero
            simp only [hNot, hLess, bne, Bool.not_false,
              Bool.and_true, Bool.false_and, Bool.true_and,
              Bool.false_eq_true, false_and, if_false, if_true,
              Nat.zero_add, Nat.le_add_left, and_true]

/- A new shot, written at the tick at which the old one ends. -/
def endingVia : Via :=
  { (default : Via) with
    timerB := { (default : TimerB) with oneshotTrig := true } }

def startT2 : In :=
  { timerTick := true, falling := true, wen := true
    addr := rT2CH, dataIn := 0x01#8 }

end Via6522
