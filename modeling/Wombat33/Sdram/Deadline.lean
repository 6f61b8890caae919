import Wombat33.Sdram.Memory
import Wombat33.Sdram.Refresh

/-
  No beat takes for ever.

  A rank counts what a beat has still to wait for: its own
  accesses, a refresh that comes first, and the way across
  and back.  Every cycle of the controller's side lowers it;
  on the way back every edge of the machine's clock does.
  The refresh timer can add to it only once.

  Key definitions include:
    * `waits`, `toAccept`
    * `rank`

  Key theorems include:
    * `rank_le`
    * `rank_step`
-/

------------------------------------------------------------
-- The Rank of a Beat
------------------------------------------------------------

namespace Sdram

/- Cycles before the controller can accept an access. -/
def waits (b : Bridge) : Nat :=
  walk b.ctl.state + if pending b then 8 else 0

/- An access has been accepted and is not complete. -/
def underway (b : Bridge) : Bool :=
  b.ctl.state == .wait || b.ctl.state == .rw || landing b

/- Accesses of a beat that are still to be accepted. -/
def accesses (write low accepted : Bool) : Nat :=
  (if write && !low then 2 else 1) - accepted.toNat

def toAccept (b : Bridge) : Nat :=
  accesses b.sys.rWe b.ram.acc (underway b)

/- Cycles of the way to the controller's side. -/
def crossing (b : Bridge) : Nat :=
  if b.ram.reqSync1 != b.ram.reqSeen then 1
  else if b.ram.reqSync0 != b.ram.reqSeen then 2
  else 3

/- Edges of the way back. -/
def returning (b : Bridge) : Nat :=
  if b.sys.ackSync1 != b.sys.ackSeen then 1
  else if b.sys.ackSync0 != b.sys.ackSeen then 2
  else 3

/- The work left if the timer asks for no refresh. -/
def work (b : Bridge) : Nat :=
  if b.asking then 21 + crossing b + waits b
  else 4 + 8 * toAccept b + waits b

def rank (b : Bridge) : Nat :=
  if b.answering then returning b
  else work b + if 771 ≤ b.refcnt + work b then 8 else 0

theorem walk_le (s : State) : walk s ≤ 6 := by
  cases s <;> decide

theorem toAccept_le (b : Bridge) : toAccept b ≤ 2 := by
  unfold toAccept accesses
  split_ifs <;> omega

theorem returning_bounds (b : Bridge) :
    1 ≤ returning b ∧ returning b ≤ 3 := by
  unfold returning
  split_ifs <;> omega

theorem work_le (b : Bridge) : work b ≤ 38 := by
  have hWalk := walk_le b.ctl.state
  have hAccept := toAccept_le b
  unfold work waits crossing
  split_ifs <;> omega

theorem rank_le (b : Bridge) : rank b ≤ 46 := by
  have hWork := work_le b
  have hBack := returning_bounds b
  unfold rank
  split_ifs <;> omega

end Sdram

------------------------------------------------------------
-- Waiting for the Controller
------------------------------------------------------------

namespace Sdram

variable {b : Bridge} {i : In}

/- What a cycle of the service does to the wait. -/
inductive Serves (b : Bridge) (i : In) (extra : Nat) : Prop
  | accepts
      (command : (b.step i).ctl.command = .active)
      (asked : b.rd = true ∨ b.wr = true)
      (state : b.ctl.state = .idle)
      (next : (b.step i).ctl.state = .wait)
      (now : waits b = 0)
      (later : waits (b.step i) ≤ 6 + extra)
  | idles
      (command : (b.step i).ctl.command = .nop)
      (asked : b.rd = false ∧ b.wr = false)
      (state : b.ctl.state = .idle)
      (next : (b.step i).ctl.state = .idle)
      (later : waits (b.step i) ≤ waits b + extra)
  | nears
      (column : b.ctl.state = .rw →
        (b.step i).ctl.command = .read ∨
          (b.step i).ctl.command = .write)
      (opened : b.ctl.state = .wait ↔
        (b.step i).ctl.state = .rw)
      (next : (b.step i).ctl.state ≠ .wait)
      (later : waits (b.step i) + 1 ≤ waits b + extra)

theorem waits_of_kept
    (hOld : (b.step i).ctl.refreshOld = b.ctl.refreshOld) :
    waits (b.step i) ≤
      walk (b.step i).ctl.state +
        (if pending b then 8 else 0) +
          if changes b then 8 else 0 := by
  unfold waits
  rw [pending_step, hOld, pending]
  cases changes b <;> cases b.refresh <;>
    cases b.ctl.refreshOld <;> simp <;> omega

theorem serves_step
    (hMove : Move b.ctl (b.ports i) (b.step i).ctl) :
    Serves b i (if changes b then 8 else 0) := by
  cases hMove with
  | walk hCommand hWalked hOld =>
      have hWaits := waits_of_kept hOld
      rcases hWalked with h | h | h | h | h |
        ⟨hIdle, hNext, hNone, hAsked⟩
      case inr.inr.inr.inr.inr =>
        refine .idles hCommand hAsked hIdle hNext ?_
        rw [hNext] at hWaits
        unfold waits at hWaits ⊢
        rw [hIdle]
        exact hWaits
      all_goals
        refine .nears (by simp [h.1]) (by simp [h.1, h.2])
          (by simp [h.2]) ?_
        rw [h.2] at hWaits
        have hNow : waits b = walk b.ctl.state +
          if pending b then 8 else 0 := rfl
        rw [h.1] at hNow
        simp only [walk] at hWaits hNow
        omega
  | refresh hCommand hDue hIdle hNext hChip hOld =>
      refine .nears (by simp [hIdle]) (by simp [hIdle, hNext])
        (by simp [hNext]) ?_
      have hWaiting : pending b = true := by
        simpa [pending, Bridge.ports] using hDue
      have hSeen : (b.step i).ctl.refreshOld = b.refresh := hOld
      unfold waits
      rw [pending_step, hSeen, hWaiting, hNext, hIdle]
      cases changes b <;> cases b.refresh <;> simp [walk]
  | refreshSecond hCommand hRfsh hNext hChip hOld =>
      have hWaits := waits_of_kept hOld
      refine .nears (by simp [hRfsh]) (by simp [hRfsh, hNext])
        (by simp [hNext]) ?_
      rw [hNext] at hWaits
      have hNow : waits b = walk b.ctl.state +
        if pending b then 8 else 0 := rfl
      rw [hRfsh] at hNow
      simp only [walk] at hWaits hNow
      omega
  | accept hCommand hNone hAsked hIdle hNext hCloses hOld =>
      have hWaits := waits_of_kept hOld
      have hCalm : pending b = false := by
        simpa [pending, Bridge.ports] using hNone
      refine .accepts hCommand hAsked hIdle hNext ?_ ?_
      · simp [waits, hIdle, hCalm, walk]
      · rw [hNext, hCalm] at hWaits
        exact hWaits
  | wait hCommand hWait hNext hSame hOld =>
      have hWaits := waits_of_kept hOld
      refine .nears (by simp [hWait]) (by simp [hWait, hNext])
        (by simp [hNext]) ?_
      rw [hNext] at hWaits
      have hNow : waits b = walk b.ctl.state +
        if pending b then 8 else 0 := rfl
      rw [hWait] at hNow
      simp only [walk] at hWaits hNow
      omega
  | column hCommand hRw hNext hSame hAddr hOld =>
      have hWaits := waits_of_kept hOld
      refine .nears (fun _ => hCommand) (by simp [hRw, hNext])
        (by simp [hNext]) ?_
      rw [hNext] at hWaits
      have hNow : waits b = walk b.ctl.state +
        if pending b then 8 else 0 := rfl
      rw [hRw] at hNow
      simp only [walk] at hWaits hNow
      omega

end Sdram

------------------------------------------------------------
-- One Cycle
------------------------------------------------------------

namespace Sdram

variable {b : Bridge} {i : In}

/- What is accepted is not under way yet. -/
theorem Doing.idle
    (hDoing : Doing b)
    (hState : b.ctl.state = .idle)
    (hAsked : b.rd = true ∨ b.wr = true) :
    underway b = false := by
  have hLanding : landing b = false := by
    cases hDoing with
    | rest h => exact h.landing
    | opened h | column h => simp [hState] at h
    | wrote h => exact absurd h.state (by simp [hState])
    | burst3 h | burst2 h | burst1 h => simp [hState] at h
    | word0 h => exact absurd h.state (by simp [hState])
    | word1 h =>
        simp [Bridge.rd, Bridge.wr, h.double, h.read] at hAsked
  simp [underway, hState, hLanding]

/- A beat asking is not yet known to the controller. -/
theorem work_of_asking
    (hHand : Hand b)
    (hServes : Serves b i (if changes b then 8 else 0))
    (hAsking : b.asking = true) :
    work (b.step i) + 1 ≤
      work b + if changes b then 8 else 0 := by
  rcases hHand.asked hAsking with ⟨hBusy, hIdle, -⟩
  have hFree : b.captures i = false := by
    simp [Bridge.captures, hBusy]
  have hAsks : b.rd = false ∧ b.wr = false := by
    simp [Bridge.rd, Bridge.wr, hIdle]
  have hWaits : waits (b.step i) ≤
      waits b + if changes b then 8 else 0 := by
    cases hServes with
    | accepts _ hAsked => simp [hAsks] at hAsked
    | idles _ _ _ _ hLater => exact hLater
    | nears _ _ _ hLater => omega
  have hAsking' := @asking_step b i hHand
  rw [hFree, hAsking] at hAsking'
  rcases @ram_step b i with ⟨-, hSeen, hSync0, hSync1, -, -⟩
  cases hArrives : b.arrives with
  | true =>
      have hAccept := toAccept_le (b.step i)
      rw [hArrives] at hAsking'
      simp only [work, hAsking, hAsking', if_true, if_false,
        Bool.false_eq_true]
      unfold crossing
      split_ifs at hWaits ⊢ <;> omega
  | false =>
      rw [hArrives] at hAsking' hSeen
      have hSingle : b.ram.rd2 = false := by
        rw [← Bool.not_eq_true]
        intro hSecond
        simp [hHand.second hSecond] at hIdle
      have hSame : b.ram.reqSync1 = b.ram.reqSeen := by
        simpa [Bridge.arrives, hIdle, hSingle] using hArrives
      have hCrossing : crossing (b.step i) + 1 ≤ crossing b := by
        have hTgl : b.sys.reqTgl ≠ b.ram.reqSeen := by
          simpa [Bridge.asking] using hAsking
        simp only [crossing, hSeen, hSync0, hSync1, hSame,
          bne_iff_ne, Bool.false_eq_true, if_false]
        by_cases hFirst : b.ram.reqSync0 = b.ram.reqSeen
        · simp [hFirst, hTgl]
        · simp [hFirst]
      simp only [work, hAsking, hAsking', if_true, if_false,
        Bool.false_eq_true]
      omega

/- A beat at work comes nearer to its end. -/
theorem work_of_working
    (hHand : Hand b)
    (hDoing : Doing b)
    (hAdvance : Advance b i)
    (hServes : Serves b i (if changes b then 8 else 0))
    (hBusy : b.ram.busyR = true)
    (hGoesOn : b.finishes = false) :
    work (b.step i) + 1 ≤
      work b + if changes b then 8 else 0 := by
  have hWe := (@beat_of_busy b i hHand hBusy).2.2.2
  rcases hHand.working hBusy with ⟨hTaken, hNone, -⟩
  have hNone' : (b.step i).asking = false := by
    have hFree : b.captures i = false := by
      simp [Bridge.captures, hTaken]
    have hStill : b.arrives = false := by
      simp [Bridge.arrives, hBusy]
    rw [asking_step hHand, hFree, hStill, hNone]
    rfl
  have hAsked (hQuiet : b.rd = false ∧ b.wr = false) :
      b.finishes = true := by
    have hRead : b.sys.rWe = false := by
      simpa [Bridge.wr, hBusy] using hQuiet.2
    have hSecond : b.ram.rd2 = true := by
      simpa [Bridge.rd, hBusy, hRead] using hQuiet.1
    simp [Bridge.finishes, hSecond]
  suffices hLess : 8 * toAccept (b.step i) + waits (b.step i) +
      1 ≤ 8 * toAccept b + waits b +
        if changes b then 8 else 0 by
    simp only [work, hNone, hNone', if_false,
      Bool.false_eq_true]
    omega
  have hNow : toAccept b =
      accesses b.sys.rWe b.ram.acc (underway b) := rfl
  have hNext : toAccept (b.step i) =
      accesses b.sys.rWe (b.step i).ram.acc
        (underway (b.step i)) := by
    rw [toAccept, hWe]
  cases hServes with
  | idles _ hQuiet =>
      rw [hAsked hQuiet] at hGoesOn
      exact absurd hGoesOn Bool.noConfusion
  | accepts hCommand hAsked hState hNextState hZero hLater =>
      have hIdle := hDoing.idle hState hAsked
      have hUnder : underway (b.step i) = true := by
        simp [underway, hNextState]
      have hAcc : (b.step i).ram.acc = b.ram.acc := by
        cases hAdvance with
        | stays _ _ hHalf => exact hHalf hBusy
        | writes _ _ _ _ hHalf => exact hHalf
        | reads _ _ hRead => simp [hCommand] at hRead
        | halves _ _ _ _ hLands =>
            simp [underway, hLands.1] at hIdle
        | ends _ _ _ _ hLands =>
            simp [underway, hLands] at hIdle
        | answers _ _ _ hLands =>
            simp [underway, hLands] at hIdle
      have hOne : toAccept (b.step i) + 1 = toAccept b := by
        rw [hNow, hNext, hIdle, hUnder, hAcc]
        cases b.sys.rWe <;> cases b.ram.acc <;> rfl
      omega
  | nears hColumn hOpened hNextState hLater =>
      suffices hLe : toAccept (b.step i) ≤ toAccept b by
        omega
      cases hAdvance with
      | stays hQuiet _ hHalf _ hLanded =>
          have hRw : b.ctl.state ≠ .rw := by
            intro hRw
            rcases hColumn hRw with h | h
            · exact hQuiet.1 h
            · exact hQuiet.2 h
          have hUnder : underway (b.step i) = underway b := by
            unfold underway
            rw [hLanded hBusy]
            by_cases hWait : b.ctl.state = .wait
            · simp [hWait, hOpened.mp hWait]
            · have hRw' : (b.step i).ctl.state ≠ .rw :=
                fun h => hWait (hOpened.mpr h)
              rw [beq_false_of_ne hWait, beq_false_of_ne hRw,
                beq_false_of_ne hRw', beq_false_of_ne hNextState]
          have hSame : toAccept (b.step i) = toAccept b := by
            rw [hNow, hNext, hUnder, hHalf hBusy]
          exact Nat.le_of_eq hSame
      | writes _ _ _ _ hHalf hFlies =>
          have hUnder : underway (b.step i) = true := by
            simp [underway, hFlies.2]
          rw [hNow, hNext, hUnder, hHalf]
          cases b.sys.rWe <;> cases b.ram.acc <;>
            cases underway b <;> decide
      | reads _ hRead _ hFlies =>
          have hUnder : underway (b.step i) = true := by
            simp [underway, hFlies.2]
          rw [hNow, hNext, hUnder, hRead]
          exact Nat.zero_le _
      | halves _ hWrite _ hHalf hLands =>
          have hUnder : underway b = true := by
            simp [underway, hLands.1]
          rw [hNow, hNext, hUnder, hWrite, hHalf.1, hHalf.2]
          cases underway (b.step i) <;> decide
      | ends _ _ _ _ _ hDone =>
          rw [hDone] at hGoesOn
          exact absurd hGoesOn Bool.noConfusion
      | answers _ _ _ _ hDone =>
          rw [hDone] at hGoesOn
          exact absurd hGoesOn Bool.noConfusion

/- The way back takes an edge of the machine's clock a step. -/
theorem returning_step
    (hHand : Hand b)
    (hBetween : Between b i)
    (hAnswering : b.answering = true) :
    returning (b.step i) + i.sys.toNat ≤ returning b := by
  rcases @sys_step b i with ⟨-, -, -, hSeen, hSync0, hSync1⟩
  rw [hBetween.back] at hSeen
  have hBusy := (hHand.answered hAnswering).1
  have hBack := hBetween.back
  simp only [Bridge.returns, hBusy, Bool.and_true] at hBack
  have hTgl : b.ram.ackTgl ≠ b.sys.ackSeen := by
    simpa [Bridge.answering] using hAnswering
  simp only [returning, hSeen, hSync0, hSync1]
  cases hSys : i.sys with
  | false => simp
  | true =>
      have hSame : b.sys.ackSync1 = b.sys.ackSeen := by
        simpa [hSys] using hBack
      by_cases hFirst : b.sys.ackSync0 = b.sys.ackSeen
      · simp [hFirst, hSame, hTgl]
      · simp [hFirst, hSame]

/- Every cycle of a beat lowers its rank. -/
theorem rank_step
    (hHand : Hand b)
    (hDoing : Doing b)
    (hAdvance : Advance b i)
    (hMove : Move b.ctl (b.ports i) (b.step i).ctl)
    (hTimer : b.refcnt ≤ 771)
    (hBetween : Between b i)
    (hBusy : b.sys.busy = true) :
    rank (b.step i) + i.sys.toNat ≤ rank b := by
  have hSys : i.sys.toNat ≤ 1 := by cases i.sys <;> decide
  have hAnswers := hBetween.answering hHand
  have hBack := returning_bounds (b.step i)
  have hWork := work_le (b.step i)
  have hServes := serves_step hMove
  have hCount := @refcnt_step b i hTimer
  cases hNow : b.answering with
  | true =>
      rw [hNow, Bool.or_true] at hAnswers
      simp only [rank, hNow, hAnswers, if_true]
      exact returning_step hHand hBetween hNow
  | false =>
      rw [hNow, Bool.or_false] at hAnswers
      cases hDone : b.finishes with
      | true =>
          rw [hDone] at hAnswers
          have hLow : 4 ≤ work b := by
            unfold work
            split_ifs <;> omega
          simp only [rank, hNow, hAnswers, if_true, if_false,
            Bool.false_eq_true]
          omega
      | false =>
          rw [hDone] at hAnswers
          have hLess : work (b.step i) + 1 ≤
              work b + if changes b then 8 else 0 := by
            rcases hHand.taken hBusy with h | h | h
            · exact work_of_asking hHand hServes h
            · exact work_of_working hHand hDoing hAdvance
                hServes h hDone
            · exact absurd (hNow.symm.trans h) Bool.noConfusion
          simp only [rank, hNow, hAnswers, if_false,
            Bool.false_eq_true, hCount]
          cases hFires : changes b with
          | true =>
              rw [hFires] at hLess
              simp only [changes, beq_iff_eq] at hFires
              simp only [hFires, if_true] at hLess ⊢
              split_ifs <;> omega
          | false =>
              rw [hFires] at hLess
              simp only [Bool.false_eq_true, if_false]
                at hLess ⊢
              split_ifs <;> omega

end Sdram
