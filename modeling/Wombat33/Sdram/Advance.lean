import Wombat33.Sdram.Access

/-
  What each cycle does to an access.

  Every cycle takes an access from one stage to the next, and
  the bridge either lets it go on, sees it reach the chip, or
  takes its completion.  The power-up sequence has no access,
  but its end raises `ready` as a completion does.

  Key definitions include:
    * `landing`
    * `Advance`

  Key theorems include:
    * `doing_step`
    * `completes_of_startup`
-/

------------------------------------------------------------
-- What a Cycle Does to an Access
------------------------------------------------------------

namespace Sdram

/- An access is at the chip, its completion is to come. -/
def landing (b : Bridge) : Bool :=
  b.ctl.dataReadyDelay != 0#3 || b.completes || b.ram.rd2

/- What a cycle does to the access under way. -/
inductive Advance (b : Bridge) (i : In) : Prop
  /- nothing -/
  | stays
      (quiet : (b.step i).ctl.command ≠ .read ∧
        (b.step i).ctl.command ≠ .write)
      (goesOn : b.finishes = false)
      (half : b.ram.busyR = true →
        (b.step i).ram.acc = b.ram.acc)
      (arrived : b.ram.busyR = false →
        landing (b.step i) = false ∧
          ((b.step i).ram.busyR = true →
            (b.step i).ram.acc = false))
      (landed : b.ram.busyR = true →
        landing (b.step i) = landing b)
      (rises : b.completes = true →
        b.sys.rWe = false ∧ landing b = true)
  /- it reaches the chip -/
  | writes
      (busy : b.ram.busyR = true)
      (write : b.sys.rWe = true)
      (command : (b.step i).ctl.command = .write)
      (cells : ∀ v, cell (b.step i) v =
        if v = b.word then mergeHalf b.bs b.din (cell b v)
        else cell b v)
      (half : (b.step i).ram.acc = b.ram.acc)
      (flies : landing b = false ∧ landing (b.step i) = true)
      (goesOn : b.finishes = false)
      (rises : b.completes = false)
  | reads
      (busy : b.ram.busyR = true)
      (read : b.sys.rWe = false)
      (command : (b.step i).ctl.command = .read)
      (flies : landing b = false ∧ landing (b.step i) = true)
      (goesOn : b.finishes = false)
      (rises : b.completes = false)
  /- a half is complete, and the other one's turn comes -/
  | halves
      (busy : b.ram.busyR = true)
      (write : b.sys.rWe = true)
      (quiet : (b.step i).ctl.command ≠ .read ∧
        (b.step i).ctl.command ≠ .write)
      (half : b.ram.acc = false ∧ (b.step i).ram.acc = true)
      (lands : landing b = true ∧ landing (b.step i) = false)
      (goesOn : b.finishes = false)
  /- the beat is complete -/
  | ends
      (busy : b.ram.busyR = true)
      (write : b.sys.rWe = true)
      (quiet : (b.step i).ctl.command ≠ .read ∧
        (b.step i).ctl.command ≠ .write)
      (half : b.ram.acc = true)
      (lands : landing b = true)
      (done : b.finishes = true)
  | answers
      (busy : b.ram.busyR = true)
      (read : b.sys.rWe = false)
      (quiet : (b.step i).ctl.command ≠ .read ∧
        (b.step i).ctl.command ≠ .write)
      (lands : landing b = true)
      (done : b.finishes = true)
      (rises : b.completes = false)
      (hold : (b.step i).ram.hold = b.cell0 ++ b.cell1)

variable {b : Bridge} {i : In}

theorem Rest.landing (hRest : Rest b) : landing b = false := by
  have hLevel : b.completes = false := by
    cases hBusy : b.ram.busyR with
    | true => exact hRest.level hBusy
    | false => simp [Bridge.completes, hBusy]
  simp [Sdram.landing, hRest.delay, hRest.single, hLevel]

theorem Open.landing (hOpen : Open b) : landing b = false := by
  simp [Sdram.landing, hOpen.delay, hOpen.single,
    completes_of_low hOpen.low]

theorem Wrote.completes (hWrote : Wrote b) :
    b.completes = true := by
  simp [Bridge.completes, hWrote.busy, hWrote.single,
    hWrote.ready, hWrote.rises]

theorem Word0.completes (hWord : Word0 b) :
    b.completes = true := by
  simp [Bridge.completes, hWord.busy, hWord.single,
    hWord.ready, hWord.rises]

theorem Wrote.landing (hWrote : Wrote b) :
    landing b = true := by
  simp [Sdram.landing, hWrote.completes]

theorem Word0.landing (hWord : Word0 b) : landing b = true := by
  simp [Sdram.landing, hWord.completes]

theorem Word1.landing (hWord : Word1 b) : landing b = true := by
  simp [Sdram.landing, hWord.double]

/- The second word is only ever awaited in an access. -/
theorem Doing.second
    (hDoing : Doing b)
    (hSecond : b.ram.rd2 = true) : b.ram.busyR = true := by
  cases hDoing with
  | rest h => exact absurd (h.single.symm.trans hSecond) Bool.noConfusion
  | opened _ h | column _ h => exact h.busy
  | wrote h => exact h.busy
  | burst3 _ _ h | burst2 _ _ h | burst1 _ _ h => exact h.busy
  | word0 h => exact h.busy
  | word1 h => exact h.busy

/- A beat that has just arrived begins with its high half. -/
theorem acc_of_arrived
    (hBusy : b.ram.busyR = false)
    (hSingle : b.ram.rd2 = false)
    (hNext : (b.step i).ram.busyR = true) :
    (b.step i).ram.acc = false := by
  simp only [Bridge.step, Bridge.ramNext, hBusy, hSingle,
    Bool.false_eq_true, if_false, Bool.not_false, if_true]
    at hNext ⊢
  by_cases hCome : (b.ram.reqSync1 != b.ram.reqSeen) = true
  · rw [if_pos hCome]
  · rw [if_neg hCome] at hNext
    exact absurd hNext Bool.noConfusion

/- An access that only goes on. -/
theorem stays_of_waiting
    (hSingle : b.ram.rd2 = false)
    (hLevel : b.ram.busyR = true → b.completes = false)
    (hQuiet : (b.step i).ctl.command ≠ .read ∧
      (b.step i).ctl.command ≠ .write)
    (hFlies : landing (b.step i) = landing b)
    (hBusy : b.ram.busyR = false → landing b = false) :
    Advance b i := by
  have hNone : b.completes = false := by
    cases hWork : b.ram.busyR with
    | true => exact hLevel hWork
    | false => simp [Bridge.completes, hWork]
  refine .stays hQuiet ?_ ?_ ?_ ?_ ?_
  · simp [Bridge.finishes, hSingle, hNone]
  · intro hWork
    rw [ram_of_waiting hWork hSingle hNone]
  · intro hFree
    exact ⟨hFlies.trans (hBusy hFree),
      acc_of_arrived hFree hSingle⟩
  · exact fun _ => hFlies
  · rw [hNone]
    exact Bool.noConfusion

theorem advance_of_rest
    (hRest : Rest b)
    (hQuiet : (b.step i).ctl.command ≠ .read ∧
      (b.step i).ctl.command ≠ .write)
    (hNext : landing (b.step i) = false) :
    Advance b i :=
  stays_of_waiting hRest.single hRest.level hQuiet
    (hNext.trans hRest.landing.symm) (fun _ => hRest.landing)

theorem Burst.landing
    {n : Nat}
    (_ : Burst b n)
    (hDelay : b.ctl.dataReadyDelay ≠ 0#3) :
    landing b = true := by
  simp [Sdram.landing, hDelay]

theorem advance_of_burst
    {n : Nat}
    (hBurst : Burst b n)
    (hDelay : b.ctl.dataReadyDelay ≠ 0#3)
    (hWalks : Walks b i)
    (hNext : landing (b.step i) = true) :
    Advance b i :=
  stays_of_waiting hBurst.single
    (fun _ => completes_of_low hBurst.low) hWalks.command
    (hNext.trans (hBurst.landing hDelay).symm)
    (fun hFree => absurd (hFree.symm.trans hBurst.busy) Bool.noConfusion)

end Sdram

------------------------------------------------------------
-- Every Cycle
------------------------------------------------------------

namespace Sdram

variable {b : Bridge} {i : In}

/- A completion that the rise of `ready` would be taken for. -/
theorem completes_of_startup
    (hHand : Hand b)
    (hRest : Rest b)
    (hState : b.ctl.state = .startup) :
    (b.step i).completes =
      ((b.ram.busyR || b.arrives) &&
        b.ctl.refreshCount == 0#14 && !b.ctl.ready) := by
  rcases @startup_access b i hState with
    ⟨-, -, -, hReady⟩
  have hFinishes : b.finishes = false := by
    cases hBusy : b.ram.busyR with
    | true =>
        simp [Bridge.finishes, hRest.single, hRest.level hBusy]
    | false =>
        simp [Bridge.finishes, Bridge.completes, hRest.single,
          hBusy]
  rcases @ram_step b i with ⟨hBusy, -, -, -, hLast, -⟩
  have hSingle := (@first_of_rest b i hHand hRest).1
  simp only [Bridge.completes, hBusy, hFinishes, hSingle,
    hReady, hLast, hRest.delay]
  cases b.arrives <;> cases b.ram.busyR <;>
    cases b.ctl.refreshCount == 0#14 <;>
    cases b.ctl.ready <;> rfl

/- The power-up sequence is one long rest. -/
theorem rest_of_startup
    (hHand : Hand b)
    (hPrepared : Prepared b)
    (hRest : Rest b)
    (hOk : Unclaimed b)
    (hState : b.ctl.state = .startup) :
    Rest (b.step i) := by
  rcases @startup_access b i hState with
    ⟨hNext, hCommand, hDelay, hReady⟩
  have hFirst := @first_of_rest b i hHand hRest
  constructor
  · rcases hNext with h | h <;> simp [h]
  · exact hFirst.1
  · rw [hDelay, hRest.delay]
    rfl
  · intro hUp
    have hEnd := @startup_state b.ctl (b.ports i) rfl hState
    have hDone : b.ctl.refreshCount == 0#14 := by
      by_contra hMore
      rw [if_neg] at hEnd
      · exact hUp hEnd
      · rw [count_zero_iff] at hMore
        intro hBoth
        exact hMore (by simpa using hBoth.2)
    rw [hReady, if_pos hDone]
  · intro _
    rw [completes_of_startup hHand hRest hState]
    by_cases hEnd : b.ctl.refreshCount = 0#14
    · cases hReady' : b.ctl.ready with
      | true => simp
      | false =>
          have hNone := hOk hState hEnd hReady'
          simp [hNone]
    · simp [hEnd]
  · exact hFirst.2
  · intro hUp which
    have hEnd := @startup_state b.ctl (b.ports i) rfl hState
    have hPos : pos b.ctl = 16384 := by
      by_contra hMore
      rw [if_neg (fun h => hMore h.2)] at hEnd
      exact hUp hEnd
    have hSettles :=
      (hPrepared.starting hState).settles (by omega) which
    rw [hPos] at hSettles
    rw [chips_step]
    exact Chip.settlesIn_mono (Nat.zero_le _)
      (Chip.settlesIn_step hSettles
        (seen_ne_read hCommand.1 which))

/- One cycle takes an access from stage to stage. -/
theorem doing_step
    (hHand : Hand b)
    (hPrepared : Prepared b)
    (hOk : Unclaimed b)
    (hInit : i.init = true → b.ctl.state = .startup)
    (hDoing : Doing b) :
    Doing (b.step i) ∧ Advance b i := by
  have hService (hUp : b.ctl.state ≠ .startup) :
      i.init = false := by
    rw [← Bool.not_eq_true]
    exact fun hReset => hUp (hInit hReset)
  cases hDoing with
  | rest hRest =>
      by_cases hState : b.ctl.state = .startup
      · have hNext := @rest_of_startup b i hHand hPrepared hRest
          hOk hState
        exact ⟨.rest hNext, advance_of_rest hRest
          (startup_access hState).2.1 hNext.landing⟩
      · have hNo := (hPrepared.running hState).noCopy
        by_cases hIdle : b.ctl.state = .idle
        · by_cases hAsked : b.refresh = b.ctl.refreshOld ∧
              (b.rd = true ∨ b.wr = true)
          · rcases opened_of_rest hHand hRest (hService hState)
              hIdle hAsked.1 hAsked.2 with
              ⟨hNext, hCommand, hOpen⟩
            exact ⟨.opened hNext hOpen, advance_of_rest hRest
              (by simp [hCommand]) hOpen.landing⟩
          · rcases walks_idle (hService hState) hIdle
              (by grind) with ⟨hWalks, hNext⟩
            have hRest' := rest_of_walks hHand hRest hState
              hWalks (by rcases hNext with h | h <;> simp [h])
            exact ⟨.rest hRest', advance_of_rest hRest
              hWalks.command hRest'.landing⟩
        · rcases walks_step (hService hState)
            ⟨hState, hIdle, hRest.state.2, hNo⟩ with
            ⟨hWalks, hNext⟩
          have hAway : (b.step i).ctl.state ≠ .wait ∧
              (b.step i).ctl.state ≠ .rw := by
            have hHere := hRest.state
            rw [hNext]
            cases hNow : b.ctl.state <;> simp_all [walked]
          have hRest' := rest_of_walks hHand hRest hState
            hWalks hAway
          exact ⟨.rest hRest', advance_of_rest hRest
            hWalks.command hRest'.landing⟩
  | opened hState hOpen =>
      have hInit := hService (by simp [hState])
      have hWalks := @walks_step b i hInit (by simp [hState])
      have hNext := column_of_opened hHand hInit hState hOpen
      exact ⟨.column hNext.1 hNext.2,
        stays_of_waiting hOpen.single
          (fun _ => completes_of_low hOpen.low) hWalks.1.command
          (hNext.2.landing.trans hOpen.landing.symm)
          (fun _ => hOpen.landing)⟩
  | column hState hOpen =>
      have hUp : b.ctl.state ≠ .startup := by simp [hState]
      have hLevel := completes_of_low hOpen.low
      have hGoes : b.finishes = false := by
        simp [Bridge.finishes, hOpen.single, hLevel]
      have hRam :=
        @ram_of_waiting b i hOpen.busy hOpen.single hLevel
      cases hWe : b.sys.rWe with
      | true =>
          rcases wrote_of_column hHand (hService hUp)
            hState hOpen hWe with ⟨hWrote, hCommand, hCells⟩
          exact ⟨.wrote hWrote, .writes hOpen.busy hWe hCommand
            hCells (by rw [hRam])
            ⟨hOpen.landing, hWrote.landing⟩ hGoes hLevel⟩
      | false =>
          rcases burst_of_column hHand
            (hPrepared.running hUp).loaded (hService hUp)
            hState hOpen hWe with
            ⟨hNext, hDelay, hCommand, hBurst⟩
          exact ⟨.burst3 hNext hDelay hBurst,
            .reads hOpen.busy hWe hCommand
              ⟨hOpen.landing, hBurst.landing (by simp [hDelay])⟩
              hGoes hLevel⟩
  | wrote hWrote =>
      have hWalks := @walks_step b i
        (hService (by simp [hWrote.state]))
        (by simp [hWrote.state])
      rw [hWrote.state] at hWalks
      have hRest := rest_of_wrote hHand hWalks.1 hWalks.2 hWrote
      refine ⟨.rest hRest, ?_⟩
      cases hAcc : b.ram.acc with
      | true =>
          refine .ends hWrote.busy hWrote.write hWalks.1.command
            hAcc hWrote.landing ?_
          simp [Bridge.finishes, hWrote.completes, hWrote.write,
            hAcc]
      | false =>
          refine .halves hWrote.busy hWrote.write
            hWalks.1.command ⟨hAcc, ?_⟩
            ⟨hWrote.landing, hRest.landing⟩ ?_
          · simp [Bridge.step, Bridge.ramNext, hWrote.single,
              hWrote.busy, hWrote.ready, hWrote.rises,
              hWrote.write, hAcc]
          · simp [Bridge.finishes, hWrote.single, hAcc]
  | burst3 hState hDelay hBurst =>
      have hWalks := @walks_step b i
        (hService (by simp [hState])) (by simp [hState])
      rw [hState] at hWalks
      have hDelay' : (b.step i).ctl.dataReadyDelay = 2#3 := by
        rw [hWalks.1.delay, hDelay]
        rfl
      have hNext := burst_step hHand (by decide) hWalks.1
        (by rw [hDelay]; rfl) hBurst
      exact ⟨.burst2 hWalks.2 hDelay' hNext,
        advance_of_burst hBurst (by simp [hDelay]) hWalks.1
          (hNext.landing (by simp [hDelay']))⟩
  | burst2 hState hDelay hBurst =>
      have hWalks := @walks_step b i
        (hService (by simp [hState])) (by simp [hState])
      rw [hState] at hWalks
      have hDelay' : (b.step i).ctl.dataReadyDelay = 1#3 := by
        rw [hWalks.1.delay, hDelay]
        rfl
      have hNext := burst_step hHand (by decide) hWalks.1
        (by rw [hDelay]; rfl) hBurst
      exact ⟨.burst1 hWalks.2 hDelay' hNext,
        advance_of_burst hBurst (by simp [hDelay]) hWalks.1
          (hNext.landing (by simp [hDelay']))⟩
  | burst1 hState hDelay hBurst =>
      have hWalks := @walks_step b i
        (hService (by simp [hState])) (by simp [hState])
      rw [hState] at hWalks
      have hNext := word0_of_burst hHand hWalks.1 hWalks.2
        hDelay hBurst
      exact ⟨.word0 hNext,
        advance_of_burst hBurst (by simp [hDelay]) hWalks.1
          hNext.landing⟩
  | word0 hWord =>
      have hWalks := @walks_step b i
        (hService (by simp [hWord.state]))
        (by simp [hWord.state])
      rw [hWord.state] at hWalks
      have hNext := word1_of_word0 hHand hWalks.1 hWalks.2 hWord
      refine ⟨.word1 hNext, .stays hWalks.1.command ?_ ?_ ?_ ?_ ?_⟩
      · simp [Bridge.finishes, hWord.single, hWord.read]
      · intro _
        simp [Bridge.step, Bridge.ramNext, hWord.single,
          hWord.busy, hWord.ready, hWord.rises, hWord.read]
      · exact fun hFree =>
          absurd (hFree.symm.trans hWord.busy) Bool.noConfusion
      · exact fun _ => hNext.landing.trans hWord.landing.symm
      · exact fun _ => ⟨hWord.read, hWord.landing⟩
  | word1 hWord =>
      rcases @walks_idle b i
        (hService (by simp [hWord.state])) hWord.state
        (.inr (by simp [Bridge.rd, Bridge.wr, hWord.double,
          hWord.read])) with ⟨hWalks, hNext⟩
      rcases rest_of_word1 hWalks hNext hWord with ⟨hRest, hHold⟩
      refine ⟨.rest hRest, .answers hWord.busy hWord.read
        hWalks.command hWord.landing ?_ ?_ hHold⟩
      · simp [Bridge.finishes, hWord.double]
      · simp [Bridge.completes, hWord.double]

end Sdram
