import Wombat33.Sdram.PowerUp

/-
  No refresh is lost, and none meets an access.

  A refresh is asked for by a toggle, with no acknowledge; two
  changes before the controller looks would cancel out.  The
  controller looks whenever it is idle, refreshes before it
  accesses, and is never away for longer than one access.

  Key definitions include:
    * `Refreshes`, `noteRefresh`
    * `Served`, `RefreshEdge`

  Key theorems include:
    * `served_step`
    * `refresh_kept`
-/

------------------------------------------------------------
-- Refreshes
------------------------------------------------------------

namespace Sdram

open Clocked

/- The toggle has changed and the controller has not looked. -/
def pending (b : Bridge) : Bool :=
  b.refresh != b.ctl.refreshOld

/- The timer's toggle changes in this cycle. -/
def changes (b : Bridge) : Bool := b.refcnt == 771

/- A chip is refreshed in this cycle. -/
def refreshed (b : Bridge) (i : In) (which : Bool) : Bool :=
  Chip.seen (pins (b.step i).ctl which i.float) == .autoRefresh

/-
  Changes of the toggle, refreshes of each chip, and whether a
  pair of refreshes is under way.
-/
structure Refreshes where
  asked : Nat
  served : Bool → Nat
  pair : Bool

def noteRefresh (g : Refreshes) (b : Bridge) (i : In) :
    Refreshes where
  asked := if changes b then g.asked + 1 else g.asked
  served := fun which =>
    if refreshed b i which then g.served which + 1
    else g.served which
  pair :=
    match (b.step i).ctl.state with
    | .rfsh => true
    | .idle => false
    | _ => g.pair

/- One change, served on all chips but those still in turn. -/
def lastServed (b : Bridge) : Refreshes where
  asked := 1
  served := fun which =>
    if which && b.ctl.state == .rfsh then 0 else 1
  pair := b.ctl.state == .rfsh

/- Cycles until the controller is idle. -/
def walk : State → Nat
  | .rfsh | .wait => 6
  | .idle5 | .rw => 5
  | .idle4 => 4
  | .idle3 => 3
  | .idle2 => 2
  | .idle1 => 1
  | _ => 0

/-
  Every change but the one pending has refreshed each chip
  once; a pending one has waited for one access at most.
-/
structure Served (x : Bridge × Refreshes) : Prop where
  first : x.2.served false + (if pending x.1 then 1 else 0) =
    x.2.asked
  second : x.2.served true +
    (if pending x.1 || x.1.ctl.state == .rfsh then 1 else 0) =
      x.2.asked
  prompt : pending x.1 = true →
    x.1.refcnt + walk x.1.ctl.state ≤ 6

/-
  A change finds the one before it served; a refresh finds
  every row closed and starts from idle, for the first chip,
  or follows that one; no access comes between the two or
  before the controller is idle again.
-/
structure RefreshEdge (x : Bridge × Refreshes) (i : In) :
    Prop where
  serviced : changes x.1 = true → pending x.1 = false
  starts : ∀ which, refreshed x.1 i which = true →
    (∀ chip, Closed (x.1.chips chip)) ∧
      ((which = false ∧ x.1.ctl.state = .idle ∧
          x.2.pair = false ∧ pending x.1 = true) ∨
        (which = true ∧ x.1.ctl.state = .rfsh ∧
          x.2.pair = true))
  alone : x.2.pair = true →
    (x.1.step i).ctl.command = .nop ∨
      (x.1.step i).ctl.command = .autoRefresh

end Sdram

------------------------------------------------------------
-- One Cycle
------------------------------------------------------------

namespace Sdram

open Clocked

variable {b : Bridge} {i : In}

/- The states a pair of refreshes passes through. -/
def inPair : State → Bool
  | .rfsh | .idle5 | .idle4 | .idle3 | .idle2 | .idle1 => true
  | _ => false

/- What a run in service keeps. -/
structure Serving (x : Bridge × Refreshes) : Prop where
  up : x.1.ctl.state ≠ .startup
  running : Running x.1
  timer : x.1.refcnt ≤ 771
  pair : x.2.pair = true → inPair x.1.ctl.state = true
  rfsh : x.1.ctl.state = .rfsh →
    x.2.pair = true ∧ pending x.1 = false
  served : Served x

theorem refreshed_iff (which : Bool) :
    refreshed b i which = true ↔
      (b.step i).ctl.chip = which ∧
        (b.step i).ctl.command = .autoRefresh := by
  unfold refreshed
  rw [beq_iff_eq, seen_pins]
  split_ifs with hChip
  · simp [hChip]
  · simp [hChip]

/- The move the controller makes in service. -/
theorem Serving.move
    {x : Bridge × Refreshes}
    (hServing : Serving x)
    (hInit : i.init = false) :
    Move x.1.ctl (x.1.ports i) (x.1.step i).ctl :=
  move_step ⟨rfl, hInit, rfl, rfl⟩ hServing.up
    hServing.running.noCopy

/- The toggle is pending after a cycle in which it changes. -/
theorem pending_step :
    pending (b.step i) =
      ((if changes b then !b.refresh else b.refresh) !=
        (b.step i).ctl.refreshOld) := by
  simp only [pending, changes, beq_iff_eq]
  rfl

theorem refcnt_step (hTimer : b.refcnt ≤ 771) :
    (b.step i).refcnt =
      if changes b then 0 else b.refcnt + 1 := by
  simp only [changes, beq_iff_eq]
  show (if b.refcnt = 771 then 0 else (b.refcnt + 1) % 1024) = _
  split_ifs
  · rfl
  · omega

/- The accounts after a cycle without a refresh. -/
theorem served_of_quiet
    {g : Refreshes}
    (hServing : Serving (b, g))
    (hCommand : (b.step i).ctl.command ≠ .autoRefresh)
    (hOld : (b.step i).ctl.refreshOld = b.ctl.refreshOld)
    (hRfsh : b.ctl.state ≠ .rfsh)
    (hNext : (b.step i).ctl.state ≠ .rfsh)
    (hWalk : pending b = true →
      walk (b.step i).ctl.state < walk b.ctl.state)
    (hNear : walk (b.step i).ctl.state ≤ 6) :
    Served (b.step i, noteRefresh g b i) := by
  have hFirst : g.served false + (if pending b then 1 else 0) =
      g.asked := hServing.served.first
  have hSecond : g.served true +
      (if pending b || b.ctl.state == .rfsh then 1 else 0) =
        g.asked := hServing.served.second
  have hPrompt : pending b = true →
      b.refcnt + walk b.ctl.state ≤ 6 := hServing.served.prompt
  have hNone (which : Bool) : refreshed b i which = false := by
    rw [← Bool.not_eq_true, refreshed_iff]
    exact fun h => hCommand h.2
  have hPending : pending (b.step i) =
      if changes b then !pending b else pending b := by
    rw [pending_step, hOld, pending]
    cases changes b <;> cases b.refresh <;>
      cases b.ctl.refreshOld <;> rfl
  have hCount := @refcnt_step b i hServing.timer
  have hChange : changes b = true → pending b = false := by
    intro hNow
    by_contra hWaiting
    rw [Bool.not_eq_false] at hWaiting
    have hEarly := hPrompt hWaiting
    simp only [changes, beq_iff_eq] at hNow
    omega
  have hNotRfsh : (b.ctl.state == .rfsh) = false := by
    simpa using hRfsh
  have hNotRfsh' : ((b.step i).ctl.state == .rfsh) = false := by
    simpa using hNext
  rw [hNotRfsh, Bool.or_false] at hSecond
  constructor
  · simp only [noteRefresh, hNone, hPending]
    cases hNow : changes b with
    | true =>
        simp only [hChange hNow] at hFirst ⊢
        simpa using hFirst
    | false => simpa using hFirst
  · simp only [noteRefresh, hNone, hPending, hNotRfsh',
      Bool.or_false]
    cases hNow : changes b with
    | true =>
        simp only [hChange hNow] at hSecond ⊢
        simpa using hSecond
    | false => simpa using hSecond
  · intro hNext
    show (b.step i).refcnt + walk (b.step i).ctl.state ≤ 6
    rw [hCount]
    cases hNow : changes b with
    | true => simpa using hNear
    | false =>
        rw [hPending, hNow] at hNext
        have hEarly := hPrompt hNext
        have hCloser := hWalk hNext
        simp
        omega

/- A look at the toggle comes in time, and settles it. -/
theorem pending_of_look
    (hPrompt : pending b = true →
      b.refcnt + walk b.ctl.state ≤ 6)
    (hDue : b.refresh ≠ b.ctl.refreshOld)
    (hOld : (b.step i).ctl.refreshOld = b.refresh) :
    changes b = false ∧ pending (b.step i) = false := by
  have hWaiting : pending b = true := by
    simpa [pending] using hDue
  have hStill : changes b = false := by
    have hEarly := hPrompt hWaiting
    rw [← Bool.not_eq_true, changes, beq_iff_eq]
    omega
  refine ⟨hStill, ?_⟩
  rw [pending_step, hStill, hOld]
  simp

/- The accounts after each move of the controller. -/
theorem served_step
    {g : Refreshes}
    (hServing : Serving (b, g))
    (hInit : i.init = false) :
    Served (b.step i, noteRefresh g b i) := by
  have hMove : Move b.ctl (b.ports i) (b.step i).ctl :=
    hServing.move hInit
  have hRefresh : (b.ports i).refresh = b.refresh := rfl
  have hPrompt : pending b = true →
      b.refcnt + walk b.ctl.state ≤ 6 := hServing.served.prompt
  have hFirst : g.served false + (if pending b then 1 else 0) =
      g.asked := hServing.served.first
  have hSecond : g.served true +
      (if pending b || b.ctl.state == .rfsh then 1 else 0) =
        g.asked := hServing.served.second
  have hCount := @refcnt_step b i hServing.timer
  have hPending := @pending_step b i
  cases hMove with
  | walk hCommand hWalked hOld =>
      rcases hWalked with h | h | h | h | h |
        ⟨hIdle, hNext, hNone, -⟩
      case inr.inr.inr.inr.inr =>
        apply served_of_quiet hServing (by simp [hCommand]) hOld
          (by simp [hIdle]) (by simp [hNext])
        · intro hWaiting
          simp [pending, ← hRefresh, hNone] at hWaiting
        · simp [hNext, walk]
      all_goals
        apply served_of_quiet hServing (by simp [hCommand]) hOld
          (by simp [h.1]) (by simp [h.2])
        · intro _
          simp [h.1, h.2, walk]
        · simp [h.2, walk]
  | refresh hCommand hDue hIdle hNext hChip hOld =>
      have hWaiting : pending b = true := by
        simpa [pending, hRefresh] using hDue
      rcases @pending_of_look b i hPrompt hDue hOld with
        ⟨hStill, hDone⟩
      have hOne : refreshed b i false = true :=
        (refreshed_iff false).mpr ⟨hChip, hCommand⟩
      have hTwo : refreshed b i true = false := by
        rw [← Bool.not_eq_true, refreshed_iff, hChip]
        exact fun h => Bool.false_ne_true h.1
      constructor
      · simpa [noteRefresh, hOne, hStill, hDone, hWaiting]
          using hFirst
      · simpa [noteRefresh, hTwo, hStill, hDone, hWaiting, hNext]
          using hSecond
      · simp [hDone]
  | refreshSecond hCommand hRfsh hNext hChip hOld =>
      have hCalm : pending b = false := (hServing.rfsh hRfsh).2
      have hAgain : pending (b.step i) = changes b := by
        have hSame : b.refresh = b.ctl.refreshOld := by
          simpa [pending] using hCalm
        rw [hPending, hOld, hSame]
        cases changes b <;> cases b.ctl.refreshOld <;> rfl
      have hTwo : refreshed b i true = true :=
        (refreshed_iff true).mpr ⟨hChip, hCommand⟩
      have hOne : refreshed b i false = false := by
        rw [← Bool.not_eq_true, refreshed_iff, hChip]
        exact fun h => Bool.false_ne_true h.1.symm
      rw [hCalm] at hFirst hSecond
      constructor
      · simp only [noteRefresh, hOne, hAgain]
        cases changes b <;> simpa using hFirst
      · simp only [noteRefresh, hTwo, hAgain, hNext]
        cases changes b <;> simpa [hRfsh] using hSecond
      · intro hNow
        show (b.step i).refcnt + walk (b.step i).ctl.state ≤ 6
        rw [hAgain] at hNow
        rw [hCount, hNow, hNext]
        simp [walk]
  | accept hCommand hNone hAsked hIdle hNext hCloses hOld =>
      apply served_of_quiet hServing (by simp [hCommand]) hOld
        (by simp [hIdle]) (by simp [hNext])
      · intro hWaiting
        simp [pending, ← hRefresh, hNone] at hWaiting
      · simp [hNext, walk]
  | wait hCommand hWait hNext hSame hOld =>
      apply served_of_quiet hServing (by simp [hCommand]) hOld
        (by simp [hWait]) (by simp [hNext])
      · intro _
        simp [hWait, hNext, walk]
      · simp [hNext, walk]
  | column hCommand hRw hNext hSame hAddr hOld =>
      apply served_of_quiet hServing _ hOld
        (by simp [hRw]) (by simp [hNext])
      · intro _
        simp [hRw, hNext, walk]
      · simp [hNext, walk]
      · rcases hCommand with h | h <;> simp [h]

/- A cycle of the service keeps what the service keeps. -/
theorem serving_step
    (x : Bridge × Refreshes)
    (i : In)
    (hServing : Serving x)
    (hInit : i.init = false) :
    Serving (watch Bridge.step noteRefresh x i) := by
  rcases x with ⟨b, g⟩
  have hMove : Move b.ctl (b.ports i) (b.step i).ctl :=
    hServing.move hInit
  have hRunning := running_step hServing.up hServing.running hInit
  have hServed := served_step hServing hInit
  have hTimer : (b.step i).refcnt ≤ 771 := by
    have hOld : b.refcnt ≤ 771 := hServing.timer
    rw [refcnt_step hOld]
    cases hNow : changes b with
    | true => simp
    | false =>
        simp only [changes, beq_eq_false_iff_ne] at hNow
        simp
        omega
  refine ⟨hRunning.2, hRunning.1, hTimer, ?_, ?_, hServed⟩
  · show (noteRefresh g b i).pair = true →
      inPair (b.step i).ctl.state = true
    have hPair : g.pair = true → inPair b.ctl.state = true :=
      hServing.pair
    simp only [noteRefresh]
    cases hMove with
    | walk hCommand hWalked hOld =>
        rcases hWalked with h | h | h | h | h | ⟨hIdle, hNext, -⟩
        case inr.inr.inr.inr.inr => simp [hNext]
        all_goals simp [h.2, inPair]
    | refresh hCommand hDue hIdle hNext hChip hOld =>
        simp [hNext, inPair]
    | refreshSecond hCommand hRfsh hNext hChip hOld =>
        simp [hNext, inPair]
    | accept hCommand hNone hAsked hIdle hNext hCloses hOld =>
        simpa [hNext, inPair, hIdle] using hPair
    | wait hCommand hWait hNext hSame hOld =>
        simpa [hNext, inPair, hWait] using hPair
    | column hCommand hRw hNext hSame hAddr hOld =>
        simp [hNext, inPair]
  · show (b.step i).ctl.state = .rfsh →
      (noteRefresh g b i).pair = true ∧
        pending (b.step i) = false
    intro hRfsh
    refine ⟨by simp [noteRefresh, hRfsh], ?_⟩
    cases hMove with
    | refresh hCommand hDue hIdle hNext hChip hOld =>
        exact (pending_of_look hServing.served.prompt hDue
          hOld).2
    | walk hCommand hWalked hOld =>
        rcases hWalked with h | h | h | h | h | h <;>
          simp [h] at hRfsh
    | refreshSecond hCommand hRfsh' hNext hChip hOld =>
        simp [hNext] at hRfsh
    | accept hCommand hNone hAsked hIdle hNext hCloses hOld =>
        simp [hNext] at hRfsh
    | wait hCommand hWait hNext hSame hOld =>
        simp [hNext] at hRfsh
    | column hCommand hRw hNext hSame hAddr hOld =>
        simp [hNext] at hRfsh

/- The edge itself, in each move. -/
theorem refreshEdge_of_serving
    (x : Bridge × Refreshes)
    (i : In)
    (hServing : Serving x)
    (hInit : i.init = false) :
    RefreshEdge x i := by
  rcases x with ⟨b, g⟩
  have hMove : Move b.ctl (b.ports i) (b.step i).ctl :=
    hServing.move hInit
  have hPair : g.pair = true → inPair b.ctl.state = true :=
    hServing.pair
  constructor
  · intro hNow
    by_contra hWaiting
    rw [Bool.not_eq_false] at hWaiting
    have hEarly : b.refcnt + walk b.ctl.state ≤ 6 :=
      hServing.served.prompt hWaiting
    simp only [changes, beq_iff_eq] at hNow
    omega
  · intro which hSeen
    rcases (refreshed_iff which).mp hSeen with
      ⟨hWhich, hRefreshed⟩
    cases hMove with
    | refresh hCommand hDue hIdle hNext hChip hOld =>
        refine ⟨hServing.running.closed (by simp [hIdle])
          (by simp [hIdle]), .inl ⟨hWhich ▸ hChip, hIdle, ?_, ?_⟩⟩
        · rw [← Bool.not_eq_true]
          intro hBusy
          simpa [hIdle, inPair] using hPair hBusy
        · have hWaiting : b.refresh ≠ b.ctl.refreshOld := hDue
          simpa [pending] using hWaiting
    | refreshSecond hCommand hRfsh hNext hChip hOld =>
        exact ⟨hServing.running.closed (by simp [hRfsh])
          (by simp [hRfsh]),
          .inr ⟨hWhich ▸ hChip, hRfsh, (hServing.rfsh hRfsh).1⟩⟩
    | walk hCommand hWalked hOld =>
        simp [hCommand] at hRefreshed
    | accept hCommand hNone hAsked hIdle hNext hCloses hOld =>
        simp [hCommand] at hRefreshed
    | wait hCommand hWait hNext hSame hOld =>
        simp [hCommand] at hRefreshed
    | column hCommand hRw hNext hSame hAddr hOld =>
        rcases hCommand with h | h <;> simp [h] at hRefreshed
  · intro hBusy
    have hStage := hPair hBusy
    cases hMove with
    | refresh hCommand hDue hIdle hNext hChip hOld =>
        exact .inr hCommand
    | refreshSecond hCommand hRfsh hNext hChip hOld =>
        exact .inr hCommand
    | walk hCommand hWalked hOld => exact .inl hCommand
    | wait hCommand hWait hNext hSame hOld => exact .inl hCommand
    | accept hCommand hNone hAsked hIdle hNext hCloses hOld =>
        simp [hIdle, inPair] at hStage
    | column hCommand hRw hNext hSame hAddr hOld =>
        simp [hRw, inPair] at hStage

end Sdram

------------------------------------------------------------
-- Runs
------------------------------------------------------------

namespace Sdram

open Clocked

theorem timer_of_reached
    {b : Bridge}
    (hReached : Reached b) :
    b.refcnt ≤ 771 := by
  rcases hReached with ⟨b₀, is, rfl⟩
  apply @invariant_always Bridge In Bridge.step
    (fun b => b.refcnt ≤ 771)
  · intro b i hTimer
    show (if b.refcnt = 771 then 0 else (b.refcnt + 1) % 1024) ≤
      771
    split_ifs <;> omega
  · exact Nat.zero_le _

/-
  From any state reached after power-up in which no refresh is
  pending: each change of the toggle is served before the
  next, by one refresh of each chip, with every row closed
  and no access in between.
-/
theorem refresh_kept
    (b : Bridge)
    (is : List In)
    (hReached : Reached b)
    (hUp : b.ctl.state ≠ .startup)
    (hNone : pending b = false)
    (hInit : ∀ i ∈ is, i.init = false) :
    Always (watch Bridge.step noteRefresh) Served
        (b, lastServed b) is ∧
      Along (watch Bridge.step noteRefresh) RefreshEdge
        (b, lastServed b) is := by
  have hStart : Serving (b, lastServed b) := by
    refine ⟨hUp, (prepared_of_reached hReached).running hUp,
      timer_of_reached hReached, ?_, ?_, ?_, ?_, ?_⟩
    · simp only [lastServed, beq_iff_eq]
      intro hRfsh
      simp [hRfsh, inPair]
    · intro hRfsh
      exact ⟨by simpa [lastServed] using hRfsh, hNone⟩
    · simp [lastServed, hNone]
    · cases hRfsh : b.ctl.state == .rfsh <;>
        simp [lastServed, hNone, hRfsh]
    · simp [hNone]
  have hAlong : Along (watch Bridge.step noteRefresh)
      (fun _ i => i.init = false) (b, lastServed b) is :=
    along_of_mem hInit
  constructor
  · exact always_mono (fun _ h => h.served)
      (always_of_along serving_step hAlong hStart)
  · exact along_of_invariant serving_step refreshEdge_of_serving
      hAlong hStart

/- A machine whose registers all came up zero. -/
def blankBridge : Bridge where
  sys := ⟨false, 0#32, false, false, false, false, false, false,
    0#25, 0#32, 0#4, false⟩
  ram := ⟨false, false, false, false, false, false, false,
    0#32, false⟩
  refresh := false
  refcnt := 0
  ctl := ⟨0#13, 0#2, 0#16, false, 0#14, .nop, false, 0#3, false,
    0#13, 0#16, 0#9, false, .startup, false, 0#16, false, false,
    false⟩
  chips := fun _ => ⟨fun _ => 0#16, false, 0, 0, fun _ => false,
    fun _ => 0#13, fun _ => false, fun _ => 0#16, false, 0#16, 0⟩

/- A write and two reads, asked for as often as can be. -/
theorem refresh_kept_traffic :
    Always (watch Bridge.step noteRefresh) Served
        (quietRun blankBridge 12103,
          lastServed (quietRun blankBridge 12103))
        (List.replicate 40 { req := true, we := true } ++
          List.replicate 80 { req := true }) ∧
      Along (watch Bridge.step noteRefresh) RefreshEdge
        (quietRun blankBridge 12103,
          lastServed (quietRun blankBridge 12103))
        (List.replicate 40 { req := true, we := true } ++
          List.replicate 80 { req := true }) := by
  rcases @quietRun_service blankBridge 12101 rfl with
    ⟨hState, hServed⟩
  apply refresh_kept
  · exact reached_quietRun blankBridge 12103
  · simp [hState]
  · simp [pending, hServed]
  · decide

end Sdram
