import Wombat33.Scc.Window

/-
  One access to the serial controller, at every phase of the
  IOSB's clock divider.

  The window ends at the divider's next 2.  Accepted at 1 or
  0 it holds no `cep`; only accepted at 1 does it begin with
  its `cen`.  So the commands that wait for `cep` are lost in
  half the phases, and of a hardware reset by WR9 the part
  that waits for `cen` is lost in three of them.

  Key definitions include:
    * `served`
    * `SameEffect`, `PhaseSafe`

  Key theorems include:
    * `served_chip`
    * `same_effect_iff`
    * `atRest_of_quiet`
-/

------------------------------------------------------------
-- The Four Phases
------------------------------------------------------------

namespace Scc

/-
  The clocks of the window before its `cen`, each with its
  `cep`, for the divider's value on acceptance.
-/
def windowCeps (d : BitVec 2) : List Bool :=
  match d with
  | 0#2 => [false]
  | 1#2 => []
  | 2#2 => [false, true, false]
  | _ => [true, false]

/- The request, held with no serial activity. -/
def Request.held (q : Request) : BusIn :=
  { toRequest := q, sel := true }

/- The bridge with its divider at another value. -/
def Bridge.atPhase (b : Bridge) (d : BitVec 2) : Bridge :=
  { b with port := { b.port with sccClkdiv := d } }

/- The bridge takes a request on this clock. -/
structure Bridge.Accepts (b : Bridge) : Prop where
  astate : b.port.astate = .idle
  sccCs : b.port.sccCs = false
  ack : b.port.ack = false

/- The accepting clock, the window, and the gap. -/
def serviceClocks (d : BitVec 2) : Nat :=
  (windowCeps d).length + 6

/- The bridge when it acknowledges the request. -/
def served (b : Bridge) (d : BitVec 2) (q : Request) : Bridge :=
  Clocked.run Bridge.step (b.atPhase d)
    (List.replicate (serviceClocks d) q.held)

variable {b : Bridge} {q : Request}

theorem phase_cases (d : BitVec 2) :
    d = 0#2 ∨ d = 1#2 ∨ d = 2#2 ∨ d = 3#2 := by
  revert d
  decide

/- A clock without an access leaves a chip at rest alone. -/
theorem rest_gap
    {s : Chip} {a : Access} {cep cen : Bool}
    (hRest : s.AtRest) :
    step s (gapIn a cep cen) = s := by
  refine chip_ext (fun y => ?_) ?_ ?_ ?_
  · rw [step_ch]
    exact rest_next (hRest.channel y) gap_idle
  · simp [step, wreg, gapIn]
  · simp [step, wregWr9, wreg, gapIn]
  · rw [gap_csAccessDone rfl rfl, hRest.done]
    rfl

end Scc

------------------------------------------------------------
-- The Bridge, Clock by Clock
------------------------------------------------------------

namespace Scc

variable {s : Chip} {d : BitVec 2} {r : BitVec 32}
variable {b : Bridge} {q : Request}

theorem accept_step :
    Bridge.step ⟨s, ⟨d, false, .idle, false, r⟩⟩ q.held =
      ⟨step s (gapIn q.access (d == 0#2) (d == 2#2)),
        ⟨d + 1#2, true, .acc, false, r⟩⟩ := rfl

theorem wait_step (hWait : (d == 2#2) = false) :
    Bridge.step ⟨s, ⟨d, true, .acc, false, r⟩⟩ q.held =
      ⟨step s (windowIn q.access (d == 0#2) false),
        ⟨d + 1#2, true, .acc, false, r⟩⟩ := by
  have hChip : chipIn ⟨d, true, .acc, false, r⟩ q.held =
      windowIn q.access (d == 0#2) (d == 2#2) := rfl
  unfold Bridge.step
  rw [hChip, hWait]
  simp [Port.next, Port.sccCen, hWait, Request.held]

theorem cen_step :
    Bridge.step ⟨s, ⟨2#2, true, .acc, false, r⟩⟩ q.held =
      ⟨step s (windowIn q.access false true),
        ⟨3#2, false, .rel, false,
          mirror (rdata s (windowIn q.access false true))⟩⟩ :=
  rfl

theorem release_step (hWait : (d == 2#2) = false) :
    Bridge.step ⟨s, ⟨d, false, .rel, false, r⟩⟩ q.held =
      ⟨step s (gapIn q.access (d == 0#2) false),
        ⟨d + 1#2, false, .rel, false, r⟩⟩ := by
  have hChip : chipIn ⟨d, false, .rel, false, r⟩ q.held =
      gapIn q.access (d == 0#2) (d == 2#2) := rfl
  unfold Bridge.step
  rw [hChip, hWait]
  simp [Port.next, Port.sccCen, hWait, Request.held]

/- The last clock of the gap. -/
theorem ack_step :
    Bridge.step ⟨s, ⟨2#2, false, .rel, false, r⟩⟩ q.held =
      ⟨step s (gapIn q.access false true),
        ⟨3#2, false, .idle, true, r⟩⟩ := rfl

/- The chip when the window's `cen` comes. -/
def atCen (s : Chip) (a : Access) (d : BitVec 2) : Chip :=
  Clocked.run step (step s (gapIn a (d == 0#2) (d == 2#2)))
    ((windowCeps d).map fun cep => windowIn a cep false)

/- The bridge as it acknowledges, and never before. -/
theorem served_eq
    (hAccepts : b.Accepts)
    (d : BitVec 2) :
    served b d q =
        ⟨Clocked.run step b.scc
            (gapIn q.access (d == 0#2) (d == 2#2) ::
              visit q.access (windowCeps d)),
          ⟨3#2, false, .idle, true,
            mirror (rdata (atCen b.scc q.access d)
              (windowIn q.access false true))⟩⟩ ∧
      Clocked.Along Bridge.step (fun b _ => b.port.ack = false)
        (b.atPhase d)
        (List.replicate (serviceClocks d) q.held) := by
  rcases b with ⟨s, ⟨d₀, cs, st, ack, rd⟩⟩
  rcases hAccepts with ⟨hState, hCs, hAck⟩
  dsimp only at hState hCs hAck
  subst hState hCs hAck
  rcases phase_cases d with rfl | rfl | rfl | rfl
  all_goals
    simp [served, serviceClocks, windowCeps, atCen, visit,
      gapClocks, List.replicate_succ, Bridge.atPhase,
      accept_step, wait_step, cen_step, release_step, ack_step]

end Scc

------------------------------------------------------------
-- The Same Effect at Every Phase
------------------------------------------------------------

namespace Scc

/-
  The request leaves the chip the same whatever the divider's
  value on its acceptance: with its effect, done once.  A
  read returns what the register selected holds.
-/
structure SameEffect (b : Bridge) (q : Request) : Prop where
  phases : ∀ d e, (served b d q).scc = (served b e q).scc
  once : ∀ d, (served b d q).scc = effect b.scc q.access
  answer : q.write = false → ∀ d,
    (served b d q).port.rdata =
      mirror (rdata b.scc (windowIn q.access false true))

/-
  The access waits for no enable its window may lack: a
  command that waits for `cep` has nothing left to do, and a
  hardware reset finds the registers that wait for `cen` as
  it would leave them.
-/
structure PhaseSafe (s : Chip) (a : Access) : Prop where
  extreset : ∀ y, a.commands s.pointer y 0b010#3 = true →
    (s.ch y).exIrqIp = false ∧ (s.ch y).latchOpen = true
  eom : ∀ y, a.clearsEom s.pointer y = true →
    (s.ch y).eomLatch = true →
      (s.ch y).sdlcMode = true ∧ (s.ch y).txEmptyLatch = true
  wr8 : ∀ y, a.writes s.pointer y 8#4 = true →
    (s.ch y).txIntLatch = false ∧
      (y = .a → (s.ch y).txEmptyLatch = false)
  hwReset : a.hwResets s.pointer = true →
    s.wr9 = a.wdata.extractLsb' 0 6 ∧
      ∀ y, wr1Reset (s.ch y).wr1 = (s.ch y).wr1 ∧
        wr5Reset (s.ch y).wr5 = (s.ch y).wr5 ∧
        (s.ch y).wr11 = 0x00#8 ∧
        wr14HwReset (s.ch y).wr14 = (s.ch y).wr14

variable {b : Bridge} {q : Request}
variable {s : Chip} {a : Access} {y : Side}

/- With a `cep` in its window, an access has its effect. -/
theorem outcome_seen
    (hNot : a.hwResets s.pointer = false)
    (c : Channel) :
    c.outcome s.pointer a y true = c.effect s.pointer a y := by
  have hFills : ∀ l : Bool,
      (l && !(a.emptiesNow s.pointer y ||
          a.emptiesLate s.pointer y) &&
        !(y == .b && a.sends y && !c.txBusy)) =
      (l && !a.fills s.pointer y c.toTransmit) := by
    intro l
    unfold Access.emptiesNow Access.emptiesLate Access.fills
    cases y <;> cases a.writes s.pointer _ 8#4 <;>
      cases a.sends _ <;> cases c.txBusy <;> simp
  unfold Channel.outcome Channel.effect Latches.outcome
    Latches.effect
  simp only [Bool.true_and, hFills, hNot, Access.clearsInt,
    Bool.false_or]
  cases a.writes s.pointer y 8#4 <;> cases a.sends y <;>
    simp

/- An access writes one register, and nothing else. -/
theorem writes_only
    {p : Side → BitVec 4} {n m : BitVec 4}
    (hWrites : a.writes p y n = true)
    (hNot : m ≠ n) :
    a.writes p y m = false := by
  unfold Access.writes at hWrites ⊢
  simp only [Bool.and_eq_true, beq_iff_eq] at hWrites
  rw [hWrites.2]
  simp [Ne.symm hNot]

theorem not_sends_of_writes
    {p : Side → BitVec 4} {n : BitVec 4}
    (hWrites : a.writes p y n = true) :
    a.sends y = false := by
  unfold Access.writes Access.controls at hWrites
  unfold Access.sends
  simp only [Bool.and_eq_true] at hWrites
  have hControl : a.rsData = false := by
    simpa using hWrites.1.2.1
  simp [hControl]

theorem not_resets_of_writes
    {p : Side → BitVec 4} {n : BitVec 4}
    (hWrites : a.writes p y n = true)
    (hNot : n ≠ 9#4) :
    a.resets p y = false := by
  unfold Access.writes Access.controls at hWrites
  unfold Access.resets
  simp only [Bool.and_eq_true, beq_iff_eq] at hWrites
  rw [hWrites.1.2.2, hWrites.2]
  simp [hNot]

/- The latches that differ where no `cep` is in the window. -/
theorem outcome_unseen
    (hRest : (s.ch y).AtRest)
    (hNot : a.hwResets s.pointer = false) :
    (s.ch y).outcome s.pointer a y false =
        (s.ch y).effect s.pointer a y ↔
      (a.commands s.pointer y 0b010#3 = true →
        (s.ch y).exIrqIp = false ∧
          (s.ch y).latchOpen = true) ∧
      (a.clearsEom s.pointer y = true →
        (s.ch y).eomLatch = true →
          (s.ch y).sdlcMode = true ∧
            (s.ch y).txEmptyLatch = true) ∧
      (a.writes s.pointer y 8#4 = true →
        (s.ch y).txIntLatch = false ∧
          (y = .a → (s.ch y).txEmptyLatch = false)) := by
  rw [← outcome_seen hNot]
  unfold Channel.outcome Latches.outcome
  simp only [Channel.mk.injEq, true_and, Latches.mk.injEq,
    Bool.false_and, Bool.true_and, Bool.or_false,
    Bool.not_false, Bool.and_true]
  cases hZero : a.writes s.pointer y 0#4 with
  | true =>
      have hEight : a.writes s.pointer y 8#4 = false :=
        writes_only hZero (by decide)
      have hFour : a.writes s.pointer y 4#4 = false :=
        writes_only hZero (by decide)
      have hSends := not_sends_of_writes hZero
      have hResets := not_resets_of_writes hZero (by decide)
      have hNow : a.emptiesNow s.pointer y = false := by
        cases y <;> simp [Access.emptiesNow, hSends, hEight]
      have hLate : a.emptiesLate s.pointer y = false := by
        cases y <;> simp [Access.emptiesLate, hEight]
      have hSdlc : ((s.ch y).toRegs.effect s.pointer a
          y).sdlcMode = (s.ch y).sdlcMode := by
        simp [Regs.effect, hResets, hFour]
      simp only [hEight, hSends, hResets, hNow, hLate, hSdlc]
      cases (s.ch y).exIrqIp <;> cases (s.ch y).latchOpen <;>
        cases (s.ch y).eomLatch <;>
        cases a.commands s.pointer y 0b010#3 <;>
        cases a.clearsEom s.pointer y <;> simp
  | false =>
      have hCommand :
          a.commands s.pointer y 0b010#3 = false := by
        simp [Access.commands, hZero]
      have hClears : a.clearsEom s.pointer y = false := by
        simp [Access.clearsEom, hZero]
      cases hEight : a.writes s.pointer y 8#4 with
      | true =>
          have hFour : a.writes s.pointer y 4#4 = false :=
            writes_only hEight (by decide)
          have hSends := not_sends_of_writes hEight
          have hResets :=
            not_resets_of_writes hEight (by decide)
          have hSdlc : ((s.ch y).toRegs.effect s.pointer a
              y).sdlcMode = (s.ch y).sdlcMode := by
            simp [Regs.effect, hResets, hFour]
          have hInt : a.clearsInt s.pointer y = false := by
            simp [Access.clearsInt, Access.commands, hSends,
              hZero]
          have hUnderrun := hRest.underrun
          simp only [hCommand, hClears, hSends, hResets, hSdlc,
            hInt]
          revert hUnderrun
          cases y with
          | a =>
              simp only [Access.emptiesNow, Access.emptiesLate,
                hSends, hEight]
              cases (s.ch .a).sdlcMode <;>
                cases (s.ch .a).txEmptyLatch <;>
                cases (s.ch .a).eomLatch <;>
                simp
          | b =>
              simp [Access.emptiesNow, Access.emptiesLate,
                hEight]
      | false =>
          have hLate : a.emptiesLate s.pointer y = false := by
            cases y <;> simp [Access.emptiesLate, hEight]
          simp [hCommand, hClears, hLate]

/- What a hardware reset misses in a longer window. -/
theorem hwReset_missed
    (hHw : a.hwResets s.pointer = true) :
    s.hwReset a false = effect s a ↔
      s.wr9 = a.wdata.extractLsb' 0 6 ∧
        ∀ y, wr1Reset (s.ch y).wr1 = (s.ch y).wr1 ∧
          wr5Reset (s.ch y).wr5 = (s.ch y).wr5 ∧
          (s.ch y).wr11 = 0x00#8 ∧
          wr14HwReset (s.ch y).wr14 = (s.ch y).wr14 := by
  have hChannel : ∀ y,
      (s.ch y).hwReset s.pointer a y false =
          (s.ch y).effect s.pointer a y ↔
        wr1Reset (s.ch y).wr1 = (s.ch y).wr1 ∧
          wr5Reset (s.ch y).wr5 = (s.ch y).wr5 ∧
          (s.ch y).wr11 = 0x00#8 ∧
          wr14HwReset (s.ch y).wr14 = (s.ch y).wr14 := by
    intro y
    have hCh := resets_of_hwResets (y := y) hHw
    have hOther := @writes_of_hwResets a y s.pointer
    unfold Channel.hwReset Channel.effect Regs.hwReset
      Regs.effect Access.written
    simp only [Channel.mk.injEq, hHw, hCh]
    simp [hOther hHw, eq_comm]
  have hWrites : a.writes s.pointer a.side 9#4 = true := by
    have hAll := hHw
    unfold Access.hwResets at hAll
    unfold Access.writes Access.controls
    simp only [Bool.and_eq_true] at hAll ⊢
    exact ⟨⟨hAll.1.1.1, hAll.1.1.2, by simp⟩, hAll.1.2⟩
  have hWr9 : (effect s a).wr9 = a.wdata.extractLsb' 0 6 := by
    simp [effect, hWrites]
  constructor
  · intro hSame
    refine ⟨(congrArg Chip.wr9 hSame).trans hWr9, fun y => ?_⟩
    have hY := congrArg (fun u => u.ch y) hSame
    rw [← hChannel y]
    cases y <;> exact hY
  · rintro ⟨hKept, hRegs⟩
    refine chip_ext (fun y => ?_) rfl
      (hKept.trans hWr9.symm) rfl
    have hY := (hChannel y).mpr (hRegs y)
    cases y <;> exact hY

/- A read finds the chip at rest until it is taken. -/
theorem atCen_read
    (hRest : s.AtRest)
    (hRead : a.we = false)
    (d : BitVec 2) :
    atCen s a d = s := by
  have hStep : ∀ cep, step s (windowIn a cep false) = s := by
    intro cep
    have hReset : reset s (windowIn a cep false) = false := by
      rw [window_reset hRest.done]
      simp [Access.hwResets, hRead]
    have hIdle : ∀ y,
        (nets s (windowIn a cep false) y).Idle := by
      intro y
      refine ⟨rfl, hReset, ?_, ?_, ?_, ?_, window_line⟩
      · change resetCh s (windowIn a cep false) y = false
        rw [window_resetCh hRest.done]
        simp [Access.resets, hRead]
      · simp [nets, wreg, hRead]
      · simp [nets]
      · simp [nets, hRead]
    refine chip_ext (fun y => ?_) ?_ ?_ ?_
    · rw [step_ch]
      exact rest_next (hRest.channel y) (hIdle y)
    · simp [step]
    · simp [step]
    · simp [step_csAccessDone, csAccessDoneNext, hReset]
  have hRun : ∀ ceps : List Bool,
      Clocked.run step s
        (ceps.map fun cep => windowIn a cep false) = s := by
    intro ceps
    induction ceps with
    | nil => rfl
    | cons cep ceps ih =>
        rw [List.map_cons, Clocked.run_cons, hStep]
        exact ih
  unfold atCen
  rw [rest_gap hRest]
  exact hRun _

theorem outcome_eq_effect
    {seen : Bool}
    (hChannel : ∀ y, (s.ch y).outcome s.pointer a y seen =
      (s.ch y).effect s.pointer a y) :
    s.outcome a seen = effect s a := by
  refine chip_ext (fun y => ?_) rfl rfl rfl
  have hY := hChannel y
  cases y <;> exact hY

/- The chip after a request, for each phase it is taken at. -/
theorem served_chip
    (hAccepts : b.Accepts)
    (hRest : b.scc.AtRest)
    (d : BitVec 2) :
    (served b d q).scc =
      if q.access.hwResets b.scc.pointer then
        b.scc.hwReset q.access (d == 1#2)
      else b.scc.outcome q.access (d == 2#2 || d == 3#2) := by
  have hScc := congrArg Bridge.scc
    (served_eq (q := q) hAccepts d).1
  have hVisit : (served b d q).scc =
      Clocked.run step b.scc
        (visit q.access (windowCeps d)) := by
    rw [hScc, Clocked.run_cons, rest_gap hRest]
  rw [hVisit]
  cases hHw : q.access.hwResets b.scc.pointer with
  | true =>
      rw [visit_hwReset hRest hHw, if_pos rfl]
      rcases phase_cases d with rfl | rfl | rfl | rfl <;> rfl
  | false =>
      rw [visit_outcome hRest hHw, if_neg (by decide)]
      rcases phase_cases d with rfl | rfl | rfl | rfl <;> rfl

/-
  At every phase of the divider a request has the same effect,
  and has it once, exactly when it is safe.
-/
theorem same_effect_iff
    (b : Bridge)
    (q : Request)
    (hAccepts : b.Accepts)
    (hRest : b.scc.AtRest) :
    SameEffect b q ↔ PhaseSafe b.scc q.access := by
  have hServed := fun d => served_chip (q := q) hAccepts hRest d
  have hAnswer : q.write = false → ∀ d,
      (served b d q).port.rdata =
        mirror (rdata b.scc (windowIn q.access false true)) := by
    intro hRead d
    rw [(served_eq (q := q) hAccepts d).1]
    simp only [atCen_read (a := q.access) hRest hRead d]
  have hOnce : (∀ d, (served b d q).scc =
      effect b.scc q.access) → SameEffect b q := by
    intro hEffect
    refine ⟨fun d e => ?_, hEffect, hAnswer⟩
    rw [hEffect d, hEffect e]
  cases hHw : q.access.hwResets b.scc.pointer with
  | true =>
      have hNoWrite : ∀ y n, n ≠ 9#4 →
          q.access.writes b.scc.pointer y n = false :=
        fun y n => writes_of_hwResets hHw
      constructor
      · intro hSame
        have hZero := hSame.once 0#2
        rw [hServed, if_pos hHw] at hZero
        refine ⟨fun y hCommand => ?_, fun y hClears => ?_,
          fun y hWrites => ?_,
          fun _ => (hwReset_missed hHw).mp hZero⟩
        · simp [Access.commands, hNoWrite y 0#4] at hCommand
        · simp [Access.clearsEom, hNoWrite y 0#4] at hClears
        · simp [hNoWrite y 8#4] at hWrites
      · intro hSafe
        apply hOnce
        intro d
        rw [hServed, if_pos hHw]
        cases hFirst : (d == 1#2) with
        | true =>
            refine chip_ext (fun y => ?_) rfl rfl rfl
            cases y <;> rfl
        | false =>
            exact (hwReset_missed hHw).mpr (hSafe.hwReset hHw)
  | false =>
      have hUnseen := fun y =>
        outcome_unseen (hRest.channel y) hHw
      have hNot : ¬q.access.hwResets b.scc.pointer = true := by
        simp [hHw]
      constructor
      · intro hSame
        have hZero := hSame.once 0#2
        rw [hServed, if_neg hNot] at hZero
        have hChannel : ∀ y,
            (b.scc.ch y).outcome b.scc.pointer q.access y
                false =
              (b.scc.ch y).effect b.scc.pointer q.access y := by
          intro y
          have hY := congrArg (fun u => u.ch y) hZero
          cases y <;> exact hY
        have hLatches := fun y => (hUnseen y).mp (hChannel y)
        exact ⟨fun y => (hLatches y).1,
          fun y => (hLatches y).2.1,
          fun y => (hLatches y).2.2,
          fun hIs => absurd hIs hNot⟩
      · intro hSafe
        apply hOnce
        intro d
        rw [hServed, if_neg hNot]
        apply outcome_eq_effect
        intro y
        cases (d == 2#2 || d == 3#2) with
        | true => exact outcome_seen hHw (b.scc.ch y)
        | false =>
            exact (hUnseen y).mpr
              ⟨hSafe.extreset y, hSafe.eom y, hSafe.wr8 y⟩

end Scc

------------------------------------------------------------
-- The Reset That Misses
------------------------------------------------------------

namespace Scc

/- A write of channel A's control port, then an idle clock. -/
def controlWrite (w : Byte) : Request :=
  ⟨true, false, 0b0010#4, 0x0000#16 ++ w ++ 0x00#8⟩

def writeClocks (w : Byte) : List BusIn :=
  List.replicate 7 (controlWrite w).held ++
    [{ toRequest := controlWrite w }]

/- A bridge that was reset, and then made these writes. -/
def afterWrites (ws : List Byte) : Bridge :=
  Clocked.run Bridge.step
    (Bridge.step default
      { toRequest := controlWrite 0x00#8, nreset := false })
    (ws.flatMap writeClocks)

/- A write of WR1, the pointer set before. -/
theorem same_effect_iff_wr1 :
    SameEffect (afterWrites [0x01#8]) (controlWrite 0x12#8) :=
  (same_effect_iff (afterWrites [0x01#8])
      (controlWrite 0x12#8)
      ⟨by decide, by decide, by decide⟩ (by decide)).mpr
    ⟨fun y => by cases y <;> decide,
      fun y => by cases y <;> decide,
      fun y => by cases y <;> decide,
      fun hHw => absurd hHw (by decide)⟩

/-
  WR1 holds `$12` when WR9 is written with `$C0`: accepted at
  1 of the divider the write resets WR1, at 0 it does not.
-/
theorem hw_reset_misses_wr1 :
    (afterWrites [0x01#8, 0x12#8, 0x09#8]).Accepts ∧
      (afterWrites [0x01#8, 0x12#8, 0x09#8]).scc.AtRest ∧
      (served (afterWrites [0x01#8, 0x12#8, 0x09#8]) 1#2
        (controlWrite 0xC0#8)).scc.chA.wr1 = 0x00#8 ∧
      (served (afterWrites [0x01#8, 0x12#8, 0x09#8]) 0#2
        (controlWrite 0xC0#8)).scc.chA.wr1 = 0x12#8 ∧
      ¬SameEffect (afterWrites [0x01#8, 0x12#8, 0x09#8])
        (controlWrite 0xC0#8) := by
  have hOne : (served (afterWrites [0x01#8, 0x12#8, 0x09#8])
      1#2 (controlWrite 0xC0#8)).scc.chA.wr1 = 0x00#8 := by
    decide
  have hZero : (served (afterWrites [0x01#8, 0x12#8, 0x09#8])
      0#2 (controlWrite 0xC0#8)).scc.chA.wr1 = 0x12#8 := by
    decide
  refine ⟨⟨by decide, by decide, by decide⟩, by decide, hOne,
    hZero, fun hSame => ?_⟩
  have hEqual := hSame.phases 1#2 0#2
  rw [hEqual, hZero] at hOne
  cases hOne

end Scc

------------------------------------------------------------
-- Coming to Rest
------------------------------------------------------------

namespace Scc

/- A clock without a request and without serial activity. -/
structure BusIn.Quiet (i : BusIn) : Prop where
  nreset : i.nreset = true
  sel : i.sel = false
  lineA : i.lineA = {}
  lineB : i.lineB = {}

/- What the constant CTS and DCD inputs keep of the latches. -/
def Chip.Modem (s : Chip) : Prop :=
  ∀ y, (s.ch y).dcdLatch = false ∧ (s.ch y).ctsLatch = false

variable {s : Chip} {i : In} {a : Access} {y : Side}
variable {c : Channel} {k : Nets} {cep cen : Bool}

theorem modem_step (hModem : s.Modem) : (step s i).Modem := by
  intro y
  rcases hModem y with ⟨hDcd, hCts⟩
  have hLatch : doLatch y (s.ch y).toRegs (s.ch y).toLatches =
      false :=
    doLatch_false hDcd hCts
  rw [step_ch]
  cases y <;>
    simp [Channel.next, Latches.next, hLatch, hDcd, hCts,
      rr0Cts]

theorem modem_reset (hHw : i.resetHw = true) :
    (step s i).Modem := by
  intro y
  have hReset : (nets s i y).reset = true := by
    change reset s i = true
    simp [reset, hHw]
  rw [step_ch]
  cases y <;> simp [Channel.next, Latches.next, hReset]

/- A channel between accesses, whatever its serial side does. -/
structure Channel.Between (c : Channel) : Prop where
  pointer : c.toPointer = rest c.rindex
  dcd : c.dcdLatch = false
  cts : c.ctsLatch = false

/- One clock on, a byte handed over is on its way. -/
theorem between_next
    (hBetween : c.Between)
    (hIdle : k.Idle)
    (hModem : (c.next k y).dcdLatch = false ∧
      (c.next k y).ctsLatch = false) :
    (c.next k y).Between ∧
      ((c.next k y).txBufferFull = true →
        (c.next k y).txBusy = true) ∧
      ((c.next k y).txBusyR = true →
        (c.next k y).txBusy = true) ∧
      (c.next k y).wrData = false ∧
      (c.wrData = false → (c.txBufferFull = true →
        c.txBusy = true) → (c.next k y).uartTxWr = false) := by
  have hPointer : (c.next k y).toPointer = c.toPointer := by
    change c.toPointer.next k = c.toPointer
    rw [idle_pointer hIdle, hBetween.pointer]
    simp
  have hTransmit : (c.next k y).toTransmit =
      c.toTransmit.next k := rfl
  rw [idle_handover hIdle] at hTransmit
  refine ⟨⟨?_, hModem.1, hModem.2⟩, ?_, ?_, ?_, ?_⟩
  · rw [hPointer]
    exact hBetween.pointer
  · rw [congrArg Transmit.txBufferFull hTransmit,
      congrArg Transmit.txBusy hTransmit]
    intro hFull
    have hBoth := Bool.and_eq_true_iff.mp hFull
    simp [hBoth.2]
  · rw [congrArg Transmit.txBusyR hTransmit,
      congrArg Transmit.txBusy hTransmit]
    intro hBusy
    change c.txBusy = true at hBusy
    simp [hBusy]
  · rw [congrArg Transmit.wrData hTransmit]
  · intro _ hWaits
    rw [congrArg Transmit.uartTxWr hTransmit]
    cases hFull : c.txBufferFull
    · simp
    · simp [hWaits hFull]

/- Two clocks on, nothing is under way but what a gap ends. -/
structure Channel.Calm (c : Channel) : Prop where
  between : c.Between
  closing : c.Closing
  immediate : c.wrData = false

/- Four clocks more hold a `cen`, to pop, and a `cep`. -/
def Channel.fourGaps (y : Side) (d : BitVec 2) (c : Channel) :
    Channel :=
  let gap := fun (d : BitVec 2) (c : Channel) =>
    c.gap y (d == 0#2) (d == 2#2)
  gap (d + 1#2 + 1#2 + 1#2)
    (gap (d + 1#2 + 1#2) (gap (d + 1#2) (gap d c)))

theorem fourGaps_eq
    (hCalm : c.Calm)
    (d : BitVec 2) :
    c.fourGaps y d = { c with
      toRxFifo :=
        if c.pendingDequeue then c.toRxFifo.dequeue
        else c.toRxFifo
      wrData := false
      uartTxWr := false
      txBusyR := c.txBusy
      eomLatch :=
        c.eomLatch || (c.sdlcMode && c.txEmptyLatch) } := by
  have hRest : c.toPointer.release = c.toPointer := by
    rw [hCalm.between.pointer]
    rfl
  have hImmediate := hCalm.immediate
  unfold Channel.fourGaps Channel.gap
  cases hPending : c.pendingDequeue <;>
    rcases phase_cases d with rfl | rfl | rfl | rfl <;>
    simp [hRest, hImmediate, hPending, RxFifo.dequeue]

theorem atRest_of_calm
    (hCalm : c.Calm)
    (d : BitVec 2) :
    (c.fourGaps y d).AtRest := by
  rw [fourGaps_eq hCalm d]
  refine ⟨hCalm.between.pointer, ?_, hCalm.closing.waits, rfl,
    rfl, rfl, hCalm.between.dcd, hCalm.between.cts, ?_⟩
  · cases hPending : c.pendingDequeue
    · simp [hPending]
    · simp only [RxFifo.dequeue, if_true]
      split <;> rfl
  · intro hSdlc hEmpty
    change (c.eomLatch || (c.sdlcMode && c.txEmptyLatch)) = true
    change c.sdlcMode = true at hSdlc
    change c.txEmptyLatch = true at hEmpty
    simp [hSdlc, hEmpty]

end Scc

namespace Scc

variable {s : Chip} {b : Bridge} {i : BusIn} {a : Access}
variable {cep cen : Bool}

/- An idle bridge without a request stays so. -/
theorem quiet_step
    (hState : b.port.astate = .idle)
    (hCs : b.port.sccCs = false)
    (hQuiet : i.Quiet) :
    b.step i =
      ⟨step b.scc (gapIn i.access (b.port.sccClkdiv == 0#2)
          (b.port.sccClkdiv == 2#2)),
        { b.port with
          sccClkdiv := b.port.sccClkdiv + 1#2
          ack := false }⟩ := by
  have hChip : chipIn b.port i =
      gapIn i.access (b.port.sccClkdiv == 0#2)
        (b.port.sccClkdiv == 2#2) := by
    unfold chipIn gapIn
    rw [hQuiet.nreset, hCs, hQuiet.lineA, hQuiet.lineB]
    rfl
  unfold Bridge.step
  rw [hChip]
  simp [Port.next, hQuiet.nreset, hState, hQuiet.sel]

/- The first two clocks hand over what was under way. -/
theorem calm_of_two
    (a₁ a₂ : Access)
    (cep₁ cen₁ cep₂ cen₂ : Bool)
    (hModem : s.Modem)
    (hRest : ∀ y, (s.ch y).toPointer = rest (s.ch y).rindex)
    (y : Side) :
    ((step (step s (gapIn a₁ cep₁ cen₁))
      (gapIn a₂ cep₂ cen₂)).ch y).Calm := by
  have hModem₁ := modem_step (i := gapIn a₁ cep₁ cen₁) hModem
  have hModem₂ := modem_step (i := gapIn a₂ cep₂ cen₂) hModem₁
  generalize hFirst : step s (gapIn a₁ cep₁ cen₁) = s₁ at *
  generalize hSecond : step s₁ (gapIn a₂ cep₂ cen₂) = s₂ at *
  have hStart : (s.ch y).Between :=
    ⟨hRest y, (hModem y).1, (hModem y).2⟩
  have hCh₁ : s₁.ch y =
      (s.ch y).next (nets s (gapIn a₁ cep₁ cen₁) y) y := by
    rw [← hFirst, step_ch]
  have hCh₂ : s₂.ch y =
      (s₁.ch y).next (nets s₁ (gapIn a₂ cep₂ cen₂) y) y := by
    rw [← hSecond, step_ch]
  have hOne := between_next hStart gap_idle (hCh₁ ▸ hModem₁ y)
  rw [← hCh₁] at hOne
  rcases hOne with ⟨hBetween₁, hWaits₁, -, hImmediate₁, -⟩
  have hTwo := between_next hBetween₁ gap_idle
    (hCh₂ ▸ hModem₂ y)
  rw [← hCh₂] at hTwo
  rcases hTwo with
    ⟨hBetween₂, hWaits₂, hFall₂, hImmediate₂, hDeferred⟩
  exact ⟨hBetween₂,
    ⟨hWaits₂, hFall₂, hDeferred hImmediate₁ hWaits₁,
      hBetween₂.dcd, hBetween₂.cts⟩, hImmediate₂⟩

theorem gap_channel
    (hClosing : ∀ y, (s.ch y).Closing)
    (y : Side) :
    (step s (gapIn a cep cen)).ch y =
      (s.ch y).gap y cep cen := by
  rw [step_ch]
  exact gap_next (hClosing y) gap_idle rfl

/- The chip's inputs while its bridge is idle. -/
def idleIns : BitVec 2 → List BusIn → List In
  | _, [] => []
  | d, i :: is =>
      gapIn i.access (d == 0#2) (d == 2#2) ::
        idleIns (d + 1#2) is

theorem quiet_run
    (hState : b.port.astate = .idle)
    (hCs : b.port.sccCs = false)
    (js : List BusIn)
    (hQuiet : ∀ j ∈ js, j.Quiet) :
    (Clocked.run Bridge.step b js).scc =
        Clocked.run step b.scc (idleIns b.port.sccClkdiv js) ∧
      (Clocked.run Bridge.step b js).port.astate = .idle ∧
      (Clocked.run Bridge.step b js).port.sccCs = false ∧
      (js ≠ [] →
        (Clocked.run Bridge.step b js).port.ack = false) := by
  induction js generalizing b with
  | nil =>
      refine ⟨rfl, hState, hCs, ?_⟩
      intro hNot
      exact absurd rfl hNot
  | cons j js ih =>
      have hStep := quiet_step hState hCs
        (hQuiet j List.mem_cons_self)
      have hTail := fun i hMem =>
        hQuiet i (List.mem_cons_of_mem j hMem)
      rw [Clocked.run_cons, hStep]
      generalize hNext : (⟨step b.scc (gapIn j.access
        (b.port.sccClkdiv == 0#2) (b.port.sccClkdiv == 2#2)),
        { b.port with
          sccClkdiv := b.port.sccClkdiv + 1#2
          ack := false }⟩ : Bridge) = n
      have hRest := @ih n (by rw [← hNext]; exact hState)
        (by rw [← hNext]; exact hCs) hTail
      refine ⟨?_, hRest.2.1, hRest.2.2.1, fun _ => ?_⟩
      · rw [hRest.1, ← hNext]
        rfl
      · cases js with
        | nil =>
            rw [← hNext]
            rfl
        | cons i is => exact hRest.2.2.2 (by simp)

theorem gap_done (hDone : s.csAccessDone = false) :
    (step s (gapIn a cep cen)).csAccessDone = false := by
  rw [gap_csAccessDone rfl rfl, hDone]
  rfl

/- Once calm, four clocks more bring the chip to rest. -/
theorem atRest_of_four
    {i₁ i₂ i₃ i₄ : BusIn}
    (hDone : s.csAccessDone = false)
    (hCalm : ∀ y, (s.ch y).Calm)
    (d : BitVec 2) :
    (Clocked.run step s (idleIns d [i₁, i₂, i₃, i₄])).AtRest := by
  have hNext : ∀ (s : Chip) (a : Access) (cep cen : Bool),
      (∀ y, (s.ch y).Closing) →
      ∀ y, ((step s (gapIn a cep cen)).ch y).Closing := by
    intro s a cep cen hClosing y
    rw [gap_channel hClosing y]
    exact closing_gap (hClosing y)
  have hOne : ∀ y, (s.ch y).Closing :=
    fun y => (hCalm y).closing
  have hTwo := hNext s i₁.access (d == 0#2) (d == 2#2) hOne
  have hThree := hNext _ i₂.access (d + 1#2 == 0#2)
    (d + 1#2 == 2#2) hTwo
  have hFour := hNext _ i₃.access (d + 1#2 + 1#2 == 0#2)
    (d + 1#2 + 1#2 == 2#2) hThree
  simp only [idleIns, Clocked.run_cons, Clocked.run_nil]
  refine ⟨gap_done (gap_done (gap_done (gap_done hDone))),
    fun y => ?_⟩
  rw [gap_channel hFour, gap_channel hThree, gap_channel hTwo,
    gap_channel hOne]
  exact atRest_of_calm (hCalm y) d

/- At rest, an idle bridge stays at rest. -/
theorem rest_idleIns
    (hRest : s.AtRest)
    (d : BitVec 2)
    (js : List BusIn) :
    Clocked.run step s (idleIns d js) = s := by
  induction js generalizing d with
  | nil => rfl
  | cons j js ih =>
      rw [idleIns, Clocked.run_cons, rest_gap hRest]
      exact ih (d + 1#2)

/-
  The chip behind a bridge that has had six clocks without a
  request and without serial activity, on any run from reset
  on which requests are held, is at rest.
-/
theorem atRest_of_quiet
    (b : Bridge)
    (q : Request)
    (is js : List BusIn)
    (hHeld : Clocked.Along Bridge.watched HeldOk
      (b.start q) is)
    (hIdle : (Clocked.run Bridge.watched
      (b.start q) is).1.port.astate = .idle)
    (hQuiet : ∀ j ∈ js, j.Quiet)
    (hLong : 6 ≤ js.length) :
    (Clocked.run Bridge.step (Clocked.run Bridge.watched
        (b.start q) is).1 js).Accepts ∧
      (Clocked.run Bridge.step (Clocked.run Bridge.watched
        (b.start q) is).1 js).scc.AtRest := by
  have hInv : BridgeInv
        (Clocked.run Bridge.watched (b.start q) is) ∧
      (Clocked.run Bridge.watched
        (b.start q) is).1.scc.Modem := by
    have hStep : ∀ (x : Bridge × Watch) (i : BusIn),
        BridgeInv x ∧ x.1.scc.Modem → HeldOk x i →
        BridgeInv (Bridge.watched x i) ∧
          (Bridge.watched x i).1.scc.Modem :=
      fun x i hBoth hOk =>
        ⟨bridgeInv_step x i hBoth.1 hOk, modem_step hBoth.2⟩
    exact Clocked.invariant_run hStep hHeld
      ⟨bridgeInv_start b q, modem_reset rfl⟩
  generalize Clocked.run Bridge.watched (b.start q) is = x at *
  rcases idle_of_bridgeInv hInv.1 hIdle with ⟨hDone, hPointers⟩
  have hCs : x.1.port.sccCs = false := by
    rw [hInv.1.windows.cs, hIdle]
    rfl
  have hRun := quiet_run hIdle hCs js hQuiet
  have hSome : js ≠ [] := by
    intro hNil
    simp [hNil] at hLong
  refine ⟨⟨hRun.2.1, hRun.2.2.1, hRun.2.2.2 hSome⟩, ?_⟩
  rw [hRun.1]
  clear hRun hSome hQuiet
  match js, hLong with
  | i₁ :: i₂ :: i₃ :: i₄ :: i₅ :: i₆ :: js, _ =>
      let d := x.1.port.sccClkdiv
      have hCalm := calm_of_two i₁.access i₂.access
        (d == 0#2) (d == 2#2) (d + 1#2 == 0#2)
        (d + 1#2 == 2#2) hInv.2 hPointers
      have hTwo := @gap_done _ i₂.access (d + 1#2 == 0#2)
        (d + 1#2 == 2#2)
        (@gap_done _ i₁.access (d == 0#2) (d == 2#2) hDone)
      have hFour := @atRest_of_four _ i₃ i₄ i₅ i₆ hTwo hCalm
        (d + 1#2 + 1#2)
      have hSplit : idleIns d
          (i₁ :: i₂ :: i₃ :: i₄ :: i₅ :: i₆ :: js) =
          [gapIn i₁.access (d == 0#2) (d == 2#2),
            gapIn i₂.access (d + 1#2 == 0#2)
              (d + 1#2 == 2#2)] ++
          (idleIns (d + 1#2 + 1#2) [i₃, i₄, i₅, i₆] ++
            idleIns (d + 1#2 + 1#2 + 1#2 + 1#2 + 1#2 + 1#2)
              js) := rfl
      rw [hSplit, Clocked.run_append, Clocked.run_append]
      have hRest := rest_idleIns hFour
        (d + 1#2 + 1#2 + 1#2 + 1#2 + 1#2 + 1#2) js
      exact (congrArg Chip.AtRest hRest).mpr hFour

end Scc
