import Mathlib.Data.List.Induction
import Wombat33.Sdram.Bridge

/-
  Power-up, and what it leaves behind.

  The power-up sequence closes every row of both chips, loads
  their mode registers and takes long enough for anything in
  their pipelines to drain.  From then on a row is open only
  from an activation to the access that closes it.

  Key definitions include:
    * `Closed`, `Loaded`, `SettlesIn`
    * `Starting`, `Running`, `Prepared`
    * `Reached`

  Key theorems include:
    * `prepared_step`
    * `prepared_of_reached`
-/

------------------------------------------------------------
-- Chips
------------------------------------------------------------

namespace Sdram

/- No row is open. -/
def Closed (c : Chip) : Prop := ∀ bank, c.rowOpen bank = false

/- Burst of four, CAS latency two. -/
structure Loaded (c : Chip) : Prop where
  set : c.modeSet = true
  cl : c.cl = 2
  bl : c.bl = 4

/- After `n` edges without a read nothing is driven. -/
structure SettlesIn (c : Chip) (n : Nat) : Prop where
  drive : n = 0 → c.dqDrive = false
  pipe : ∀ k, n ≤ k + 1 → c.pipeV k = false

namespace Chip

variable {c : Chip} {p : Pins}

theorem settlesIn_mono
    {n k : Nat}
    (hLe : n ≤ k)
    (hSettles : SettlesIn c n) :
    SettlesIn c k where
  drive := fun hZero => hSettles.drive (by omega)
  pipe := fun j hJ => hSettles.pipe j (by omega)

/- One edge brings the pipeline one place on. -/
theorem settlesIn_shift
    {n : Nat}
    (hSettles : SettlesIn c n) :
    SettlesIn c.shift (n - 1) := by
  constructor
  · intro hZero
    exact hSettles.pipe 0 (by omega)
  · intro k hK
    simp [shift, hSettles.pipe (k + 1) (by omega)]

/- The pipeline has eight places. -/
theorem settlesIn_shift_any (c : Chip) :
    SettlesIn c.shift 8 := by
  constructor
  · intro hZero
    omega
  · intro k hK
    simp [shift]
    omega

/- A row open after a column access was so before it. -/
theorem rowOpen_access
    {act n : Chip}
    {bank : BitVec 2}
    (hAct : act.rowOpen = c.rowOpen)
    (hNone : n.rowOpen = c.rowOpen)
    (hOpen : (c.access p act n).rowOpen bank = true) :
    c.rowOpen bank = true ∧
      (p.a.getLsbD 10 = true → bank ≠ p.ba) := by
  unfold access at hOpen
  by_cases hRow : c.rowOpen p.ba = true
  · rw [if_pos hRow] at hOpen
    simp only [autoPrecharge, hAct] at hOpen
    by_cases hHit : (p.a.getLsbD 10 && bank == p.ba) = true
    · rw [if_pos hHit] at hOpen
      exact absurd hOpen Bool.false_ne_true
    · rw [if_neg hHit] at hOpen
      refine ⟨hOpen, fun hAll hBank => hHit ?_⟩
      simp [hAll, hBank]
  · rw [if_neg hRow] at hOpen
    simp only [hNone] at hOpen
    exact ⟨hOpen, fun _ hBank => hRow (hBank ▸ hOpen)⟩

/- A row open after an edge was activated or left open. -/
theorem rowOpen_step
    {bank : BitVec 2}
    (hOpen : (c.step p).rowOpen bank = true) :
    (seen p = .active ∧ bank = p.ba) ∨
      (c.rowOpen bank = true ∧
        (seen p = .precharge →
          p.a.getLsbD 10 = false ∧ bank ≠ p.ba) ∧
        (seen p = .read ∨ seen p = .write →
          p.a.getLsbD 10 = true → bank ≠ p.ba)) := by
  unfold step at hOpen
  cases hSeen : seen p with
  | active =>
      by_cases hBank : bank = p.ba
      · exact Or.inl ⟨rfl, hBank⟩
      · right
        simpa [hSeen, activate, shift, hBank] using hOpen
  | precharge =>
      right
      simp only [hSeen, precharge, shift] at hOpen
      split_ifs at hOpen with hHit
      simp only [Bool.or_eq_true, beq_iff_eq, not_or,
        Bool.not_eq_true] at hHit
      exact ⟨hOpen, fun _ => hHit, by simp⟩
  | read =>
      right
      simp only [hSeen] at hOpen
      have hKept := @rowOpen_access c p (c.burst p c.shift)
        c.shift bank rfl rfl hOpen
      exact ⟨hKept.1, by simp, fun _ => hKept.2⟩
  | write =>
      right
      simp only [hSeen] at hOpen
      have hKept := @rowOpen_access c p (c.writeWord p c.shift)
        c.shift bank rfl rfl hOpen
      exact ⟨hKept.1, by simp, fun _ => hKept.2⟩
  | loadMode | autoRefresh | burstStop | nop =>
      right
      simp only [hSeen] at hOpen
      exact ⟨hOpen, by simp, by simp⟩

/- Only an activation opens a row. -/
theorem closed_step
    (hClosed : Closed c)
    (hIdle : seen p ≠ .active) :
    Closed (c.step p) := by
  intro bank
  by_contra hOpen
  rw [Bool.not_eq_false] at hOpen
  rcases rowOpen_step hOpen with ⟨hActive, -⟩ | ⟨hOld, -⟩
  · exact hIdle hActive
  · rw [hClosed bank] at hOld
    exact Bool.false_ne_true hOld

/- A precharge of every bank leaves no row open. -/
theorem closed_of_precharge
    (hSeen : seen p = .precharge)
    (hAll : p.a.getLsbD 10 = true) :
    Closed (c.step p) := by
  intro bank
  simp [step, hSeen, precharge, hAll]

/- Nothing but another mode unloads a chip. -/
theorem loaded_step
    (hLoaded : Loaded c)
    (hMode : seen p = .loadMode → p.a = mode) :
    Loaded (c.step p) := by
  rcases hLoaded with ⟨hSet, hCl, hBl⟩
  unfold step
  cases hSeen : seen p with
  | loadMode =>
      simp only [loadMode, hMode hSeen]
      exact ⟨rfl, rfl, rfl⟩
  | read | write =>
      simp only [access, burst, writeWord, autoPrecharge]
      split_ifs <;> exact ⟨hSet, hCl, hBl⟩
  | active | precharge | autoRefresh | burstStop | nop =>
      exact ⟨hSet, hCl, hBl⟩

theorem loaded_of_loadMode
    (hSeen : seen p = .loadMode)
    (hMode : p.a = mode) :
    Loaded (c.step p) := by
  simp only [step, hSeen, loadMode, hMode]
  exact ⟨rfl, rfl, rfl⟩

/- Without a read the pipeline drains. -/
theorem settlesIn_step
    {n : Nat}
    (hSettles : SettlesIn c n)
    (hQuiet : seen p ≠ .read) :
    SettlesIn (c.step p) (n - 1) := by
  have hShift := settlesIn_shift hSettles
  unfold step
  cases hSeen : seen p with
  | read => exact absurd hSeen hQuiet
  | write =>
      simp only [access, writeWord, autoPrecharge]
      split_ifs <;> exact ⟨hShift.drive, hShift.pipe⟩
  | active | precharge | loadMode | autoRefresh | burstStop
  | nop => exact ⟨hShift.drive, hShift.pipe⟩

theorem settlesIn_step_any
    (hQuiet : seen p ≠ .read) :
    SettlesIn (c.step p) 8 := by
  have hShift := settlesIn_shift_any c
  unfold step
  cases hSeen : seen p with
  | read => exact absurd hSeen hQuiet
  | write =>
      simp only [access, writeWord, autoPrecharge]
      split_ifs <;> exact ⟨hShift.drive, hShift.pipe⟩
  | active | precharge | loadMode | autoRefresh | burstStop
  | nop => exact ⟨hShift.drive, hShift.pipe⟩

end Chip

end Sdram

------------------------------------------------------------
-- The Power-Up Sequence
------------------------------------------------------------

namespace Sdram

/- The power-up counter, which ends by wrapping to zero. -/
def pos (s : Ctl) : Nat :=
  if s.refreshCount = 0#14 then 16384 else s.refreshCount.toNat

theorem before_iff
    (s : Ctl)
    {k : Nat}
    (hK : k < 16383) :
    s.before k = decide (pos s = 16383 - k) := by
  have hTop : (startupRefreshMax - BitVec.ofNat 14 k).toNat =
      16383 - k := by
    simp [startupRefreshMax, BitVec.toNat_sub]
    omega
  rw [Bool.eq_iff_iff, decide_eq_true_iff]
  simp only [Ctl.before, beq_iff_eq, pos]
  constructor
  · intro hCount
    rw [if_neg, hCount, hTop]
    intro hZero
    rw [hCount] at hZero
    rw [hZero] at hTop
    simp at hTop
    omega
  · intro hCount
    split_ifs at hCount
    · omega
    · exact BitVec.eq_of_toNat_eq (hCount.trans hTop.symm)

/- A chip's turn begins with its precharge. -/
def turn (which : Bool) : Nat := if which then 16352 else 16320

/- What the sequence has done to each chip so far. -/
structure Starting (b : Bridge) : Prop where
  begun : 4283 ≤ pos b.ctl
  selected : ∀ which, turn which ≤ pos b.ctl →
    pos b.ctl < turn which + 32 → b.ctl.chip = which
  closed : ∀ which, turn which < pos b.ctl →
    Closed (b.chips which)
  loaded : ∀ which, turn which + 24 < pos b.ctl →
    Loaded (b.chips which)
  settles : 4283 < pos b.ctl → ∀ which,
    SettlesIn (b.chips which) (4292 - pos b.ctl)

/-
  What holds once the sequence is over: the only row that can
  be open is the one being accessed, and the access will
  close it.
-/
structure Running (b : Bridge) : Prop where
  noCopy : b.ctl.state ≠ .waitCp ∧ b.ctl.state ≠ .cp
  loaded : ∀ which, Loaded (b.chips which)
  row : ∀ which bank, (b.chips which).rowOpen bank = true →
    (b.ctl.state = .wait ∨ b.ctl.state = .rw) ∧
      which = b.ctl.chip ∧ bank = b.ctl.ba
  closes : b.ctl.state = .wait ∨ b.ctl.state = .rw →
    b.ctl.casAddr.getLsbD 10 = true

structure Prepared (b : Bridge) : Prop where
  starting : b.ctl.state = .startup → Starting b
  running : b.ctl.state ≠ .startup → Running b

/- Any run from power-up. -/
def Reached (b : Bridge) : Prop :=
  ∃ (b₀ : Bridge) (is : List In),
    b = Clocked.run Bridge.step (powerOn b₀) is

variable {b : Bridge} {i : In}

end Sdram

------------------------------------------------------------
-- The Controller in Power-Up
------------------------------------------------------------

namespace Sdram

variable {s : Ctl} {p : Ports}

theorem count_zero_iff (s : Ctl) :
    (s.refreshCount == 0#14) = decide (pos s = 16384) := by
  rw [Bool.eq_iff_iff, decide_eq_true_iff, beq_iff_eq, pos]
  constructor
  · intro hZero
    rw [if_pos hZero]
  · intro hEnd
    have hLt := s.refreshCount.isLt
    split_ifs at hEnd with hZero
    · exact hZero
    · omega

/- Each command falls due at its own count. -/
theorem startup_command
    (hEn : p.en = true)
    (hState : s.state = .startup) :
    (s.step p).command =
      if pos s = 16344 ∨ pos s = 16376 then .loadMode
      else if pos s = 16328 ∨ pos s = 16360 ∨
          pos s = 16336 ∨ pos s = 16368 then .autoRefresh
      else if pos s = 16320 ∨ pos s = 16352 then .precharge
      else .nop := by
  have hStep : (s.step p).command =
      (s.startup { s.base p with command := .nop }).command := by
    simp only [Ctl.step, hEn, Ctl.machine, hState, if_true]
    split_ifs <;> rfl
  rw [hStep]
  simp only [Ctl.startup, before_iff s (show 63 < 16383 by decide),
    before_iff s (show 31 < 16383 by decide),
    before_iff s (show 55 < 16383 by decide),
    before_iff s (show 23 < 16383 by decide),
    before_iff s (show 47 < 16383 by decide),
    before_iff s (show 15 < 16383 by decide),
    before_iff s (show 39 < 16383 by decide),
    before_iff s (show 7 < 16383 by decide),
    Bool.or_eq_true, decide_eq_true_eq, or_assoc]

theorem startup_a
    (hEn : p.en = true)
    (hState : s.state = .startup) :
    (s.step p).a =
      if pos s = 16344 ∨ pos s = 16376 then mode
      else if pos s = 16320 ∨ pos s = 16352 then 0x400#13
      else 0#13 := by
  have hStep : (s.step p).a =
      (s.startup { s.base p with command := .nop }).a := by
    simp only [Ctl.step, hEn, Ctl.machine, hState, if_true]
    split_ifs <;> rfl
  rw [hStep]
  simp only [Ctl.startup, before_iff s (show 63 < 16383 by decide),
    before_iff s (show 31 < 16383 by decide),
    before_iff s (show 39 < 16383 by decide),
    before_iff s (show 7 < 16383 by decide),
    Bool.or_eq_true, decide_eq_true_eq]

theorem startup_chip
    (hEn : p.en = true)
    (hState : s.state = .startup) :
    (s.step p).chip =
      if pos s = 16351 then true
      else if pos s = 16319 then false
      else s.chip := by
  have hStep : (s.step p).chip =
      (s.startup { s.base p with command := .nop }).chip := by
    simp only [Ctl.step, hEn, Ctl.machine, hState, if_true]
    split_ifs <;> rfl
  rw [hStep]
  simp only [Ctl.startup, before_iff s (show 64 < 16383 by decide),
    before_iff s (show 32 < 16383 by decide),
    decide_eq_true_eq]
  rfl

/- The sequence runs to its end, or begins again. -/
theorem startup_state
    (hEn : p.en = true)
    (hState : s.state = .startup) :
    (s.step p).state =
      if p.init = false ∧ pos s = 16384 then .idle
      else .startup := by
  simp only [Ctl.step, hEn, Ctl.machine, hState, if_true,
    Ctl.startup, count_zero_iff, decide_eq_true_eq, Ctl.base]
  cases p.init <;> simp

theorem startup_refreshOld
    (hEn : p.en = true)
    (hState : s.state = .startup) :
    (s.step p).refreshOld = s.refreshOld := by
  simp only [Ctl.step, hEn, Ctl.machine, hState, if_true]
  split_ifs <;> rfl

/- Resetting the controller begins the sequence. -/
theorem pos_of_init
    (hEn : p.en = true)
    (hInit : p.init = true) :
    (s.step p).state = .startup ∧ pos (s.step p) = 4283 := by
  simp only [Ctl.step, hEn, hInit, if_true]
  exact ⟨trivial, rfl⟩

theorem startup_pos
    (hEn : p.en = true)
    (hInit : p.init = false)
    (hState : s.state = .startup)
    (hMore : pos s ≠ 16384) :
    pos (s.step p) = pos s + 1 := by
  have hCount : (s.step p).refreshCount = s.refreshCount + 1#14 := by
    simp [Ctl.step, hEn, hInit, Ctl.machine, hState,
      Ctl.startup, count_zero_iff, hMore, Ctl.base]
  have hLt := s.refreshCount.isLt
  unfold pos at hMore ⊢
  rw [hCount]
  split_ifs at hMore with hZero
  · exact absurd rfl hMore
  · rw [if_neg hZero]
    split_ifs with hEnd
    · have hWrap := congrArg BitVec.toNat hEnd
      simp [BitVec.toNat_add] at hWrap
      omega
    · have hStay : (s.refreshCount + 1#14).toNat ≠ 0 := by
        intro hNone
        exact hEnd (BitVec.eq_of_toNat_eq hNone)
      simp [BitVec.toNat_add] at hStay ⊢
      omega

end Sdram

------------------------------------------------------------
-- The Controller in Service
------------------------------------------------------------

namespace Sdram

/- What the controller does in one cycle of its service. -/
inductive Move (s : Ctl) (p : Ports) (n : Ctl) : Prop where
  /- it walks on, or stays idle -/
  | walk
      (command : n.command = .nop)
      (walked :
        (s.state = .idle5 ∧ n.state = .idle4) ∨
        (s.state = .idle4 ∧ n.state = .idle3) ∨
        (s.state = .idle3 ∧ n.state = .idle2) ∨
        (s.state = .idle2 ∧ n.state = .idle1) ∨
        (s.state = .idle1 ∧ n.state = .idle) ∨
        (s.state = .idle ∧ n.state = .idle ∧
          p.refresh = s.refreshOld ∧ p.rd = false ∧
          p.wr = false))
      (old : n.refreshOld = s.refreshOld)
  /- it refreshes the first chip, then the second -/
  | refresh
      (command : n.command = .autoRefresh)
      (due : p.refresh ≠ s.refreshOld)
      (state : s.state = .idle)
      (next : n.state = .rfsh)
      (chip : n.chip = false)
      (old : n.refreshOld = p.refresh)
  | refreshSecond
      (command : n.command = .autoRefresh)
      (state : s.state = .rfsh)
      (next : n.state = .idle5)
      (chip : n.chip = true)
      (old : n.refreshOld = s.refreshOld)
  /- it opens a row, waits, and accesses a column -/
  | accept
      (command : n.command = .active)
      (none : p.refresh = s.refreshOld)
      (asked : p.rd = true ∨ p.wr = true)
      (state : s.state = .idle)
      (next : n.state = .wait)
      (closes : n.casAddr.getLsbD 10 = true)
      (old : n.refreshOld = s.refreshOld)
  | wait
      (command : n.command = .nop)
      (state : s.state = .wait)
      (next : n.state = .rw)
      (same : n.chip = s.chip ∧ n.ba = s.ba ∧
        n.casAddr = s.casAddr)
      (old : n.refreshOld = s.refreshOld)
  | column
      (command : n.command = .read ∨ n.command = .write)
      (state : s.state = .rw)
      (next : n.state = .idle4)
      (same : n.chip = s.chip ∧ n.ba = s.ba)
      (addr : n.a = s.casAddr)
      (old : n.refreshOld = s.refreshOld)

variable {s : Ctl} {p : Ports}

/- A[10] of a column address is set. -/
theorem precharges_append (m : BitVec 2) (col : BitVec 10) :
    (m ++ 1#1 ++ col).getLsbD 10 = true := by
  rw [BitVec.getLsbD_append, if_neg (by decide),
    BitVec.getLsbD_append]
  rfl

theorem move_step
    (hPorts : p.en = true ∧ p.init = false ∧ p.sel = true ∧
      p.cpsel = false)
    (hUp : s.state ≠ .startup)
    (hNoCopy : s.state ≠ .waitCp ∧ s.state ≠ .cp) :
    Move s p (s.step p) := by
  rcases hPorts with ⟨hEn, hInit, hSel, hCp⟩
  have hStep : s.step p =
      s.machine p { s.base p with command := .nop } := by
    simp [Ctl.step, hEn, hInit]
  rw [hStep]
  unfold Ctl.machine
  cases hState : s.state with
  | startup => exact absurd hState hUp
  | waitCp => exact absurd hState hNoCopy.1
  | cp => exact absurd hState hNoCopy.2
  | rfsh => exact .refreshSecond rfl hState rfl rfl rfl
  | idle5 => exact .walk rfl (by simp [hState]) rfl
  | idle4 => exact .walk rfl (by simp [hState]) rfl
  | idle3 => exact .walk rfl (by simp [hState]) rfl
  | idle2 => exact .walk rfl (by simp [hState]) rfl
  | idle1 => exact .walk rfl (by simp [hState]) rfl
  | wait => exact .wait rfl hState rfl ⟨rfl, rfl, rfl⟩ rfl
  | rw =>
      unfold Ctl.rw
      split_ifs
      · exact .column (.inr rfl) hState rfl ⟨rfl, rfl⟩ rfl rfl
      · exact .column (.inl rfl) hState rfl ⟨rfl, rfl⟩ rfl rfl
  | idle =>
      unfold Ctl.idle
      by_cases hDue : (p.refresh != s.refreshOld) = true
      · rw [if_pos hDue]
        exact .refresh rfl (by simpa using hDue) hState rfl rfl rfl
      · rw [if_neg hDue]
        have hNone : p.refresh = s.refreshOld := by
          simpa using hDue
        by_cases hAsked : (p.sel && (p.rd || p.wr)) = true
        · rw [if_pos hAsked]
          refine .accept rfl hNone ?_ hState rfl ?_ rfl
          · simpa [hSel] using hAsked
          · exact precharges_append _ _
        · rw [if_neg hAsked]
          simp only [hCp, Bool.and_false, Bool.false_eq_true,
            if_false]
          simp only [hSel, Bool.true_and, Bool.or_eq_true,
            not_or, Bool.not_eq_true] at hAsked
          exact .walk rfl (by simp [hState, hNone, hAsked, Ctl.base])
            rfl

end Sdram

------------------------------------------------------------
-- One Cycle
------------------------------------------------------------

namespace Sdram

variable {b : Bridge} {i : In}

/- A selected chip sees the command, the other one nothing. -/
theorem seen_pins (c : Ctl) (which : Bool) (float : BitVec 16) :
    Chip.seen (pins c which float) =
      if c.chip = which then c.command else .nop := by
  by_cases hChip : c.chip = which
  · simp [Chip.seen, pins, hChip]
  · simp [Chip.seen, pins, hChip]

/- A chip's edge comes after the controller's. -/
theorem chips_step (which : Bool) :
    (b.step i).chips which =
      (b.chips which).step
        (pins (b.step i).ctl which i.float) := rfl

/- At its beginning the sequence has promised nothing. -/
theorem starting_of_pos (hPos : pos b.ctl = 4283) :
    Starting b := by
  have hTurn (which : Bool) : pos b.ctl < turn which := by
    rw [hPos]
    cases which <;> decide
  constructor
  · omega
  · intro which hLow
    have hNot := hTurn which
    omega
  · intro which hLow
    have hNot := hTurn which
    omega
  · intro which hLow
    have hNot := hTurn which
    omega
  · intro hBegun
    omega

/- The sequence takes each chip one step on. -/
theorem starting_step
    (hState : b.ctl.state = .startup)
    (hStarting : Starting b)
    (hMore : (b.step i).ctl.state = .startup) :
    Starting (b.step i) := by
  have hEn : (b.ports i).en = true := rfl
  cases hInit : i.init with
  | true =>
      have hPos : pos (b.step i).ctl = 4283 :=
        (pos_of_init hEn hInit).2
      exact starting_of_pos hPos
  | false =>
      have hEnd : pos b.ctl ≠ 16384 := by
        intro hEnd
        have hIdle := @startup_state b.ctl (b.ports i) hEn hState
        rw [if_pos ⟨hInit, hEnd⟩] at hIdle
        exact absurd (hIdle.symm.trans hMore) (by decide)
      have hPos : pos (b.step i).ctl = pos b.ctl + 1 :=
        startup_pos hEn hInit hState hEnd
      have hCommand : (b.step i).ctl.command = _ :=
        @startup_command b.ctl (b.ports i) hEn hState
      have hA : (b.step i).ctl.a = _ :=
        @startup_a b.ctl (b.ports i) hEn hState
      have hChip : (b.step i).ctl.chip = _ :=
        @startup_chip b.ctl (b.ports i) hEn hState
      have hQuiet (which : Bool) :
          Chip.seen (pins (b.step i).ctl which i.float) ≠ .active ∧
            Chip.seen (pins (b.step i).ctl which i.float) ≠
              .read := by
        rw [seen_pins, hCommand]
        split_ifs <;> simp
      have hTurn (which : Bool)
          (hLow : turn which ≤ pos b.ctl + 1)
          (hHigh : pos b.ctl < turn which + 31) :
          (b.step i).ctl.chip = which := by
        rw [hChip]
        by_cases hFirst : pos b.ctl + 1 = turn which
        · cases which <;> simp only [turn] at hFirst <;>
            simp [show pos b.ctl = _ from
              Nat.eq_sub_of_add_eq hFirst]
        · have hKept := hStarting.selected which (by omega)
            (by omega)
          rw [hKept]
          cases which <;> simp [turn] at hFirst hLow hHigh ⊢ <;>
            omega
      constructor
      · exact hPos ▸ Nat.le_succ_of_le hStarting.begun
      · intro which hLow hHigh
        exact hTurn which (hPos ▸ hLow) (by omega)
      · intro which hLate
        rw [chips_step]
        by_cases hNow : pos b.ctl = turn which
        · have hChosen := hTurn which (by omega) (by omega)
          apply Chip.closed_of_precharge
          · rw [seen_pins, if_pos hChosen, hCommand]
            cases which <;> simp [hNow, turn]
          · show (b.step i).ctl.a.getLsbD 10 = true
            rw [hA]
            cases which <;> simp [hNow, turn]
        · exact Chip.closed_step
            (hStarting.closed which (by omega)) (hQuiet which).1
      · intro which hLate
        rw [chips_step]
        have hMode :
            Chip.seen (pins (b.step i).ctl which i.float) =
              .loadMode →
            (pins (b.step i).ctl which i.float).a = mode := by
          rw [seen_pins, hCommand]
          show _ → (b.step i).ctl.a = mode
          rw [hA]
          split_ifs <;> simp
        by_cases hNow : pos b.ctl = turn which + 24
        · have hChosen := hTurn which (by omega) (by omega)
          have hLoad :
              Chip.seen (pins (b.step i).ctl which i.float) =
                .loadMode := by
            rw [seen_pins, if_pos hChosen, hCommand]
            cases which <;> simp [hNow, turn]
          exact Chip.loaded_of_loadMode hLoad (hMode hLoad)
        · exact Chip.loaded_step
            (hStarting.loaded which (by omega)) hMode
      · intro _ which
        rw [chips_step]
        by_cases hBegun : pos b.ctl = 4283
        · rw [hPos, hBegun]
          exact Chip.settlesIn_step_any (hQuiet which).2
        · have hOld := hStarting.settles
            (by have := hStarting.begun; omega) which
          rw [hPos, ← Nat.sub_sub]
          exact Chip.settlesIn_step hOld (hQuiet which).2

/- The end of the sequence leaves both chips ready. -/
theorem running_of_starting
    (hState : b.ctl.state = .startup)
    (hStarting : Starting b)
    (hDone : (b.step i).ctl.state ≠ .startup) :
    Running (b.step i) := by
  have hEn : (b.ports i).en = true := rfl
  have hNext : (b.step i).ctl.state = _ :=
    @startup_state b.ctl (b.ports i) hEn hState
  have hCommand : (b.step i).ctl.command = _ :=
    @startup_command b.ctl (b.ports i) hEn hState
  have hEnd : (b.ports i).init = false ∧ pos b.ctl = 16384 := by
    by_contra hNot
    rw [if_neg hNot] at hNext
    exact hDone hNext
  rw [if_pos hEnd] at hNext
  have hNop : (b.step i).ctl.command = .nop := by
    rw [hCommand]
    simp [hEnd.2]
  have hSeen (which : Bool) :
      Chip.seen (pins (b.step i).ctl which i.float) = .nop := by
    rw [seen_pins, hNop]
    split_ifs <;> rfl
  have hTurn (which : Bool) : turn which + 24 < pos b.ctl := by
    rw [hEnd.2]
    cases which <;> decide
  constructor
  · simp [hNext]
  · intro which
    rw [chips_step]
    exact Chip.loaded_step (hStarting.loaded which (hTurn which))
      (by simp [hSeen])
  · intro which bank hOpen
    rw [chips_step] at hOpen
    have hClosed := Chip.closed_step
      (hStarting.closed which (by have := hTurn which; omega))
      (show Chip.seen (pins (b.step i).ctl which i.float) ≠
        .active by simp [hSeen])
    rw [hClosed bank] at hOpen
    exact absurd hOpen Bool.false_ne_true
  · simp [hNext]

/- Only a mode command could unload a chip. -/
theorem loaded_of_command
    (hLoaded : ∀ which, Loaded (b.chips which))
    (hCommand : (b.step i).ctl.command ≠ .loadMode)
    (which : Bool) :
    Loaded ((b.step i).chips which) := by
  rw [chips_step]
  apply Chip.loaded_step (hLoaded which)
  rw [seen_pins]
  split_ifs
  · exact fun hLoad => absurd hLoad hCommand
  · exact False.elim

/- Outside an access no row is open. -/
theorem Running.closed
    (hRunning : Running b)
    (hWait : b.ctl.state ≠ .wait)
    (hRw : b.ctl.state ≠ .rw)
    (which : Bool) :
    Closed (b.chips which) := by
  intro bank
  by_contra hOpen
  rw [Bool.not_eq_false] at hOpen
  rcases (hRunning.row which bank hOpen).1 with h | h
  · exact hWait h
  · exact hRw h

/- A row open after a cycle was just activated, or before. -/
theorem row_step
    {which : Bool} {bank : BitVec 2}
    (hOpen : ((b.step i).chips which).rowOpen bank = true) :
    ((b.step i).ctl.command = .active ∧
        which = (b.step i).ctl.chip ∧ bank = (b.step i).ctl.ba) ∨
      ((b.chips which).rowOpen bank = true ∧
        ((b.step i).ctl.command = .read ∨
            (b.step i).ctl.command = .write →
          which = (b.step i).ctl.chip →
          (b.step i).ctl.a.getLsbD 10 = true →
          bank ≠ (b.step i).ctl.ba)) := by
  rw [chips_step] at hOpen
  rcases Chip.rowOpen_step hOpen with ⟨hSeen, hBank⟩ |
    ⟨hOld, -, hKept⟩
  · left
    rw [seen_pins] at hSeen
    split_ifs at hSeen with hChip
    exact ⟨hSeen, hChip.symm, hBank⟩
  · right
    refine ⟨hOld, fun hAccess hChip => hKept ?_⟩
    rw [seen_pins, if_pos hChip.symm]
    exact hAccess

/- A cycle without an activation opens no row. -/
theorem running_of_quiet
    (hRunning : Running b)
    (hClosed : ∀ which, Closed (b.chips which))
    (hCommand : (b.step i).ctl.command = .nop ∨
      (b.step i).ctl.command = .autoRefresh)
    (hNext : (b.step i).ctl.state ≠ .wait ∧
      (b.step i).ctl.state ≠ .rw ∧
      (b.step i).ctl.state ≠ .waitCp ∧
      (b.step i).ctl.state ≠ .cp) :
    Running (b.step i) := by
  constructor
  · exact hNext.2.2
  · apply loaded_of_command hRunning.loaded
    rcases hCommand with h | h <;> simp [h]
  · intro which bank hOpen
    rcases row_step hOpen with ⟨hActive, -⟩ | ⟨hOld, -⟩
    · rcases hCommand with h | h <;> simp [h] at hActive
    · rw [hClosed which bank] at hOld
      exact absurd hOld Bool.false_ne_true
  · rintro (h | h)
    · exact absurd h hNext.1
    · exact absurd h hNext.2.1

/- The service keeps at most the accessed row open. -/
theorem running_step
    (hState : b.ctl.state ≠ .startup)
    (hRunning : Running b)
    (hInit : i.init = false) :
    Running (b.step i) ∧ (b.step i).ctl.state ≠ .startup := by
  have hMove : Move b.ctl (b.ports i) (b.step i).ctl :=
    move_step ⟨rfl, hInit, rfl, rfl⟩ hState hRunning.noCopy
  cases hMove with
  | walk hCommand hWalked hOld =>
      have hAway : b.ctl.state ≠ .wait ∧ b.ctl.state ≠ .rw := by
        rcases hWalked with h | h | h | h | h | h <;> simp [h.1]
      refine ⟨running_of_quiet hRunning
        (hRunning.closed hAway.1 hAway.2) (.inl hCommand) ?_, ?_⟩
      · rcases hWalked with h | h | h | h | h | h <;>
          simp [h]
      · rcases hWalked with h | h | h | h | h | h <;>
          simp [h]
  | refresh hCommand hDue hIdle hNext hChip hOld =>
      refine ⟨running_of_quiet hRunning
        (hRunning.closed (by simp [hIdle]) (by simp [hIdle]))
        (.inr hCommand) (by simp [hNext]), by simp [hNext]⟩
  | refreshSecond hCommand hRfsh hNext hChip hOld =>
      refine ⟨running_of_quiet hRunning
        (hRunning.closed (by simp [hRfsh]) (by simp [hRfsh]))
        (.inr hCommand) (by simp [hNext]), by simp [hNext]⟩
  | accept hCommand hNone hAsked hIdle hNext hCloses hOld =>
      refine ⟨⟨by simp [hNext], ?_, ?_, fun _ => hCloses⟩,
        by simp [hNext]⟩
      · exact loaded_of_command hRunning.loaded
          (by simp [hCommand])
      · intro which bank hOpen
        rcases row_step hOpen with ⟨-, hChip, hBank⟩ | ⟨hOld, -⟩
        · exact ⟨.inl hNext, hChip, hBank⟩
        · have hWas := (hRunning.row which bank hOld).1
          simp [hIdle] at hWas
  | wait hCommand hWait hNext hSame hOld =>
      refine ⟨⟨by simp [hNext], ?_, ?_, ?_⟩, by simp [hNext]⟩
      · exact loaded_of_command hRunning.loaded
          (by simp [hCommand])
      · intro which bank hOpen
        rcases row_step hOpen with ⟨hActive, -⟩ | ⟨hOld, -⟩
        · simp [hCommand] at hActive
        · have hWas := (hRunning.row which bank hOld).2
          rw [hSame.1, hSame.2.1]
          exact ⟨.inr hNext, hWas⟩
      · intro _
        rw [hSame.2.2]
        exact hRunning.closes (.inl hWait)
  | column hCommand hRw hNext hSame hAddr hOld =>
      refine ⟨⟨by simp [hNext], ?_, ?_, by simp [hNext]⟩,
        by simp [hNext]⟩
      · apply loaded_of_command hRunning.loaded
        rcases hCommand with h | h <;> simp [h]
      · intro which bank hOpen
        rcases row_step hOpen with ⟨hActive, -⟩ | ⟨hOld, hKept⟩
        · rcases hCommand with h | h <;> simp [h] at hActive
        · have hWas := (hRunning.row which bank hOld).2
          rw [hSame.1, hSame.2, hAddr] at hKept
          exact absurd hWas.2 (hKept hCommand hWas.1
            (hRunning.closes (.inr hRw)))

/- Preparation is kept, whatever is asked and reset. -/
theorem prepared_step
    (b : Bridge)
    (i : In)
    (hPrepared : Prepared b) :
    Prepared (b.step i) := by
  have hEn : (b.ports i).en = true := rfl
  cases hInit : i.init with
  | true =>
      have hReset := @pos_of_init b.ctl (b.ports i) hEn hInit
      have hState : (b.step i).ctl.state = .startup := hReset.1
      have hPos : pos (b.step i).ctl = 4283 := hReset.2
      exact ⟨fun _ => starting_of_pos hPos,
        fun hUp => absurd hState hUp⟩
  | false =>
      by_cases hState : b.ctl.state = .startup
      · have hStarting := hPrepared.starting hState
        exact ⟨starting_step hState hStarting,
          running_of_starting hState hStarting⟩
      · have hNext := running_step hState
          (hPrepared.running hState) hInit
        exact ⟨fun hUp => absurd hUp hNext.2, fun _ => hNext.1⟩

theorem prepared_of_reached (hReached : Reached b) :
    Prepared b := by
  rcases hReached with ⟨b₀, is, rfl⟩
  apply Clocked.invariant_always prepared_step
  exact ⟨fun _ => starting_of_pos rfl, fun hUp => absurd rfl hUp⟩

end Sdram

------------------------------------------------------------
-- The Length of Power-Up
------------------------------------------------------------

namespace Sdram

open Clocked

variable {b : Bridge} {i : In}

/- In the power-up sequence nothing is accessed. -/
theorem startup_access
    (hState : b.ctl.state = .startup) :
    ((b.step i).ctl.state = .startup ∨
        (b.step i).ctl.state = .idle) ∧
      ((b.step i).ctl.command ≠ .read ∧
        (b.step i).ctl.command ≠ .write) ∧
      (b.step i).ctl.dataReadyDelay =
        b.ctl.dataReadyDelay >>> 1 ∧
      (b.step i).ctl.ready =
        (if b.ctl.refreshCount == 0#14 then true
        else if b.ctl.dataReadyDelay.getLsbD 0 then true
        else b.ctl.ready) := by
  have hStep : (b.step i).ctl = b.ctl.step (b.ports i) := rfl
  have hCommand := @startup_command b.ctl (b.ports i) rfl hState
  have hNext := @startup_state b.ctl (b.ports i) rfl hState
  rw [hStep]
  refine ⟨?_, ?_, ?_, ?_⟩
  · rw [hNext]
    split_ifs <;> simp
  · rw [hCommand]
    split_ifs <;> simp
  · simp only [Ctl.step, Bridge.ports, Ctl.machine, hState,
      if_true]
    split_ifs <;> rfl
  · simp only [Ctl.step, Bridge.ports, Ctl.machine, hState,
      if_true]
    split_ifs <;> simp_all [Ctl.startup, Ctl.base]

/- The sequence takes 12101 cycles, whatever is asked. -/
theorem startup_run
    (b₀ : Bridge)
    {is : List In}
    (hInit : ∀ i ∈ is, i.init = false)
    (hLe : is.length ≤ 12101) :
    (run Bridge.step (powerOn b₀) is).ctl.state = .startup ∧
      pos (run Bridge.step (powerOn b₀) is).ctl =
        4283 + is.length ∧
      (run Bridge.step (powerOn b₀) is).ctl.refreshOld = false ∧
      (run Bridge.step (powerOn b₀) is).ctl.dataReadyDelay =
        0#3 ∧
      (run Bridge.step (powerOn b₀) is).ctl.ready =
        b₀.ctl.ready := by
  induction is using List.reverseRecOn with
  | nil =>
      rcases b₀ with ⟨sys, ram, refresh, refcnt, ctl, chips⟩
      cases ctl
      exact ⟨rfl, rfl, rfl, rfl, rfl⟩
  | append_singleton is i ih =>
      rw [List.length_append, List.length_singleton] at hLe ⊢
      rw [run_append, run_cons, run_nil]
      rcases ih (fun j hJ => hInit j (by simp [hJ])) (by omega)
        with ⟨hState, hPos, hOld, hDelay, hReady⟩
      have hQuiet : i.init = false := hInit i (by simp)
      revert hState hPos hOld hDelay hReady
      generalize run Bridge.step (powerOn b₀) is = b
      intro hState hPos hOld hDelay hReady
      have hEn : (b.ports i).en = true := rfl
      have hMore : pos b.ctl ≠ 16384 := by omega
      have hEnd : (b.ctl.refreshCount == 0#14) = false := by
        rw [count_zero_iff]
        simpa using hMore
      rcases @startup_access b i hState with
        ⟨-, -, hDelay', hReady'⟩
      have hStep : (b.step i).ctl = b.ctl.step (b.ports i) := rfl
      refine ⟨?_, ?_, ?_, ?_, ?_⟩
      · rw [hStep, startup_state hEn hState,
          if_neg (fun h => hMore h.2)]
      · rw [hStep, startup_pos hEn hQuiet hState hMore, hPos]
        omega
      · rw [hStep, startup_refreshOld hEn hState, hOld]
      · rw [hDelay', hDelay]
        rfl
      · rw [hReady', hEnd, hDelay]
        exact hReady

/- `n` cycles from power-up with nothing asked. -/
def quietRun (b₀ : Bridge) (n : Nat) : Bridge :=
  run Bridge.step (powerOn b₀) (List.replicate n {})

theorem quietRun_succ (b₀ : Bridge) (n : Nat) :
    quietRun b₀ (n + 1) = (quietRun b₀ n).step {} := by
  unfold quietRun
  rw [List.replicate_succ', run_append]
  rfl

theorem reached_quietRun (b₀ : Bridge) (n : Nat) :
    Reached (quietRun b₀ n) :=
  ⟨b₀, List.replicate n {}, rfl⟩

/- The refresh timer's period is 772 cycles. -/
theorem quietRun_timer (b₀ : Bridge) (n : Nat) :
    (quietRun b₀ n).refcnt = n % 772 ∧
      (quietRun b₀ n).refresh = decide (n / 772 % 2 = 1) := by
  induction n with
  | zero => exact ⟨rfl, rfl⟩
  | succ n ih =>
      rcases ih with ⟨hCount, hRefresh⟩
      rw [quietRun_succ]
      simp only [Bridge.step, hCount, hRefresh]
      split_ifs with hLast
      · refine ⟨by omega, ?_⟩
        have hNext : (n + 1) / 772 = n / 772 + 1 := by omega
        rw [hNext]
        by_cases hOdd : n / 772 % 2 = 1
        · simp [hOdd]
          omega
        · simp [hOdd]
          omega
      · refine ⟨by omega, ?_⟩
        have hNext : (n + 1) / 772 = n / 772 := by omega
        rw [hNext]

theorem quietRun_startup
    (b₀ : Bridge)
    {n : Nat}
    (hLe : n ≤ 12101) :
    (quietRun b₀ n).ctl.state = .startup ∧
      pos (quietRun b₀ n).ctl = 4283 + n ∧
      (quietRun b₀ n).ctl.refreshOld = false := by
  have hRun := @startup_run b₀ (List.replicate n {})
    (by simp) (by simpa using hLe)
  rw [List.length_replicate] at hRun
  exact ⟨hRun.1, hRun.2.1, hRun.2.2.1⟩

/- Then it is idle, and a cycle later it serves a refresh. -/
theorem quietRun_service
    (b₀ : Bridge)
    {n : Nat}
    (hEnd : n = 12101) :
    (quietRun b₀ (n + 2)).ctl.state = .rfsh ∧
      (quietRun b₀ (n + 2)).refresh =
        (quietRun b₀ (n + 2)).ctl.refreshOld := by
  rcases @quietRun_startup b₀ n (by omega) with
    ⟨hState, hPos, hOld⟩
  have hEn : ((quietRun b₀ n).ports {}).en = true := rfl
  have hIdle : (quietRun b₀ (n + 1)).ctl.state = .idle := by
    rw [quietRun_succ]
    show ((quietRun b₀ n).ctl.step _).state = _
    rw [startup_state hEn hState, if_pos ⟨rfl, by omega⟩]
  have hOld' : (quietRun b₀ (n + 1)).ctl.refreshOld = false := by
    rw [quietRun_succ]
    show ((quietRun b₀ n).ctl.step _).refreshOld = _
    rw [startup_refreshOld hEn hState, hOld]
  have hDue : (quietRun b₀ (n + 1)).refresh = true := by
    rw [(quietRun_timer b₀ (n + 1)).2, hEnd]
    decide
  have hNext : (quietRun b₀ (n + 2)).refresh = true := by
    rw [(quietRun_timer b₀ (n + 2)).2, hEnd]
    decide
  rw [hNext, quietRun_succ]
  constructor
  · simp [Bridge.step, Ctl.step, Ctl.machine, hIdle, Ctl.idle,
      Bridge.ports, hDue, hOld']
  · simp [Bridge.step, Ctl.step, Ctl.machine, hIdle, Ctl.idle,
      Bridge.ports, hDue, hOld']

end Sdram
