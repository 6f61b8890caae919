import Wombat33.Sdram.Cells
import Wombat33.Sdram.Handshake

/-
  One access from its acceptance to its completion.

  A write is at the chip as soon as its column is; a read's
  words come out of the chip's pipeline two edges later, one
  after the other, and meet the controller's and the bridge's
  registers on their way.

  Key definitions include:
    * `Coming`
    * `Rest`, `Open`, `Burst`
    * `Doing`
    * `Unclaimed`

  Key theorems include:
    * `opened_of_rest`
    * `wrote_of_column`
    * `burst_of_column`
    * `rest_of_word1`
-/

------------------------------------------------------------
-- The Pipeline of a Chip
------------------------------------------------------------

namespace Sdram

/- After `n` edges without a read this word is driven. -/
def Coming (c : Chip) : Nat → BitVec 16 → Prop
  | 0, w => c.dqDrive = true ∧ c.dqVal = w
  | n + 1, w => c.pipeV n = true ∧ c.pipeD n = w

namespace Chip

variable {c : Chip} {p : Pins}

/- Without a read an edge only shifts the pipeline. -/
theorem pipeline_step (hQuiet : seen p ≠ .read) :
    (c.step p).dqDrive = c.shift.dqDrive ∧
      (c.step p).dqVal = c.shift.dqVal ∧
      (c.step p).pipeV = c.shift.pipeV ∧
      (c.step p).pipeD = c.shift.pipeD := by
  unfold step
  cases hSeen : seen p with
  | read => exact absurd hSeen hQuiet
  | write =>
      simp only [access, writeWord, autoPrecharge]
      split_ifs <;> exact ⟨rfl, rfl, rfl, rfl⟩
  | active | precharge | loadMode | autoRefresh | burstStop
  | nop => exact ⟨rfl, rfl, rfl, rfl⟩

theorem coming_step
    {n : Nat} {w : BitVec 16}
    (hFits : n ≤ 7)
    (hQuiet : seen p ≠ .read)
    (hComing : Coming c (n + 1) w) :
    Coming (c.step p) n w := by
  rcases @pipeline_step c p hQuiet with
    ⟨hDrive, hVal, hPipeV, hPipeD⟩
  cases n with
  | zero =>
      exact ⟨hDrive.trans hComing.1, hVal.trans hComing.2⟩
  | succ n =>
      have hPlace : n < 7 := hFits
      constructor
      · simp [hPipeV, shift, hPlace, hComing.1]
      · simp [hPipeD, shift, hPlace, hComing.2]

/- An activation opens its row. -/
theorem active_step (hActive : seen p = .active) :
    (c.step p).rowOpen p.ba = true ∧
      (c.step p).row p.ba = p.a := by
  simp [step, hActive, activate]

/- A read of an open row sends a burst of four. -/
theorem read_step
    (hRead : seen p = .read)
    (hOpen : c.rowOpen p.ba = true)
    (hLoaded : Loaded c)
    (hDrained : SettlesIn c 0) :
    (∀ j < 4, Coming (c.step p) (j + 2)
        (c.mem (key p.ba (c.row p.ba)
          (burstCol 4 (p.a.extractLsb' 0 10) j)))) ∧
      SettlesIn (c.step p) 6 := by
  have hStep : c.step p = autoPrecharge p (c.burst p c.shift) := by
    simp only [step, hRead, access, hOpen, if_true]
  have hPipeV (k : Nat) : (c.step p).pipeV k =
      (decide (2 ≤ k + 1) && decide (k + 1 < 6) &&
        decide (k < 8)) := by
    have hEmpty : c.pipeV (k + 1) = false :=
      hDrained.pipe (k + 1) (Nat.zero_le _)
    simp [hStep, autoPrecharge, burst, hLoaded.cl, hLoaded.bl,
      shift, hEmpty]
  constructor
  · intro j hJ
    constructor
    · rw [hPipeV]
      simp
      omega
    · simp [hStep, autoPrecharge, burst, hLoaded.cl, hLoaded.bl]
      omega
  · constructor
    · intro hZero
      omega
    · intro k hK
      rw [hPipeV]
      simp
      omega

end Chip

end Sdram

------------------------------------------------------------
-- Where an Access Is
------------------------------------------------------------

namespace Sdram

/- The chip the captured address is on, and its two cells. -/
def Bridge.sel (b : Bridge) : Bool := b.sys.rAddr.getLsbD 24

def Bridge.cell0 (b : Bridge) : BitVec 16 :=
  cell b (b.sys.rAddr ++ 0#1)

def Bridge.cell1 (b : Bridge) : BitVec 16 :=
  cell b (b.sys.rAddr ++ 1#1)

/- No access is under way, and `ready` shows no edge. -/
structure Rest (b : Bridge) : Prop where
  state : b.ctl.state ≠ .wait ∧ b.ctl.state ≠ .rw
  single : b.ram.rd2 = false
  delay : b.ctl.dataReadyDelay = 0#3
  ready : b.ctl.state ≠ .startup → b.ctl.ready = true
  level : b.ram.busyR = true → b.completes = false
  first : b.ram.busyR = true → b.sys.rWe = false →
    b.ram.acc = false
  drained : b.ctl.state ≠ .startup → ∀ which,
    SettlesIn (b.chips which) (if b.ram.busyR then 0 else 1)

/- The controller has accepted the halfword asked for. -/
structure Open (b : Bridge) : Prop where
  busy : b.ram.busyR = true
  single : b.ram.rd2 = false
  low : b.ctl.ready = false
  delay : b.ctl.dataReadyDelay = 0#3
  first : b.sys.rWe = false → b.ram.acc = false
  write : b.ctl.savedWr = b.sys.rWe
  data : b.sys.rWe = true → b.ctl.savedData = b.din
  addr : b.ctl.casAddr =
    columnAddr (if b.sys.rWe then ~~~b.bs else 0#2) b.word
  bank : b.ctl.ba = bankOf b.word
  chip : b.ctl.chip = b.word.getLsbD 25
  row : RowOpen b b.word
  drained : ∀ which, SettlesIn (b.chips which) 0

/- A write's column has just reached the chip. -/
structure Wrote (b : Bridge) : Prop where
  state : b.ctl.state = .idle4
  busy : b.ram.busyR = true
  write : b.sys.rWe = true
  single : b.ram.rd2 = false
  delay : b.ctl.dataReadyDelay = 0#3
  ready : b.ctl.ready = true
  rises : b.ram.readyD = false
  drained : ∀ which, SettlesIn (b.chips which) 0

/- A read's first word is `n` edges from the pins. -/
structure Burst (b : Bridge) (n : Nat) : Prop where
  busy : b.ram.busyR = true
  read : b.sys.rWe = false
  single : b.ram.rd2 = false
  low : b.ctl.ready = false
  release : b.ctl.dqOe = false
  word0 : Coming (b.chips b.sel) n b.cell0
  word1 : Coming (b.chips b.sel) (n + 1) b.cell1
  drained : SettlesIn (b.chips b.sel) (n + 4)
  other : SettlesIn (b.chips !b.sel) 0

/- The first word is in the controller's register. -/
structure Word0 (b : Bridge) : Prop where
  state : b.ctl.state = .idle1
  delay : b.ctl.dataReadyDelay = 0#3
  busy : b.ram.busyR = true
  read : b.sys.rWe = false
  single : b.ram.rd2 = false
  ready : b.ctl.ready = true
  rises : b.ram.readyD = false
  release : b.ctl.dqOe = false
  dout : b.ctl.dout = b.cell0
  word1 : Coming (b.chips b.sel) 0 b.cell1
  drained : SettlesIn (b.chips b.sel) 3
  other : SettlesIn (b.chips !b.sel) 0

/- The second one is, and the first has been kept. -/
structure Word1 (b : Bridge) : Prop where
  state : b.ctl.state = .idle
  delay : b.ctl.dataReadyDelay = 0#3
  busy : b.ram.busyR = true
  read : b.sys.rWe = false
  double : b.ram.rd2 = true
  ready : b.ctl.ready = true
  dout : b.ctl.dout = b.cell1
  hold : b.ram.hold.extractLsb' 16 16 = b.cell0
  drained : ∀ which, SettlesIn (b.chips which) 2

/- Where the bridge is in an access. -/
inductive Doing (b : Bridge) : Prop
  | rest (here : Rest b)
  | opened (state : b.ctl.state = .wait) (here : Open b)
  | column (state : b.ctl.state = .rw) (here : Open b)
  | wrote (here : Wrote b)
  | burst3
      (state : b.ctl.state = .idle4)
      (delay : b.ctl.dataReadyDelay = 4#3)
      (here : Burst b 2)
  | burst2
      (state : b.ctl.state = .idle3)
      (delay : b.ctl.dataReadyDelay = 2#3)
      (here : Burst b 1)
  | burst1
      (state : b.ctl.state = .idle2)
      (delay : b.ctl.dataReadyDelay = 1#3)
      (here : Burst b 0)
  | word0 (here : Word0 b)
  | word1 (here : Word1 b)

end Sdram

------------------------------------------------------------
-- The Controller's Cycle
------------------------------------------------------------

namespace Sdram

variable {b : Bridge} {i : In}

theorem ctl_step (hInit : i.init = false) :
    (b.step i).ctl =
      b.ctl.machine (b.ports i)
        { b.ctl.base (b.ports i) with command := .nop } := by
  simp [Bridge.step, Ctl.step, Bridge.ports, hInit]

/- The next state of a controller that is walking. -/
def walked : State → State
  | .wait => .rw
  | .rfsh => .idle5
  | .idle5 => .idle4
  | .idle4 => .idle3
  | .idle3 => .idle2
  | .idle2 => .idle1
  | .idle1 => .idle
  | s => s

/- What a controller that accesses nothing leaves behind. -/
structure Walks (b : Bridge) (i : In) : Prop where
  command : (b.step i).ctl.command ≠ .read ∧
    (b.step i).ctl.command ≠ .write
  delay : (b.step i).ctl.dataReadyDelay =
    b.ctl.dataReadyDelay >>> 1
  ready : (b.step i).ctl.ready =
    if b.ctl.dataReadyDelay.getLsbD 0 then true
    else b.ctl.ready
  dout : (b.step i).ctl.dout = b.dq i
  release : (b.step i).ctl.dqOe = false

theorem walks_step
    (hInit : i.init = false)
    (hState : b.ctl.state ≠ .startup ∧ b.ctl.state ≠ .idle ∧
      b.ctl.state ≠ .rw ∧ b.ctl.state ≠ .waitCp ∧
      b.ctl.state ≠ .cp) :
    Walks b i ∧ (b.step i).ctl.state = walked b.ctl.state := by
  have hCtl := @ctl_step b i hInit
  unfold Ctl.machine at hCtl
  cases hNow : b.ctl.state with
  | startup | idle | rw | waitCp | cp =>
      simp [hNow] at hState
  | wait | rfsh | idle5 | idle4 | idle3 | idle2 | idle1 =>
      rw [hNow] at hCtl
      refine ⟨⟨?_, ?_, ?_, ?_, ?_⟩, ?_⟩ <;> rw [hCtl] <;>
        simp [walked, Ctl.base, Bridge.ports]

/- An idle controller with nothing to accept. -/
theorem walks_idle
    (hInit : i.init = false)
    (hState : b.ctl.state = .idle)
    (hNone : b.refresh ≠ b.ctl.refreshOld ∨
      (b.rd = false ∧ b.wr = false)) :
    Walks b i ∧
      ((b.step i).ctl.state = .idle ∨
        (b.step i).ctl.state = .rfsh) := by
  have hCtl := @ctl_step b i hInit
  simp only [Ctl.machine, hState, Ctl.idle] at hCtl
  by_cases hDue :
      ((b.ports i).refresh != b.ctl.refreshOld) = true
  · rw [if_pos hDue] at hCtl
    refine ⟨⟨?_, ?_, ?_, ?_, ?_⟩, ?_⟩ <;> rw [hCtl] <;>
      simp [Ctl.base, Bridge.ports]
  · have hIdle : b.rd = false ∧ b.wr = false := by
      rcases hNone with h | h
      · exact absurd (bne_iff_ne.mpr h) hDue
      · exact h
    rw [if_neg hDue, if_neg (by simp [Bridge.ports, hIdle])]
      at hCtl
    refine ⟨⟨?_, ?_, ?_, ?_, ?_⟩, ?_⟩ <;> rw [hCtl] <;>
      simp [Ctl.base, Bridge.ports, hState]

/- A command is no read on any chip if it is none at all. -/
theorem seen_ne_read
    (hCommand : (b.step i).ctl.command ≠ .read)
    (which : Bool) :
    Chip.seen (pins (b.step i).ctl which i.float) ≠ .read := by
  rw [seen_pins]
  split_ifs
  · exact hCommand
  · exact Cmd.noConfusion

theorem Walks.settles
    {which : Bool} {n : Nat}
    (hWalks : Walks b i)
    (hSettles : SettlesIn (b.chips which) n) :
    SettlesIn ((b.step i).chips which) (n - 1) := by
  rw [chips_step]
  exact Chip.settlesIn_step hSettles
    (seen_ne_read hWalks.command.1 which)

theorem Walks.coming
    {which : Bool} {n : Nat} {w : BitVec 16}
    (hWalks : Walks b i)
    (hFits : n ≤ 7)
    (hComing : Coming (b.chips which) (n + 1) w) :
    Coming ((b.step i).chips which) n w := by
  rw [chips_step]
  exact Chip.coming_step hFits
    (seen_ne_read hWalks.command.1 which) hComing

end Sdram

------------------------------------------------------------
-- The Bridge's Cycle
------------------------------------------------------------

namespace Sdram

variable {b : Bridge} {i : In}

/- A beat that is being worked on stays captured. -/
theorem beat_of_busy
    (hHand : Hand b)
    (hBusy : b.ram.busyR = true) :
    (b.step i).sys.rAddr = b.sys.rAddr ∧
      (b.step i).sys.rWdata = b.sys.rWdata ∧
      (b.step i).sys.rBe = b.sys.rBe ∧
      (b.step i).sys.rWe = b.sys.rWe := by
  have hTaken := (hHand.working hBusy).1
  have hFree : b.captures i = false := by
    simp [Bridge.captures, hTaken]
  simpa [hFree] using @beat_step b i

/- Without a completion an access goes on. -/
theorem ram_of_waiting
    (hBusy : b.ram.busyR = true)
    (hSingle : b.ram.rd2 = false)
    (hLevel : b.completes = false) :
    (b.step i).ram =
      { b.ram with
        reqSync0 := b.sys.reqTgl
        reqSync1 := b.ram.reqSync0
        readyD := b.ctl.ready } := by
  have hNone : (b.ctl.ready && !b.ram.readyD) = false := by
    simpa [Bridge.completes, hBusy, hSingle] using hLevel
  simp [Bridge.step, Bridge.ramNext, hBusy, hSingle, hNone]

theorem completes_of_low (hLow : b.ctl.ready = false) :
    b.completes = false := by
  simp [Bridge.completes, hLow]

/- `ready` shows no edge a cycle after it was high. -/
theorem completes_of_high (hHigh : b.ctl.ready = true) :
    (b.step i).completes = false := by
  have hLast := (@ram_step b i).2.2.2.2.1
  simp [Bridge.completes, hLast, hHigh]

/- The pins show the word the selected chip drives. -/
theorem dq_of_coming
    {which : Bool} {w : BitVec 16}
    (hRelease : b.ctl.dqOe = false)
    (hComing : Coming (b.chips which) 0 w)
    (hOther : SettlesIn (b.chips !which) 0) :
    b.dq i = w := by
  have hNone := hOther.drive rfl
  cases which with
  | false => simp [Bridge.dq, hRelease, hComing.1, hComing.2]
  | true =>
      have hFirst : (b.chips false).dqDrive = false := hNone
      simp [Bridge.dq, hRelease, hFirst, hComing.1, hComing.2]

/- The cells a walking controller leaves alone. -/
theorem cells_of_walks
    (hHand : Hand b)
    (hBusy : b.ram.busyR = true)
    (hCommand : (b.step i).ctl.command ≠ .write) :
    (b.step i).sel = b.sel ∧ (b.step i).cell0 = b.cell0 ∧
      (b.step i).cell1 = b.cell1 := by
  have hAddr := (@beat_of_busy b i hHand hBusy).1
  refine ⟨?_, ?_, ?_⟩
  · simp only [Bridge.sel, hAddr]
  · simp only [Bridge.cell0, hAddr, cell_of_quiet hCommand]
  · simp only [Bridge.cell1, hAddr, cell_of_quiet hCommand]

end Sdram

------------------------------------------------------------
-- From Stage to Stage
------------------------------------------------------------

namespace Sdram

variable {b : Bridge} {i : In}

/- A beat's halfword stays the same while it is asked for. -/
theorem word_of_waiting
    (hHand : Hand b)
    (hBusy : b.ram.busyR = true)
    (hSingle : b.ram.rd2 = false)
    (hLevel : b.completes = false) :
    (b.step i).word = b.word ∧ (b.step i).din = b.din ∧
      (b.step i).bs = b.bs ∧
      (b.step i).sys.rWe = b.sys.rWe := by
  rcases @beat_of_busy b i hHand hBusy with
    ⟨hAddr, hData, hBe, hWe⟩
  have hRam := @ram_of_waiting b i hBusy hSingle hLevel
  have hAcc : (b.step i).ram.acc = b.ram.acc := by rw [hRam]
  simp only [Bridge.word, Bridge.din, Bridge.bs, hAddr, hData,
    hBe, hWe, hAcc, and_self]

/- The row is open a cycle before its column is accessed. -/
theorem column_of_opened
    (hHand : Hand b)
    (hInit : i.init = false)
    (hState : b.ctl.state = .wait)
    (hOpen : Open b) :
    (b.step i).ctl.state = .rw ∧ Open (b.step i) := by
  have hLevel := completes_of_low hOpen.low
  have hRam :=
    @ram_of_waiting b i hOpen.busy hOpen.single hLevel
  rcases @word_of_waiting b i hHand hOpen.busy hOpen.single
    hLevel with ⟨hWord, hDin, hBs, hWe⟩
  have hCtl := @ctl_step b i hInit
  simp only [Ctl.machine, hState] at hCtl
  have hShift (which : Bool) :
      (b.step i).chips which = (b.chips which).shift := by
    rw [chips_step, Chip.step, seen_pins, hCtl]
    split_ifs <;> rfl
  refine ⟨by rw [hCtl], ?_⟩
  constructor
  · rw [hRam]
    exact hOpen.busy
  · rw [hRam]
    exact hOpen.single
  · simp [hCtl, Ctl.base, hOpen.delay, hOpen.low]
  · simp [hCtl, Ctl.base, hOpen.delay]
  · rw [hWe, hRam]
    exact hOpen.first
  · rw [hWe, hCtl]
    exact hOpen.write
  · rw [hWe, hDin, hCtl]
    exact hOpen.data
  · rw [hWe, hBs, hWord, hCtl]
    exact hOpen.addr
  · rw [hWord, hCtl]
    exact hOpen.bank
  · rw [hWord, hCtl]
    exact hOpen.chip
  · rw [hWord]
    constructor
    · rw [hShift]
      exact hOpen.row.openBank
    · rw [hShift]
      exact hOpen.row.row
  · intro which
    rw [hShift]
    exact Chip.settlesIn_shift (hOpen.drained which)

/- A write's column is written. -/
theorem wrote_of_column
    (hHand : Hand b)
    (hInit : i.init = false)
    (hState : b.ctl.state = .rw)
    (hOpen : Open b)
    (hWrite : b.sys.rWe = true) :
    Wrote (b.step i) ∧ (b.step i).ctl.command = .write ∧
      ∀ v, cell (b.step i) v =
        if v = b.word then mergeHalf b.bs b.din (cell b v)
        else cell b v := by
  have hLevel := completes_of_low hOpen.low
  have hRam :=
    @ram_of_waiting b i hOpen.busy hOpen.single hLevel
  have hWe := (@beat_of_busy b i hHand hOpen.busy).2.2.2
  have hSaved := hOpen.write.trans hWrite
  have hCtl := @ctl_step b i hInit
  simp only [Ctl.machine, hState, Ctl.rw, hSaved, if_true]
    at hCtl
  have hCommand : (b.step i).ctl.command = .write := by
    rw [hCtl]
  refine ⟨?_, hCommand, ?_⟩
  · constructor
    · rw [hCtl]
    · rw [hRam]
      exact hOpen.busy
    · rw [hWe, hWrite]
    · rw [hRam]
      exact hOpen.single
    · simp [hCtl, Ctl.base, hOpen.delay]
    · rw [hCtl]
    · rw [hRam]
      exact hOpen.low
    · intro which
      rw [chips_step]
      exact Chip.settlesIn_step (hOpen.drained which)
        (seen_ne_read (by simp [hCommand]) which)
  · intro v
    have hAddr : (b.step i).ctl.a =
        columnAddr (~~~b.bs) b.word := by
      rw [hCtl]
      exact hOpen.addr.trans (by rw [if_pos hWrite])
    rw [cell_write hOpen.row hCommand
      (by rw [hCtl]; exact hOpen.chip)
      (by rw [hCtl]; exact hOpen.bank) hAddr (by rw [hCtl])]
    simp only [hCtl, hOpen.data hWrite]

/- Two words of a burst from an even column. -/
theorem burstCol_even (x : BitVec 9) :
    burstCol 4 (x ++ 0#1) 0 = x ++ 0#1 ∧
      burstCol 4 (x ++ 0#1) 1 = x ++ 1#1 := by
  have hNat (o : BitVec 1) :
      (x ++ o).toNat = 2 * x.toNat + o.toNat := by
    rw [BitVec.toNat_append,
      ← Nat.shiftLeft_add_eq_or_of_lt o.isLt, Nat.shiftLeft_eq]
    omega
  have hLt := x.isLt
  constructor <;> apply BitVec.eq_of_toNat_eq
  · rw [burstCol, hNat, BitVec.toNat_ofNat, BitVec.toNat_ofNat]
    omega
  · rw [burstCol, hNat, hNat, BitVec.toNat_ofNat,
      BitVec.toNat_ofNat, BitVec.toNat_ofNat]
    omega

/- The column of a longword, less the half. -/
def pairCol (a : BitVec 25) : BitVec 9 :=
  a.extractLsb' 23 1 ++ a.extractLsb' 0 8

theorem colOf_half (a : BitVec 25) (o : BitVec 1) :
    colOf (a ++ o) = pairCol a ++ o := by
  apply BitVec.eq_of_getLsbD_eq
  intro j hJ
  simp only [colOf, pairCol, BitVec.getLsbD_append,
    BitVec.getLsbD_extractLsb']
  by_cases hLow : j < 1
  · have hNine : j < 9 := by omega
    simp [hLow, hNine]
  · by_cases hNine : j < 9
    · have hEight : j - 1 < 8 := by omega
      simp [hLow, hNine, hEight]
    · have hLast : j = 9 := by omega
      simp [hLast]

/- The halves of a longword are in one row, side by side. -/
theorem place_half (a : BitVec 25) (o : BitVec 1) :
    place (a ++ o) =
      key (bankOf (a ++ 0#1)) (rowOf (a ++ 0#1))
        (pairCol a ++ o) := by
  have hAbove {start len : Nat} (hLe : 1 ≤ start) :
      (a ++ o).extractLsb' start len =
        (a ++ 0#1).extractLsb' start len := by
    rw [BitVec.extractLsb'_append_eq_of_le hLe,
      BitVec.extractLsb'_append_eq_of_le hLe]
  have hBank : bankOf (a ++ o) = bankOf (a ++ 0#1) :=
    hAbove (by decide)
  have hRow : rowOf (a ++ o) = rowOf (a ++ 0#1) :=
    hAbove (by decide)
  rw [place, hBank, hRow, colOf_half]

/- The first two words of a longword's burst are its halves. -/
theorem burst_cells
    {c : Chip} {a : BitVec 25}
    (hRow : c.row (bankOf (a ++ 0#1)) = rowOf (a ++ 0#1)) :
    c.mem (key (bankOf (a ++ 0#1)) (c.row (bankOf (a ++ 0#1)))
          (burstCol 4 (colOf (a ++ 0#1)) 0)) =
        c.mem (place (a ++ 0#1)) ∧
      c.mem (key (bankOf (a ++ 0#1)) (c.row (bankOf (a ++ 0#1)))
          (burstCol 4 (colOf (a ++ 0#1)) 1)) =
        c.mem (place (a ++ 1#1)) := by
  have hEven := burstCol_even (pairCol a)
  simp only [hRow, colOf_half, hEven.1, hEven.2, place_half,
    and_self]

theorem sel_half (b : Bridge) (o : BitVec 1) :
    (b.sys.rAddr ++ o).getLsbD 25 = b.sel := by
  rw [BitVec.getLsbD_append, if_neg (by decide)]
  rfl

/- A read's column starts a burst on the selected chip. -/
theorem read_of_column
    (hLoaded : ∀ which, Loaded (b.chips which))
    (hOpen : Open b)
    (hRead : b.sys.rWe = false)
    (hCommand : (b.step i).ctl.command = .read)
    (hSame : (b.step i).ctl.chip = b.ctl.chip ∧
      (b.step i).ctl.ba = b.ctl.ba ∧
      (b.step i).ctl.a = b.ctl.casAddr) :
    Coming ((b.step i).chips b.sel) 2 b.cell0 ∧
      Coming ((b.step i).chips b.sel) 3 b.cell1 ∧
      SettlesIn ((b.step i).chips b.sel) 6 ∧
      SettlesIn ((b.step i).chips !b.sel) 0 := by
  have hWord : b.word = b.sys.rAddr ++ 0#1 := by
    simp [Bridge.word, hOpen.first hRead]
  have hRow := hOpen.row
  have hChip := hSame.1.trans hOpen.chip
  have hBank := hSame.2.1.trans hOpen.bank
  have hA := (columnAddr_bits (if b.sys.rWe then ~~~b.bs else 0#2)
    b.word).1
  rw [← hOpen.addr, ← hSame.2.2] at hA
  rw [hWord, sel_half] at hChip
  rw [hWord] at hRow hBank hA
  rcases hRow with ⟨hBankOpen, hBankRow⟩
  rw [sel_half] at hBankOpen hBankRow
  have hSeen : Chip.seen (pins (b.step i).ctl b.sel i.float) =
      .read := by
    rw [seen_pins, if_pos hChip, hCommand]
  have hRowOpen : (b.chips b.sel).rowOpen
      (pins (b.step i).ctl b.sel i.float).ba = true := by
    rw [← hBankOpen, ← hBank]
    rfl
  have hBurst := Chip.read_step hSeen hRowOpen
    (hLoaded b.sel) (hOpen.drained b.sel)
  have hCells := burst_cells hBankRow
  simp only [← hBank, ← hA] at hCells
  refine ⟨?_, ?_, ?_, ?_⟩
  · rw [chips_step, Bridge.cell0, cell, sel_half, ← hCells.1]
    exact hBurst.1 0 (by decide)
  · rw [chips_step, Bridge.cell1, cell, sel_half, ← hCells.2]
    exact hBurst.1 1 (by decide)
  · exact hBurst.2
  · rw [chips_step]
    apply Chip.settlesIn_step (hOpen.drained _)
    rw [seen_pins, hChip]
    cases b.sel <;> simp

theorem burst_of_column
    (hHand : Hand b)
    (hLoaded : ∀ which, Loaded (b.chips which))
    (hInit : i.init = false)
    (hState : b.ctl.state = .rw)
    (hOpen : Open b)
    (hRead : b.sys.rWe = false) :
    (b.step i).ctl.state = .idle4 ∧
      (b.step i).ctl.dataReadyDelay = 4#3 ∧
      (b.step i).ctl.command = .read ∧ Burst (b.step i) 2 := by
  have hLevel := completes_of_low hOpen.low
  have hRam :=
    @ram_of_waiting b i hOpen.busy hOpen.single hLevel
  have hWe := (@beat_of_busy b i hHand hOpen.busy).2.2.2
  have hSaved := hOpen.write.trans hRead
  have hCtl := @ctl_step b i hInit
  simp only [Ctl.machine, hState, Ctl.rw, hSaved,
    Bool.false_eq_true, if_false] at hCtl
  have hCommand : (b.step i).ctl.command = .read := by
    rw [hCtl]
  rcases @cells_of_walks b i hHand hOpen.busy
    (by simp [hCommand]) with ⟨hSel, hCell0, hCell1⟩
  rcases read_of_column hLoaded hOpen hRead hCommand
    (by rw [hCtl]; exact ⟨rfl, rfl, rfl⟩) with
    ⟨hWord0, hWord1, hDrained, hOther⟩
  refine ⟨by rw [hCtl], ?_, hCommand, ?_⟩
  · simp [hCtl, Ctl.base, hOpen.delay]
  · constructor
    · rw [hRam]
      exact hOpen.busy
    · rw [hWe, hRead]
    · rw [hRam]
      exact hOpen.single
    · simp [hCtl, Ctl.base, hOpen.delay, hOpen.low]
    · rw [hCtl]
      rfl
    · rw [hSel, hCell0]
      exact hWord0
    · rw [hSel, hCell1]
      exact hWord1
    · rw [hSel]
      exact hDrained
    · rw [hSel]
      exact hOther

end Sdram

------------------------------------------------------------
-- The Words of a Read
------------------------------------------------------------

namespace Sdram

variable {b : Bridge} {i : In}

/- The burst comes one edge nearer. -/
theorem burst_step
    {n : Nat}
    (hHand : Hand b)
    (hFits : n ≤ 6)
    (hWalks : Walks b i)
    (hDelay : b.ctl.dataReadyDelay.getLsbD 0 = false)
    (hBurst : Burst b (n + 1)) :
    Burst (b.step i) n := by
  have hRam := @ram_of_waiting b i hBurst.busy hBurst.single
    (completes_of_low hBurst.low)
  have hWe := (@beat_of_busy b i hHand hBurst.busy).2.2.2
  rcases @cells_of_walks b i hHand hBurst.busy
    hWalks.command.2 with ⟨hSel, hCell0, hCell1⟩
  constructor
  · rw [hRam]
    exact hBurst.busy
  · rw [hWe, hBurst.read]
  · rw [hRam]
    exact hBurst.single
  · rw [hWalks.ready, hDelay]
    exact hBurst.low
  · exact hWalks.release
  · rw [hSel, hCell0]
    exact hWalks.coming (by omega) hBurst.word0
  · rw [hSel, hCell1]
    exact hWalks.coming (by omega) hBurst.word1
  · rw [hSel]
    exact hWalks.settles hBurst.drained
  · rw [hSel]
    exact hWalks.settles hBurst.other

/- `ready` rises with the first word. -/
theorem word0_of_burst
    (hHand : Hand b)
    (hWalks : Walks b i)
    (hNext : (b.step i).ctl.state = .idle1)
    (hDelay : b.ctl.dataReadyDelay = 1#3)
    (hBurst : Burst b 0) :
    Word0 (b.step i) := by
  have hRam := @ram_of_waiting b i hBurst.busy hBurst.single
    (completes_of_low hBurst.low)
  have hWe := (@beat_of_busy b i hHand hBurst.busy).2.2.2
  rcases @cells_of_walks b i hHand hBurst.busy
    hWalks.command.2 with ⟨hSel, hCell0, hCell1⟩
  constructor
  · exact hNext
  · rw [hWalks.delay, hDelay]
    rfl
  · rw [hRam]
    exact hBurst.busy
  · rw [hWe, hBurst.read]
  · rw [hRam]
    exact hBurst.single
  · rw [hWalks.ready, hDelay]
    rfl
  · rw [hRam]
    exact hBurst.low
  · exact hWalks.release
  · rw [hWalks.dout, hCell0]
    exact dq_of_coming hBurst.release hBurst.word0 hBurst.other
  · rw [hSel, hCell1]
    exact hWalks.coming (by omega) hBurst.word1
  · rw [hSel]
    exact hWalks.settles hBurst.drained
  · rw [hSel]
    exact hWalks.settles hBurst.other

/- The bridge keeps it, and asks no more. -/
theorem word1_of_word0
    (hHand : Hand b)
    (hWalks : Walks b i)
    (hNext : (b.step i).ctl.state = .idle)
    (hWord : Word0 b) :
    Word1 (b.step i) := by
  have hWe := (@beat_of_busy b i hHand hWord.busy).2.2.2
  rcases @cells_of_walks b i hHand hWord.busy
    hWalks.command.2 with ⟨hSel, hCell0, hCell1⟩
  have hRam : (b.step i).ram =
      { b.ram with
        reqSync0 := b.sys.reqTgl
        reqSync1 := b.ram.reqSync0
        readyD := b.ctl.ready
        hold := b.ctl.dout ++ b.ram.hold.extractLsb' 0 16
        rd2 := true } := by
    simp [Bridge.step, Bridge.ramNext, hWord.single, hWord.busy,
      hWord.ready, hWord.rises, hWord.read]
  constructor
  · exact hNext
  · rw [hWalks.delay, hWord.delay]
    rfl
  · rw [hRam]
    exact hWord.busy
  · rw [hWe, hWord.read]
  · rw [hRam]
  · rw [hWalks.ready, hWord.delay]
    exact hWord.ready
  · rw [hWalks.dout, hCell1]
    exact dq_of_coming hWord.release hWord.word1 hWord.other
  · rw [hRam, hCell0, ← hWord.dout]
    exact Lanes.high_append _ _
  · intro which
    by_cases hSame : which = b.sel
    · rw [hSame]
      exact hWalks.settles hWord.drained
    · have hNot : which = !b.sel := by
        cases which <;> cases hSel : b.sel <;>
          simp [hSel] at hSame ⊢
      rw [hNot]
      exact Chip.settlesIn_mono (Nat.zero_le 2)
        (hWalks.settles hWord.other)

/- The second word ends the beat. -/
theorem rest_of_word1
    (hWalks : Walks b i)
    (hNext : (b.step i).ctl.state = .idle ∨
      (b.step i).ctl.state = .rfsh)
    (hWord : Word1 b) :
    Rest (b.step i) ∧
      (b.step i).ram.hold = b.cell0 ++ b.cell1 := by
  have hRam : (b.step i).ram =
      { b.ram with
        reqSync0 := b.sys.reqTgl
        reqSync1 := b.ram.reqSync0
        readyD := b.ctl.ready
        rd2 := false
        hold := b.ram.hold.extractLsb' 16 16 ++ b.ctl.dout
        busyR := false
        ackTgl := !b.ram.ackTgl } := by
    simp [Bridge.step, Bridge.ramNext, hWord.double]
  have hReady : (b.step i).ctl.ready = true := by
    rw [hWalks.ready, hWord.delay]
    exact hWord.ready
  constructor
  · constructor
    · rcases hNext with h | h <;> simp [h]
    · rw [hRam]
    · rw [hWalks.delay, hWord.delay]
      rfl
    · exact fun _ => hReady
    · exact fun _ => completes_of_high hWord.ready
    · rw [hRam]
      exact Bool.noConfusion
    · intro _ which
      rw [hRam]
      exact hWalks.settles (hWord.drained which)
  · rw [hRam, hWord.hold, hWord.dout]

/- A write's halves end alike, the second one with the beat. -/
theorem rest_of_wrote
    (hHand : Hand b)
    (hWalks : Walks b i)
    (hNext : (b.step i).ctl.state = .idle3)
    (hWrote : Wrote b) :
    Rest (b.step i) := by
  have hWe := (@beat_of_busy b i hHand hWrote.busy).2.2.2
  have hSingle : (b.step i).ram.rd2 = false := by
    simp [Bridge.step, Bridge.ramNext, hWrote.single,
      hWrote.busy, hWrote.ready, hWrote.rises, hWrote.write]
    split_ifs <;> rfl
  constructor
  · simp [hNext]
  · exact hSingle
  · rw [hWalks.delay, hWrote.delay]
    rfl
  · intro _
    rw [hWalks.ready, hWrote.delay]
    exact hWrote.ready
  · exact fun _ => completes_of_high hWrote.ready
  · rw [hWe, hWrote.write]
    exact fun _ => Bool.noConfusion
  · intro _ which
    exact Chip.settlesIn_mono (Nat.zero_le _)
      (hWalks.settles (hWrote.drained which))

end Sdram

------------------------------------------------------------
-- Between Accesses
------------------------------------------------------------

namespace Sdram

variable {b : Bridge} {i : In}

/-
  The end of the power-up sequence, when it raises `ready`,
  finds no beat at work and none arriving.
-/
def Unclaimed (b : Bridge) : Prop :=
  b.ctl.state = .startup → b.ctl.refreshCount = 0#14 →
    b.ctl.ready = false →
    b.ram.busyR = false ∧ b.arrives = false

instance (b : Bridge) : Decidable (Unclaimed b) :=
  inferInstanceAs (Decidable (_ → _ → _ → _ ∧ _))

/- A beat at work in the next cycle is one already taken. -/
theorem first_of_rest
    (hHand : Hand b)
    (hRest : Rest b) :
    (b.step i).ram.rd2 = false ∧
      ((b.step i).ram.busyR = true →
        (b.step i).sys.rWe = false →
        (b.step i).ram.acc = false) := by
  cases hBusy : b.ram.busyR with
  | true =>
      have hRam := @ram_of_waiting b i hBusy hRest.single
        (hRest.level hBusy)
      have hWe := (@beat_of_busy b i hHand hBusy).2.2.2
      rw [hRam, hWe]
      exact ⟨hRest.single, fun _ => hRest.first hBusy⟩
  | false =>
      simp only [Bridge.step, Bridge.ramNext, hBusy,
        hRest.single, Bool.false_eq_true, if_false,
        Bool.not_false, if_true]
      by_cases hCome : (b.ram.reqSync1 != b.ram.reqSeen) = true
      · rw [if_pos hCome]
        exact ⟨rfl, fun _ _ => rfl⟩
      · rw [if_neg hCome]
        exact ⟨rfl, Bool.noConfusion⟩

/- A controller that accepts nothing rests on. -/
theorem rest_of_walks
    (hHand : Hand b)
    (hRest : Rest b)
    (hUp : b.ctl.state ≠ .startup)
    (hWalks : Walks b i)
    (hNext : (b.step i).ctl.state ≠ .wait ∧
      (b.step i).ctl.state ≠ .rw) :
    Rest (b.step i) := by
  have hFirst := @first_of_rest b i hHand hRest
  have hHigh := hRest.ready hUp
  constructor
  · exact hNext
  · exact hFirst.1
  · rw [hWalks.delay, hRest.delay]
    rfl
  · intro _
    rw [hWalks.ready, hRest.delay]
    exact hHigh
  · exact fun _ => completes_of_high hHigh
  · exact hFirst.2
  · intro _ which
    have hSettles := hWalks.settles (hRest.drained hUp which)
    apply Chip.settlesIn_mono _ hSettles
    split_ifs <;> omega

/- An idle controller accepts the halfword asked for. -/
theorem opened_of_rest
    (hHand : Hand b)
    (hRest : Rest b)
    (hInit : i.init = false)
    (hState : b.ctl.state = .idle)
    (hNone : b.refresh = b.ctl.refreshOld)
    (hAsked : b.rd = true ∨ b.wr = true) :
    (b.step i).ctl.state = .wait ∧
      (b.step i).ctl.command = .active ∧ Open (b.step i) := by
  have hBusy : b.ram.busyR = true := by
    rcases hAsked with h | h <;>
      simp only [Bridge.rd, Bridge.wr, Bool.and_eq_true] at h
    · exact h.1.1
    · exact h.1
  have hLevel := hRest.level hBusy
  have hRam := @ram_of_waiting b i hBusy hRest.single hLevel
  rcases @word_of_waiting b i hHand hBusy hRest.single hLevel
    with ⟨hWord, hDin, hBs, hWe⟩
  have hWr : b.wr = b.sys.rWe := by simp [Bridge.wr, hBusy]
  have hCtl : (b.step i).ctl = Ctl.accept (b.ports i)
      { b.ctl.base (b.ports i) with command := .nop } := by
    have hDue :
        ¬((b.ports i).refresh != b.ctl.refreshOld) = true := by
      simpa [Bridge.ports] using hNone
    rw [ctl_step hInit]
    simp only [Ctl.machine, hState, Ctl.idle]
    rw [if_neg hDue, if_pos (by simpa [Bridge.ports] using hAsked)]
  have hCommand : (b.step i).ctl.command = .active := by
    rw [hCtl]
    rfl
  have hChip : (b.step i).ctl.chip = b.word.getLsbD 25 := by
    rw [hCtl]
    rfl
  have hDrained (which : Bool) : SettlesIn (b.chips which) 0 := by
    have hOld := hRest.drained (by simp [hState]) which
    simpa [hBusy] using hOld
  refine ⟨by rw [hCtl]; rfl, hCommand, ?_⟩
  constructor
  · rw [hRam]
    exact hBusy
  · rw [hRam]
    exact hRest.single
  · rw [hCtl]
    rfl
  · simp [hCtl, Ctl.accept, Ctl.base, hRest.delay]
  · rw [hWe, hRam]
    exact hRest.first hBusy
  · rw [hCtl, hWe]
    exact hWr
  · intro _
    rw [hCtl, hDin]
    rfl
  · rw [hCtl, hWe, hBs, hWord, ← hWr]
    rfl
  · rw [hCtl, hWord]
    rfl
  · rw [hChip, hWord]
  · rw [hWord]
    have hSeen :
        Chip.seen (pins (b.step i).ctl (b.word.getLsbD 25)
          i.float) = .active := by
      rw [seen_pins, if_pos hChip, hCommand]
    have hRow := @Chip.active_step
      (b.chips (b.word.getLsbD 25)) _ hSeen
    rw [← chips_step] at hRow
    have hBank : (pins (b.step i).ctl (b.word.getLsbD 25)
        i.float).ba = bankOf b.word := by
      simp only [pins, hCtl]
      rfl
    have hA : (pins (b.step i).ctl (b.word.getLsbD 25)
        i.float).a = rowOf b.word := by
      simp only [pins, hCtl]
      rfl
    rw [hBank, hA] at hRow
    exact ⟨hRow.1, hRow.2⟩
  · intro which
    rw [chips_step]
    exact Chip.settlesIn_step (hDrained which)
      (seen_ne_read (by simp [hCommand]) which)

end Sdram
