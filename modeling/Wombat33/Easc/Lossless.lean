import Wombat33.Clocked.Ring
import Wombat33.Clocked.Run
import Wombat33.Easc.Chip

/-
  The sample FIFOs are lossless queues, but for one race.

  A ledger beside the chip keeps, for each FIFO and since its
  last clear, the lanes the host wrote, the turn each lane
  got, the bytes pushed and the bytes popped.  The read port
  shows a word one clock late: a byte pushed into an empty
  FIFO on the clock before a sample tick is popped before the
  port has seen it.

  Key definitions include:
    * `Ledger`, `note`
    * `Lossless`
    * `noRace`

  Key theorems include:
    * `fifoInv_step`
    * `fifo_lossless`
    * `race_pops_stale`
-/

------------------------------------------------------------
-- The Ledger
------------------------------------------------------------

namespace Easc

open Clocked

variable (cfg : Config)

/- The enabled lanes of a longword, in memory order. -/
def lanes (be : BitVec 4) (d : BitVec 32) : List Byte :=
  (if be.getLsbD 3 then [Lanes.byte 3 d] else []) ++
    (if be.getLsbD 2 then [Lanes.byte 2 d] else []) ++
    (if be.getLsbD 1 then [Lanes.byte 1 d] else []) ++
    (if be.getLsbD 0 then [Lanes.byte 0 d] else [])

/-
  One FIFO since its last clear.  A turn is a lane with
  whether the FIFO held 1024 bytes when the turn came.
-/
structure Ledger where
  offered : List Byte
  turns : List (Byte × Bool)
  pushed : List Byte
  popped : List Byte

/- Both ledgers, and the clocks since the last sample write. -/
structure Log where
  fifo : Side → Ledger
  gap : Nat

def emptyLedger : Ledger := ⟨[], [], [], []⟩

def writeSide (i : In) : Side := if i.a.getLsbD 8 then .b else .a

/- The lanes of the latched write that have not had a turn. -/
def waiting (s : Chip) (f : Side) : List Byte :=
  if pushSide s = f then lanes s.pushBe s.pushData else []

/- The turns of one clock: one lane, or all if it is full. -/
def turnsNow (s : Chip) (f : Side) : List (Byte × Bool) :=
  if pushBusy s && pushSide s == f then
    if fifoFull s then
      (lanes s.pushBe s.pushData).map (·, true)
    else [(pushByte s, false)]
  else []

def noteFifo (g : Ledger) (s : Chip) (i : In) (f : Side) :
    Ledger :=
  if !i.nreset || fifoClear s i then emptyLedger
  else
    { offered :=
        g.offered ++
          if sampleWr s i && writeSide i == f then
            lanes i.be i.wdata
          else []
      turns := g.turns ++ turnsNow s f
      pushed :=
        g.pushed ++ if psh s f then [pushByte s] else []
      popped :=
        g.popped ++
          if pop cfg s f then [fifoByte s f] else [] }

def note (g : Log) (s : Chip) (i : In) : Log where
  fifo := fun f => noteFifo cfg (g.fifo f) s i f
  gap := if sampleWr s i then 1 else g.gap + 1

/- The host's contract: four clocks from write to write. -/
def spaced (x : Chip × Log) (i : In) : Prop :=
  sampleWr x.1 i = true → 4 ≤ x.2.gap

/-
  No byte is pushed into an empty FIFO on the clock just
  before a sample tick.
-/
def noRace (x : Chip × Log) (_ : In) : Prop :=
  ∀ f, psh x.1 f = true → (x.1.fifo f).cap = 0 →
    x.1.sdiv + 2 ≠ cfg.sampleDiv

/-
  A FIFO is a lossless queue: the capacity counts the bytes
  held and is what the pointers say; each enabled lane gets
  one turn, in order, and is pushed unless the FIFO holds
  1024 bytes then; the k-th byte popped is the k-th pushed.
-/
structure Lossless (s : Chip) (g : Ledger) (f : Side) :
    Prop where
  counted : (s.fifo f).cap + g.popped.length = g.pushed.length
  bounded : (s.fifo f).cap ≤ 1024
  pointers : (s.fifo f).wrptr - (s.fifo f).rdptr =
    BitVec.ofNat 10 (s.fifo f).cap
  turned : g.offered = g.turns.map Prod.fst ++ waiting s f
  pushed : g.pushed =
    (g.turns.filter (fun t => !t.2)).map Prod.fst
  ordered : g.popped <+: g.pushed

def start (s : Chip) : Chip × Log :=
  (step cfg s { nreset := false }, ⟨fun _ => emptyLedger, 4⟩)

end Easc

------------------------------------------------------------
-- What the Other Arms Leave Alone
------------------------------------------------------------

namespace Easc

variable (cfg : Config) {s : Chip} {i : In}

theorem output_frame (n : Chip) :
    ∃ p l r, output cfg s n =
      { n with phase := p, outL := l, outR := r } := by
  unfold output
  split
  · split
    · exact ⟨_, _, _, rfl⟩
    · split
      · exact ⟨n.phase, _, _, rfl⟩
      · exact ⟨n.phase, n.outL, n.outR, rfl⟩
  · exact ⟨n.phase, n.outL, n.outR, rfl⟩

theorem wrByte_frame (ba : BitVec 12) (d : Byte) (n : Chip) :
    ∃ m c p q, wrByte ba d n =
      { n with mode := m, control := c, phase := p, incr := q } := by
  simp only [wrByte]
  split
  · exact ⟨_, n.control, n.phase, n.incr, rfl⟩
  · split
    · exact ⟨n.mode, _, n.phase, n.incr, rfl⟩
    · split
      · split
        · exact ⟨n.mode, n.control, n.phase, _, rfl⟩
        · exact ⟨n.mode, n.control, _, n.incr, rfl⟩
      · exact ⟨n.mode, n.control, n.phase, n.incr, rfl⟩

theorem wrLane_frame (lane : BitVec 2) (n : Chip) :
    ∃ m c p q, wrLane i lane n =
      { n with mode := m, control := c, phase := p, incr := q } := by
  unfold wrLane
  split
  · exact wrByte_frame _ _ n
  · exact ⟨n.mode, n.control, n.phase, n.incr, rfl⟩

theorem registers_frame (n : Chip) :
    ∃ m c p q, registers i n =
      { n with mode := m, control := c, phase := p, incr := q } := by
  unfold registers
  split
  · rcases wrLane_frame (i := i) 0#2 n with ⟨_, _, _, _, h₀⟩
    rw [h₀]
    rcases wrLane_frame (i := i) 1#2 _ with ⟨_, _, _, _, h₁⟩
    rw [h₁]
    rcases wrLane_frame (i := i) 2#2 _ with ⟨_, _, _, _, h₂⟩
    rw [h₂]
    rcases wrLane_frame (i := i) 3#2 _ with ⟨_, _, _, _, h₃⟩
    rw [h₃]
    exact ⟨_, _, _, _, rfl⟩
  · exact ⟨n.mode, n.control, n.phase, n.incr, rfl⟩

/- Out of reset the FIFOs see only their own arm. -/
theorem step_frame (hReset : i.nreset = true) :
    ∃ m c p q l r irq, step cfg s i =
      bankPorts s i
        { pointers cfg s i (divider cfg s s) with
          mode := m, control := c, phase := p, incr := q
          outL := l, outR := r, irqR := irq } := by
  rcases output_frame cfg (s := s) (divider cfg s s) with
    ⟨p, l, r, hOut⟩
  rcases registers_frame (i := i)
    (interrupt cfg s i (pointers cfg s i
      (output cfg s (divider cfg s s)))) with
    ⟨m, c, p', q, hRegs⟩
  refine ⟨m, c, p', q, l, r,
    (interrupt cfg s i (pointers cfg s i
      (output cfg s (divider cfg s s)))).irqR, ?_⟩
  have hStep : step cfg s i = bankPorts s i (registers i
      (interrupt cfg s i (pointers cfg s i
        (output cfg s (divider cfg s s))))) := by
    simp [step, hReset]
  rw [hStep, hRegs, hOut]
  unfold pointers interrupt
  cases fifoClear s i <;> rfl

theorem step_fifo (hReset : i.nreset = true) :
    (step cfg s i).fifo =
      if fifoClear s i then fun _ => emptyFifo
      else fifoNext cfg s := by
  rcases step_frame cfg (s := s) hReset with
    ⟨_, _, _, _, _, _, _, hStep⟩
  rw [hStep]
  funext f
  cases hClear : fifoClear s i <;> cases f <;>
    simp [bankPorts, pointers, hClear, Chip.fifo]

theorem step_push (hReset : i.nreset = true)
    (hClear : fifoClear s i = false) :
    (step cfg s i).pushData =
        (if sampleWr s i then i.wdata else s.pushData) ∧
      (step cfg s i).pushToB =
        (if sampleWr s i then i.a.getLsbD 8 else s.pushToB) ∧
      (step cfg s i).pushBe =
        if sampleWr s i then i.be
        else if pushDo s then
          s.pushBe &&& ~~~(0b1000#4 >>> (pushLane s))
        else if pushBusy s && fifoFull s then 0#4
        else s.pushBe := by
  rcases step_frame cfg (s := s) hReset with
    ⟨_, _, _, _, _, _, _, hStep⟩
  rw [hStep]
  simp [bankPorts, pointers, divider, hClear]

theorem step_pushBe_clear (hReset : i.nreset = true)
    (hClear : fifoClear s i = true) :
    (step cfg s i).pushBe = 0#4 := by
  rcases step_frame cfg (s := s) hReset with
    ⟨_, _, _, _, _, _, _, hStep⟩
  rw [hStep]
  simp [bankPorts, pointers, hClear]

theorem step_sdiv (hReset : i.nreset = true) :
    (step cfg s i).sdiv =
      if tick cfg s then 0
      else (s.sdiv + 1) %
        2 ^ (Nat.log2 (cfg.sampleDiv - 1) + 1) := by
  rcases step_frame cfg (s := s) hReset with
    ⟨_, _, _, _, _, _, _, hStep⟩
  rw [hStep]
  cases hClear : fifoClear s i <;>
    simp [bankPorts, pointers, divider, hClear]

theorem step_bank :
    (step cfg s i).bank =
        (fun gi =>
          if bankWe s i gi then
            Function.update (s.bank gi) (paAddr s i)
              (mergeLanes (paBe s i) (paData s i)
                (s.bank gi (paAddr s i)))
          else s.bank gi) ∧
      (step cfg s i).bankQb =
        fun gi => s.bank gi (pbAddr s gi) := by
  simp [step, bankPorts]

end Easc

------------------------------------------------------------
-- The Mode Register
------------------------------------------------------------

namespace Easc

variable (cfg : Config) {s : Chip} {i : In}

/- Only the second byte of the register block is the mode. -/
theorem mode_decoded (a : BitVec 10) :
    ((a ++ 0#2).extractLsb' 0 11 == 0x001#11) = false ∧
      ((a ++ 1#2).extractLsb' 0 11 == 0x001#11) =
        ((a ++ 0#2) &&& 0x7FC#12 == 0x000#12) ∧
      ((a ++ 2#2).extractLsb' 0 11 == 0x001#11) = false ∧
      ((a ++ 3#2).extractLsb' 0 11 == 0x001#11) = false := by
  revert a
  decide +kernel

theorem wrByte_mode (ba : BitVec 12) (d : Byte) (n : Chip) :
    (wrByte ba d n).mode =
      if ba.extractLsb' 0 11 == 0x001#11 then
        (d.extractLsb' 0 2).setWidth 8
      else n.mode := by
  simp only [wrByte]
  split
  · rfl
  · split
    · rfl
    · split
      · split <;> rfl
      · rfl

theorem wrLane_mode (lane : BitVec 2) (n : Chip)
    (hOther : ((i.a ++ lane).extractLsb' 0 11 == 0x001#11) =
      false) :
    (wrLane i lane n).mode = n.mode := by
  unfold wrLane
  split
  · rw [wrByte_mode, hOther]
    rfl
  · rfl

theorem registers_mode (n : Chip) :
    (registers i n).mode =
      if modeWr i then
        ((Lanes.byte 2 i.wdata).extractLsb' 0 2).setWidth 8
      else n.mode := by
  rcases mode_decoded i.a with ⟨h₀, h₁, h₂, h₃⟩
  unfold registers modeWr
  cases regWr i with
  | false => rfl
  | true =>
      simp only [if_true, Bool.true_and]
      have hLane : ∀ n, wrLane i 1#2 n =
          if i.be.getLsbD 2 then
            wrByte (i.a ++ 1#2) (Lanes.byte 2 i.wdata) n
          else n := fun _ => rfl
      rw [wrLane_mode 3#2 _ h₃, wrLane_mode 2#2 _ h₂, hLane]
      cases i.be.getLsbD 2 with
      | false =>
          rw [Bool.and_false]
          exact wrLane_mode 0#2 n h₀
      | true =>
          simp only [if_true, Bool.and_true]
          rw [wrByte_mode, h₁, wrLane_mode 0#2 n h₀]

/- Without a clear the mode stays. -/
theorem step_mode
    (hReset : i.nreset = true)
    (hClear : fifoClear s i = false) :
    (step cfg s i).mode = s.mode := by
  have hStep : (step cfg s i).mode = (registers i
      (interrupt cfg s i (pointers cfg s i
        (output cfg s (divider cfg s s))))).mode := by
    simp [step, bankPorts, hReset]
  rcases output_frame cfg (s := s) (divider cfg s s) with
    ⟨p, l, r, hOut⟩
  have hKept : (interrupt cfg s i (pointers cfg s i
      (output cfg s (divider cfg s s)))).mode = s.mode := by
    rw [hOut]
    simp [interrupt, pointers, divider, hClear]
  rw [hStep, registers_mode, hKept]
  split
  next hWr =>
      have hSame : modeChange s i = false := by
        simp only [fifoClear, Bool.or_eq_false_iff] at hClear
        exact hClear.2
      rw [modeChange, hWr, Bool.true_and, bne_eq_false_iff_eq]
        at hSame
      rw [← hSame]
      generalize Lanes.byte 2 i.wdata = d
      revert d
      decide +kernel
  next => rfl

end Easc

------------------------------------------------------------
-- Cells of the Sample RAM
------------------------------------------------------------

namespace Easc

variable (cfg : Config) {s : Chip} {i : In}

/- The cell of FIFO `f` a pointer names. -/
def cell (s : Chip) (f : Side) (p : BitVec 10) : Byte :=
  laneByte
    (s.bank (BitVec.ofBool (f == .b) ++ p.extractLsb' 9 1)
      (p.extractLsb' 2 7))
    (p.extractLsb' 0 2)

/- A pointer is its bank bit, its word and its lane. -/
theorem pointer_ext {p q : BitVec 10}
    (hBank : p.extractLsb' 9 1 = q.extractLsb' 9 1)
    (hWord : p.extractLsb' 2 7 = q.extractLsb' 2 7)
    (hLane : p.extractLsb' 0 2 = q.extractLsb' 0 2) :
    p = q := by
  apply BitVec.eq_of_toNat_eq
  have hBankNat := congrArg BitVec.toNat hBank
  have hWordNat := congrArg BitVec.toNat hWord
  have hLaneNat := congrArg BitVec.toNat hLane
  simp only [BitVec.extractLsb'_toNat,
    Nat.shiftRight_eq_div_pow] at hBankNat hWordNat hLaneNat
  omega

/- A lane of a merged longword. -/
theorem laneByte_mergeLanes
    (be : BitVec 4) (d old : BitVec 32) (lane : BitVec 2) :
    laneByte (mergeLanes be d old) lane =
      if be.getLsbD (3 - lane.toNat) then laneByte d lane
      else laneByte old lane := by
  unfold laneByte mergeLanes
  rcases Lanes.offset_cases lane with h | h | h | h <;>
    simp [h, Lanes.byte_append]

/- One lane enabled: that of the pointer. -/
theorem pushBe_lane (o lane : BitVec 2) :
    ((0b1000#4 >>> o : BitVec 4).getLsbD (3 - lane.toNat)) =
      (o == lane) := by
  revert o lane
  decide

theorem laneByte_replicated (b : Byte) (lane : BitVec 2) :
    laneByte (b ++ b ++ b ++ b) lane = b := by
  unfold laneByte
  rcases Lanes.offset_cases lane with h | h | h | h <;>
    simp [h, Lanes.byte_append]

theorem bank_pair (c : Bool) (v : BitVec 1) :
    (BitVec.ofBool c ++ v).getLsbD 1 = c := by
  revert c v
  decide

theorem bank_pair_eq (c d : Bool) (u v : BitVec 1) :
    (BitVec.ofBool c ++ u == BitVec.ofBool d ++ v) =
      (c == d && u == v) := by
  revert c d u v
  decide

/- The FIFO the latched write is for, as its bank bit. -/
theorem pushSide_eq (s : Chip) (f : Side) :
    (pushSide s == f) = (s.pushToB == (f == .b)) := by
  unfold pushSide
  cases s.pushToB <;> cases f <;> rfl

/- A bank after a clock in FIFO mode. -/
theorem bank_step
    (hMode : fifoMode s = true)
    (gi : BitVec 2) (w : BitVec 7) :
    (step cfg s i).bank gi w =
      if pushDo s && BitVec.ofBool s.pushToB ++
          (pushPtr s).extractLsb' 9 1 == gi &&
          w == (pushPtr s).extractLsb' 2 7 then
        mergeLanes
          (0b1000#4 >>> ((pushPtr s).extractLsb' 0 2))
          (pushByte s ++ pushByte s ++ pushByte s ++ pushByte s)
          (s.bank gi w)
      else s.bank gi w := by
  rw [(step_bank cfg).1]
  have hCpu : cpuWr s i = false := by
    simp [cpuWr, hMode]
  simp only [bankWe, hCpu, Bool.false_and, Bool.or_false]
  cases hDo : pushDo s with
  | false => simp
  | true =>
      simp only [paBank, paAddr, paBe, paData, hDo, if_true,
        Bool.true_and]
      cases BitVec.ofBool s.pushToB ++
          (pushPtr s).extractLsb' 9 1 == gi with
      | false => simp
      | true =>
          simp only [if_true, Bool.true_and, beq_iff_eq]
          by_cases hWord : w = (pushPtr s).extractLsb' 2 7
          · rw [hWord, Function.update_self, if_pos rfl]
          · rw [Function.update_of_ne hWord, if_neg hWord]

/- A push writes the cell behind its FIFO's last. -/
theorem cell_step
    (hMode : fifoMode s = true)
    (f : Side) :
    cell (step cfg s i) f =
      if psh s f then
        Function.update (cell s f) (s.fifo f).wrptr (pushByte s)
      else cell s f := by
  funext p
  unfold cell psh
  rw [bank_step cfg hMode, bank_pair_eq, ← pushSide_eq]
  cases pushDo s with
  | false => simp
  | true =>
      cases hSide : pushSide s == f with
      | false => simp
      | true =>
          have hPtr : pushPtr s = (s.fifo f).wrptr := by
            rw [pushPtr, beq_iff_eq.mp hSide]
          rw [hPtr]
          simp only [Bool.true_and, Bool.and_true, if_true]
          by_cases hHere : p = (s.fifo f).wrptr
          · rw [hHere, Function.update_self]
            simp only [beq_self_eq_true, Bool.and_self, if_true]
            rw [laneByte_mergeLanes, pushBe_lane,
              laneByte_replicated, beq_self_eq_true]
            rfl
          · rw [Function.update_of_ne hHere]
            split
            next hHit =>
                have hFields := hHit
                simp only [Bool.and_eq_true, beq_iff_eq]
                  at hFields
                have hLane : ((s.fifo f).wrptr.extractLsb' 0 2 ==
                    p.extractLsb' 0 2) = false := by
                  rw [beq_eq_false_iff_ne]
                  intro hSame
                  exact hHere (pointer_ext hFields.1.symm
                    hFields.2 hSame.symm)
                rw [laneByte_mergeLanes, pushBe_lane, hLane]
                rfl
            next => rfl

/- What port B shows is the cell as it was. -/
theorem fifoByte_step
    (hMode : fifoMode s = true)
    (f : Side)
    (hStay : ((step cfg s i).fifo f).rdptr =
      (s.fifo f).rdptr) :
    fifoByte (step cfg s i) f = cell s f (s.fifo f).rdptr := by
  unfold fifoByte fifoBank
  rw [(step_bank cfg).2, hStay]
  simp only [pbAddr, hMode, if_true, bank_pair]
  cases f <;> rfl

end Easc

------------------------------------------------------------
-- Turns
------------------------------------------------------------

namespace Easc

open Clocked

variable (cfg : Config) {s : Chip} {i : In}

theorem length_lanes (be : BitVec 4) (d : BitVec 32) :
    (lanes be d).length ≤ 4 := by
  unfold lanes
  split_ifs <;> simp

theorem lanes_zero (d : BitVec 32) : lanes 0#4 d = [] := rfl

theorem mask_bits (be : BitVec 4) (lane : BitVec 2) :
    let rest := be &&& ~~~(0b1000#4 >>> lane)
    rest.getLsbD 3 = (be.getLsbD 3 && lane != 0#2) ∧
      rest.getLsbD 2 = (be.getLsbD 2 && lane != 1#2) ∧
      rest.getLsbD 1 = (be.getLsbD 1 && lane != 2#2) ∧
      rest.getLsbD 0 = (be.getLsbD 0 && lane != 3#2) := by
  revert be lane
  decide

theorem lane_left (be : BitVec 4) :
    (be != 0#4) = (be.getLsbD 3 || be.getLsbD 2 ||
      be.getLsbD 1 || be.getLsbD 0) := by
  revert be
  decide

/- The lane drained is the first one waiting. -/
theorem lanes_drain
    (hBusy : pushBusy s = true) :
    lanes s.pushBe s.pushData =
      pushByte s ::
        lanes (s.pushBe &&& ~~~(0b1000#4 >>> (pushLane s)))
          s.pushData := by
  rcases mask_bits s.pushBe (pushLane s) with ⟨h₃, h₂, h₁, h₀⟩
  unfold lanes
  rw [h₃, h₂, h₁, h₀]
  rw [pushBusy, lane_left] at hBusy
  unfold pushByte pushLane laneByte
  generalize s.pushBe.getLsbD 3 = b₃ at *
  generalize s.pushBe.getLsbD 2 = b₂ at *
  generalize s.pushBe.getLsbD 1 = b₁ at *
  generalize s.pushBe.getLsbD 0 = b₀ at *
  cases b₃ <;> cases b₂ <;> cases b₁ <;> cases b₀ <;>
    first
    | rfl
    | simp at hBusy

/- The latch after the turns of one clock. -/
def restBe (s : Chip) : BitVec 4 :=
  if pushDo s then
    s.pushBe &&& ~~~(0b1000#4 >>> (pushLane s))
  else if pushBusy s && fifoFull s then 0#4
  else s.pushBe

/- What waits either has its turn now, or still waits. -/
theorem waiting_eq (s : Chip) (f : Side) :
    waiting s f = (turnsNow s f).map Prod.fst ++
      if pushSide s = f then lanes (restBe s) s.pushData
      else [] := by
  unfold waiting turnsNow restBe pushDo
  by_cases hSide : pushSide s = f
  · cases hBusy : pushBusy s with
    | false => simp [hSide]
    | true =>
        cases hFull : fifoFull s with
        | true =>
            simp [hSide, lanes_zero, Function.comp_def]
        | false =>
            rw [lanes_drain hBusy]
            simp [hSide]
  · simp [hSide]

/- A turn is a push unless the FIFO was full. -/
theorem turnsNow_taken (s : Chip) (f : Side) :
    ((turnsNow s f).filter (fun t => !t.2)).map Prod.fst =
      if psh s f then [pushByte s] else [] := by
  unfold turnsNow psh pushDo
  cases pushBusy s with
  | false => simp
  | true =>
      cases hSide : pushSide s == f with
      | false => simp
      | true =>
          cases fifoFull s <;> simp

/- Four clocks after a write at most one lane waits. -/
theorem restBe_of_short
    (hShort : (lanes s.pushBe s.pushData).length ≤ 1) :
    lanes (restBe s) s.pushData = [] := by
  unfold restBe pushDo
  cases hBusy : pushBusy s with
  | false =>
      have hZero : s.pushBe = 0#4 := by
        simpa [pushBusy] using hBusy
      simp [hZero, lanes_zero]
  | true =>
      cases hFull : fifoFull s with
      | true => simp [lanes_zero]
      | false =>
          rw [lanes_drain hBusy] at hShort
          simpa using hShort

end Easc

------------------------------------------------------------
-- The Invariant
------------------------------------------------------------

namespace Easc

open Clocked

variable (cfg : Config)

/- One FIFO and its ledger. -/
structure FifoInv (s : Chip) (g : Ledger) (f : Side) :
    Prop where
  bounded : (s.fifo f).cap ≤ 1024
  pointers : (s.fifo f).wrptr =
    (s.fifo f).rdptr + BitVec.ofNat 10 (s.fifo f).cap
  held : g.pushed = g.popped ++
    ring (cell s f) (s.fifo f).rdptr (s.fifo f).cap
  turned : g.offered = g.turns.map Prod.fst ++ waiting s f
  taken : g.pushed =
    (g.turns.filter (fun t => !t.2)).map Prod.fst

/-
  The chip and its log.  When a sample is due, port B shows
  the cell under the read pointer.
-/
structure ChipInv (x : Chip × Log) : Prop where
  fifo : ∀ f, FifoInv x.1 (x.2.fifo f) f
  still : fifoMode x.1 = false →
    x.1.pushBe = 0#4 ∧ ∀ f, (x.1.fifo f).cap = 0
  early : x.1.sdiv < cfg.sampleDiv
  fresh : tick cfg x.1 = true → fifoMode x.1 = true →
    ∀ f, (x.1.fifo f).cap ≠ 0 →
      fifoByte x.1 f = cell x.1 f (x.1.fifo f).rdptr
  short : x.1.pushBe = 0#4 ∨
    (lanes x.1.pushBe x.1.pushData).length + x.2.gap ≤ 5

variable {cfg}

theorem lossless_of_inv
    {s : Chip} {g : Ledger} {f : Side}
    (hInv : FifoInv s g f) :
    Lossless s g f where
  counted := by
    rw [hInv.held, List.length_append, length_ring,
      Nat.add_comm]
  bounded := hInv.bounded
  pointers := by
    rw [hInv.pointers, BitVec.add_comm, BitVec.add_sub_cancel]
  turned := hInv.turned
  pushed := hInv.taken
  ordered := ⟨_, hInv.held.symm⟩

/- A cleared FIFO keeps its ledger. -/
theorem fifoInv_clear
    {s : Chip} {f : Side}
    (hFifo : s.fifo f = emptyFifo)
    (hPush : s.pushBe = 0#4) :
    FifoInv s emptyLedger f where
  bounded := by simp [hFifo, emptyFifo]
  pointers := by simp [hFifo, emptyFifo]
  held := by simp [hFifo, emptyFifo, emptyLedger]
  turned := by
    simp [emptyLedger, waiting, hPush, lanes_zero]
  taken := rfl

/- A push finds room in its FIFO, and a lane to push. -/
theorem psh_room
    {s : Chip} {f : Side}
    (hPush : psh s f = true) :
    (s.fifo f).cap < 1024 := by
  simp only [psh, pushDo, fifoFull, Bool.and_eq_true,
    Bool.not_eq_true', decide_eq_false_iff_not, not_le,
    beq_iff_eq] at hPush
  rw [← hPush.2]
  exact hPush.1.2

theorem psh_of_idle
    {s : Chip} (f : Side)
    (hPush : s.pushBe = 0#4) :
    psh s f = false := by
  simp [psh, pushDo, pushBusy, hPush]

section

variable {s : Chip} {g : Log} {i : In}

/- The bytes held, when the chip is in FIFO mode. -/
theorem held_step
    (hInv : ChipInv cfg (s, g))
    (hMode : fifoMode s = true)
    (hReset : i.nreset = true)
    (hClear : fifoClear s i = false)
    (f : Side) :
    (noteFifo cfg (g.fifo f) s i f).pushed =
      (noteFifo cfg (g.fifo f) s i f).popped ++
        ring (cell (step cfg s i) f)
          ((step cfg s i).fifo f).rdptr
          ((step cfg s i).fifo f).cap := by
  have hFifo : FifoInv s (g.fifo f) f := hInv.fifo f
  have hFresh : pop cfg s f = true →
      fifoByte s f = cell s f (s.fifo f).rdptr := by
    intro hPop
    simp only [pop, Bool.and_eq_true, bne_iff_ne] at hPop
    exact hInv.fresh hPop.1.1 hPop.1.2 f hPop.2
  have hSome : pop cfg s f = true →
      ∃ n, (s.fifo f).cap = n + 1 := by
    intro hPop
    simp only [pop, Bool.and_eq_true, bne_iff_ne] at hPop
    exact Nat.exists_eq_succ_of_ne_zero hPop.2
  have hRoom := @psh_room s f
  rw [step_fifo cfg hReset, cell_step cfg hMode]
  simp only [noteFifo, hReset, hClear, Bool.not_true,
    Bool.or_self, Bool.false_eq_true, if_false, fifoNext,
    hFifo.held, hFifo.pointers]
  cases hPush : psh s f with
  | false =>
      cases hPop : pop cfg s f with
      | false => simp
      | true =>
          rcases hSome hPop with ⟨n, hCap⟩
          rw [hFresh hPop, hCap, ring_pop]
          simp
  | true =>
      have hLess : (s.fifo f).cap < 1024 := hRoom hPush
      cases hPop : pop cfg s f with
      | false =>
          have hRing := @ring_push Byte 10 (cell s f)
            (s.fifo f).rdptr _ (pushByte s) hLess
          simp [hRing]
      | true =>
          rcases hSome hPop with ⟨n, hCap⟩
          have hRing := @ring_push_pop Byte 10 (cell s f)
            (s.fifo f).rdptr n (pushByte s) (by omega)
          simp only [if_true, hFresh hPop, hCap, hRing]
          rw [ring_pop]
          simp

/- Lanes written, served and waiting. -/
theorem turned_step
    (hInv : ChipInv cfg (s, g))
    (hReset : i.nreset = true)
    (hClear : fifoClear s i = false)
    (hSpaced : spaced (s, g) i)
    (f : Side) :
    (noteFifo cfg (g.fifo f) s i f).offered =
      (noteFifo cfg (g.fifo f) s i f).turns.map Prod.fst ++
        waiting (step cfg s i) f := by
  have hTurned : (g.fifo f).offered =
      (g.fifo f).turns.map Prod.fst ++ waiting s f :=
    (hInv.fifo f).turned
  rcases step_push cfg hReset hClear with
    ⟨hData, hToB, hBe⟩
  have hSide : pushSide (step cfg s i) =
      if sampleWr s i then writeSide i else pushSide s := by
    unfold pushSide writeSide
    rw [hToB]
    split <;> rfl
  have hRest : (step cfg s i).pushBe =
      if sampleWr s i then i.be else restBe s := hBe
  simp only [noteFifo, hReset, hClear, Bool.not_true,
    Bool.or_self, Bool.false_eq_true, if_false]
  rw [hTurned, waiting_eq, List.map_append]
  unfold waiting
  rw [hSide, hData, hRest]
  cases hWrite : sampleWr s i with
  | false => simp
  | true =>
      have hOne : (lanes s.pushBe s.pushData).length ≤ 1 := by
        rcases hInv.short with hZero | hShort
        · rw [show s.pushBe = 0#4 from hZero]
          exact Nat.zero_le 1
        · have hGap : 4 ≤ g.gap := hSpaced hWrite
          simp only at hShort
          omega
      rw [restBe_of_short hOne]
      simp

theorem taken_step
    (hInv : ChipInv cfg (s, g))
    (f : Side) :
    (noteFifo cfg (g.fifo f) s i f).pushed =
      ((noteFifo cfg (g.fifo f) s i f).turns.filter
        (fun t => !t.2)).map Prod.fst := by
  have hTaken := (hInv.fifo f).taken
  unfold noteFifo
  split
  · rfl
  · rw [List.filter_append, List.map_append, turnsNow_taken,
      ← hTaken]

/- One FIFO through a clock without a clear. -/
theorem fifoInv_step
    (hInv : ChipInv cfg (s, g))
    (hReset : i.nreset = true)
    (hClear : fifoClear s i = false)
    (hSpaced : spaced (s, g) i)
    (f : Side) :
    FifoInv (step cfg s i) (noteFifo cfg (g.fifo f) s i f) f := by
  have hFifo : FifoInv s (g.fifo f) f := hInv.fifo f
  have hRoom := @psh_room s f
  have hNext : (step cfg s i).fifo f = fifoNext cfg s f := by
    rw [step_fifo cfg hReset, hClear]
    rfl
  have hPopCap : pop cfg s f = true → (s.fifo f).cap ≠ 0 := by
    intro hPop
    simp only [pop, Bool.and_eq_true, bne_iff_ne] at hPop
    exact hPop.2
  constructor
  · have hLe := hFifo.bounded
    rw [hNext]
    unfold fifoNext
    cases hPush : psh s f <;> cases hPop : pop cfg s f
    · exact hLe
    · exact Nat.le_trans (Nat.sub_le _ 1) hLe
    · exact hRoom hPush
    · exact hLe
  · rw [hNext]
    unfold fifoNext
    rw [hFifo.pointers]
    cases hPush : psh s f <;> cases hPop : pop cfg s f
    · rfl
    · rcases Nat.exists_eq_succ_of_ne_zero (hPopCap hPop) with
        ⟨n, hCap⟩
      simp only [hCap, Nat.succ_eq_add_one, Nat.add_sub_cancel,
        BitVec.ofNat_add, Bool.false_eq_true, if_false, if_true]
      rw [BitVec.add_assoc, BitVec.add_comm (BitVec.ofNat 10 n)]
    · simp only [BitVec.ofNat_add, Bool.false_eq_true, if_false,
        if_true]
      rw [BitVec.add_assoc]
    · simp only [if_true]
      rw [BitVec.add_assoc, BitVec.add_assoc,
        BitVec.add_comm 1#10]
  · cases hMode : fifoMode s with
    | true => exact held_step hInv hMode hReset hClear f
    | false =>
        rcases hInv.still hMode with ⟨hIdle, hCap⟩
        have hHeld := hFifo.held
        have hPush : psh s f = false := psh_of_idle f hIdle
        have hPop : pop cfg s f = false := by
          simp [pop, hMode]
        have hZero : (s.fifo f).cap = 0 := hCap f
        rw [hNext]
        simp [noteFifo, hReset, hClear, fifoNext, hPush, hPop,
          hZero] at hHeld ⊢
        exact hHeld
  · exact turned_step hInv hReset hClear hSpaced f
  · exact taken_step hInv f

end

end Easc

------------------------------------------------------------
-- Every Clock
------------------------------------------------------------

namespace Easc

open Clocked

variable {cfg : Config} {s : Chip} {g : Log} {i : In}

theorem early_step
    (hEarly : s.sdiv < cfg.sampleDiv)
    (hReset : i.nreset = true) :
    (step cfg s i).sdiv =
      if s.sdiv + 1 = cfg.sampleDiv then 0 else s.sdiv + 1 := by
  have hSlower := cfg.slower
  have hWidth : cfg.sampleDiv - 1 <
      2 ^ (Nat.log2 (cfg.sampleDiv - 1) + 1) :=
    Nat.lt_log2_self
  rw [step_sdiv cfg hReset]
  by_cases hLast : s.sdiv + 1 = cfg.sampleDiv
  · have hTick : tick cfg s = true := by
      simp only [tick, beq_iff_eq]
      omega
    simp [hTick, hLast]
  · have hTick : tick cfg s = false := by
      simp only [tick, beq_eq_false_iff_ne, ne_eq]
      omega
    have hFits : s.sdiv + 1 <
        2 ^ (Nat.log2 (cfg.sampleDiv - 1) + 1) := by
      omega
    simp [hTick, hLast, Nat.mod_eq_of_lt hFits]

/- A sample that will be due is already at port B. -/
theorem fresh_step
    (hInv : ChipInv cfg (s, g))
    (hReset : i.nreset = true)
    (hClear : fifoClear s i = false)
    (hRace : noRace cfg (s, g) i)
    (hTick : tick cfg (step cfg s i) = true)
    (hMode : fifoMode (step cfg s i) = true)
    (f : Side) :
    fifoByte (step cfg s i) f =
      cell (step cfg s i) f ((step cfg s i).fifo f).rdptr := by
  have hFifo : FifoInv s (g.fifo f) f := hInv.fifo f
  have hSlower := cfg.slower
  have hEarly : s.sdiv < cfg.sampleDiv := hInv.early
  have hModeNow : fifoMode s = true := by
    rw [← hMode]
    unfold fifoMode
    rw [step_mode cfg hReset hClear]
  have hDue : s.sdiv + 2 = cfg.sampleDiv := by
    have hDiv := early_step hEarly hReset
    simp only [tick, beq_iff_eq] at hTick
    rw [hDiv] at hTick
    split at hTick <;> omega
  have hNoTick : tick cfg s = false := by
    simp only [tick, beq_eq_false_iff_ne, ne_eq]
    omega
  have hNoPop : pop cfg s f = false := by
    simp [pop, hNoTick]
  have hNext : (step cfg s i).fifo f = fifoNext cfg s f := by
    rw [step_fifo cfg hReset, hClear]
    rfl
  have hStay : ((step cfg s i).fifo f).rdptr =
      (s.fifo f).rdptr := by
    rw [hNext]
    simp [fifoNext, hNoPop]
  rw [fifoByte_step cfg hModeNow f hStay, hStay,
    cell_step cfg hModeNow]
  split
  next hPush =>
      -- the byte pushed lands behind a byte already held
      have hHeld : (s.fifo f).cap ≠ 0 :=
        fun hEmpty => hRace f hPush hEmpty hDue
      have hApart := @ring_index_ne 10 (s.fifo f).rdptr 0
        (s.fifo f).cap (Nat.pos_of_ne_zero hHeld)
        (psh_room hPush)
      rw [hFifo.pointers, Function.update_of_ne]
      simpa using hApart
  next => rfl

theorem still_step
    (hInv : ChipInv cfg (s, g))
    (hReset : i.nreset = true)
    (hClear : fifoClear s i = false)
    (hMode : fifoMode (step cfg s i) = false) :
    (step cfg s i).pushBe = 0#4 ∧
      ∀ f, ((step cfg s i).fifo f).cap = 0 := by
  have hModeNow : fifoMode s = false := by
    rw [← hMode]
    unfold fifoMode
    rw [step_mode cfg hReset hClear]
  rcases hInv.still hModeNow with ⟨hIdle, hCap⟩
  have hIdleNow : s.pushBe = 0#4 := hIdle
  constructor
  · rw [(step_push cfg hReset hClear).2.2]
    simp [sampleWr, hModeNow, pushDo, pushBusy, hIdleNow]
  · intro f
    rw [step_fifo cfg hReset, hClear]
    have hZero : (s.fifo f).cap = 0 := hCap f
    simp [fifoNext, psh_of_idle f hIdleNow, pop, hModeNow,
      hZero]

theorem short_step
    (hInv : ChipInv cfg (s, g))
    (hReset : i.nreset = true)
    (hClear : fifoClear s i = false) :
    (step cfg s i).pushBe = 0#4 ∨
      (lanes (step cfg s i).pushBe
          (step cfg s i).pushData).length +
        (note cfg g s i).gap ≤ 5 := by
  have hPush := step_push cfg (s := s) hReset hClear
  have hRest : (step cfg s i).pushBe =
      if sampleWr s i then i.be else restBe s := hPush.2.2
  rw [hRest, hPush.1, note]
  cases sampleWr s i with
  | true =>
      right
      exact Nat.add_le_add_right (length_lanes i.be i.wdata) 1
  | false =>
      simp only [Bool.false_eq_true, if_false]
      unfold restBe pushDo
      cases hBusy : pushBusy s with
      | false =>
          left
          simpa [pushBusy] using hBusy
      | true =>
          cases hFull : fifoFull s with
          | true =>
              left
              rfl
          | false =>
              right
              have hNe : s.pushBe ≠ 0#4 := by
                simpa [pushBusy] using hBusy
              have hShort : (lanes s.pushBe s.pushData).length +
                  g.gap ≤ 5 :=
                hInv.short.resolve_left hNe
              rw [lanes_drain hBusy, List.length_cons]
                at hShort
              simp only [Bool.not_false, Bool.and_self, if_true]
              omega

/- A reset, or a clear, empties both FIFOs. -/
theorem chipInv_empty
    {x : Chip × Log}
    (hFifo : ∀ f, x.1.fifo f = emptyFifo)
    (hPush : x.1.pushBe = 0#4)
    (hLedger : ∀ f, x.2.fifo f = emptyLedger)
    (hEarly : x.1.sdiv < cfg.sampleDiv) :
    ChipInv cfg x where
  fifo := by
    intro f
    rw [hLedger f]
    exact fifoInv_clear (hFifo f) hPush
  still := fun _ => ⟨hPush, fun f => by rw [hFifo f]; rfl⟩
  early := hEarly
  fresh := by
    intro _ _ f hSome
    rw [hFifo f] at hSome
    exact absurd rfl hSome
  short := Or.inl hPush

theorem step_reset (hReset : i.nreset = false) :
    (∀ f, (step cfg s i).fifo f = emptyFifo) ∧
      (step cfg s i).pushBe = 0#4 ∧ (step cfg s i).sdiv = 0 := by
  refine ⟨?_, ?_, ?_⟩
  · intro f
    cases f <;> simp [step, bankPorts, resetRegs, hReset,
      Chip.fifo]
  · simp [step, bankPorts, resetRegs, hReset]
  · simp [step, bankPorts, resetRegs, hReset]

theorem chipInv_step
    (x : Chip × Log)
    (i : In)
    (hInv : ChipInv cfg x)
    (hOk : spaced x i ∧ noRace cfg x i) :
    ChipInv cfg (watch (step cfg) (note cfg) x i) := by
  rcases x with ⟨s, g⟩
  show ChipInv cfg (step cfg s i, note cfg g s i)
  have hSlower := cfg.slower
  have hEarly : s.sdiv < cfg.sampleDiv := hInv.early
  cases hReset : i.nreset with
  | false =>
      rcases @step_reset cfg s i hReset with
        ⟨hFifo, hPush, hDiv⟩
      refine chipInv_empty hFifo hPush ?_ ?_
      · intro f
        simp [note, noteFifo, hReset]
      · show (step cfg s i).sdiv < cfg.sampleDiv
        omega
  | true =>
      have hNextDiv : (step cfg s i).sdiv < cfg.sampleDiv := by
        rw [early_step hEarly hReset]
        split <;> omega
      cases hClear : fifoClear s i with
      | true =>
          refine chipInv_empty ?_ ?_ ?_ hNextDiv
          · intro f
            show (step cfg s i).fifo f = emptyFifo
            rw [step_fifo cfg hReset, hClear]
            rfl
          · exact step_pushBe_clear cfg hReset hClear
          · intro f
            simp [note, noteFifo, hClear]
      | false =>
          exact {
            fifo := fifoInv_step hInv hReset hClear hOk.1
            still := still_step hInv hReset hClear
            early := hNextDiv
            fresh := fun hTick hMode f _ =>
              fresh_step hInv hReset hClear hOk.2 hTick hMode f
            short := short_step hInv hReset hClear }

theorem chipInv_start (s : Chip) :
    ChipInv cfg (start cfg s) := by
  have hSlower := cfg.slower
  rcases @step_reset cfg s { nreset := false } rfl with
    ⟨hFifo, hPush, hDiv⟩
  refine chipInv_empty hFifo hPush (fun _ => rfl) ?_
  show (step cfg s { nreset := false }).sdiv < cfg.sampleDiv
  omega

/-
  Both FIFOs are lossless queues after every clock of a run
  in which the host keeps its contract and no push meets the
  race.
-/
theorem fifo_lossless
    (cfg : Config)
    (s : Chip)
    (is : List In)
    (hSpaced : Along (watch (step cfg) (note cfg)) spaced
      (start cfg s) is)
    (hRace : Along (watch (step cfg) (note cfg)) (noRace cfg)
      (start cfg s) is) :
    Always (watch (step cfg) (note cfg))
      (fun x => ∀ f, Lossless x.1 (x.2.fifo f) f)
      (start cfg s) is :=
  always_mono
    (fun _ hInv f => lossless_of_inv (hInv.fifo f))
    (always_of_along chipInv_step
      (along_and.mpr ⟨hSpaced, hRace⟩) (chipInv_start s))


instance decidableSides
    (P : Side → Prop) [∀ f, Decidable (P f)] :
    Decidable (∀ f, P f) :=
  decidable_of_iff (P .a ∧ P .b)
    ⟨fun h f => by cases f; exacts [h.1, h.2],
      fun h => ⟨h .a, h .b⟩⟩

instance decidableSpaced (x : Chip × Log) (i : In) :
    Decidable (spaced x i) :=
  inferInstanceAs (Decidable (_ → _))

instance decidableNoRace (x : Chip × Log) (i : In) :
    Decidable (noRace cfg x i) :=
  inferInstanceAs (Decidable (∀ _, _))

/- 33 MHz over 22257 Hz. -/
def board : Config := ⟨1483, by decide⟩

def quiet : In := {}

/- The mode register is set to FIFO mode. -/
def fifoModeWrite : In :=
  { sel := true, write := true, a := 0x200#10, be := 0b0100#4
    wdata := 0x00010000#32 }

/- Four samples for FIFO A. -/
def sampleWrite : In :=
  { sel := true, write := true, be := 0b1111#4
    wdata := 0x80818283#32 }

/- Four samples, one of them played. -/
def firstSample : List In :=
  [fifoModeWrite, sampleWrite] ++ List.replicate 5 quiet

theorem fifo_lossless_firstSample :
    Always (watch (step board) (note board))
      (fun x => ∀ f, Lossless x.1 (x.2.fifo f) f)
      (start board default) firstSample :=
  fifo_lossless board default firstSample (by decide +kernel)
    (by decide +kernel)

/-
  The same write, timed so that its first byte is pushed on
  the clock before the first sample tick.
-/
def raceRun : List In :=
  [fifoModeWrite] ++ List.replicate 1479 quiet ++
    [sampleWrite, quiet, quiet]

/- The end of a run after reset, as a test. -/
def endsWith (is : List In) (test : Chip × Log → Bool) : Bool :=
  test (run (watch (step board) (note board))
    (start board default) is)

set_option maxRecDepth 20000 in
theorem raceRun_ends :
    Along (watch (step board) (note board)) spaced
        (start board default) raceRun ∧
      endsWith raceRun (fun x =>
        (x.2.fifo .a).popped == [0x00#8] &&
          (x.2.fifo .a).pushed == [0x80#8, 0x81#8]) = true := by
  decide +kernel

/- The byte popped is what the RAM held before the push. -/
theorem race_pops_stale :
    ¬ ∀ (cfg : Config) (s : Chip) (is : List In),
      Along (watch (step cfg) (note cfg)) spaced
        (start cfg s) is →
      Always (watch (step cfg) (note cfg))
        (fun x => ∀ f, Lossless x.1 (x.2.fifo f) f)
        (start cfg s) is := by
  intro hAll
  rcases raceRun_ends with ⟨hSpaced, hEnds⟩
  have hEnd := hAll board default raceRun hSpaced raceRun
    (List.prefix_refl _) .a
  simp only [endsWith, Bool.and_eq_true, beq_iff_eq] at hEnds
  have hOrder := hEnd.ordered
  rw [hEnds.1, hEnds.2] at hOrder
  revert hOrder
  decide

end Easc
