import Wombat33.Easc.Lossless

/-
  The interrupt edges of `easc`: the pop that crosses half
  empty, the push that fills, and the read that clears.

  The full flag shows from 1023 bytes on, the push that fills
  counts from 1022.  A read of the status longword clears the
  latch whichever of its four lanes it enables.

  Key definitions include:
    * `fifoStat`, `rdByte`, `statusRead`
    * `Told`, `EdgesKept`
    * `readShows`, `sampleShows`

  Key theorems include:
    * `edgesKept_iff`
    * `edges_kept_iff`
    * `sampled_edges_kept_iff`
    * `status_read_hides_fill`
-/

------------------------------------------------------------
-- The Status Register
------------------------------------------------------------

namespace Easc

variable (cfg : Config) (s : Chip) (i : In)

/- The live flags: half empty and full, of A and then of B. -/
def fifoStat : Byte :=
  0#4 ++ BitVec.ofBool (decide (1023 ≤ s.fifoB.cap)) ++
    BitVec.ofBool (decide (s.fifoB.cap < 512)) ++
    BitVec.ofBool (decide (1023 ≤ s.fifoA.cap)) ++
    BitVec.ofBool (decide (s.fifoA.cap < 512))

/-
  `rdata[31:24]` of a register read: of the bytes at a
  longword's first address only the status is not zero.
-/
def rdByte : Byte :=
  if (i.a ++ 0#2).extractLsb' 0 11 == 0x004#11 then fifoStat s
  else 0x00#8

def halfBit : Side → Nat
  | .a => 0
  | .b => 2

def fullBit : Side → Nat
  | .a => 1
  | .b => 3

@[simp] theorem fifoStat_half (f : Side) :
    (fifoStat s).getLsbD (halfBit f) =
      decide ((s.fifo f).cap < 512) := by
  cases f <;>
    simp only [fifoStat, halfBit, Chip.fifo,
      BitVec.getLsbD_append, BitVec.getLsbD_ofBool] <;>
    rfl

@[simp] theorem fifoStat_full (f : Side) :
    (fifoStat s).getLsbD (fullBit f) =
      decide (1023 ≤ (s.fifo f).cap) := by
  cases f <;>
    simp only [fifoStat, fullBit, Chip.fifo,
      BitVec.getLsbD_append, BitVec.getLsbD_ofBool] <;>
    rfl

end Easc

------------------------------------------------------------
-- What an Edge Owes
------------------------------------------------------------

namespace Easc

variable (cfg : Config) (s : Chip) (i : In)

/- A read of the byte at `$804` itself. -/
def statusRead : Bool := statRead i && i.be.getLsbD 3

/- The latch is set, or the byte read shows the flag. -/
def Told (shown : Byte) (k : Nat) : Prop :=
  (step cfg s i).irqR = true ∨
    statusRead i = true ∧ shown.getLsbD k = true

/-
  One clock in which a read, if there is one, returns `shown`.
  The latch is set only by a pop of a FIFO that holds 511
  bytes or by a push into one that holds 1022; each of these
  is told; and only a status read clears the latch.
-/
structure EdgesKept (shown : Byte) : Prop where
  raised : s.irqR = false → (step cfg s i).irqR = true →
    ∃ f, pop cfg s f = true ∧ (s.fifo f).cap = 511 ∨
      psh s f = true ∧ 1022 ≤ (s.fifo f).cap
  refill : ∀ f, pop cfg s f = true → (s.fifo f).cap = 511 →
    Told cfg s i shown (halfBit f)
  full : ∀ f, psh s f = true → 1022 ≤ (s.fifo f).cap →
    Told cfg s i shown (fullBit f)
  cleared : s.irqR = true → (step cfg s i).irqR = false →
    statusRead i = true

/- An event of either FIFO. -/
def anyEdge : Bool :=
  halfCross cfg s .a || halfCross cfg s .b || fill s .a ||
    fill s .b

/-
  A read that clears enables the lane of the status, unless
  there is nothing to clear.
-/
def takesStatus : Prop :=
  i.be.getLsbD 3 = true ∨ s.irqR = false ∧ anyEdge cfg s = false

/- No read clears while a push takes a FIFO to 1023 bytes. -/
def readShows : Prop :=
  i.nreset = true → statRead i = true →
    takesStatus cfg s i ∧
      ∀ f, psh s f = true → (s.fifo f).cap ≠ 1022

/- The same for a byte sampled on the clock after the read. -/
def sampleShows : Prop :=
  i.nreset = true → statRead i = true →
    takesStatus cfg s i ∧
      ∀ f, psh s f = true → pop cfg s f = true →
        (s.fifo f).cap ≠ 1022

end Easc

------------------------------------------------------------
-- One Clock
------------------------------------------------------------

namespace Easc

variable {cfg : Config} {s : Chip} {i : In}

theorem step_irqR (hReset : i.nreset = true) :
    (step cfg s i).irqR =
      if statRead i then false
      else if anyEdge cfg s then true else s.irqR := by
  rcases output_frame cfg (s := s) (divider cfg s s) with
    ⟨_, _, _, hOut⟩
  rcases registers_frame (i := i)
    (interrupt cfg s i (pointers cfg s i
      (output cfg s (divider cfg s s)))) with
    ⟨_, _, _, _, hRegs⟩
  have hStep : step cfg s i = bankPorts s i (registers i
      (interrupt cfg s i (pointers cfg s i
        (output cfg s (divider cfg s s))))) := by
    simp [step, hReset]
  rw [hStep, hRegs, hOut]
  cases hClear : fifoClear s i <;>
    simp [bankPorts, interrupt, pointers, divider, anyEdge,
      hClear, or_assoc]

theorem halfCross_iff (f : Side) :
    halfCross cfg s f = true ↔
      pop cfg s f = true ∧ (s.fifo f).cap = 511 := by
  simp [halfCross]

theorem fill_iff (f : Side) :
    fill s f = true ↔
      psh s f = true ∧ 1022 ≤ (s.fifo f).cap := by
  simp [fill]

theorem anyEdge_iff :
    anyEdge cfg s = true ↔
      ∃ f, halfCross cfg s f = true ∨ fill s f = true := by
  simp only [anyEdge, Bool.or_eq_true]
  constructor
  · rintro (((h | h) | h) | h)
    · exact ⟨.a, Or.inl h⟩
    · exact ⟨.b, Or.inl h⟩
    · exact ⟨.a, Or.inr h⟩
    · exact ⟨.b, Or.inr h⟩
  · rintro ⟨f, h⟩
    cases f with
    | a => rcases h with h | h <;> simp [h]
    | b => rcases h with h | h <;> simp [h]

/- Where no read clears, every event sets the latch. -/
theorem edgesKept_of_quiet
    (hReset : i.nreset = true)
    (hRead : statRead i = false)
    (shown : Byte) :
    EdgesKept cfg s i shown := by
  have hNext : (step cfg s i).irqR =
      if anyEdge cfg s then true else s.irqR := by
    rw [step_irqR hReset, hRead]
    rfl
  have hSets (h : anyEdge cfg s = true) :
      (step cfg s i).irqR = true := by
    rw [hNext, if_pos h]
  refine ⟨?_, ?_, ?_, ?_⟩
  · intro hLow hHigh
    cases hEdge : anyEdge cfg s with
    | true =>
        rcases anyEdge_iff.mp hEdge with ⟨f, hHalf | hFill⟩
        · exact ⟨f, Or.inl ((halfCross_iff f).mp hHalf)⟩
        · exact ⟨f, Or.inr ((fill_iff f).mp hFill)⟩
    | false => simp [hNext, hEdge, hLow] at hHigh
  · intro f hPop hCap
    have hHalf := (halfCross_iff f).mpr ⟨hPop, hCap⟩
    exact Or.inl (hSets (anyEdge_iff.mpr ⟨f, Or.inl hHalf⟩))
  · intro f hPush hCap
    have hFill := (fill_iff f).mpr ⟨hPush, hCap⟩
    exact Or.inl (hSets (anyEdge_iff.mpr ⟨f, Or.inr hFill⟩))
  · intro hHigh hLow
    simp [hNext, hHigh] at hLow

/- A read that clears must take over what it swallows. -/
theorem edgesKept_iff_of_read
    (hReset : i.nreset = true)
    (hRead : statRead i = true)
    (shown : Byte) :
    EdgesKept cfg s i shown ↔
      takesStatus cfg s i ∧
        ∀ f, (halfCross cfg s f = true →
            shown.getLsbD (halfBit f) = true) ∧
          (fill s f = true →
            shown.getLsbD (fullBit f) = true) := by
  have hLow : (step cfg s i).irqR = false := by
    rw [step_irqR hReset, if_pos hRead]
  have hTold (k : Nat) :
      Told cfg s i shown k ↔
        i.be.getLsbD 3 = true ∧ shown.getLsbD k = true := by
    simp [Told, hLow, statusRead, hRead]
  constructor
  · intro hKept
    have hHalf (f : Side) (h : halfCross cfg s f = true) :=
      (hTold _).mp (hKept.refill f ((halfCross_iff f).mp h).1
        ((halfCross_iff f).mp h).2)
    have hFull (f : Side) (h : fill s f = true) :=
      (hTold _).mp (hKept.full f ((fill_iff f).mp h).1
        ((fill_iff f).mp h).2)
    refine ⟨?_, fun f => ⟨fun h => (hHalf f h).2,
      fun h => (hFull f h).2⟩⟩
    cases hLane : i.be.getLsbD 3 with
    | true => exact Or.inl hLane
    | false =>
        refine Or.inr ⟨?_, ?_⟩
        · apply Bool.eq_false_iff.mpr
          intro hHigh
          have hTaken := hKept.cleared hHigh hLow
          simp only [statusRead, hLane, Bool.and_false]
            at hTaken
          exact Bool.noConfusion hTaken
        · apply Bool.eq_false_iff.mpr
          intro hEdge
          have hEnabled : i.be.getLsbD 3 = true := by
            rcases anyEdge_iff.mp hEdge with ⟨f, h | h⟩
            · exact (hHalf f h).1
            · exact (hFull f h).1
          exact Bool.noConfusion (hLane.symm.trans hEnabled)
  · rintro ⟨hTakes, hShown⟩
    have hLane (h : s.irqR = true ∨ anyEdge cfg s = true) :
        i.be.getLsbD 3 = true := by
      rcases hTakes with hLane | ⟨hOff, hNone⟩
      · exact hLane
      · simp [hOff, hNone] at h
    refine ⟨?_, ?_, ?_, ?_⟩
    · intro _ hHigh
      rw [hLow] at hHigh
      exact Bool.noConfusion hHigh
    · intro f hPop hCap
      have hHalf := (halfCross_iff f).mpr ⟨hPop, hCap⟩
      exact (hTold _).mpr
        ⟨hLane (Or.inr (anyEdge_iff.mpr ⟨f, Or.inl hHalf⟩)),
          (hShown f).1 hHalf⟩
    · intro f hPush hCap
      have hFill := (fill_iff f).mpr ⟨hPush, hCap⟩
      exact (hTold _).mpr
        ⟨hLane (Or.inr (anyEdge_iff.mpr ⟨f, Or.inr hFill⟩)),
          (hShown f).2 hFill⟩
    · intro hHigh _
      simp [statusRead, hRead, hLane (Or.inl hHigh)]

/- What a clock must bring, by the flags the read shows. -/
theorem edgesKept_iff
    (hReset : i.nreset = true)
    (shown : Byte) :
    EdgesKept cfg s i shown ↔
      (statRead i = true →
        takesStatus cfg s i ∧
          ∀ f, (halfCross cfg s f = true →
              shown.getLsbD (halfBit f) = true) ∧
            (fill s f = true →
              shown.getLsbD (fullBit f) = true)) := by
  cases hRead : statRead i with
  | true => simp [edgesKept_iff_of_read hReset hRead]
  | false => simp [edgesKept_of_quiet hReset hRead]

end Easc

------------------------------------------------------------
-- Every Run
------------------------------------------------------------

namespace Easc

open Clocked

variable {cfg : Config} {s : Chip} {i : In}

theorem status_decoded (a : BitVec 10) :
    ((a ++ 0#2).extractLsb' 0 11 == 0x004#11) =
      ((a ++ 0#2) &&& 0x7FC#12 == 0x004#12) := by
  revert a
  decide +kernel

theorem rdByte_of_statRead
    (hRead : statRead i = true)
    (t : Chip) :
    rdByte t i = fifoStat t := by
  simp only [statRead, Bool.and_eq_true] at hRead
  rw [rdByte, status_decoded, if_pos hRead.2]

/- A read clears no FIFO. -/
theorem step_fifo_of_statRead
    (hReset : i.nreset = true)
    (hRead : statRead i = true) :
    (step cfg s i).fifo = fifoNext cfg s := by
  have hClear : fifoClear s i = false := by
    simp only [statRead, Bool.and_eq_true,
      Bool.not_eq_true'] at hRead
    simp [fifoClear, modeChange, modeWr, regWr, hRead.1.1.2]
  rw [step_fifo cfg hReset, hClear]
  rfl

theorem fifoNext_cap (f : Side) :
    (fifoNext cfg s f).cap =
      if psh s f = true ∧ pop cfg s f = false then
        (s.fifo f).cap + 1
      else if psh s f = false ∧ pop cfg s f = true then
        (s.fifo f).cap - 1
      else (s.fifo f).cap := by
  cases hPush : psh s f <;> cases hPop : pop cfg s f <;>
    simp [fifoNext, hPush, hPop]

/- On the clock itself the flags are those before the push. -/
theorem edgesKept_iff_readShows
    (cfg : Config) (s : Chip) (i : In) :
    (i.nreset = true → EdgesKept cfg s i (rdByte s i)) ↔
      readShows cfg s i := by
  refine forall_congr' fun hReset => ?_
  rw [edgesKept_iff hReset]
  refine forall_congr' fun hRead => and_congr_right fun _ =>
    forall_congr' fun f => ?_
  rw [rdByte_of_statRead hRead, fifoStat_half, fifoStat_full,
    halfCross_iff, fill_iff]
  simp only [decide_eq_true_eq]
  constructor
  · rintro ⟨_, hFull⟩ hPush hCap
    have hShown := hFull ⟨hPush, by omega⟩
    omega
  · intro hNot
    refine ⟨fun hHalf => by omega, fun hFill => ?_⟩
    have hCap := hNot hFill.1
    omega

/- One clock on, they are those after it. -/
theorem edgesKept_iff_sampleShows
    (cfg : Config) (s : Chip) (i : In) :
    (i.nreset = true →
        EdgesKept cfg s i (rdByte (step cfg s i) i)) ↔
      sampleShows cfg s i := by
  refine forall_congr' fun hReset => ?_
  rw [edgesKept_iff hReset]
  refine forall_congr' fun hRead => and_congr_right fun _ =>
    forall_congr' fun f => ?_
  rw [rdByte_of_statRead hRead, fifoStat_half, fifoStat_full,
    step_fifo_of_statRead hReset hRead, fifoNext_cap,
    halfCross_iff, fill_iff]
  cases hPush : psh s f <;> cases hPop : pop cfg s f <;>
    simp
  all_goals omega

/-
  The chip keeps the interrupt edges exactly where no status
  read meets the push to 1023 bytes, and no read of the other
  bytes of its longword meets an edge or a latch that is set.
-/
theorem edges_kept_iff
    (cfg : Config)
    (s : Chip)
    (is : List In) :
    Along (step cfg)
        (fun t i => i.nreset = true →
          EdgesKept cfg t i (rdByte t i)) s is ↔
      Along (step cfg) (readShows cfg) s is :=
  along_congr (edgesKept_iff_readShows cfg)

/- The same for a bridge that samples the byte a clock on. -/
theorem sampled_edges_kept_iff
    (cfg : Config)
    (s : Chip)
    (is : List In) :
    Along (step cfg)
        (fun t i => i.nreset = true →
          EdgesKept cfg t i (rdByte (step cfg t i) i)) s is ↔
      Along (step cfg) (sampleShows cfg) s is :=
  along_congr (edgesKept_iff_sampleShows cfg)

/-
  FIFO A is filled to 1019 bytes before the first sample tick,
  and four more arrive so that the last of them, the tick and
  a read of the status coincide.
-/
def fillRun : List In :=
  [fifoModeWrite] ++
    (List.replicate 254
      ([sampleWrite] ++ List.replicate 3 quiet)).flatten ++
    [{ sampleWrite with be := 0b1110#4 }] ++
    List.replicate 460 quiet ++
    [sampleWrite] ++ List.replicate 3 quiet

def statusReadBeat : In :=
  { sel := true, a := 0x201#10, be := 0b1111#4 }

set_option maxRecDepth 20000 in
theorem fillRun_ends :
    (psh (run (step board) (start board default).1 fillRun) .a &&
      pop board (run (step board) (start board default).1 fillRun)
        .a &&
      ((run (step board) (start board default).1 fillRun).fifo
        .a).cap == 1022) = true := by
  decide +kernel

/-
  The latch stays clear and neither the byte of that clock nor
  the next one says that FIFO A is full.
-/
theorem status_read_hides_fill :
    ¬ (∀ (cfg : Config) (s : Chip) (is : List In),
        Along (step cfg)
          (fun t i => i.nreset = true →
            EdgesKept cfg t i (rdByte t i)) (start cfg s).1 is) ∧
      ¬ ∀ (cfg : Config) (s : Chip) (is : List In),
        Along (step cfg)
          (fun t i => i.nreset = true →
            EdgesKept cfg t i (rdByte (step cfg t i) i))
          (start cfg s).1 is := by
  have hEnds := fillRun_ends
  simp only [Bool.and_eq_true, beq_iff_eq] at hEnds
  rcases hEnds with ⟨⟨hPush, hPop⟩, hCap⟩
  have hRead : statRead statusReadBeat = true := by decide
  constructor
  · intro hAll
    have hLast := ((along_append _ _ _).mp
      (hAll board default (fillRun ++ [statusReadBeat]))).2.1
    have hShows :=
      (edgesKept_iff_readShows _ _ _).mp hLast
    exact (hShows rfl hRead).2 .a hPush hCap
  · intro hAll
    have hLast := ((along_append _ _ _).mp
      (hAll board default (fillRun ++ [statusReadBeat]))).2.1
    have hShows :=
      (edgesKept_iff_sampleShows _ _ _).mp hLast
    exact (hShows rfl hRead).2 .a hPush hPop hCap

end Easc
