import Wombat33.Ncr53c96.Reachable

/-
  The end of a DMA data-in.

  Beside the run every byte of the FIFO carries a mark: the
  transfer information in DATA IN brought it.  The marked
  bytes are what the host has still to read.

  Key definitions include:
    * `DinLog`, `noteDin`, `unread`
    * `EndsDrained`
    * `DrainsFirst`

  Key theorems include:
    * `ends_drained_iff`
    * `short_response_abandoned`
-/

------------------------------------------------------------
-- The Bytes Still to Read
------------------------------------------------------------

namespace Ncr53c96

open Clocked

variable (cfg : Config) (s : Chip) (i : In)

/- A DMA transfer information is written in DATA IN. -/
def dinStarts : Bool :=
  cmdIs i 0x10#7 && s.phase == .din && cmdDma i.wdata

/- A completion arm ends the transfer information. -/
def dinEnds : Bool :=
  i.nreset && (dinDone s || dinUnderflow s i)

/-
  Whether the last DMA data-in was ended by the chip, and a
  mark for each byte of the FIFO.
-/
structure DinLog where
  ended : Bool
  marks : List Bool

/-
  A filled byte is marked.  $18 gives the transfer up, so that
  nothing is left to be read for it.
-/
def noteDin (g : DinLog) (s : Chip) (i : In) : DinLog :=
  if i.nreset then
    { ended := !dinStarts s i && (g.ended || dinEnds s i)
      marks :=
        if cmdIs i 0x18#7 then g.marks.map (fun _ => false)
        else
          ((fifoAct cfg s i).map (fun _ => armFill s i)).apply
            g.marks }
  else ⟨false, []⟩

/- No transfer information was written yet. -/
def noDin : DinLog := ⟨false, []⟩

/- How many bytes a data-in moved that are still unread. -/
def unread (g : DinLog) : Nat := g.marks.count true

/-
  What is claimed at one edge: a data-in that is ended leaves
  fewer than two bytes in the FIFO; while two of its bytes are
  unread, DRQ is asserted and it has not been ended.
-/
structure EndsDrained (x : Chip × DinLog) (i : In) : Prop where
  drained : dinEnds x.1 i = true → x.1.fifoCnt < 2
  offered : 2 ≤ unread x.2 →
    drq x.1 = true ∧ x.2.ended = false

/-
  The underflow arm, which does not look at the FIFO, meets
  fewer than two bytes there; and a CDB or data-out transfer
  that owns DRQ while two bytes are unread wants bytes itself.
-/
structure DrainsFirst (x : Chip × DinLog) (i : In) : Prop where
  dry : i.nreset = true → dinUnderflow x.1 i = true →
    x.1.fifoCnt < 2
  owned : 2 ≤ unread x.2 →
    (x.1.cdbActive = true ∨ x.1.xferOut = true) →
    x.1.dmaActive = true ∧ x.1.tcZero = false ∧
      x.1.fifoCnt < 15

end Ncr53c96

------------------------------------------------------------
-- The Invariant
------------------------------------------------------------

namespace Ncr53c96

open Clocked

variable {cfg : Config} {s : Chip} {g : DinLog} {i : In}

/-
  There is a mark for each byte; a transfer that is over left
  at most one byte, and one that runs has not been ended.
-/
structure UnreadInv (x : Chip × DinLog) : Prop where
  fits : x.1.fifoCnt ≤ 16
  marked : x.2.marks.length = x.1.fifoCnt
  past : x.1.xferIn = false → unread x.2 ≤ 1
  runs : x.1.xferIn = true → x.2.ended = false

theorem noteDin_of_nreset (hReset : i.nreset = true) :
    noteDin cfg g s i =
      { ended := !dinStarts s i && (g.ended || dinEnds s i)
        marks :=
          if cmdIs i 0x18#7 then g.marks.map (fun _ => false)
          else
            ((fifoAct cfg s i).map
              (fun _ => armFill s i)).apply g.marks } := by
  simp [noteDin, hReset]

/- $18 leaves the FIFO as it is. -/
theorem fifoAct_of_pad (hPad : cmdIs i 0x18#7 = true) :
    fifoAct cfg s i = .keep := by
  have hWr : ∀ r, regWr i r = (r == 0x3#4) :=
    fun r => regWr_of_cmdIs hPad
  have hCmd : ∀ op, cmdIs i op = (0x18#7 == op) :=
    fun op => cmdIs_of_cmdIs hPad
  rcases command_cycle (hWr 0x3#4) with ⟨hExt, hRd⟩
  simp [fifoAct, hExt, registerAct, hRd, hCmd, hWr]

theorem marked_next
    (hInv : UnreadInv (s, g))
    (hReset : i.nreset = true) :
    (noteDin cfg g s i).marks.length =
      (clock cfg s i).fifoCnt := by
  have hQueue : g.marks.length = (queue s).length := by
    rw [hInv.marked, length_queue]
  rw [← length_queue, clock_queue cfg hInv.fits,
    noteDin_of_nreset hReset]
  cases hPad : cmdIs i 0x18#7 with
  | true =>
      rw [fifoAct_of_pad hPad]
      simpa [QueueAct.apply] using hQueue
  | false => exact QueueAct.length_map_apply hQueue _

/- A cycle that fills nothing adds nothing to read. -/
theorem unread_le
    (hReset : i.nreset = true)
    (hFill : armFill s i = false) :
    unread (noteDin cfg g s i) ≤ unread g := by
  rw [noteDin_of_nreset hReset, hFill]
  unfold unread
  dsimp only
  split
  · rw [List.map_const', List.count_replicate]
    simp
  · exact QueueAct.count_map_apply (by simp) _ _

/- A filling cycle does not end the transfer. -/
theorem armFill_of_ends (hEnds : dinEnds s i = true) :
    armFill s i = false := by
  cases hFill : armFill s i with
  | false => rfl
  | true =>
      have hGuard := guard_fill s i
        (by simpa [armFill_eq] using hFill)
      rcases hGuard with ⟨-, -, hCount, -, hByte, -⟩
      simp only [dinEnds, Bool.and_eq_true,
        Bool.or_eq_true] at hEnds
      rcases hEnds.2 with hDone | hDry
      · have hZero := (dinDone_iff.mp hDone).2.2.1
        rw [hCount] at hZero
        exact hZero.symm
      · simp [dinUnderflow, sourceDone, hByte] at hDry

theorem armFill_of_over (hOver : s.xferIn = false) :
    armFill s i = false := by
  simp [armFill, hOver]

end Ncr53c96

------------------------------------------------------------
-- One Edge
------------------------------------------------------------

namespace Ncr53c96

open Clocked

variable {cfg : Config} {s : Chip} {g : DinLog} {i : In}

/- A transfer that is over left at most one byte to read. -/
theorem over_next
    (hInv : UnreadInv (s, g))
    (hOk : DrainsFirst (s, g) i)
    (hReset : i.nreset = true)
    (hOver : (clock cfg s i).xferIn = false) :
    unread (noteDin cfg g s i) ≤ 1 := by
  have hFits : unread g ≤ s.fifoCnt := by
    rw [← hInv.marked]
    exact List.count_le_length
  have hEnded :
      dinEnds s i = true → s.fifoCnt < 2 →
        unread (noteDin cfg g s i) ≤ 1 := by
    intro hEnds hFew
    have hLe := @unread_le cfg s g i hReset
      (armFill_of_ends hEnds)
    omega
  rw [clock_xferIn] at hOver
  split_ifs at hOver with hPad hStart hStop hDry hDone
  · have hNone : unread (noteDin cfg g s i) = 0 := by
      rw [noteDin_of_nreset hReset]
      simp [unread, hPad, List.count_replicate]
    omega
  · have hEmpty : (clock cfg s i).fifoCnt = 0 := by
      have hCmd : ∀ op, cmdIs i op = (0x02#7 == op) :=
        fun op => cmdIs_of_cmdIs hStop
      have hRead := (command_cycle
        (regWr_of_cmdIs hStop)).2
      simp [clock_fifoCnt, hCmd, hRead]
    have hMarks := @marked_next cfg s g i hInv hReset
    have hCount : unread (noteDin cfg g s i) ≤
        (noteDin cfg g s i).marks.length :=
      List.count_le_length
    omega
  · have hEnds : dinEnds s i = true := by
      simp [dinEnds, hReset, hDry]
    exact hEnded hEnds (hOk.dry hReset hDry)
  · have hEnds : dinEnds s i = true := by
      simp [dinEnds, hReset, hDone]
    exact hEnded hEnds (dinDone_iff.mp hDone).2.2.2
  · have hLe := @unread_le cfg s g i hReset
      (armFill_of_over hOver)
    exact Nat.le_trans hLe (hInv.past hOver)

/- A transfer that runs was not ended after it was written. -/
theorem runs_next
    (hInv : UnreadInv (s, g))
    (hReset : i.nreset = true)
    (hRuns : (clock cfg s i).xferIn = true) :
    (noteDin cfg g s i).ended = false := by
  rw [noteDin_of_nreset hReset]
  rw [clock_xferIn] at hRuns
  split_ifs at hRuns with hPad hStart hStop hDry hDone
  · simp [dinStarts, hStart]
  · have hOpen := hInv.runs hRuns
    simp_all [dinEnds]

theorem unreadInv_step
    (x : Chip × DinLog)
    (i : In)
    (hInv : UnreadInv x)
    (hOk : DrainsFirst x i) :
    UnreadInv (watch (step cfg) (noteDin cfg) x i) := by
  cases hReset : i.nreset with
  | false =>
      constructor
      all_goals
        simp [watch, step, sbufPorts, resetRegs, noteDin,
          hReset, unread]
  | true =>
      constructor
      all_goals
        simp only [watch_fst, watch_snd,
          step_of_nreset cfg _ i hReset]
      · exact clock_fifoCnt_le cfg hInv.fits
      · exact marked_next hInv hReset
      · exact over_next hInv hOk hReset
      · exact runs_next hInv hReset

/- Under the condition the invariant gives the property. -/
theorem endsDrained_of_inv
    (x : Chip × DinLog)
    (i : In)
    (hInv : UnreadInv x)
    (hOk : DrainsFirst x i) :
    EndsDrained x i := by
  constructor
  · intro hEnds
    simp only [dinEnds, Bool.and_eq_true,
      Bool.or_eq_true] at hEnds
    rcases hEnds.2 with hDone | hDry
    · exact (dinDone_iff.mp hDone).2.2.2
    · exact hOk.dry hEnds.1 hDry
  · intro hTwo
    have hFits : 2 ≤ x.1.fifoCnt := by
      rw [← hInv.marked]
      exact Nat.le_trans hTwo List.count_le_length
    have hRuns : x.1.xferIn = true := by
      by_contra hOver
      have hLe := hInv.past (by simpa using hOver)
      omega
    refine ⟨?_, hInv.runs hRuns⟩
    by_cases hMasked :
        x.1.cdbActive = true ∨ x.1.xferOut = true
    · rcases hOk.owned hTwo hMasked with
        ⟨hDma, hCount, hRoom⟩
      rcases hMasked with hCdb | hOut
      · simp [drq, hCdb, hDma, hCount, hRoom]
      · simp [drq, hOut, hDma, hCount, hRoom]
    · rw [not_or] at hMasked
      simp [drq, hMasked, hRuns, hFits]

/- The property says no more than the condition needs. -/
theorem drainsFirst_of_endsDrained
    (x : Chip × DinLog)
    (i : In)
    (hEdge : EndsDrained x i) :
    DrainsFirst x i := by
  constructor
  · intro hReset hDry
    exact hEdge.drained (by simp [dinEnds, hReset, hDry])
  · intro hTwo hMasked
    have hDrq := (hEdge.offered hTwo).1
    unfold drq at hDrq
    split_ifs at hDrq with hCdb hOut hIn
    · simpa [and_assoc] using hDrq
    · simpa [and_assoc] using hDrq
    · simp_all

end Ncr53c96

------------------------------------------------------------
-- Runs
------------------------------------------------------------

namespace Ncr53c96

open Clocked

theorem unreadInv_powerOn (cfg : Config) (b₀ : Chip) :
    UnreadInv (powerOn cfg b₀, noDin) := by
  constructor <;>
    simp [powerOn, step, sbufPorts, resetRegs, noDin, unread]

/-
  From reset, a data-in ends with fewer than two bytes in the
  FIFO and offers its bytes until then along the runs in which
  the host drains it before the target runs dry, and along no
  others.
-/
theorem ends_drained_iff
    (cfg : Config)
    (b₀ : Chip)
    (is : List In) :
    Along (watch (step cfg) (noteDin cfg)) EndsDrained
        (powerOn cfg b₀, noDin) is ↔
      Along (watch (step cfg) (noteDin cfg)) DrainsFirst
        (powerOn cfg b₀, noDin) is := by
  constructor
  · exact along_mono drainsFirst_of_endsDrained
  · intro hAlong
    exact along_of_invariant unreadInv_step
      endsDrained_of_inv hAlong (unreadInv_powerOn cfg b₀)

/-
  MODE SENSE, four bytes, by a transfer of 256 that the host
  does not begin to read.
-/
def shortResponse : List In :=
  [mountImage] ++
    runCdb [0x1A#8, 0x00#8, 0x3F#8, 0x00#8, 0xFF#8, 0x00#8] ++
    [regWrite 0x1#4 0x01#8, regWrite 0x3#4 0x90#8] ++
    List.replicate 12 quiet

theorem short_response_abandoned :
    ¬ ∀ (cfg : Config) (b₀ : Chip) (is : List In),
      Along (watch (step cfg) (noteDin cfg)) EndsDrained
        (powerOn cfg b₀, noDin) is := by
  intro hAll
  have hRun := hAll ⟨0#4, false⟩ default
    (shortResponse ++ [quiet])
  have hLast := ((along_append _ _ _).mp hRun).2.1.offered
  have hEval := evalRun_eq ⟨0#4, false⟩
    (noteDin ⟨0#4, false⟩)
    (fun x => decide (unread x.2 = 4) && !drq x.1)
    shortResponse (powerOn ⟨0#4, false⟩ default) noDin
  have hBad : evalRun ⟨0#4, false⟩ (noteDin ⟨0#4, false⟩)
      (fun x => decide (unread x.2 = 4) && !drq x.1)
      shortResponse (powerOn ⟨0#4, false⟩ default)
      noDin = true := by
    decide +kernel
  rw [hBad] at hEval
  have hEnd := hEval.symm
  simp only [Bool.and_eq_true, decide_eq_true_eq,
    Bool.not_eq_true'] at hEnd
  have hOffered := (hLast (by omega)).1
  rw [hEnd.2] at hOffered
  exact Bool.false_ne_true hOffered

end Ncr53c96
