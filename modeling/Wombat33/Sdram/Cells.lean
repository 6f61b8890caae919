import Wombat33.Lanes.Bytes
import Wombat33.Sdram.PowerUp

/-
  The chips' cells as a byte-addressable memory.

  A halfword address names a chip, a bank, a row and a column.
  The bytes of the memory are the halves of the cells, the
  first one higher.

  Key definitions include:
    * `place`, `cell`
    * `stored`
    * `halfLanes`

  Key theorems include:
    * `loadWord_stored`
    * `stored_of_cells`
    * `cell_write`
-/

------------------------------------------------------------
-- Cells
------------------------------------------------------------

namespace Sdram

/- Where a chip keeps a halfword. -/
def place (w : BitVec 26) : BitVec 25 :=
  key (bankOf w) (rowOf w) (colOf w)

def cell (b : Bridge) (w : BitVec 26) : BitVec 16 :=
  (b.chips (w.getLsbD 25)).mem (place w)

/- The memory the cells of both chips make up. -/
def stored (b : Bridge) : Lanes.Mem 25 :=
  fun x =>
    if x.getLsbD 0 then
      (cell b (x.extractLsb' 1 26)).extractLsb' 0 8
    else (cell b (x.extractLsb' 1 26)).extractLsb' 8 8

/- The lanes of one half of a longword. -/
def halfLanes (low : Bool) (be : BitVec 4) : BitVec 4 :=
  if low then 0#2 ++ be.extractLsb' 0 2
  else be.extractLsb' 2 2 ++ 0#2

/- One halfword with the bytes of another, where enabled. -/
def mergeHalf (bs : BitVec 2) (d c : BitVec 16) : BitVec 16 :=
  (if bs.getLsbD 1 then d.extractLsb' 8 8
    else c.extractLsb' 8 8) ++
    (if bs.getLsbD 0 then d.extractLsb' 0 8
      else c.extractLsb' 0 8)

theorem place_bit
    (w : BitVec 26)
    {j : Nat}
    (hJ : j < 25) :
    (place w).getLsbD j =
      w.getLsbD (if j < 9 then j else if j = 9 then 24
        else j - 1) := by
  simp only [place, key, bankOf, rowOf, colOf,
    BitVec.getLsbD_append, BitVec.getLsbD_extractLsb']
  by_cases hCol : j < 10
  · by_cases hLow : j < 9
    · simp [hCol, hLow]
    · have hNine : j = 9 := by omega
      simp [hNine]
  · have hNine : ¬ j < 9 := by omega
    have hNot : j ≠ 9 := by omega
    simp only [hCol, hNine, hNot, if_false]
    by_cases hRow : j - 10 < 13
    · have hIndex : 9 + (j - 10) = j - 1 := by omega
      simp [hRow, hIndex]
    · have hIndex : 22 + (j - 10 - 13) = j - 1 := by omega
      have hBank : j - 10 - 13 < 2 := by omega
      simp [hRow, hIndex, hBank]

/- Different halfwords of a chip have different places. -/
theorem place_injective
    {v w : BitVec 26}
    (hChip : v.getLsbD 25 = w.getLsbD 25)
    (hPlace : place v = place w) : v = w := by
  have hBit (j : Nat) :
      (place v).getLsbD j = (place w).getLsbD j := by
    rw [hPlace]
  apply BitVec.eq_of_getLsbD_eq
  intro k hK
  by_cases hTop : k = 25
  · rw [hTop, hChip]
  · by_cases hHigh : k = 24
    · have hCol := hBit 9
      rw [place_bit v (by omega), place_bit w (by omega)] at hCol
      simpa [hHigh] using hCol
    · by_cases hLow : k < 9
      · have hCol := hBit k
        rw [place_bit v (by omega), place_bit w (by omega)]
          at hCol
        simpa only [if_pos hLow] using hCol
      · have hRow := hBit (k + 1)
        rw [place_bit v (by omega), place_bit w (by omega),
          if_neg (by omega), if_neg (by omega)] at hRow
        exact hRow

end Sdram

------------------------------------------------------------
-- Halves of a Longword
------------------------------------------------------------

namespace Sdram

open Lanes

/- A halfword's address, and a byte's place in it. -/
theorem half_append (a : BitVec 25) (o : BitVec 2) :
    (a ++ o).extractLsb' 1 26 = a ++ o.extractLsb' 1 1 := by
  apply BitVec.eq_of_getLsbD_eq
  intro k hK
  simp only [BitVec.getLsbD_extractLsb', BitVec.getLsbD_append]
  by_cases hLow : k < 1
  · have hZero : k = 0 := by omega
    simp [hZero]
  · have hIndex : 1 + k - 2 = k - 1 := by omega
    have hHigh : ¬ 1 + k < 2 := by omega
    simp [hLow, hK, hIndex, hHigh]

/- A byte of the memory, by longword and place. -/
theorem stored_append (b : Bridge) (a : BitVec 25)
    (o : BitVec 2) :
    stored b (a ++ o) =
      if o.getLsbD 0 then
        (cell b (a ++ o.extractLsb' 1 1)).extractLsb' 0 8
      else (cell b (a ++ o.extractLsb' 1 1)).extractLsb' 8 8 := by
  have hLow : (a ++ o).getLsbD 0 = o.getLsbD 0 := by
    rw [BitVec.getLsbD_append, if_pos (by decide)]
  simp only [stored, half_append, hLow]

/- Two halfwords side by side, byte by byte. -/
theorem byte_halves (h l : BitVec 16) :
    byte 3 (h ++ l) = h.extractLsb' 8 8 ∧
      byte 2 (h ++ l) = h.extractLsb' 0 8 ∧
      byte 1 (h ++ l) = l.extractLsb' 8 8 ∧
      byte 0 (h ++ l) = l.extractLsb' 0 8 := by
  refine ⟨?_, ?_, ?_, ?_⟩
  all_goals
    apply BitVec.eq_of_getLsbD_eq
    intro k hK
    simp only [byte, BitVec.getLsbD_extractLsb',
      BitVec.getLsbD_append, hK, decide_true, Bool.true_and]
    grind

/- A longword of the memory is two cells. -/
theorem loadWord_stored (b : Bridge) (a : BitVec 25) :
    loadWord (stored b) a = cell b (a ++ 0#1) ++ cell b (a ++ 1#1) := by
  have hBytes := byte_halves (cell b (a ++ 0#1))
    (cell b (a ++ 1#1))
  have hLoad := byte_ofBytes (stored b (a ++ 0#2))
    (stored b (a ++ 1#2)) (stored b (a ++ 2#2))
    (stored b (a ++ 3#2))
  apply ext_bytes
  intro k hK
  rw [loadWord]
  have hCases : k = 3 ∨ k = 2 ∨ k = 1 ∨ k = 0 := by omega
  rcases hCases with h | h | h | h
  · rw [h, hLoad.1, hBytes.1]
    simp [stored_append]
  · rw [h, hLoad.2.1, hBytes.2.1]
    simp [stored_append]
  · rw [h, hLoad.2.2.1, hBytes.2.2.1]
    simp [stored_append]
  · rw [h, hLoad.2.2.2, hBytes.2.2.2]
    simp [stored_append]

/- A byte of a half is a byte of the longword. -/
theorem byte_of_half
    (d : BitVec 32)
    (s : Nat) {t : Nat}
    (hT : t + 8 ≤ 16) :
    (d.extractLsb' s 16).extractLsb' t 8 =
      d.extractLsb' (s + t) 8 := by
  apply BitVec.eq_of_getLsbD_eq
  intro k hK
  have hIn : t + k < 16 := by omega
  simp [hK, hIn, Nat.add_assoc]

theorem mergeHalf_high (bs : BitVec 2) (d c : BitVec 16) :
    (mergeHalf bs d c).extractLsb' 8 8 =
      if bs.getLsbD 1 then d.extractLsb' 8 8
      else c.extractLsb' 8 8 :=
  high_append _ _

theorem mergeHalf_low (bs : BitVec 2) (d c : BitVec 16) :
    (mergeHalf bs d c).extractLsb' 0 8 =
      if bs.getLsbD 0 then d.extractLsb' 0 8
      else c.extractLsb' 0 8 :=
  low_append _ _

/- The enabled lanes of a half are those of the longword. -/
theorem halfLanes_bit (low : Bool) (be : BitVec 4) (k : Nat) :
    (halfLanes low be).getLsbD k =
      (be.getLsbD k && (decide (k < 2) == low)) := by
  cases low
  · simp only [halfLanes, Bool.false_eq_true, if_false,
      BitVec.getLsbD_append, BitVec.getLsbD_extractLsb']
    grind
  · simp only [halfLanes, if_true, BitVec.getLsbD_append,
      BitVec.getLsbD_extractLsb']
    grind

/-
  A write of one half of a longword, in which every other cell
  is kept, stores that half's enabled lanes.
-/
theorem stored_of_cells
    {b n : Bridge}
    (a : BitVec 25) (low : Bool) (be : BitVec 4) (d : BitVec 32)
    (hCells : ∀ w, cell n w =
      if w = a ++ BitVec.ofBool low then
        mergeHalf
          (if low then be.extractLsb' 0 2 else be.extractLsb' 2 2)
          (if low then d.extractLsb' 0 16 else d.extractLsb' 16 16)
          (cell b w)
      else cell b w) :
    stored n = storeLanes (stored b) a (halfLanes low be) d := by
  funext x
  have hOffset : offset x = (x.extractLsb' 0 2).toNat := rfl
  have hPlace := word_append_place x
  generalize word x = c at hPlace
  generalize x.extractLsb' 0 2 = o at hPlace hOffset
  have hWord : word x = c := by
    rw [← hPlace, word_append]
  have hHalf : c ++ o.extractLsb' 1 1 = a ++ BitVec.ofBool low ↔
      c = a ∧ o.extractLsb' 1 1 = BitVec.ofBool low := by
    constructor
    · intro hSame
      have hHigh := congrArg (fun v => v.extractLsb' 1 25) hSame
      have hLow := congrArg (fun v => v.extractLsb' 0 1) hSame
      simp only [high_append, low_append] at hHigh hLow
      exact ⟨hHigh, hLow⟩
    · rintro ⟨hHigh, hLow⟩
      rw [hHigh, hLow]
  simp only [storeLanes, hWord, hOffset]
  rw [← hPlace, stored_append, stored_append, hCells,
    halfLanes_bit]
  simp only [hHalf]
  by_cases hHere : c = a
  · rcases offset_cases o with h | h | h | h <;> cases low <;>
      simp [h, hHere, mergeHalf_high, mergeHalf_low, byte,
        byte_of_half]
  · simp [hHere]

end Sdram

------------------------------------------------------------
-- Commands and Cells
------------------------------------------------------------

namespace Sdram

/- Only a write to an open row changes a cell. -/
theorem Chip.mem_step (c : Chip) (p : Pins) :
    (c.step p).mem =
      if Chip.seen p = .write ∧ c.rowOpen p.ba = true then
        (c.writeWord p c).mem
      else c.mem := by
  unfold Chip.step
  cases hSeen : Chip.seen p with
  | write =>
      simp only [Chip.access, true_and]
      split_ifs <;> rfl
  | read =>
      rw [if_neg (fun h => Cmd.noConfusion h.1)]
      simp only [Chip.access]
      split_ifs <;> rfl
  | loadMode | autoRefresh | precharge | active | burstStop
  | nop => rfl

variable {b : Bridge} {i : In}

/- A cycle without a write keeps the memory. -/
theorem cell_of_quiet
    (hCommand : (b.step i).ctl.command ≠ .write)
    (w : BitVec 26) :
    cell (b.step i) w = cell b w := by
  unfold cell
  rw [chips_step, Chip.mem_step, if_neg]
  rw [seen_pins]
  rintro ⟨hWrite, -⟩
  split_ifs at hWrite
  exact hCommand hWrite

theorem stored_of_quiet
    (hCommand : (b.step i).ctl.command ≠ .write) :
    stored (b.step i) = stored b := by
  funext x
  simp only [stored, cell_of_quiet hCommand]

/- The column address of a halfword, with its byte mask. -/
def columnAddr (mask : BitVec 2) (w : BitVec 26) : BitVec 13 :=
  mask ++ 1#1 ++ colOf w

theorem columnAddr_bits (mask : BitVec 2) (w : BitVec 26) :
    (columnAddr mask w).extractLsb' 0 10 = colOf w ∧
      (columnAddr mask w).getLsbD 11 = mask.getLsbD 0 ∧
      (columnAddr mask w).getLsbD 12 = mask.getLsbD 1 := by
  refine ⟨Lanes.low_append _ _, ?_, ?_⟩
  · rw [columnAddr, BitVec.getLsbD_append, if_neg (by decide),
      BitVec.getLsbD_append, if_neg (by decide)]
  · rw [columnAddr, BitVec.getLsbD_append, if_neg (by decide),
      BitVec.getLsbD_append, if_neg (by decide)]

/- The halfword's row is open on its chip. -/
structure RowOpen (b : Bridge) (w : BitVec 26) : Prop where
  openBank :
    (b.chips (w.getLsbD 25)).rowOpen (bankOf w) = true
  row : (b.chips (w.getLsbD 25)).row (bankOf w) = rowOf w

/- A write command writes one halfword's enabled bytes. -/
theorem cell_write
    {w : BitVec 26} {bs : BitVec 2}
    (hRow : RowOpen b w)
    (hCommand : (b.step i).ctl.command = .write)
    (hChip : (b.step i).ctl.chip = w.getLsbD 25)
    (hBank : (b.step i).ctl.ba = bankOf w)
    (hAddr : (b.step i).ctl.a = columnAddr (~~~bs) w)
    (hDrive : (b.step i).ctl.dqOe = true)
    (v : BitVec 26) :
    cell (b.step i) v =
      if v = w then
        mergeHalf bs (b.step i).ctl.dqOut (cell b v)
      else cell b v := by
  rcases columnAddr_bits (~~~bs) w with ⟨hCol, hLow, hHigh⟩
  unfold cell
  rw [chips_step, Chip.mem_step, seen_pins, hChip, hCommand]
  by_cases hSame : w.getLsbD 25 = v.getLsbD 25
  · have hOpen : (b.chips (v.getLsbD 25)).rowOpen
        (pins (b.step i).ctl (v.getLsbD 25) i.float).ba =
          true := by
      show (b.chips (v.getLsbD 25)).rowOpen
        (b.step i).ctl.ba = true
      rw [hBank, ← hSame]
      exact hRow.openBank
    rw [if_pos ⟨if_pos hSame, hOpen⟩]
    simp only [Chip.writeWord, pins, hBank, hAddr, hCol, hLow,
      hHigh, hDrive, if_true, ← hSame, hRow.row]
    by_cases hHere : v = w
    · have hPlace : place w =
          key (bankOf w) (rowOf w) (colOf w) := rfl
      rw [if_pos hHere, hHere, ← hPlace, Function.update_self]
      simp only [mergeHalf, BitVec.getLsbD_not]
      cases bs.getLsbD 0 <;> cases bs.getLsbD 1 <;> simp
    · have hAway : place v ≠ place w := by
        intro hPlace
        exact hHere (place_injective hSame.symm hPlace)
      rw [if_neg hHere]
      exact Function.update_of_ne hAway _ _
  · have hHere : v ≠ w := by
      intro hEq
      exact hSame (by rw [hEq])
    rw [if_neg hHere, if_neg hSame, if_neg]
    simp

end Sdram
