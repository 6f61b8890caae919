import Wombat33.Dafb.Registers

/-
  The pitch register of the display controller.

  Of all register beats only a write of the third register
  changes the pitch; a beat is acknowledged in the cycle after
  the one that takes it, and in no other.

  Key definitions include:
    * `atPitch`

  Key theorems include:
    * `step_ack`
    * `step_strideWords`
    * `step_rdata`
-/

------------------------------------------------------------
-- Writes Beside It
------------------------------------------------------------

namespace Dafb

variable {f : File} {b : Bus} {vblStart : Bool}

/- The beat is for the pitch. -/
def atPitch (b : Bus) : Bool := b.addr == 2#8

/- Two files alike in acknowledge and pitch. -/
def Beside (n n' : File) : Prop :=
  n'.ack = n.ack ∧ n'.strideWords = n.strideWords

theorem beside_self (n : File) : Beside n n := ⟨rfl, rfl⟩

theorem Beside.trans {n n' n'' : File}
    (h : Beside n n') (h' : Beside n' n'') : Beside n n'' :=
  ⟨h'.1.trans h.1, h'.2.trans h.2⟩

theorem swatchWrite_beside (n : File) :
    Beside n (swatchWrite b n) := by
  unfold swatchWrite
  split
  case h_6 => split_ifs <;> exact ⟨rfl, rfl⟩
  all_goals exact ⟨rfl, rfl⟩

theorem palWrite_beside (n : File) :
    Beside n (palWrite f b n) := by
  unfold palWrite
  simp only
  split <;> exact ⟨rfl, rfl⟩

theorem ramdacWrite_beside (n : File) :
    Beside n (ramdacWrite f b n) := by
  unfold ramdacWrite
  split
  case h_2 =>
      simp only
      split_ifs
      · exact (palWrite_beside n).trans ⟨rfl, rfl⟩
      · exact (palWrite_beside n).trans ⟨rfl, rfl⟩
  all_goals exact ⟨rfl, rfl⟩

theorem ramdacRead_beside (n : File) :
    Beside n (ramdacRead f b n) := by
  unfold ramdacRead
  split <;> exact ⟨rfl, rfl⟩

theorem dafbWrite_ack (n : File) :
    (dafbWrite b n).ack = n.ack := by
  unfold dafbWrite
  split <;> rfl

theorem dafbWrite_strideWords (n : File) :
    (dafbWrite b n).strideWords =
      if rsel b = 2 then low12 b else n.strideWords := by
  unfold dafbWrite
  split <;> simp_all

/- The third register of the first block. -/
theorem atPitch_iff :
    atPitch b = true ↔ blk b = 0#2 ∧ rsel b = 2 := by
  have hAll (a : BitVec 8) : a = 2#8 ↔
      a.extractLsb' 6 2 = 0#2 ∧
        (a.extractLsb' 0 6).toNat = 2 := by
    decide +revert
  simp only [atPitch, blk, rsel, beq_iff_eq]
  exact hAll b.addr

end Dafb

------------------------------------------------------------
-- A Register Beat
------------------------------------------------------------

namespace Dafb

variable {f : File} {b : Bus} {vblStart : Bool}

theorem access_ack (n : File) : (access f b n).ack = true := by
  unfold access
  split
  · split_ifs
    · exact dafbWrite_ack _
    · rfl
  · split_ifs
    · exact (swatchWrite_beside _).1
    · rfl
  · split_ifs
    · exact (ramdacWrite_beside _).1
    · exact (ramdacRead_beside _).1
  · rfl

theorem access_strideWords (n : File) :
    (access f b n).strideWords =
      if b.write && atPitch b then low12 b
      else n.strideWords := by
  have hAway (hBlk : blk b ≠ 0#2) : atPitch b = false := by
    rw [← Bool.not_eq_true, atPitch_iff]
    exact fun h => hBlk h.1
  unfold access
  split
  next hBlk =>
      have hHere : atPitch b = decide (rsel b = 2) := by
        rw [Bool.eq_iff_iff, atPitch_iff, decide_eq_true_eq]
        exact ⟨fun h => h.2, fun h => ⟨hBlk, h⟩⟩
      cases hWrite : b.write <;>
        simp [hHere, dafbWrite_strideWords]
  next hBlk =>
      simp only [hAway (by simp [hBlk]), Bool.and_false,
        Bool.false_eq_true, if_false]
      split
      · exact (swatchWrite_beside _).2
      · rfl
  next hBlk =>
      simp only [hAway (by simp [hBlk]), Bool.and_false,
        Bool.false_eq_true, if_false]
      split
      · exact (ramdacWrite_beside _).2
      · exact (ramdacRead_beside _).2
  next hZero _ _ =>
      simp only [hAway hZero, Bool.and_false,
        Bool.false_eq_true, if_false]

theorem access_rdata (n : File)
    (hWrite : b.write = false)
    (hPitch : atPitch b = true) :
    (access f b n).rdata = f.strideWords.setWidth 32 := by
  rcases atPitch_iff.mp hPitch with ⟨hBlk, hReg⟩
  unfold access
  simp [hBlk, hWrite, dafbRead, hReg]

/- The cycle after a beat is taken acknowledges it. -/
theorem step_ack (hCe : b.ce = true) :
    (f.step b vblStart).ack =
      (b.nreset && (b.sel && !f.ack)) := by
  unfold File.step
  cases hReset : b.nreset with
  | false => rfl
  | true =>
      cases hTaken : b.sel && !f.ack with
      | false => simp [hCe, setStatus]
      | true =>
          have hAck := @access_ack f b
            (setStatus vblStart { f with ack := false })
          simp [hCe, hAck]

theorem step_strideWords
    (hReset : b.nreset = true)
    (hCe : b.ce = true) :
    (f.step b vblStart).strideWords =
      if b.sel && !f.ack && (b.write && atPitch b) then low12 b
      else f.strideWords := by
  unfold File.step
  cases hTaken : b.sel && !f.ack with
  | false => simp [hReset, hCe, setStatus]
  | true =>
      simp only [hReset, hCe, Bool.not_true,
        Bool.false_eq_true, if_false, if_true, Bool.true_and,
        access_strideWords]
      rfl

/- A read of the pitch returns it. -/
theorem step_rdata
    (hReset : b.nreset = true)
    (hCe : b.ce = true)
    (hTaken : (b.sel && !f.ack) = true)
    (hWrite : b.write = false)
    (hPitch : atPitch b = true) :
    (f.step b vblStart).rdata =
      f.strideWords.setWidth 32 := by
  unfold File.step
  simp only [hReset, hCe, hTaken, Bool.not_true,
    Bool.false_eq_true, if_false, if_true]
  exact access_rdata _ hWrite hPitch

end Dafb
