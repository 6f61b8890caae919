import Wombat33.Dafb.Scanout
import Wombat33.Vram.Mapper

/-
  What the compaction does to the picture.

  The mapper takes a row of the picture to be a row of the
  array.  The frame buffer may begin anywhere on a multiple
  of 32 bytes, though, and a row that reaches into the last
  384 bytes of its 1024 shares them with every other row.

  Key definitions include:
    * `Visible`
    * `Compacts`

  Key theorems include:
    * `compaction_exact`
-/

------------------------------------------------------------
-- Visible Words
------------------------------------------------------------

namespace Vram

open Dafb

/- Words of a row of the picture. -/
def rowWords (r : Regs) : Nat := 640 / pixPerWord r.mode

/- Word `j` of row `y`, as the mapper sees its address. -/
def frameWord (r : Regs) (y j : Nat) : BitVec 17 :=
  ((wordAddr r y j).extractLsb' 2 20).extractLsb' 0 17

/- A word that a pixel of the picture is fetched from. -/
def Visible (r : Regs) (v : BitVec 17) : Prop :=
  ∃ y j, y < 480 ∧ j < rowWords r ∧ v = frameWord r y j

/- The frame lies inside the window of 512 KB. -/
def InWindow (r : Regs) : Prop :=
  r.fbBase.toNat + 479 * 1024 + 4 * rowWords r ≤ 524288

/- Where the array keeps a word at the programmed pitch. -/
def kept (r : Regs) : BitVec 17 → BitVec 17 :=
  vramMap (vramCompact r.stride)

/-
  Words the picture is fetched from are kept apart, inside the
  array and away from the rest of the window.  Whatever the
  machine writes where, the picture is the one that a plain
  memory of the window would have.
-/
structure Compacts (r : Regs) : Prop where
  apart : ∀ v w, Visible r v → Visible r w →
    kept r v = kept r w → v = w
  within : ∀ v, Visible r v → (kept r v).toNat < vramWords
  alone : ∀ v w, Visible r v → ¬ Visible r w →
    kept r w ≠ kept r v
  shows : ∀ (s : State) (is : List Beat),
    (∀ i ∈ is, i.stride = r.stride) →
    ∀ x y,
      picture
          ((Clocked.run (Clocked.watch State.step plainBeat)
            (s, fun v => s.word (kept r v)) is).1.scanPort
              r.stride)
          r x y =
        picture
          (fun a =>
            (Clocked.run (Clocked.watch State.step plainBeat)
              (s, fun v => s.word (kept r v)) is).2
                (a.extractLsb' 0 17))
          r x y

variable {r : Regs}

theorem rowWords_bounds (hDepth : r.mode.toNat < 4) :
    1 ≤ rowWords r ∧ rowWords r ≤ 160 := by
  unfold rowWords
  rcases depth_cases hDepth with h | h | h | h <;>
    rw [h] <;> decide

/- Where the frame lies, its addresses do not wrap. -/
theorem frameWord_toNat
    (hStride : r.stride = 1024#14)
    (hWindow : InWindow r)
    {y j : Nat}
    (hY : y < 480)
    (hJ : j < rowWords r) :
    (frameWord r y j).toNat =
      r.fbBase.toNat / 4 + y * 256 + j := by
  unfold InWindow at hWindow
  have hRow : r.stride.toNat = 1024 := by rw [hStride]; rfl
  simp only [frameWord, wordAddr, BitVec.extractLsb'_toNat,
    BitVec.toNat_add, BitVec.toNat_ofNat, BitVec.toNat_setWidth,
    Nat.shiftRight_eq_div_pow, hRow]
  omega

theorem kept_toNat
    (hStride : r.stride = 1024#14)
    (v : BitVec 17) :
    (kept r v).toNat =
      if v.toNat % 256 < 160 then
        v.toNat / 256 * 160 + v.toNat % 256
      else 81920 + (v.toNat % 256 - 160) := by
  have hCompact : vramCompact r.stride = true := by
    rw [hStride]
    rfl
  rw [kept, hCompact, vramMap_toNat]

/- Only the last 384 bytes of a row are shared. -/
theorem eq_of_kept
    (hStride : r.stride = 1024#14)
    {v w : BitVec 17}
    (hSeen : v.toNat % 256 < 160)
    (hKept : kept r w = kept r v) : w = v := by
  have hNat := congrArg BitVec.toNat hKept
  rw [kept_toNat hStride, kept_toNat hStride, if_pos hSeen]
    at hNat
  apply BitVec.eq_of_toNat_eq
  have hLt := v.isLt
  split_ifs at hNat <;> omega

/- The picture depends on its visible words only. -/
theorem picture_congr
    {m n : BitVec 20 → BitVec 32}
    (hDepth : r.mode.toNat < 4)
    (hSame : ∀ y j, y < 480 → j < rowWords r →
      m ((wordAddr r y j).extractLsb' 2 20) =
        n ((wordAddr r y j).extractLsb' 2 20))
    (x y : Nat) :
    picture m r x y = picture n r x y := by
  unfold picture
  by_cases hIn : x < 640 ∧ y < 480
  · rcases bpp_pixPerWord hDepth with ⟨-, hFour, hFull⟩
    have hPixel := pixelAddr_eq r (y := y) hDepth
      (Nat.div_add_mod x (pixPerWord r.mode)).symm
      (Nat.mod_lt x (by omega))
    have hWord : x / pixPerWord r.mode < rowWords r := by
      unfold rowWords
      exact Nat.div_lt_div_of_lt_of_dvd
        (Nat.dvd_of_mod_eq_zero hFull) hIn.1
    have hIndex : pixelIndex m r x y = pixelIndex n r x y := by
      simp only [pixelIndex, vramByte, hPixel.1,
        hSame y _ hIn.2 hWord]
    rw [if_pos hIn, if_pos hIn, hIndex]
  · rw [if_neg hIn, if_neg hIn]

end Vram

------------------------------------------------------------
-- Bases that Compact
------------------------------------------------------------

namespace Vram

open Dafb

variable {r : Regs}

/- A row that stays clear of the shared bytes. -/
theorem visible_col
    (hStride : r.stride = 1024#14)
    (hWindow : InWindow r)
    (hClear : r.fbBase.toNat % 1024 + 4 * rowWords r ≤ 640)
    {v : BitVec 17}
    (hVisible : Visible r v) :
    v.toNat % 256 < 160 := by
  rcases hVisible with ⟨y, j, hY, hJ, hWord⟩
  rw [hWord, frameWord_toNat hStride hWindow hY hJ]
  omega

theorem compacts_of_clear
    (hStride : r.stride = 1024#14)
    (hDepth : r.mode.toNat < 4)
    (hWindow : InWindow r)
    (hClear : r.fbBase.toNat % 1024 + 4 * rowWords r ≤ 640) :
    Compacts r := by
  have hAlone : Mapped.Alone (kept r) (Visible r) := by
    intro v hVisible w hKept
    exact eq_of_kept hStride
      (visible_col hStride hWindow hClear hVisible) hKept
  constructor
  · intro v w hV _ hKept
    exact (hAlone v hV w hKept.symm).symm
  · intro v _
    exact vramMap_lt _ v
  · intro v w hV hW hKept
    exact hW (hAlone v hV w hKept ▸ hV)
  · intro s is hBeats
    apply picture_congr hDepth
    intro y j hY hJ
    exact plain_run hAlone hBeats (fun _ _ => rfl) _
      ⟨y, j, hY, hJ, rfl⟩

/- Rows that reach into the shared bytes share them. -/
theorem shared_of_reaching
    (hStride : r.stride = 1024#14)
    (hDepth : r.mode.toNat < 4)
    (hWindow : InWindow r)
    (hReach : 640 < r.fbBase.toNat % 1024 + 4 * rowWords r) :
    ∃ j, j < rowWords r ∧
      frameWord r 0 j ≠ frameWord r 1 j ∧
      kept r (frameWord r 0 j) = kept r (frameWord r 1 j) := by
  have hRow := (rowWords_bounds hDepth).1
  have hAligned := fbBase_aligned r
  have hCol : ∃ j, j < rowWords r ∧
      160 ≤ (r.fbBase.toNat / 4 + j) % 256 := by
    by_cases hPast : 160 ≤ r.fbBase.toNat / 4 % 256
    · exact ⟨0, by omega, by omega⟩
    · exact ⟨160 - r.fbBase.toNat / 4 % 256, by omega, by omega⟩
  rcases hCol with ⟨j, hJ, hTail⟩
  have hFirst := frameWord_toNat hStride hWindow
    (show 0 < 480 by decide) hJ
  have hSecond := frameWord_toNat hStride hWindow
    (show 1 < 480 by decide) hJ
  refine ⟨j, hJ, ?_, ?_⟩
  · intro hSame
    have hNat := congrArg BitVec.toNat hSame
    omega
  · apply BitVec.eq_of_toNat_eq
    rw [kept_toNat hStride, kept_toNat hStride, hFirst, hSecond,
      if_neg (by omega), if_neg (by omega)]
    omega

/-
  A frame inside the window is compacted faithfully where the
  last visible byte of a row is among the first 640 of the
  1024-byte block the row begins in, and nowhere else.
-/
theorem compaction_exact
    (r : Regs)
    (hStride : r.stride = 1024#14)
    (hDepth : r.mode.toNat < 4)
    (hWindow : InWindow r) :
    Compacts r ↔
      r.fbBase.toNat % 1024 + 4 * rowWords r ≤ 640 := by
  constructor
  · intro hCompacts
    by_contra hOver
    rcases shared_of_reaching hStride hDepth hWindow
      (by omega) with ⟨j, hJ, hApart, hShared⟩
    exact hApart (hCompacts.apart _ _
      ⟨0, j, by decide, hJ, rfl⟩ ⟨1, j, by decide, hJ, rfl⟩
      hShared)
  · exact compacts_of_clear hStride hDepth hWindow

/- The base of the boot display and one 32 bytes on. -/
def displayAt (lo : BitVec 4) : Regs where
  baseHi := 8#12
  baseLo := lo
  strideWords := 256#12
  mode := 3#3
  palR := id
  palG := id
  palB := id

theorem compaction_exact_boot :
    Compacts (displayAt 0#4) ↔
      (displayAt 0#4).fbBase.toNat % 1024 +
        4 * rowWords (displayAt 0#4) ≤ 640 :=
  compaction_exact (displayAt 0#4) (by decide) (by decide)
    (by unfold InWindow; decide)

/- One step of the base register puts two pixels in one word. -/
theorem next_base_shares :
    InWindow (displayAt 1#4) ∧
      Visible (displayAt 1#4) (frameWord (displayAt 1#4) 0 152) ∧
      Visible (displayAt 1#4) (frameWord (displayAt 1#4) 1 152) ∧
      frameWord (displayAt 1#4) 0 152 ≠
        frameWord (displayAt 1#4) 1 152 ∧
      kept (displayAt 1#4) (frameWord (displayAt 1#4) 0 152) =
        kept (displayAt 1#4)
          (frameWord (displayAt 1#4) 1 152) ∧
      ¬ Compacts (displayAt 1#4) := by
  have hApart : frameWord (displayAt 1#4) 0 152 ≠
      frameWord (displayAt 1#4) 1 152 := by decide
  have hShared :
      kept (displayAt 1#4) (frameWord (displayAt 1#4) 0 152) =
        kept (displayAt 1#4)
          (frameWord (displayAt 1#4) 1 152) := by decide
  have hFirst : Visible (displayAt 1#4)
      (frameWord (displayAt 1#4) 0 152) :=
    ⟨0, 152, by decide, by decide, rfl⟩
  have hSecond : Visible (displayAt 1#4)
      (frameWord (displayAt 1#4) 1 152) :=
    ⟨1, 152, by decide, by decide, rfl⟩
  refine ⟨by unfold InWindow; decide, hFirst, hSecond, hApart,
    hShared, fun hCompacts => ?_⟩
  exact hApart (hCompacts.apart _ _ hFirst hSecond hShared)

end Vram
