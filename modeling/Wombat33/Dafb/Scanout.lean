import Mathlib.Algebra.Group.Nat.Defs
import Wombat33.Clocked.Run
import Wombat33.Dafb.Scan

/-
  Scanout shows the frame buffer.

  The picture is what the frame buffer says: a row is
  `stride` bytes after the one before it, and a pixel is a
  field of its byte, the leftmost one highest.  From the
  second frame on the scanout shows the picture, one clock
  behind its counters.

  Key definitions include:
    * `pixelAddr`, `pixelIndex`
    * `Shows`

  Key theorems include:
    * `clutIdx_of_word`
    * `shows_step`
    * `scanout_exact`
-/

------------------------------------------------------------
-- The Picture
------------------------------------------------------------

namespace Dafb

variable (m : BitVec 20 → BitVec 32) (r : Regs)

/- Bits of a pixel: 1, 2, 4 or 8. -/
def bpp (mode : BitVec 3) : Nat := 2 ^ mode.toNat

/- The byte that holds pixel `x` of row `y`. -/
def pixelAddr (x y : Nat) : BitVec 22 :=
  r.fbBase.setWidth 22 + BitVec.ofNat 22 (y * r.stride.toNat) +
    BitVec.ofNat 22 (x * bpp r.mode / 8)

/- The frame buffer's bytes; the first of a word is highest. -/
def vramByte (a : BitVec 22) : Byte :=
  Lanes.byte (3 - (a.extractLsb' 0 2).toNat)
    (m (a.extractLsb' 2 20))

/- The palette entry pixel `x` of row `y` selects. -/
def pixelIndex (x y : Nat) : Byte :=
  ((vramByte m (pixelAddr r x y)).extractLsb'
    (8 - bpp r.mode - x * bpp r.mode % 8)
    (bpp r.mode)).setWidth 8

/- The picture in the window, and black around it. -/
def picture (x y : Nat) : Byte × Byte × Byte :=
  if x < 640 ∧ y < 480 then
    (r.palR (pixelIndex m r x y), r.palG (pixelIndex m r x y),
      r.palB (pixelIndex m r x y))
  else (0#8, 0#8, 0#8)

def rgb (s : Scan) : Byte × Byte × Byte :=
  (s.outR, s.outG, s.outB)

/- Reset, then `n` pixel clocks with nothing reprogrammed. -/
def scanned (s : Scan) (n : Nat) : Scan :=
  Clocked.run step
    (step s { nresetVid := false, regs := r, vram := m })
    (List.replicate n { regs := r, vram := m })

end Dafb

------------------------------------------------------------
-- Words of a Row
------------------------------------------------------------

namespace Dafb

variable (m : BitVec 20 → BitVec 32) (r : Regs)

/- The address of word `j` of row `y`, and the word. -/
def wordAddr (y j : Nat) : BitVec 22 :=
  r.fbBase.setWidth 22 + BitVec.ofNat 22 (y * r.stride.toNat) +
    BitVec.ofNat 22 (4 * j)

def rowWord (y j : Nat) : BitVec 32 :=
  m ((wordAddr r y j).extractLsb' 2 20)

theorem depth_cases {mode : BitVec 3} (hDepth : mode.toNat < 4) :
    mode = 0#3 ∨ mode = 1#3 ∨ mode = 2#3 ∨ mode = 3#3 := by
  revert mode
  decide

/- A word is eight pixels of four bits, or the like. -/
theorem bpp_pixPerWord
    {mode : BitVec 3} (hDepth : mode.toNat < 4) :
    bpp mode * pixPerWord mode = 32 ∧ 4 ≤ pixPerWord mode ∧
      640 % pixPerWord mode = 0 := by
  rcases depth_cases hDepth with h | h | h | h <;>
    subst h <;> decide

/- The low bits over zeros are a shift. -/
theorem append_zero_eq_shift {n k : Nat} (w : BitVec (n + k)) :
    w.extractLsb' 0 n ++ 0#k = w <<< k := by
  apply BitVec.eq_of_getLsbD_eq
  intro i hi
  rw [BitVec.getLsbD_append, BitVec.getLsbD_shiftLeft]
  by_cases hLow : i < k
  · simp [hLow]
  · have hIndex : i - k < n := by omega
    simp [hLow, hi, hIndex]

/- Taking the leftmost pixel off is a shift by its bits. -/
theorem shiftOut_eq
    {mode : BitVec 3} (hDepth : mode.toNat < 4)
    (w : BitVec 32) :
    shiftOut mode w = w <<< (bpp mode) := by
  rcases depth_cases hDepth with h | h | h | h
  · subst h
    exact @append_zero_eq_shift 31 1 w
  · subst h
    exact @append_zero_eq_shift 30 2 w
  · subst h
    exact @append_zero_eq_shift 28 4 w
  · subst h
    exact @append_zero_eq_shift 24 8 w

theorem zero_append_eq_setWidth {n k : Nat} (v : BitVec k) :
    0#n ++ v = v.setWidth (n + k) := by
  apply BitVec.eq_of_getLsbD_eq
  intro i hi
  rw [BitVec.getLsbD_append, BitVec.getLsbD_setWidth]
  by_cases hLow : i < k
  · simp [hLow, hi]
  · simp [hLow, BitVec.getLsbD_of_ge v i (by omega)]

/- The leftmost pixel is the top bits. -/
theorem clutIdx_eq
    {mode : BitVec 3} (hDepth : mode.toNat < 4)
    (w : BitVec 32) :
    clutIdx mode w =
      (w.extractLsb' (32 - bpp mode) (bpp mode)).setWidth 8 := by
  rcases depth_cases hDepth with h | h | h | h
  · subst h
    exact @zero_append_eq_setWidth 7 1 _
  · subst h
    exact @zero_append_eq_setWidth 6 2 _
  · subst h
    exact @zero_append_eq_setWidth 4 4 _
  · subst h
    exact (BitVec.setWidth_eq _).symm

/- The base and the stride are longword addresses. -/
theorem fbBase_aligned : r.fbBase.toNat % 4 = 0 := by
  have hLow : r.fbBase.toNat =
      (r.baseHi ++ r.baseLo).toNat * 2 ^ 5 := by
    simp only [Regs.fbBase, BitVec.toNat_append,
      BitVec.toNat_zero, Nat.or_zero, Nat.shiftLeft_eq]
  omega

theorem stride_aligned : r.stride.toNat % 4 = 0 := by
  have hLow : r.stride.toNat = r.strideWords.toNat * 2 ^ 2 := by
    simp only [Regs.stride, BitVec.toNat_append,
      BitVec.toNat_zero, Nat.or_zero, Nat.shiftLeft_eq]
  omega

/- Words of a row lie on longword addresses. -/
theorem wordAddr_aligned (y j : Nat) :
    (wordAddr r y j).toNat % 4 = 0 := by
  have hBase := fbBase_aligned r
  have hStride := stride_aligned r
  have hRow : y * r.stride.toNat % 4 = 0 := by
    rw [Nat.mul_mod, hStride]
    rfl
  simp only [wordAddr, BitVec.toNat_add, BitVec.toNat_ofNat,
    BitVec.toNat_setWidth]
  omega

/- A pixel's byte lies in its word. -/
theorem pixelAddr_eq
    {x y j k : Nat}
    (hDepth : r.mode.toNat < 4)
    (hWord : x = pixPerWord r.mode * j + k)
    (hRest : k < pixPerWord r.mode) :
    (pixelAddr r x y).extractLsb' 2 20 =
        (wordAddr r y j).extractLsb' 2 20 ∧
      ((pixelAddr r x y).extractLsb' 0 2).toNat =
        k * bpp r.mode / 8 := by
  rcases bpp_pixPerWord hDepth with ⟨hFull, -, -⟩
  have hBits : x * bpp r.mode = 32 * j + k * bpp r.mode := by
    rw [hWord, Nat.add_mul, Nat.mul_right_comm,
      Nat.mul_comm _ (bpp r.mode), hFull]
  have hByte : k * bpp r.mode < 32 := by
    rw [← hFull, Nat.mul_comm (bpp r.mode)]
    exact Nat.mul_lt_mul_of_pos_right hRest
      (Nat.two_pow_pos _)
  have hOffset : x * bpp r.mode / 8 =
      4 * j + k * bpp r.mode / 8 := by
    omega
  have hAligned := wordAddr_aligned r y j
  have hSum : (pixelAddr r x y).toNat =
      (wordAddr r y j).toNat + k * bpp r.mode / 8 := by
    simp only [wordAddr, BitVec.toNat_add, BitVec.toNat_ofNat,
      BitVec.toNat_setWidth] at hAligned
    simp only [wordAddr, pixelAddr, hOffset, BitVec.toNat_add,
      BitVec.toNat_ofNat, BitVec.toNat_setWidth]
    omega
  constructor
  · apply BitVec.eq_of_toNat_eq
    simp only [BitVec.extractLsb'_toNat,
      Nat.shiftRight_eq_div_pow, hSum]
    omega
  · simp only [BitVec.extractLsb'_toNat,
      Nat.shiftRight_eq_div_pow, hSum]
    omega

/- A pixel's field of its byte is its field of the word. -/
theorem field_of_byte
    {mode : BitVec 3} {x j k : Nat} {w : BitVec 32}
    (hDepth : mode.toNat < 4)
    (hWord : x = pixPerWord mode * j + k)
    (hRest : k < pixPerWord mode) :
    (w <<< (bpp mode * k)).extractLsb' (32 - bpp mode)
        (bpp mode) =
      (Lanes.byte (3 - k * bpp mode / 8) w).extractLsb'
        (8 - bpp mode - x * bpp mode % 8) (bpp mode) := by
  apply BitVec.eq_of_getLsbD_eq
  intro i hi
  simp only [Lanes.byte, BitVec.getLsbD_extractLsb',
    BitVec.getLsbD_shiftLeft, hi, decide_true, Bool.true_and]
  have hPlace :
      8 - bpp mode - x * bpp mode % 8 + i < 8 ∧
        32 - bpp mode + i < 32 ∧
        ¬ 32 - bpp mode + i < bpp mode * k ∧
        32 - bpp mode + i - bpp mode * k =
          8 * (3 - k * bpp mode / 8) +
            (8 - bpp mode - x * bpp mode % 8 + i) := by
    rcases depth_cases hDepth with h | h | h | h <;>
      subst h <;> simp [bpp, pixPerWord] at hi hWord hRest ⊢ <;>
      omega
  rcases hPlace with ⟨hByte, hTop, hAbove, hSame⟩
  simp [hByte, hTop, hAbove, hSame]

/- The leftmost pixel of a word shifted `k` times. -/
theorem clutIdx_of_word
    {x y j k : Nat}
    (hDepth : r.mode.toNat < 4)
    (hWord : x = pixPerWord r.mode * j + k)
    (hRest : k < pixPerWord r.mode) :
    clutIdx r.mode (rowWord m r y j <<< (bpp r.mode * k)) =
      pixelIndex m r x y := by
  rcases pixelAddr_eq r (y := y) hDepth hWord hRest with
    ⟨hAddr, hLane⟩
  rw [clutIdx_eq hDepth]
  unfold pixelIndex vramByte rowWord
  rw [hAddr, hLane, field_of_byte hDepth hWord hRest]

end Dafb

------------------------------------------------------------
-- The Invariant
------------------------------------------------------------

namespace Dafb

variable (m : BitVec 20 → BitVec 32) (r : Regs)

/- The programmed values have come over. -/
structure Synced (s : Scan) : Prop where
  baseMeta : s.fbBaseMeta = r.fbBase
  base : s.fbBaseV = r.fbBase
  strideMeta : s.strideMeta = r.stride
  stride : s.strideV = r.stride
  modeMeta : s.modeMeta = r.mode
  mode : s.modeV = r.mode

/-
  Pixel `k` of word `j` of row `y` is next.  The word after
  it is asked for as the first pixel leaves, and is there two
  pixels later.
-/
structure PixelReady (s : Scan) (y j k : Nat) : Prop where
  fresh : k = 0 → s.shcnt = 0 ∧ s.fetchWord = rowWord m r y j ∧
    s.fetchAddr = wordAddr r y j ∧ s.fpipe = 0#2
  shifted : k ≠ 0 → s.shcnt = pixPerWord r.mode - k ∧
    s.shreg = rowWord m r y j <<< (bpp r.mode * k) ∧
    s.fetchAddr = wordAddr r y (j + 1)
  asked : k = 1 → s.fpipe = 1#2
  coming : k = 2 → s.fpipe = 2#2 ∧
    s.vidRdata = rowWord m r y (j + 1)
  come : 3 ≤ k → s.fpipe = 0#2 ∧
    s.fetchWord = rowWord m r y (j + 1)

/- The row primed at the end of line `v`. -/
def nextRow (v : Nat) : Option Nat :=
  if v = 524 then some 0
  else if v < 479 then some (v + 1)
  else none

/- The scanout is in step with the picture. -/
structure Shows (s : Scan) : Prop where
  synced : Synced r s
  hBound : s.hcnt < 800
  vBound : s.vcnt < 525
  base : s.vcnt < 480 → s.lineBaseNext =
    BitVec.ofNat 22 ((s.vcnt + 1) * r.stride.toNat)
  pixel : s.hcnt < 640 → s.vcnt < 480 →
    PixelReady m r s s.vcnt (s.hcnt / pixPerWord r.mode)
      (s.hcnt % pixPerWord r.mode)
  asked : s.hcnt = 798 → ∀ y, nextRow s.vcnt = some y →
    s.fpipe = 1#2 ∧ s.fetchAddr = wordAddr r y 0 ∧ s.shcnt = 0
  coming : s.hcnt = 799 → ∀ y, nextRow s.vcnt = some y →
    s.fpipe = 2#2 ∧ s.vidRdata = rowWord m r y 0 ∧
      s.fetchAddr = wordAddr r y 0 ∧ s.shcnt = 0

end Dafb

------------------------------------------------------------
-- One Pixel Clock
------------------------------------------------------------

namespace Dafb

variable {m : BitVec 20 → BitVec 32} {r : Regs} {s : Scan}

/- A pixel clock with nothing reprogrammed. -/
abbrev clock (m : BitVec 20 → BitVec 32) (r : Regs)
    (s : Scan) : Scan :=
  step s { regs := r, vram := m }

/- The registers as the line arms find them. -/
def before (s : Scan) : Scan :=
  fetchPipe s (syncs s (counters s s))

/- What the counters and the fetch pipe leave. -/
theorem before_toLine (s : Scan) :
    (before s).toLine =
      { s.toLine with
        hcnt := if s.hcnt = 799 then 0 else (s.hcnt + 1) % 1024
        vcnt :=
          if s.hcnt = 799 then
            (if s.vcnt = 524 then 0 else (s.vcnt + 1) % 1024)
          else s.vcnt
        fpipe := s.fpipe.extractLsb' 0 1 ++ 0#1
        fetchWord :=
          if s.fpipe.getLsbD 1 then s.vidRdata
          else s.fetchWord } := by
  unfold before fetchPipe syncs counters
  by_cases hLast : s.hcnt = 799 <;> simp [hLast]

/- The output and the crossings leave the line alone. -/
theorem clock_toLine :
    (clock m r s).toLine = (lineArms s (before s)).toLine := by
  have hOut : ∀ n, (output s { regs := r, vram := m } n).toLine =
      n.toLine := by
    intro n
    unfold output
    split <;> rfl
  simp [clock, step, crossings, hOut, before]

theorem clock_toCrossing :
    (clock m r s).toCrossing =
      { fbBaseMeta := r.fbBase, fbBaseV := s.fbBaseMeta
        strideMeta := r.stride, strideV := s.strideMeta
        modeMeta := r.mode, modeV := s.modeMeta
        vidRdata := m (vidAddr s) } := by
  simp [clock, step, crossings]

/- The output shows the pixel on top of the current word. -/
theorem clock_rgb :
    rgb (clock m r s) =
      if s.hcnt < 640 ∧ s.vcnt < 480 then
        (r.palR (clutIdx s.modeV (cur s)),
          r.palG (clutIdx s.modeV (cur s)),
          r.palB (clutIdx s.modeV (cur s)))
      else (0#8, 0#8, 0#8) := by
  by_cases hIn : s.hcnt < 640 ∧ s.vcnt < 480
  · simp [rgb, clock, step, crossings, output, hactive,
      vactive, hIn]
  · rw [if_neg hIn]
    have hOut : (hactive s && vactive s) = false := by
      simpa [hactive, vactive] using hIn
    simp [rgb, clock, step, crossings, output, hOut]

/- The line arms, one for each part of a line. -/
theorem lineArms_of_prime
    {n : Scan} (hPrime : s.hcnt = 797) :
    lineArms s n = prime s n := by
  simp [lineArms, hPrime]

theorem lineArms_of_last
    {n : Scan} (hLast : s.hcnt = 799) :
    lineArms s n = lineBase s n := by
  simp [lineArms, hLast]

theorem lineArms_of_active
    {n : Scan} (hAct : s.hcnt < 640) (vAct : s.vcnt < 480) :
    lineArms s n = shiftPixel s n := by
  have hPrime : s.hcnt ≠ 797 := by omega
  have hLast : s.hcnt ≠ 799 := by omega
  simp [lineArms, hPrime, hLast, hactive, vactive, hAct, vAct]

theorem lineArms_of_blank
    {n : Scan}
    (hPrime : s.hcnt ≠ 797)
    (hLast : s.hcnt ≠ 799)
    (hOut : ¬ (s.hcnt < 640 ∧ s.vcnt < 480)) :
    lineArms s n = n := by
  have hInactive : (hactive s && vactive s) = false := by
    simpa [hactive, vactive] using hOut
  simp [lineArms, hPrime, hLast, hInactive]

end Dafb

------------------------------------------------------------
-- A Line and the Next
------------------------------------------------------------

namespace Dafb

variable {m : BitVec 20 → BitVec 32} {r : Regs} {s : Scan}

theorem synced_clock (hSynced : Synced r s) :
    Synced r (clock m r s) := by
  have hCross := @clock_toCrossing m r s
  constructor <;> simp only [hCross]
  · exact hSynced.baseMeta
  · exact hSynced.strideMeta
  · exact hSynced.modeMeta

/- The next pixel is the next of the word, or a word's first. -/
theorem next_pixel (h : Nat) {p : Nat} (hPos : 0 < p) :
    (h % p + 1 < p ∧ (h + 1) / p = h / p ∧
        (h + 1) % p = h % p + 1) ∨
      (h % p + 1 = p ∧ (h + 1) / p = h / p + 1 ∧
        (h + 1) % p = 0) := by
  have hLt := Nat.mod_lt h hPos
  have hDiv := Nat.div_add_mod h p
  by_cases hMore : h % p + 1 < p
  · left
    have hSplit : h + 1 = h % p + 1 + p * (h / p) := by omega
    refine ⟨hMore, ?_, ?_⟩
    · rw [hSplit, Nat.add_mul_div_left _ _ hPos,
        Nat.div_eq_of_lt hMore, Nat.zero_add]
    · rw [hSplit, Nat.add_mul_mod_self_left,
        Nat.mod_eq_of_lt hMore]
  · right
    have hSplit : h + 1 = p * (h / p + 1) := by
      rw [Nat.mul_add]
      omega
    refine ⟨by omega, ?_, ?_⟩
    · rw [hSplit, Nat.mul_div_cancel_left _ hPos]
    · rw [hSplit, Nat.mul_mod_right]

theorem wordAddr_succ (y j : Nat) :
    wordAddr r y j + 4#22 = wordAddr r y (j + 1) := by
  unfold wordAddr
  rw [Nat.mul_add, BitVec.ofNat_add, ← BitVec.add_assoc]

/- The word the current pixel lies in, shifted up to it. -/
theorem cur_of_ready
    {y j k : Nat}
    (hReady : PixelReady m r s y j k)
    (hRest : k < pixPerWord r.mode) :
    cur s = rowWord m r y j <<< (bpp r.mode * k) := by
  unfold cur
  by_cases hZero : k = 0
  · rcases hReady.fresh hZero with ⟨hCount, hWord, -⟩
    simp [hCount, hWord, hZero]
  · rcases hReady.shifted hZero with ⟨hCount, hShreg, -⟩
    have hMore : s.shcnt ≠ 0 := by omega
    simp [hMore, hShreg]

/- The first pixel of a word: it is taken up, and one asked. -/
theorem clock_takeUp
    (hAct : s.hcnt < 640)
    (vAct : s.vcnt < 480)
    (hCount : s.shcnt = 0) :
    (clock m r s).shreg = shiftOut s.modeV (cur s) ∧
      (clock m r s).shcnt = pixPerWord s.modeV - 1 ∧
      (clock m r s).fetchAddr = s.fetchAddr + 4#22 ∧
      (clock m r s).fpipe = 1#2 := by
  rw [clock_toLine, lineArms_of_active hAct vAct]
  simp [shiftPixel, hCount]

/- The other pixels: the word is shifted, the pipe goes on. -/
theorem clock_shift
    (hAct : s.hcnt < 640)
    (vAct : s.vcnt < 480)
    (hCount : s.shcnt ≠ 0) :
    (clock m r s).shreg = shiftOut s.modeV (cur s) ∧
      (clock m r s).shcnt = s.shcnt - 1 ∧
      (clock m r s).fetchAddr = s.fetchAddr ∧
      (clock m r s).fpipe = s.fpipe.extractLsb' 0 1 ++ 0#1 ∧
      (clock m r s).fetchWord =
        if s.fpipe.getLsbD 1 then s.vidRdata
        else s.fetchWord := by
  rw [clock_toLine, lineArms_of_active hAct vAct]
  simp [shiftPixel, hCount, before_toLine, cur]

/- Within a word. -/
theorem pixelReady_same
    {y j k : Nat}
    (hDepth : r.mode.toNat < 4)
    (hSynced : Synced r s)
    (hReady : PixelReady m r s y j k)
    (hAct : s.hcnt < 640)
    (vAct : s.vcnt < 480)
    (hMore : k + 1 < pixPerWord r.mode) :
    PixelReady m r (clock m r s) y j (k + 1) := by
  have hCur := cur_of_ready hReady (by omega)
  have hShift : shiftOut s.modeV (cur s) =
      rowWord m r y j <<< (bpp r.mode * (k + 1)) := by
    rw [hSynced.mode, shiftOut_eq hDepth, hCur,
      ← BitVec.shiftLeft_add, Nat.mul_add, Nat.mul_one]
  have hRead : (clock m r s).vidRdata = m (vidAddr s) := by
    rw [clock_toCrossing]
  by_cases hZero : k = 0
  · rcases hReady.fresh hZero with ⟨hCount, -, hAddr, -⟩
    rcases @clock_takeUp m r s hAct vAct hCount with
      ⟨hShreg, hNext, hFetch, hPipe⟩
    exact {
      fresh := by omega
      shifted := fun _ => ⟨by rw [hNext, hSynced.mode, hZero],
        hShreg.trans hShift,
        by rw [hFetch, hAddr, wordAddr_succ]⟩
      asked := fun _ => hPipe
      coming := by omega
      come := by omega }
  · rcases hReady.shifted hZero with ⟨hCount, -, hAddr⟩
    rcases @clock_shift m r s hAct vAct (by omega) with
      ⟨hShreg, hNext, hFetch, hPipe, hWord⟩
    exact {
      fresh := by omega
      shifted := fun _ => ⟨by omega, hShreg.trans hShift,
        hFetch.trans hAddr⟩
      asked := by omega
      coming := by
        intro hTwo
        rw [hPipe, hReady.asked (by omega), hRead, vidAddr,
          hAddr]
        exact ⟨by decide, rfl⟩
      come := by
        intro hThree
        rw [hPipe, hWord]
        rcases Nat.lt_or_ge k 3 with hLess | hGe
        · rcases hReady.coming (by omega) with ⟨hTwo, hData⟩
          rw [hTwo, hData]
          exact ⟨by decide, rfl⟩
        · rcases hReady.come hGe with ⟨hNone, hData⟩
          rw [hNone, hData]
          exact ⟨by decide, rfl⟩ }

/- From a word's last pixel to the next word. -/
theorem pixelReady_next
    {y j k : Nat}
    (hDepth : r.mode.toNat < 4)
    (hReady : PixelReady m r s y j k)
    (hAct : s.hcnt < 640)
    (vAct : s.vcnt < 480)
    (hLast : k + 1 = pixPerWord r.mode) :
    PixelReady m r (clock m r s) y (j + 1) 0 := by
  rcases bpp_pixPerWord hDepth with ⟨-, hFour, -⟩
  rcases hReady.shifted (by omega) with ⟨hCount, -, hAddr⟩
  rcases hReady.come (by omega) with ⟨hNone, hData⟩
  rcases @clock_shift m r s hAct vAct (by omega) with
    ⟨-, hNext, hFetch, hPipe, hWord⟩
  exact {
    fresh := by
      intro _
      rw [hNext, hFetch, hPipe, hWord, hNone, hData]
      exact ⟨by omega, rfl, hAddr, by decide⟩
    shifted := fun h => absurd rfl h
    asked := by omega
    coming := by omega
    come := by omega }

theorem clock_counters :
    (clock m r s).hcnt =
        (if s.hcnt = 799 then 0 else (s.hcnt + 1) % 1024) ∧
      (clock m r s).vcnt =
        if s.hcnt = 799 then
          (if s.vcnt = 524 then 0 else (s.vcnt + 1) % 1024)
        else s.vcnt := by
  have hKept : ∀ n, (lineArms s n).hcnt = n.hcnt ∧
      (lineArms s n).vcnt = n.vcnt := by
    intro n
    unfold lineArms prime lineBase shiftPixel
    split_ifs <;> exact ⟨rfl, rfl⟩
  rw [clock_toLine, (hKept _).1, (hKept _).2, before_toLine]
  exact ⟨rfl, rfl⟩

/- A clock that does not end the line. -/
theorem clock_counters_of_not_last
    (hBound : s.hcnt < 799) :
    (clock m r s).hcnt = s.hcnt + 1 ∧
      (clock m r s).vcnt = s.vcnt := by
  rcases @clock_counters m r s with ⟨hH, hV⟩
  have hNot : s.hcnt ≠ 799 := by omega
  rw [if_neg hNot] at hH hV
  exact ⟨by omega, hV⟩

/- Through the window. -/
theorem shows_active
    (hDepth : r.mode.toNat < 4)
    (hShows : Shows m r s)
    (hAct : s.hcnt < 640)
    (vAct : s.vcnt < 480) :
    Shows m r (clock m r s) := by
  rcases bpp_pixPerWord hDepth with ⟨-, hFour, -⟩
  rcases @clock_counters_of_not_last m r s (by omega) with
    ⟨hH, hV⟩
  have hReady := hShows.pixel hAct vAct
  have hBase : (clock m r s).lineBaseNext =
      s.lineBaseNext := by
    rw [clock_toLine, lineArms_of_active hAct vAct]
    unfold shiftPixel
    split <;> rw [before_toLine]
  exact {
    synced := synced_clock hShows.synced
    hBound := by omega
    vBound := by omega
    base := by
      rw [hV, hBase]
      exact hShows.base
    pixel := by
      intro _ _
      rw [hH, hV]
      rcases next_pixel s.hcnt (p := pixPerWord r.mode)
        (by omega) with ⟨hMore, hJ, hK⟩ | ⟨hLast, hJ, hK⟩
      · rw [hJ, hK]
        exact pixelReady_same hDepth hShows.synced hReady hAct
          vAct hMore
      · rw [hJ, hK]
        exact pixelReady_next hDepth hReady hAct vAct hLast
    asked := by omega
    coming := by omega }

/- Through the blank, and the clock after the prime. -/
theorem shows_blank
    (hShows : Shows m r s)
    (hOut : ¬ (s.hcnt < 640 ∧ s.vcnt < 480))
    (hPrime : s.hcnt ≠ 797)
    (hLast : s.hcnt ≠ 799) :
    Shows m r (clock m r s) := by
  have hBound := hShows.hBound
  have vBound := hShows.vBound
  rcases @clock_counters_of_not_last m r s (by omega) with
    ⟨hH, hV⟩
  have hLine : (clock m r s).toLine = (before s).toLine := by
    rw [clock_toLine, lineArms_of_blank hPrime hLast hOut]
  exact {
    synced := synced_clock hShows.synced
    hBound := by omega
    vBound := by omega
    base := by
      rw [hV, hLine, before_toLine]
      exact hShows.base
    pixel := by
      intro hAct vAct
      rw [hH] at hAct
      rw [hV] at vAct
      exact absurd ⟨by omega, vAct⟩ hOut
    asked := by omega
    coming := by
      intro hNow y hRow
      rw [hV] at hRow
      rcases hShows.asked (by omega) y hRow with
        ⟨hPipe, hAddr, hCount⟩
      have hRead : (clock m r s).vidRdata = m (vidAddr s) := by
        rw [clock_toCrossing]
      rw [hRead, hLine, before_toLine, vidAddr, hAddr]
      exact ⟨by simp [hPipe], rfl, rfl, hCount⟩ }

/- The row primed, as the source decides it. -/
theorem primed_row
    {y : Nat}
    (hSynced : Synced r s)
    (hBase : s.vcnt < 480 → s.lineBaseNext =
      BitVec.ofNat 22 ((s.vcnt + 1) * r.stride.toNat))
    (hRow : nextRow s.vcnt = some y) :
    primeNext s = true ∧
      (if s.vcnt == 524 then s.fbBaseV.setWidth 22
        else s.fbBaseV.setWidth 22 + s.lineBaseNext) =
        wordAddr r y 0 := by
  unfold nextRow at hRow
  by_cases hFrame : s.vcnt = 524
  · simp only [hFrame, if_true, Option.some.injEq] at hRow
    simp [primeNext, hFrame, ← hRow, wordAddr, hSynced.base]
  · simp only [hFrame, if_false] at hRow
    by_cases hInside : s.vcnt < 479
    · simp only [hInside, if_true, Option.some.injEq] at hRow
      rw [← hRow]
      simp [primeNext, hInside, hFrame, wordAddr, hSynced.base,
        hBase (by omega)]
    · simp [hInside] at hRow

/- Three clocks before the line. -/
theorem shows_prime
    (hShows : Shows m r s)
    (hPrime : s.hcnt = 797) :
    Shows m r (clock m r s) := by
  have vBound := hShows.vBound
  rcases @clock_counters_of_not_last m r s (by omega) with
    ⟨hH, hV⟩
  have hLine : (clock m r s).toLine =
      (prime s (before s)).toLine := by
    rw [clock_toLine, lineArms_of_prime hPrime]
  exact {
    synced := synced_clock hShows.synced
    hBound := by omega
    vBound := by omega
    base := by
      have hKept : (prime s (before s)).lineBaseNext =
          s.lineBaseNext := by
        unfold prime
        split <;> rw [before_toLine]
      rw [hV, hLine, hKept]
      exact hShows.base
    pixel := by omega
    asked := by
      intro _ y hRow
      rw [hV] at hRow
      rcases primed_row hShows.synced hShows.base hRow with
        ⟨hGo, hAddr⟩
      rw [hLine, prime, if_pos hGo]
      exact ⟨rfl, hAddr, rfl⟩
    coming := by omega }

/- From a line to the next. -/
theorem shows_last
    (hShows : Shows m r s)
    (hLast : s.hcnt = 799) :
    Shows m r (clock m r s) := by
  have vBound := hShows.vBound
  have hSynced := hShows.synced
  rcases @clock_counters m r s with ⟨hH, hV⟩
  rw [if_pos hLast] at hH hV
  have hLine : (clock m r s).toLine =
      (lineBase s (before s)).toLine := by
    rw [clock_toLine, lineArms_of_last hLast]
  have hKept : (lineBase s (before s)).toLine =
      { (before s).toLine with
        lineBaseNext :=
          (lineBase s (before s)).lineBaseNext } := by
    unfold lineBase
    split
    · rfl
    · split <;> rfl
  have hStride : s.strideV.setWidth 22 =
      BitVec.ofNat 22 r.stride.toNat := by
    rw [hSynced.stride, BitVec.ofNat_toNat]
  exact {
    synced := synced_clock hSynced
    hBound := by omega
    vBound := by
      rw [hV]
      split <;> omega
    base := by
      intro vAct
      rw [hV] at vAct ⊢
      rw [hLine]
      by_cases hFrame : s.vcnt = 524
      · simp [lineBase, hFrame, hStride]
      · rw [if_neg hFrame] at vAct ⊢
        have hIn : s.vcnt < 480 := by omega
        have hWrap : (s.vcnt + 1) % 1024 = s.vcnt + 1 := by
          omega
        simp only [lineBase, beq_iff_eq, hFrame, if_false, hIn,
          if_true, hShows.base hIn, hStride, hWrap]
        rw [← BitVec.ofNat_add, ← Nat.succ_mul]
    pixel := by
      intro _ vAct
      have hRow : nextRow s.vcnt = some (clock m r s).vcnt := by
        rw [hV] at vAct ⊢
        unfold nextRow
        by_cases hFrame : s.vcnt = 524
        · simp [hFrame]
        · rw [if_neg hFrame] at vAct ⊢
          have hIn : s.vcnt < 479 := by omega
          have hWrap : (s.vcnt + 1) % 1024 = s.vcnt + 1 := by
            omega
          simp [hFrame, hIn, hWrap]
      rcases hShows.coming hLast _ hRow with
        ⟨hPipe, hData, hAddr, hCount⟩
      have hNext : (clock m r s).shcnt = s.shcnt ∧
          (clock m r s).fetchWord = s.vidRdata ∧
          (clock m r s).fetchAddr = s.fetchAddr ∧
          (clock m r s).fpipe = 0#2 := by
        rw [hLine, hKept, before_toLine]
        exact ⟨rfl, by simp [hPipe], rfl, by simp [hPipe]⟩
      rcases hNext with ⟨hShcnt, hWord, hFetch, hIdle⟩
      rw [hH, Nat.zero_div, Nat.zero_mod]
      exact {
        fresh := fun _ => ⟨hShcnt.trans hCount,
          hWord.trans hData, hFetch.trans hAddr, hIdle⟩
        shifted := fun h => absurd rfl h
        asked := by omega
        coming := by omega
        come := by omega }
    asked := by omega
    coming := by omega }

/- The prime at the end of a frame needs nothing before it. -/
theorem shows_frame
    (hSynced : Synced r s)
    (hPrime : s.hcnt = 797)
    (hFrame : s.vcnt = 524) :
    Shows m r (clock m r s) := by
  rcases @clock_counters_of_not_last m r s (by omega) with
    ⟨hH, hV⟩
  have hLine : (clock m r s).toLine =
      (prime s (before s)).toLine := by
    rw [clock_toLine, lineArms_of_prime hPrime]
  exact {
    synced := synced_clock hSynced
    hBound := by omega
    vBound := by omega
    base := by omega
    pixel := by omega
    asked := by
      intro _ y hRow
      rw [hV] at hRow
      rcases primed_row hSynced (by omega) hRow with
        ⟨hGo, hAddr⟩
      rw [hLine, prime, if_pos hGo]
      exact ⟨rfl, hAddr, rfl⟩
    coming := by omega }

/- Every pixel clock. -/
theorem shows_step
    (hDepth : r.mode.toNat < 4)
    (hShows : Shows m r s) :
    Shows m r (clock m r s) := by
  by_cases hPrime : s.hcnt = 797
  · exact shows_prime hShows hPrime
  · by_cases hLast : s.hcnt = 799
    · exact shows_last hShows hLast
    · by_cases hIn : s.hcnt < 640 ∧ s.vcnt < 480
      · exact shows_active hDepth hShows hIn.1 hIn.2
      · exact shows_blank hShows hIn hPrime hLast

end Dafb

------------------------------------------------------------
-- From the Second Frame On
------------------------------------------------------------

namespace Dafb

variable {m : BitVec 20 → BitVec 32} {r : Regs} {s : Scan}

theorem scanned_succ (n : Nat) :
    scanned m r s (n + 1) = clock m r (scanned m r s n) := by
  unfold scanned
  rw [List.replicate_succ', Clocked.run_append]
  rfl

/- The counters count. -/
theorem scanned_counters (n : Nat) :
    (scanned m r s n).hcnt = n % 800 ∧
      (scanned m r s n).vcnt = n / 800 % 525 := by
  induction n with
  | zero =>
      simp [scanned, step, resetRegs, crossings]
  | succ n ih =>
      rcases ih with ⟨hH, hV⟩
      rcases @clock_counters m r (scanned m r s n) with
        ⟨hNextH, hNextV⟩
      rw [scanned_succ]
      rw [hH] at hNextH hNextV
      rw [hV] at hNextV
      rw [hNextH, hNextV]
      by_cases hEnd : n % 800 = 799
      · rw [if_pos hEnd, if_pos hEnd]
        by_cases hFrame : n / 800 % 525 = 524
        · rw [if_pos hFrame]
          omega
        · rw [if_neg hFrame]
          omega
      · rw [if_neg hEnd, if_neg hEnd]
        omega

/- Two clocks bring the programmed values over. -/
theorem scanned_synced (n : Nat) :
    Synced r (scanned m r s (n + 2)) := by
  rw [scanned_succ, scanned_succ]
  constructor <;> simp only [clock_toCrossing]

/- The end of the first frame primes the second. -/
theorem shows_secondFrame :
    Shows m r (scanned m r s 419998) := by
  rcases @scanned_counters m r s 419997 with ⟨hH, hV⟩
  rw [scanned_succ]
  exact shows_frame (scanned_synced 419995) hH hV

theorem shows_scanned
    (hDepth : r.mode.toNat < 4)
    (n : Nat) :
    Shows m r (scanned m r s (419998 + n)) := by
  induction n with
  | zero =>
      rw [Nat.add_zero]
      exact shows_secondFrame
  | succ n ih =>
      rw [← Nat.add_assoc, scanned_succ]
      exact shows_step hDepth ih

/-
  After the first frame that follows a reset, one clock after
  the counters reach `x` and `y` the outputs show that pixel
  of the picture, for every base, stride, depth and palette.
-/
theorem scanout_exact
    (m : BitVec 20 → BitVec 32)
    (r : Regs)
    (s : Scan)
    (n : Nat)
    (hDepth : r.mode.toNat < 4)
    (hFrame : 800 * 525 ≤ n) :
    (scanned m r s n).hcnt = n % 800 ∧
      (scanned m r s n).vcnt = n / 800 % 525 ∧
      rgb (scanned m r s (n + 1)) =
        picture m r (n % 800) (n / 800 % 525) := by
  rcases @scanned_counters m r s n with ⟨hH, hV⟩
  have hShows : Shows m r (scanned m r s n) := by
    have hSplit : n = 419998 + (n - 419998) := by omega
    rw [hSplit]
    exact shows_scanned hDepth (n - 419998)
  refine ⟨hH, hV, ?_⟩
  rw [scanned_succ, clock_rgb, hH, hV]
  unfold picture
  split
  next hIn =>
      rcases bpp_pixPerWord hDepth with ⟨-, hFour, -⟩
      have hReady := hShows.pixel (by omega) (by omega)
      rw [hH, hV] at hReady
      have hRest : n % 800 % pixPerWord r.mode <
          pixPerWord r.mode := Nat.mod_lt _ (by omega)
      have hPixel := clutIdx_of_word m r hDepth
        (Nat.div_add_mod (n % 800) (pixPerWord r.mode)).symm
        hRest (y := n / 800 % 525)
      rw [cur_of_ready hReady hRest, hShows.synced.mode,
        hPixel]
  next => rfl

/- 256 greys from the start of VRAM, 1024 bytes to the row. -/
def greys : Regs where
  baseHi := 0#12
  baseLo := 0#4
  strideWords := 256#12
  mode := 3#3
  palR := id
  palG := id
  palB := id

/- A frame buffer whose words number themselves. -/
def numbered (a : BitVec 20) : BitVec 32 := a.setWidth 32

/- Pixel 3 of row 2 of the second frame. -/
theorem scanout_exact_greys :
    (scanned numbered greys default 421603).hcnt = 3 ∧
      (scanned numbered greys default 421603).vcnt = 2 ∧
      rgb (scanned numbered greys default 421604) =
        picture numbered greys 3 2 :=
  scanout_exact numbered greys default 421603 (by decide)
    (by decide)

end Dafb
