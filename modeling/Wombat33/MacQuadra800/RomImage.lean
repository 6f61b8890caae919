import Wombat33.Lanes.Bytes
import Wombat33.MacQuadra800.Ddr

/-
  The ROM image a download leaves in the DDR3 memory.

  A download is a list of halfwords, each with its offset in
  the file.  What it makes of a byte image of 1 MB is stated
  on the file's own bytes; the lane mappings of the upload
  and of the read are shown to agree with it.

  Key definitions include:
    * `Halfword`, `fileStore`, `image`
    * `romCells`
    * `Carries`, `ReadsAs`

  Key theorems include:
    * `romCells_put`
    * `dataHalf_word`
    * `image_of_carries`
    * `readsAs_image`
-/

------------------------------------------------------------
-- Downloads
------------------------------------------------------------

namespace MacQuadra800

open Lanes (Mem loadWord storeLanes)

/- A halfword of the file, first byte in its low half. -/
structure Halfword where
  addr : BitVec 27
  data : BitVec 16
  deriving DecidableEq

/- The byte image with one halfword stored, modulo 1 MB. -/
def fileStore (f : Mem 18) (h : Halfword) : Mem 18 :=
  fun x =>
    if x.extractLsb' 1 19 = h.addr.extractLsb' 1 19 then
      (if x.getLsbD 0 then h.data.extractLsb' 8 8
      else h.data.extractLsb' 0 8)
    else f x

/- The byte image after a download. -/
def image (f : Mem 18) (ds : List Halfword) : Mem 18 :=
  ds.foldl fileStore f

/- How the bridge writes a halfword. -/
def busWrite (h : Halfword) : BusWrite :=
  ⟨Ddr.haddr h.addr, Ddr.hdin h.data, Ddr.hbe h.addr⟩

/- The lane of a file offset in its 64-bit word. -/
def lane (x : BitVec 20) : Nat :=
  (if x.getLsbD 2 then 4 else 0) + (3 - Lanes.offset x)

/- The bytes the DDR3 memory holds for the ROM. -/
def romCells (m : Cells) : Mem 18 :=
  fun x => m (Ddr.romWord (x.extractLsb' 3 17)) (lane x)

end MacQuadra800

------------------------------------------------------------
-- The Lanes of the Upload
------------------------------------------------------------

namespace MacQuadra800

open Lanes (Mem loadWord)

/- The ROM's words are numbered from its base. -/
theorem romWord_toNat (a : BitVec 17) :
    (Ddr.romWord a).toNat = 0x07000000 + a.toNat := by
  have hLt := a.isLt
  have hOr := Nat.two_pow_add_eq_or_of_lt
    (i := 17) (b := a.toNat) hLt 0x380
  simp only [Ddr.romWord, ddrRomBase, BitVec.toNat_or,
    BitVec.toNat_setWidth]
  rw [Nat.mod_eq_of_lt (by omega : a.toNat < 2 ^ 29)]
  simpa using hOr.symm

theorem romWord_inj {a b : BitVec 17} :
    Ddr.romWord a = Ddr.romWord b ↔ a = b := by
  constructor
  · intro hWord
    have hNat := congrArg BitVec.toNat hWord
    rw [romWord_toNat, romWord_toNat] at hNat
    exact BitVec.eq_of_toNat_eq (by omega)
  · rintro rfl
    rfl

/- A byte's place in its longword, by its address bits. -/
theorem offset_eq (x : BitVec 20) :
    Lanes.offset x =
      (if x.getLsbD 1 then 2 else 0) +
        if x.getLsbD 0 then 1 else 0 := by
  have hBits : ∀ o : BitVec 2,
      o.toNat = (if o.getLsbD 1 then 2 else 0) +
        if o.getLsbD 0 then 1 else 0 := by decide
  rw [Lanes.offset, hBits]
  simp

/- The enables pick the two lanes of the halfword. -/
theorem hbe_lane (a : BitVec 27) (x : BitVec 20) :
    (Ddr.hbe a).getLsbD (lane x) = true ↔
      x.getLsbD 1 = a.getLsbD 1 ∧
        x.getLsbD 2 = a.getLsbD 2 := by
  unfold Ddr.hbe lane
  rw [offset_eq]
  cases x.getLsbD 0 <;> cases x.getLsbD 1 <;>
    cases x.getLsbD 2 <;> cases a.getLsbD 1 <;>
    cases a.getLsbD 2 <;> decide

/- Each lane carries the byte the file has there. -/
theorem hdin_lane (d : BitVec 16) (x : BitVec 20) :
    (Ddr.hdin d).extractLsb' (8 * lane x) 8 =
      if x.getLsbD 0 then d.extractLsb' 8 8
      else d.extractLsb' 0 8 := by
  unfold Ddr.hdin Ddr.swapHalf lane
  rw [offset_eq]
  apply BitVec.eq_of_getLsbD_eq
  intro k hk
  cases x.getLsbD 0 <;> cases x.getLsbD 1 <;>
    cases x.getLsbD 2 <;>
    simp [hk] <;> grind

/- The offset of a halfword, by word and lane. -/
theorem half_eq_iff (a : BitVec 27) (x : BitVec 20) :
    x.extractLsb' 1 19 = a.extractLsb' 1 19 ↔
      x.extractLsb' 3 17 = a.extractLsb' 3 17 ∧
        x.getLsbD 1 = a.getLsbD 1 ∧
        x.getLsbD 2 = a.getLsbD 2 := by
  constructor
  · intro hHalf
    have hBit : ∀ k < 19, x.getLsbD (1 + k) =
        a.getLsbD (1 + k) := by
      intro k hk
      have hk' := congrArg (fun y => y.getLsbD k) hHalf
      simpa [hk] using hk'
    refine ⟨?_, hBit 0 (by omega), hBit 1 (by omega)⟩
    apply BitVec.eq_of_getLsbD_eq
    intro k hk
    have hk' := hBit (k + 2) (by omega)
    have hIndex : 1 + (k + 2) = 3 + k := by omega
    rw [hIndex] at hk'
    simpa [hk] using hk'
  · rintro ⟨hWord, hOne, hTwo⟩
    apply BitVec.eq_of_getLsbD_eq
    intro k hk
    by_cases hZero : k = 0
    · simpa [hZero] using hOne
    · by_cases hNext : k = 1
      · simpa [hNext] using hTwo
      · have hk' := congrArg (fun y => y.getLsbD (k - 2)) hWord
        have hIndex : 3 + (k - 2) = 1 + k := by omega
        have hIn : k - 2 < 17 := by omega
        simp only [BitVec.getLsbD_extractLsb', hIn,
          decide_true, Bool.true_and, hIndex] at hk'
        simpa [hk] using hk'

/- An upload write stores its halfword, and nothing else. -/
theorem romCells_put (m : Cells) (h : Halfword) :
    romCells (m.put (busWrite h)) =
      fileStore (romCells m) h := by
  funext x
  have hPlace :
      (Ddr.romWord (x.extractLsb' 3 17) =
          Ddr.haddr h.addr ∧
        (Ddr.hbe h.addr).getLsbD (lane x) = true) ↔
      x.extractLsb' 1 19 = h.addr.extractLsb' 1 19 := by
    rw [half_eq_iff, hbe_lane, Ddr.haddr, romWord_inj]
  simp only [romCells, Cells.put, busWrite, fileStore,
    hPlace, hdin_lane]

theorem romCells_puts (m : Cells) (ds : List Halfword) :
    romCells ((ds.map busWrite).foldl Cells.put m) =
      image (romCells m) ds := by
  induction ds generalizing m with
  | nil => rfl
  | cons h ds ih =>
      rw [List.map_cons, List.foldl_cons, ih, romCells_put]
      rfl

/- Words outside the ROM keep every byte. -/
theorem puts_outside
    {a : BitVec 29}
    (hOutside : ∀ w : BitVec 17, a ≠ Ddr.romWord w)
    (m : Cells)
    (ds : List Halfword)
    (k : Nat) :
    (ds.map busWrite).foldl Cells.put m a k = m a k := by
  induction ds generalizing m with
  | nil => rfl
  | cons h ds ih =>
      rw [List.map_cons, List.foldl_cons, ih]
      have hOther : a ≠ (busWrite h).addr :=
        hOutside (h.addr.extractLsb' 3 17)
      simp [Cells.put, hOther]

end MacQuadra800

------------------------------------------------------------
-- The Lanes of the Read
------------------------------------------------------------

namespace MacQuadra800

open Lanes (Mem loadWord)

/- Four bytes side by side, however they are put together. -/
theorem append_eq_ofBytes (b₃ b₂ b₁ b₀ : Byte) :
    b₃ ++ b₂ ++ b₁ ++ b₀ = Lanes.ofBytes b₃ b₂ b₁ b₀ := by
  rcases Lanes.byte_append b₃ b₂ b₁ b₀ with ⟨h₃, h₂, h₁, h₀⟩
  rcases Lanes.byte_ofBytes b₃ b₂ b₁ b₀ with
    ⟨k₃, k₂, k₁, k₀⟩
  apply Lanes.ext_bytes
  intro k hk
  have hCases : k = 0 ∨ k = 1 ∨ k = 2 ∨ k = 3 := by omega
  rcases hCases with rfl | rfl | rfl | rfl
  · rw [h₀, k₀]
  · rw [h₁, k₁]
  · rw [h₂, k₂]
  · rw [h₃, k₃]

/- The word and the lanes of the bytes of a longword. -/
theorem word_place (a : BitVec 18) (o : BitVec 2) :
    (a ++ o).extractLsb' 3 17 = a.extractLsb' 1 17 := by
  apply BitVec.eq_of_getLsbD_eq
  intro k hk
  have hHigh : ¬ 3 + k < 2 := by omega
  have hIndex : 3 + k - 2 = 1 + k := by omega
  simp only [BitVec.getLsbD_extractLsb',
    BitVec.getLsbD_append, hk, hHigh, hIndex, decide_true,
    Bool.true_and, if_false]

theorem lane_place (a : BitVec 18) (o : BitVec 2) :
    lane (a ++ o) =
      (if a.getLsbD 0 then 4 else 0) + (3 - o.toNat) := by
  have hOffset : Lanes.offset (a ++ o) = o.toNat := by
    rw [Lanes.offset, Lanes.low_append]
  have hTwo : (a ++ o).getLsbD 2 = a.getLsbD 0 := by
    rw [BitVec.getLsbD_append, if_neg (by omega)]
  rw [lane, hOffset, hTwo]

/- Half of a word is a longword of the file, big-endian. -/
theorem half_eq_loadWord (m : Cells) (a : BitVec 18) :
    m.half (Ddr.romWord (a.extractLsb' 1 17))
        (if a.getLsbD 0 then 4 else 0) =
      loadWord (romCells m) a := by
  rw [Cells.half, append_eq_ofBytes, loadWord]
  simp only [romCells, word_place, lane_place]
  rfl

/- The longword the bridge picks from the returned word. -/
theorem dataHalf_word
    {s : Ddr} {r : Reply} {m : Cells} {a : BitVec 18}
    (hHi : s.ddrRdHi = a.getLsbD 0)
    (hDout : r.dout =
      m.word (Ddr.romWord (a.extractLsb' 1 17))) :
    s.dataHalf r = loadWord (romCells m) a := by
  rw [← half_eq_loadWord, Ddr.dataHalf, hHi, hDout,
    Cells.word, Lanes.high_append, Lanes.low_append]
  cases a.getLsbD 0 <;> rfl

end MacQuadra800

------------------------------------------------------------
-- Files
------------------------------------------------------------

namespace MacQuadra800

open Lanes (Mem loadWord)

/-
  The download is that of a file: its halfwords in order, the
  last one padded with any byte if the length is odd.
-/
structure Carries (F : List Byte) (ds : List Halfword) :
    Prop where
  fits : F.length ≤ 0x100000
  count : ds.length = (F.length + 1) / 2
  addr : ∀ k, ∀ h ∈ ds[k]?, h.addr = BitVec.ofNat 27 (2 * k)
  first : ∀ k, ∀ h ∈ ds[k]?,
    F[2 * k]? = some (h.data.extractLsb' 0 8)
  second : ∀ k, ∀ h ∈ ds[k]?, ∀ b ∈ F[2 * k + 1]?,
    b = h.data.extractLsb' 8 8

variable {F : List Byte} {ds : List Halfword}

/- A halfword of the file holds the bytes of its offset. -/
theorem halfword_covers
    {k : Nat}
    (hk : 2 * k < 0x100000)
    (x : BitVec 20) :
    x.extractLsb' 1 19 =
        (BitVec.ofNat 27 (2 * k)).extractLsb' 1 19 ↔
      x.toNat / 2 = k := by
  have hLt := x.isLt
  rw [← BitVec.toNat_inj]
  simp only [BitVec.extractLsb'_toNat, BitVec.toNat_ofNat,
    Nat.shiftRight_eq_div_pow]
  omega

theorem odd_offset (x : BitVec 20) :
    x.getLsbD 0 = decide (x.toNat % 2 = 1) := by
  simp [BitVec.getLsbD, Nat.testBit_zero]

/- After `n` halfwords of the file: its first bytes. -/
theorem image_take
    (hCarries : Carries F ds)
    (f : Mem 18)
    (x : BitVec 20)
    (n : Nat)
    (hn : n ≤ ds.length)
    (hx : x.toNat < F.length) :
    image f (ds.take n) x =
      if x.toNat / 2 < n then F[x.toNat] else f x := by
  have hFits := hCarries.fits
  have hCount := hCarries.count
  induction n with
  | zero => simp [image]
  | succ n ih =>
      have hIn : n < ds.length := hn
      have hGet : ds[n]? = some ds[n] :=
        List.getElem?_eq_getElem hIn
      have hAddr := hCarries.addr n ds[n] hGet
      have hCovers := halfword_covers
        (k := n) (by omega) x
      rw [List.take_add_one, hGet, image, Option.toList_some,
        List.foldl_append, List.foldl_cons, List.foldl_nil]
      simp only [fileStore, hAddr, hCovers]
      rcases Nat.lt_trichotomy (x.toNat / 2) n with
        hBelow | hHere | hAbove
      · have hOther : x.toNat / 2 ≠ n := by omega
        have hMore : x.toNat / 2 < n + 1 := by omega
        rw [if_neg hOther, if_pos hMore]
        have hSame := ih (by omega)
        rw [if_pos hBelow] at hSame
        exact hSame
      · have hMore : x.toNat / 2 < n + 1 := by omega
        rw [if_pos hHere, if_pos hMore, odd_offset]
        rcases Nat.mod_two_eq_zero_or_one x.toNat with
          hEven | hOdd
        · have hIndex : 2 * n = x.toNat := by omega
          have hFirst := hCarries.first n ds[n] hGet
          rw [hIndex, List.getElem?_eq_getElem hx,
            Option.some.injEq] at hFirst
          simp [hEven, hFirst]
        · have hIndex : 2 * n + 1 = x.toNat := by omega
          have hSecond := hCarries.second n ds[n] hGet
            F[x.toNat] (by
              rw [hIndex]
              exact List.getElem?_eq_getElem hx)
          simp [hOdd, hSecond]
      · have hOther : x.toNat / 2 ≠ n := by omega
        have hLess : ¬ x.toNat / 2 < n + 1 := by omega
        have hNot : ¬ x.toNat / 2 < n := by omega
        rw [if_neg hOther, if_neg hLess]
        have hSame := ih (by omega)
        rw [if_neg hNot] at hSame
        exact hSame

/- A download that ends with a file leaves its bytes. -/
theorem image_of_carries
    (hCarries : Carries F ds)
    (f : Mem 18)
    (before : List Halfword)
    (x : BitVec 20)
    (hx : x.toNat < F.length) :
    image f (before ++ ds) x = F[x.toNat] := by
  have hCount := hCarries.count
  have hAll := image_take hCarries (image f before) x
    ds.length (Nat.le_refl _) hx
  rw [List.take_length, if_pos (by omega)] at hAll
  rw [← hAll]
  exact congrFun List.foldl_append x

/- Every longword of the file reads big-endian. -/
def ReadsAs (f : Mem 18) (F : List Byte) : Prop :=
  ∀ (a : BitVec 18) (hIn : 4 * a.toNat + 3 < F.length),
    loadWord f a =
      Lanes.ofBytes F[4 * a.toNat] F[4 * a.toNat + 1]
        F[4 * a.toNat + 2] F[4 * a.toNat + 3]

theorem readsAs_image
    (hCarries : Carries F ds)
    (f : Mem 18)
    (before : List Halfword) :
    ReadsAs (image f (before ++ ds)) F := by
  intro a hIn
  have hByte : ∀ (o : BitVec 2)
      (hO : 4 * a.toNat + o.toNat < F.length),
      image f (before ++ ds) (a ++ o) =
        F[4 * a.toNat + o.toNat] := by
    intro o hO
    have hPlace : (a ++ o).toNat = 4 * a.toNat + o.toNat := by
      rw [BitVec.toNat_append,
        ← Nat.shiftLeft_add_eq_or_of_lt o.isLt,
        Nat.shiftLeft_eq]
      omega
    have hBytes := image_of_carries hCarries f before (a ++ o)
      (by omega)
    simpa [hPlace] using hBytes
  have hLast : ∀ o : BitVec 2,
      4 * a.toNat + o.toNat < F.length := by
    intro o
    have hLt := o.isLt
    omega
  rw [loadWord, hByte _ (hLast _), hByte _ (hLast _),
    hByte _ (hLast _), hByte _ (hLast _)]
  rfl

end MacQuadra800
