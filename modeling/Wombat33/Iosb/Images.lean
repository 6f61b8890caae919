import Mathlib.Tactic.SplitIfs
import Wombat33.Iosb.Core

/-
  The images of the I/O space.

  The I/O space is meant to repeat its first $40000 bytes up
  to $53FFFFFF.  Every device has a decode of its own: some
  ignore address bits 19:18 and so appear in every image of
  the lowest 16 MB, the others do not.

  Key definitions include:
    * `Device`, `device`, `register`, `target`
    * `Window`, `windows`
    * `RepeatsNext`, `RepeatsFirst`

  Key theorems include:
    * `device_of_covers`, `register_congr`
    * `images_iff`
-/

------------------------------------------------------------
-- What a Beat Selects
------------------------------------------------------------

namespace Iosb

variable (i : In)

/- The branches of the beat slave. -/
inductive Device where
  | via1
  | via2
  | regs
  | djmemc
  | asc
  | scc
  | scsi
  | sdma
  | id
  | inert
  deriving DecidableEq, Repr

/- The branch an accepted beat takes. -/
def device : Device :=
  if selVia1 i then .via1
  else if selVia2 i then .via2
  else if selRegs i then .regs
  else if selDjmemc i then .djmemc
  else if selAsc i then .asc
  else if selScc i then .scc
  else if selScsi i then .scsi
  else if selSdma i then .sdma
  else if selId i then .id
  else .inert

/- A1 of an SCC access is in the byte enables. -/
def sccA1 : Bool := !(i.be.getLsbD 3 || i.be.getLsbD 2)

/- The register of a device that the address picks. -/
def register (d : Device) : Nat :=
  match d with
  | .via1 => (rsel i).toNat
  | .via2 => (rsel i).toNat
  | .regs => (addrBits i 8 5).toNat
  | .djmemc => (addrBits i 2 4).toNat
  | .asc => (addrBits i 2 10).toNat
  | .scc => (addrBits i 2 1 ++ BitVec.ofBool (sccA1 i)).toNat
  | .scsi => (addrBits i 4 4).toNat
  | .sdma => 0
  | .id => 0
  | .inert => 0

/- The device and the register of it. -/
def target : Device × Nat := (device i, register i (device i))

/- The offset of the longword in the I/O space, in bytes. -/
def offset : Nat := 4 * i.addr.toNat

/- The same access one image further. -/
def nextImage : In := { i with addr := i.addr + 0x10000#26 }

/- The same access in the first image. -/
def firstImage : In :=
  { i with addr := i.addr &&& 0xFFFF#26 }

end Iosb

------------------------------------------------------------
-- Windows
------------------------------------------------------------

namespace Iosb

/-
  A device's window in the first image, and whether its
  decode leaves bits 19:18 out.
-/
structure Window where
  device : Device
  base : Nat
  size : Nat
  imaged : Bool
  deriving DecidableEq

def windows : List Window :=
  [⟨.via1, 0x0, 0x2000, true⟩,
    ⟨.via2, 0x2000, 0x2000, false⟩,
    ⟨.regs, 0x18000, 0x2000, false⟩,
    ⟨.djmemc, 0xE000, 0x2000, false⟩,
    ⟨.asc, 0x14000, 0x1000, false⟩,
    ⟨.scc, 0xC000, 0x2000, true⟩,
    ⟨.scsi, 0x10000, 0x100, true⟩,
    ⟨.sdma, 0x10100, 0x100, true⟩]

/- The image of the lowest 16 MB an offset lies in, mod 4. -/
def imageNo (a : Nat) : Nat := a / 0x40000 % 4

namespace Window

variable (w : Window) (a : Nat)

/- Taken modulo the image, the offset lies in the window. -/
def Covers : Prop :=
  w.base ≤ a % 0x40000 ∧ a % 0x40000 < w.base + w.size

/- The offset is decoded as this window. -/
def Decodes : Prop :=
  a < 0x1000000 ∧ w.Covers a ∧
    (w.imaged = true ∨ imageNo a = 0)

instance : Decidable (w.Covers a) := by
  unfold Covers
  infer_instance

instance : Decidable (w.Decodes a) := by
  unfold Decodes
  infer_instance

end Window

end Iosb

------------------------------------------------------------
-- The Decode
------------------------------------------------------------

namespace Iosb

variable {i : In}

/- Address bits, read off the offset. -/
theorem addrBits_eq_iff
    {lo n : Nat} {c : BitVec n} :
    (addrBits i lo n == c) = true ↔
      i.addr.toNat / 2 ^ (lo - 2) % 2 ^ n = c.toNat := by
  rw [beq_iff_eq, ← BitVec.toNat_inj, addrBits,
    BitVec.extractLsb'_toNat, Nat.shiftRight_eq_div_pow]

theorem inLow_iff : inLow i = true ↔ offset i < 0x1000000 := by
  have hLt := i.addr.isLt
  rw [inLow, addrBits_eq_iff, offset]
  simp
  omega

/- A select that leaves bits 19:18 out. -/
theorem imaged_select
    {lo n : Nat} {c : BitVec n}
    (hTop : lo + n = 18)
    (hLow : 2 ≤ lo) :
    (inLow i && (addrBits i lo n == c)) = true ↔
      offset i < 0x1000000 ∧
        offset i % 0x40000 / 2 ^ lo = c.toNat := by
  rw [Bool.and_eq_true, inLow_iff, addrBits_eq_iff]
  have hPow : 0x40000 = 2 ^ lo * 2 ^ n := by
    rw [← Nat.pow_add, hTop]
  have hFour : (2 : Nat) ^ lo = 4 * 2 ^ (lo - 2) := by
    rw [show (4 : Nat) = 2 ^ 2 from rfl, ← Nat.pow_add]
    congr 1
    omega
  have hSame : offset i % 0x40000 / 2 ^ lo =
      i.addr.toNat / 2 ^ (lo - 2) % 2 ^ n := by
    rw [hPow, Nat.mod_mul_right_div_self, hFour, offset,
      Nat.mul_div_mul_left _ _ (by omega)]
  rw [hSame]

/- A select that looks at them: its window is in image 0. -/
theorem strict_select
    {lo n : Nat} {c : BitVec n}
    (hTop : lo + n = 20)
    (hLow : 2 ≤ lo) :
    (inLow i && (addrBits i lo n == c)) = true ↔
      offset i < 0x1000000 ∧
        offset i % 0x100000 / 2 ^ lo = c.toNat := by
  rw [Bool.and_eq_true, inLow_iff, addrBits_eq_iff]
  have hPow : 0x100000 = 2 ^ lo * 2 ^ n := by
    rw [← Nat.pow_add, hTop]
  have hFour : (2 : Nat) ^ lo = 4 * 2 ^ (lo - 2) := by
    rw [show (4 : Nat) = 2 ^ 2 from rfl, ← Nat.pow_add]
    congr 1
    omega
  have hSame : offset i % 0x100000 / 2 ^ lo =
      i.addr.toNat / 2 ^ (lo - 2) % 2 ^ n := by
    rw [hPow, Nat.mod_mul_right_div_self, hFour, offset,
      Nat.mul_div_mul_left _ _ (by omega)]
  rw [hSame]

/- The image space leaves the machine ID out. -/
theorem selId_eq_false (hRange : offset i < 0x4000000) :
    selId i = false := by
  rw [Bool.eq_false_iff, selId, ne_eq, addrBits_eq_iff]
  rw [offset] at hRange
  simp
  omega

/- Each select is its window's decode. -/
theorem selVia1_iff :
    selVia1 i = true ↔
      Window.Decodes ⟨.via1, 0x0, 0x2000, true⟩ (offset i) := by
  rw [selVia1, imaged_select rfl (by omega)]
  simp [Window.Decodes, Window.Covers]

theorem selVia2_iff :
    selVia2 i = true ↔
      Window.Decodes ⟨.via2, 0x2000, 0x2000, false⟩
        (offset i) := by
  rw [selVia2, strict_select rfl (by omega)]
  simp [Window.Decodes, Window.Covers, imageNo]
  omega

theorem selRegs_iff :
    selRegs i = true ↔
      Window.Decodes ⟨.regs, 0x18000, 0x2000, false⟩
        (offset i) := by
  rw [selRegs, strict_select rfl (by omega)]
  simp [Window.Decodes, Window.Covers, imageNo]
  omega

theorem selDjmemc_iff :
    selDjmemc i = true ↔
      Window.Decodes ⟨.djmemc, 0xE000, 0x2000, false⟩
        (offset i) := by
  rw [selDjmemc, strict_select rfl (by omega)]
  simp [Window.Decodes, Window.Covers, imageNo]
  omega

theorem selAsc_iff :
    selAsc i = true ↔
      Window.Decodes ⟨.asc, 0x14000, 0x1000, false⟩
        (offset i) := by
  rw [selAsc, strict_select rfl (by omega)]
  simp [Window.Decodes, Window.Covers, imageNo]
  omega

theorem selScc_iff :
    selScc i = true ↔
      Window.Decodes ⟨.scc, 0xC000, 0x2000, true⟩
        (offset i) := by
  rw [selScc, imaged_select rfl (by omega)]
  simp [Window.Decodes, Window.Covers]
  omega

theorem selScsi_iff :
    selScsi i = true ↔
      Window.Decodes ⟨.scsi, 0x10000, 0x100, true⟩
        (offset i) := by
  rw [selScsi, imaged_select rfl (by omega)]
  simp [Window.Decodes, Window.Covers]
  omega

theorem selSdma_iff :
    selSdma i = true ↔
      Window.Decodes ⟨.sdma, 0x10100, 0x100, true⟩
        (offset i) := by
  rw [selSdma, imaged_select rfl (by omega)]
  simp [Window.Decodes, Window.Covers]
  omega

/- The branch of the first window that decodes. -/
def firstDevice (a : Nat) (ws : List Window) : Device :=
  ((ws.find? fun w => decide (w.Decodes a)).map
    Window.device).getD .inert

theorem firstDevice_cons
    (a : Nat) (w : Window) (ws : List Window) :
    firstDevice a (w :: ws) =
      if w.Decodes a then w.device else firstDevice a ws := by
  unfold firstDevice
  by_cases hDecodes : w.Decodes a <;>
    simp [hDecodes]

/- The chain of selects finds the window that decodes. -/
theorem device_eq_first (hRange : offset i < 0x4000000) :
    device i = firstDevice (offset i) windows := by
  simp only [windows, firstDevice_cons, device, selVia1_iff,
    selVia2_iff, selRegs_iff, selDjmemc_iff, selAsc_iff,
    selScc_iff, selScsi_iff, selSdma_iff,
    selId_eq_false hRange]
  rfl

/- The windows lie apart in the first image. -/
theorem windows_apart :
    ∀ w ∈ windows, ∀ w' ∈ windows, w = w' ∨
      w.base + w.size ≤ w'.base ∨
      w'.base + w'.size ≤ w.base := by
  decide

theorem window_unique
    {w w' : Window} {a : Nat}
    (hMem : w ∈ windows)
    (hMem' : w' ∈ windows)
    (hCovers : w.Covers a)
    (hCovers' : w'.Covers a) :
    w = w' := by
  unfold Window.Covers at hCovers hCovers'
  rcases windows_apart w hMem w' hMem' with
    hSame | hBelow | hAbove
  · exact hSame
  · omega
  · omega

/- A window belongs to a device. -/
theorem window_device :
    ∀ w ∈ windows, w.device ≠ .inert := by
  decide

/- The device of a covered offset, if it decodes. -/
theorem device_of_covers
    {w : Window}
    (hRange : offset i < 0x4000000)
    (hMem : w ∈ windows)
    (hCovers : w.Covers (offset i)) :
    device i =
      if w.Decodes (offset i) then w.device else .inert := by
  rw [device_eq_first hRange, firstDevice]
  cases hFound : windows.find?
      fun w => decide (w.Decodes (offset i)) with
  | none =>
      have hNone := List.find?_eq_none.mp hFound w hMem
      simp only [decide_eq_true_eq] at hNone
      rw [if_neg hNone]
      rfl
  | some w' =>
      have hDecodes := List.find?_some hFound
      simp only [decide_eq_true_eq] at hDecodes
      have hSame := window_unique
        (List.mem_of_find?_eq_some hFound) hMem
        hDecodes.2.1 hCovers
      rw [← hSame, if_pos hDecodes]
      rfl

/- Nothing answers an offset that no window covers. -/
theorem device_of_uncovered
    (hRange : offset i < 0x4000000)
    (hNone : ∀ w ∈ windows, ¬ w.Covers (offset i)) :
    device i = .inert := by
  rw [device_eq_first hRange, firstDevice]
  have hFound : (windows.find?
      fun w => decide (w.Decodes (offset i))) = none := by
    apply List.find?_eq_none.mpr
    intro w hMem hDecodes
    exact hNone w hMem (of_decide_eq_true hDecodes).2.1
  rw [hFound]
  rfl

end Iosb

------------------------------------------------------------
-- The Images
------------------------------------------------------------

namespace Iosb

variable {i : In}

/-
  When an offset and the one $40000 above it decode alike: a
  device that leaves bits 19:18 out does where both offsets
  lie below 16 MB or neither does, one that looks at them
  does where neither offset is in image 0 of four.
-/
def RepeatsNext (a : Nat) : Prop :=
  ∀ w ∈ windows, w.Covers a →
    (w.imaged = true →
      a + 0x40000 < 0x1000000 ∨ 0x1000000 ≤ a) ∧
    (w.imaged = false →
      imageNo a = 1 ∨ imageNo a = 2 ∨ 0xFC0000 ≤ a)

/- When an offset decodes as it does in the first image. -/
def RepeatsFirst (a : Nat) : Prop :=
  ∀ w ∈ windows, w.Covers a →
    a < 0x1000000 ∧ (w.imaged = true ∨ imageNo a = 0)

instance (a : Nat) : Decidable (RepeatsNext a) := by
  unfold RepeatsNext
  infer_instance

theorem offset_nextImage
    (hRange : offset i + 0x40000 < 0x4000000) :
    offset (nextImage i) = offset i + 0x40000 := by
  unfold offset nextImage at *
  rw [BitVec.toNat_add]
  simp
  omega

theorem offset_firstImage :
    offset (firstImage i) = offset i % 0x40000 := by
  unfold offset firstImage
  rw [BitVec.toNat_and]
  have hMask : (0xFFFF#26).toNat = 2 ^ 16 - 1 := rfl
  rw [hMask, Nat.and_two_pow_sub_one_eq_mod]
  omega

/- The low address bits are those of the first image. -/
theorem addrBits_congr
    {i i' : In} {lo n : Nat}
    (hSame : i'.addr.toNat % 2 ^ 16 = i.addr.toNat % 2 ^ 16)
    (hLow : lo - 2 + n ≤ 16) :
    addrBits i' lo n = addrBits i lo n := by
  apply BitVec.eq_of_toNat_eq
  have hBelow : ∀ a : Nat,
      a / 2 ^ (lo - 2) % 2 ^ n =
        a % 2 ^ 16 % 2 ^ (lo - 2 + n) / 2 ^ (lo - 2) := by
    intro a
    rw [Nat.mod_mod_of_dvd _ (Nat.pow_dvd_pow 2 hLow),
      Nat.pow_add, Nat.mod_mul_right_div_self]
  rw [addrBits, addrBits, BitVec.extractLsb'_toNat,
    BitVec.extractLsb'_toNat, Nat.shiftRight_eq_div_pow,
    Nat.shiftRight_eq_div_pow, hBelow, hBelow, hSame]

theorem register_congr
    {i i' : In}
    (hSame : i'.addr.toNat % 2 ^ 16 = i.addr.toNat % 2 ^ 16)
    (hBe : i'.be = i.be)
    (d : Device) :
    register i' d = register i d := by
  have hBits : ∀ lo n, lo - 2 + n ≤ 16 →
      addrBits i' lo n = addrBits i lo n :=
    fun _ _ => addrBits_congr hSame
  cases d <;>
    simp [register, rsel, sccA1, hBe,
      hBits 9 4 (by omega), hBits 8 5 (by omega),
      hBits 2 4 (by omega), hBits 2 10 (by omega),
      hBits 2 1 (by omega), hBits 4 4 (by omega)]

/- In an image only the device can differ. -/
theorem target_eq_iff
    {i i' : In}
    (hSame : i'.addr.toNat % 2 ^ 16 = i.addr.toNat % 2 ^ 16)
    (hBe : i'.be = i.be) :
    target i' = target i ↔ device i' = device i := by
  unfold target
  constructor
  · intro hTarget
    exact congrArg Prod.fst hTarget
  · intro hDevice
    rw [hDevice, register_congr hSame hBe]

theorem sameAddr_nextImage (i : In) :
    (nextImage i).addr.toNat % 2 ^ 16 =
      i.addr.toNat % 2 ^ 16 := by
  unfold nextImage
  rw [BitVec.toNat_add]
  simp

theorem sameAddr_firstImage (i : In) :
    (firstImage i).addr.toNat % 2 ^ 16 =
      i.addr.toNat % 2 ^ 16 := by
  have hFirst : 4 * (firstImage i).addr.toNat =
      4 * i.addr.toNat % 0x40000 := @offset_firstImage i
  omega

/- A device or none: the choices agree when the tests do. -/
theorem choice_eq_iff
    {p q : Prop} [Decidable p] [Decidable q]
    {d : Device}
    (hDevice : d ≠ .inert) :
    (if p then d else .inert) = (if q then d else .inert) ↔
      (p ↔ q) := by
  split_ifs with hp hq hq <;>
    simp [hp, hq, hDevice, hDevice.symm]

/- Offsets one image apart, or modulo the image. -/
theorem device_image_iff
    {i i' : In}
    (hRange : offset i < 0x4000000)
    (hRange' : offset i' < 0x4000000)
    (hLow : offset i' % 0x40000 = offset i % 0x40000) :
    device i' = device i ↔
      ∀ w ∈ windows, w.Covers (offset i) →
        (w.Decodes (offset i') ↔ w.Decodes (offset i)) := by
  have hCovers : ∀ w : Window,
      w.Covers (offset i') ↔ w.Covers (offset i) := by
    intro w
    unfold Window.Covers
    rw [hLow]
  by_cases hSome : ∃ w ∈ windows, w.Covers (offset i)
  · rcases hSome with ⟨w, hMem, hCover⟩
    rw [device_of_covers hRange hMem hCover,
      device_of_covers hRange' hMem ((hCovers w).mpr hCover),
      choice_eq_iff (window_device w hMem)]
    constructor
    · intro hSame w' hMem' hCover'
      rw [window_unique hMem' hMem hCover' hCover]
      exact hSame
    · intro hAll
      exact hAll w hMem hCover
  · have hNone : ∀ w ∈ windows, ¬ w.Covers (offset i) := by
      intro w hMem hCover
      exact hSome ⟨w, hMem, hCover⟩
    rw [device_of_uncovered hRange hNone,
      device_of_uncovered hRange' fun w hMem hCover =>
        hNone w hMem ((hCovers w).mp hCover)]
    constructor
    · intro _ w hMem hCover
      exact absurd hCover (hNone w hMem)
    · intro _
      rfl

theorem decodes_next_iff
    {w : Window} {a : Nat}
    (hCover : w.Covers a) :
    (w.Decodes (a + 0x40000) ↔ w.Decodes a) ↔
      (w.imaged = true →
        a + 0x40000 < 0x1000000 ∨ 0x1000000 ≤ a) ∧
      (w.imaged = false →
        imageNo a = 1 ∨ imageNo a = 2 ∨ 0xFC0000 ≤ a) := by
  have hCover' : w.Covers (a + 0x40000) := by
    unfold Window.Covers at *
    omega
  unfold Window.Decodes imageNo
  cases hImaged : w.imaged with
  | true => simp [hCover, hCover']; omega
  | false => simp [hCover, hCover']; omega

theorem decodes_first_iff
    {w : Window} {a : Nat}
    (hCover : w.Covers a) :
    (w.Decodes (a % 0x40000) ↔ w.Decodes a) ↔
      a < 0x1000000 ∧ (w.imaged = true ∨ imageNo a = 0) := by
  have hCover' : w.Covers (a % 0x40000) := by
    unfold Window.Covers at *
    omega
  have hFirst : w.Decodes (a % 0x40000) := by
    refine ⟨by omega, hCover', .inr ?_⟩
    unfold imageNo
    omega
  simp only [hFirst, true_iff]
  simp [Window.Decodes, hCover]

/-
  An access and the same access $40000 higher select the same
  register of the same device exactly where the device's
  decode lets them, and so do an access to an image and the
  same access to the first $40000 bytes.
-/
theorem images_iff (i : In) (hRange : offset i < 0x4000000) :
    (offset i + 0x40000 < 0x4000000 →
        (target (nextImage i) = target i ↔
          RepeatsNext (offset i))) ∧
      (target (firstImage i) = target i ↔
        RepeatsFirst (offset i)) := by
  constructor
  · intro hNext
    have hOffset := offset_nextImage hNext
    have hRange' : offset (nextImage i) < 0x4000000 := by
      rw [hOffset]
      exact hNext
    have hLow : offset (nextImage i) % 0x40000 =
        offset i % 0x40000 := by
      rw [hOffset, Nat.add_mod_right]
    have hBe : (nextImage i).be = i.be := by
      rw [nextImage]
    rw [target_eq_iff (sameAddr_nextImage i) hBe,
      device_image_iff hRange hRange' hLow, hOffset]
    exact forall₃_congr fun w _ hCover =>
      decodes_next_iff hCover
  · have hOffset := @offset_firstImage i
    have hFirst : offset (firstImage i) < 0x4000000 := by
      omega
    have hLow : offset (firstImage i) % 0x40000 =
        offset i % 0x40000 := by omega
    have hBe : (firstImage i).be = i.be := by
      simp only [firstImage]
    rw [target_eq_iff (sameAddr_firstImage i) hBe,
      device_image_iff hRange hFirst hLow, hOffset]
    exact forall₃_congr fun w _ hCover =>
      decodes_first_iff hCover

/- The SCSI registers at $50010000. -/
def scsiAccess : In := { sel := true, addr := 0x4000#26 }

theorem images_iff_scsi :
    target (nextImage scsiAccess) = target scsiAccess :=
  ((images_iff scsiAccess (by decide)).1 (by decide)).mpr
    (by decide)

/- VIA2 at $50002000 is gone at $50042000. -/
def via2Access : In := { sel := true, addr := 0x800#26 }

theorem via2_not_imaged :
    ¬ ∀ i : In, offset i + 0x40000 < 0x4000000 →
      target (nextImage i) = target i := by
  intro hAll
  have hSame := hAll via2Access (by decide)
  revert hSame
  decide

end Iosb
