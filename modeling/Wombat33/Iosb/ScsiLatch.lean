import Wombat33.Iosb.Via2
import Wombat33.Ncr53c96.Interrupt

/-
  The SCSI controller's interrupt seen through the pseudo-VIA.

  A cause is fresh while the controller's interrupt register
  holds it and it was raised after the last IFR write that
  cleared the SCSI flag.  The flag follows edges of the
  controller's line; a cause raised while the line is already
  high makes none.

  Key definitions include:
    * `freshNext`, `Signalled`
    * `makesEdge`

  Key theorems include:
    * `signalled_iff`
-/

------------------------------------------------------------
-- Fresh Causes
------------------------------------------------------------

namespace Iosb

open Clocked

variable (cfg : Config) (s : Asic) (i : In)

/- An IFR write that clears the SCSI flag. -/
def clearsScsi : Bool := acked s i .scsi

/- The causes the controller raises in this cycle. -/
def raisedNow : Byte :=
  Ncr53c96.raised cfg.scsi s.scsi (scsiIn s i)

/-
  The causes held that were raised after the last clearing
  write.
-/
def freshNext (fresh : Byte) (s : Asic) (i : In) : Byte :=
  if !i.nreset then 0#8
  else if clearsScsi s i then 0#8
  else
    (fresh ||| raisedNow cfg s i) &&&
      (step cfg s i).scsi.istatus

/-
  A fresh cause shows in the flag, or as an edge the next
  enabled cycle will latch.
-/
def Signalled (x : Asic × Byte) : Prop :=
  x.2 ≠ 0#8 →
    flag x.1 .scsi = true ∨
      (x.1.scsi.irq = true ∧ x.1.via2.scsiD = false)

/-
  With the flag clear and no clearing write: no cause is
  raised while the line was sampled high and stays high or
  unsampled, and no IFR write meets the edge of a cause.
-/
def makesEdge (x : Asic × Byte) (i : In) : Prop :=
  i.nreset = true → clearsScsi x.1 i = false →
    flag x.1 .scsi = false →
    (x.1.via2.scsiD = true →
      (x.1.scsi.irq = true ∨ i.ce = false) →
      raisedNow cfg x.1 i = 0#8) ∧
    (x.1.via2.scsiD = false → x.1.scsi.irq = true →
      ifrWrite x.1 i = true →
      x.2 = 0#8 ∧ raisedNow cfg x.1 i = 0#8)

/- The board ties the external SCSI interrupt pin low. -/
abbrev tiedLow (i : In) : Prop := i.scsiIrq = false

end Iosb

------------------------------------------------------------
-- One Cycle
------------------------------------------------------------

namespace Iosb

open Clocked

/-
  What every run keeps: the line is high exactly while a
  cause is held, and fresh causes are held.
-/
structure LatchInv (x : Asic × Byte) : Prop where
  line : x.1.scsi.irq = (x.1.scsi.istatus != 0#8)
  held : x.2 &&& x.1.scsi.istatus = x.2

variable {cfg : Config} {s : Asic} {fresh : Byte} {i : In}

theorem latchInv_step
    (x : Asic × Byte)
    (i : In)
    (hInv : LatchInv x) :
    LatchInv (watch (step cfg) (freshNext cfg) x i) := by
  rcases x with ⟨s, fresh⟩
  have hChip : (step cfg s i).scsi =
      Ncr53c96.step cfg.scsi s.scsi (scsiIn s i) := rfl
  constructor
  · show (step cfg s i).scsi.irq =
      ((step cfg s i).scsi.istatus != 0#8)
    rw [hChip]
    cases hReset : i.nreset with
    | false =>
        have hLow : (scsiIn s i).nreset = false := hReset
        simp [Ncr53c96.step, hLow, Ncr53c96.sbufPorts,
          Ncr53c96.resetRegs]
    | true =>
        rw [Ncr53c96.step_of_nreset cfg.scsi _ _ hReset]
        exact Ncr53c96.clock_irq_iff cfg.scsi hInv.line
  · show freshNext cfg fresh s i &&&
        (step cfg s i).scsi.istatus = freshNext cfg fresh s i
    unfold freshNext
    split_ifs
    · exact BitVec.zero_and
    · exact BitVec.zero_and
    · rw [BitVec.and_assoc, BitVec.and_self]

/- The VIA2 and the SCSI controller are never both selected. -/
theorem selScsi_of_selVia2 (h : selVia2 i = true) :
    selScsi i = false := by
  by_contra hScsi
  simp only [selVia2, selScsi, addrBits, Bool.not_eq_false,
    Bool.and_eq_true, beq_iff_eq] at h hScsi
  have hLow := congrArg (fun v => v.getLsbD 3) h.2
  have hHigh := congrArg (fun v => v.getLsbD 8) hScsi.2
  simp at hLow hHigh
  simp [hLow] at hHigh

/- Nor does an IFR write reach the controller. -/
theorem scsiIn_of_ifrWrite (h : ifrWrite s i = true) :
    (scsiIn s i).sel = false := by
  simp only [ifrWrite, Bool.and_eq_true] at h
  simp [scsiIn, scsiStrobe, selScsi_of_selVia2 h.1.1.2]

/- An IFR write leaves the causes held as they are. -/
theorem istatus_of_ifrWrite
    (hReset : i.nreset = true)
    (hWrite : ifrWrite s i = true)
    (hNone : raisedNow cfg s i = 0#8) :
    (step cfg s i).scsi.istatus = s.scsi.istatus := by
  show (Ncr53c96.step cfg.scsi s.scsi
    (scsiIn s i)).istatus = _
  rw [Ncr53c96.step_of_nreset cfg.scsi _ _ hReset]
  exact Ncr53c96.clock_istatus_of_idle cfg.scsi
    (scsiIn_of_ifrWrite hWrite) hNone

/-
  The latch on bits: old and new fresh causes `o` and `o'`, a
  cause raised `r`, the flag `f`, the line `q` and `q'`, its
  sample `d`, an enabled cycle `e` and an IFR write `w`.
-/
theorem latch_bits
    {o o' r f q q' d e w : Bool}
    (hLine : o = true → q = true)
    (hRaise : r = true → o' = true)
    (hOnly : o' = true → o = true ∨ r = true)
    (hLine' : o' = true → q' = true)
    (hEnabled : w = true → e = true)
    (hKept : w = true → o = true → o' = true)
    (hHeld : o = true → f = true ∨ (q = true ∧ d = false)) :
    (o' = true →
        (if e then
          (if w then f
          else if q && !d then true
          else if !q && d then false
          else f)
        else f) = true ∨
        (q' = true ∧ (if e then q else d) = false)) ↔
      (f = false →
        (d = true → (q = true ∨ e = false) → r = false) ∧
        (d = false → q = true → w = true →
          o = false ∧ r = false)) := by
  cases f <;> cases d <;> cases e <;> cases q <;> cases w <;>
    grind -ring -linarith

/- The flag and the sample after a cycle without a clear. -/
theorem scsiFlag_step
    (hReset : i.nreset = true)
    (hTied : tiedLow i)
    (hClear : clearsScsi s i = false) :
    (flag (step cfg s i) .scsi =
        if i.ce then
          (if ifrWrite s i then flag s .scsi
          else if s.scsi.irq && !s.via2.scsiD then true
          else if !s.scsi.irq && s.via2.scsiD then false
          else flag s .scsi)
        else flag s .scsi) ∧
      (step cfg s i).via2.scsiD =
        if i.ce then s.scsi.irq else s.via2.scsiD := by
  have hLine : scsiIrqI s i = s.scsi.irq := by
    simp [scsiIrqI, show i.scsiIrq = false from hTied]
  cases hCe : i.ce with
  | false => simp [flag, step, hReset, hCe]
  | true =>
      constructor
      · have hNext := flag_next s i .scsi
        simp only [flag, step, via2Next, hReset, hCe]
          at hNext ⊢
        simp only [Bool.not_true, Bool.false_eq_true, if_false,
          if_true, hNext]
        simp only [rises, falls, line, lineD, Source.follows,
          hLine, Bool.true_and]
        cases hWrite : ifrWrite s i with
        | false => rfl
        | true =>
            have hData : (wbyte i).getLsbD Source.scsi.bit =
                false := by
              simpa [clearsScsi, acked, hWrite] using hClear
            simp [hData]
      · simp [step, via2Next, hReset, hCe, hLine]

/- A cycle keeps fresh causes signalled exactly if it may. -/
theorem signalled_step
    (x : Asic × Byte)
    (i : In)
    (hInv : LatchInv x)
    (hSignalled : Signalled x)
    (hTied : tiedLow i) :
    Signalled (watch (step cfg) (freshNext cfg) x i) ↔
      makesEdge cfg x i := by
  have hNextInv := @latchInv_step cfg x i hInv
  rcases x with ⟨s, fresh⟩
  unfold Signalled makesEdge
  show (freshNext cfg fresh s i ≠ 0#8 →
    flag (step cfg s i) .scsi = true ∨
      ((step cfg s i).scsi.irq = true ∧
        (step cfg s i).via2.scsiD = false)) ↔ _
  cases hReset : i.nreset with
  | false => simp [freshNext, hReset]
  | true =>
      cases hClear : clearsScsi s i with
      | true => simp [freshNext, hReset, hClear]
      | false =>
          have hFresh : freshNext cfg fresh s i =
              (fresh ||| raisedNow cfg s i) &&&
                (step cfg s i).scsi.istatus := by
            simp [freshNext, hReset, hClear]
          have hLine' : (step cfg s i).scsi.irq =
              ((step cfg s i).scsi.istatus != 0#8) :=
            hNextInv.line
          have hHeldNow : raisedNow cfg s i &&&
              (step cfg s i).scsi.istatus =
                raisedNow cfg s i := by
            show _ &&& (Ncr53c96.step cfg.scsi s.scsi
              (scsiIn s i)).istatus = _
            rw [Ncr53c96.step_of_nreset cfg.scsi _ _ hReset]
            exact Ncr53c96.clock_istatus_of_raised cfg.scsi
          rcases @scsiFlag_step cfg s i hReset hTied hClear
            with ⟨hFlag, hSample⟩
          have hOld : fresh ≠ 0#8 → s.scsi.irq = true := by
            intro hNe
            have hHeld : fresh &&& s.scsi.istatus = fresh :=
              hInv.held
            rw [show s.scsi.irq = (s.scsi.istatus != 0#8)
              from hInv.line, bne_iff_ne]
            intro hZero
            rw [hZero, BitVec.and_zero] at hHeld
            exact hNe hHeld.symm
          have hRaise : raisedNow cfg s i ≠ 0#8 →
              freshNext cfg fresh s i ≠ 0#8 := by
            intro hNe hZero
            rw [hFresh] at hZero
            exact hNe (by grind)
          have hOnly : freshNext cfg fresh s i ≠ 0#8 →
              fresh ≠ 0#8 ∨ raisedNow cfg s i ≠ 0#8 := by
            intro hNe
            by_contra hNone
            simp only [not_or, not_not] at hNone
            rw [hFresh, hNone.1, hNone.2] at hNe
            simp at hNe
          have hNew : freshNext cfg fresh s i ≠ 0#8 →
              (step cfg s i).scsi.irq = true := by
            intro hNe
            rw [hLine', bne_iff_ne]
            intro hZero
            rw [hFresh, hZero, BitVec.and_zero] at hNe
            exact hNe rfl
          have hEnabled : ifrWrite s i = true →
              i.ce = true := by
            intro hWrite
            simp only [ifrWrite, accept, Bool.and_eq_true]
              at hWrite
            exact hWrite.1.1.1.1.1.1.1
          have hKept : ifrWrite s i = true → fresh ≠ 0#8 →
              freshNext cfg fresh s i ≠ 0#8 := by
            intro hWrite hNe
            by_cases hNone : raisedNow cfg s i = 0#8
            · have hHeld : fresh &&& s.scsi.istatus = fresh :=
                hInv.held
              rw [hFresh, hNone, BitVec.or_zero,
                istatus_of_ifrWrite hReset hWrite hNone, hHeld]
              exact hNe
            · exact hRaise hNone
          have hBits := @latch_bits (fresh != 0#8)
            (freshNext cfg fresh s i != 0#8)
            (raisedNow cfg s i != 0#8) (flag s .scsi)
            s.scsi.irq (step cfg s i).scsi.irq s.via2.scsiD
            i.ce (ifrWrite s i)
            (by simpa using hOld) (by simpa using hRaise)
            (by simpa using hOnly) (by simpa using hNew)
            hEnabled (by simpa using hKept)
            (fun h => hSignalled (bne_iff_ne.mp h))
          rw [hFlag, hSample]
          simpa using hBits

/- The machine after a reset cycle, with no cause held. -/
def latchStart (cfg : Config) (s : Asic) : Asic × Byte :=
  (step cfg s { nreset := false }, 0#8)

theorem latchInv_start (s : Asic) :
    LatchInv (latchStart cfg s) ∧
      Signalled (latchStart cfg s) := by
  refine ⟨⟨?_, BitVec.zero_and⟩, fun hNe => absurd rfl hNe⟩
  simp [latchStart, step, Ncr53c96.step, scsiIn,
    Ncr53c96.sbufPorts, Ncr53c96.resetRegs]

/-
  A run from reset signals every fresh cause exactly if every
  cycle of it makes the edges it owes.
-/
theorem signalled_iff
    (cfg : Config)
    (s : Asic)
    (is : List In)
    (hTied : ∀ i ∈ is, tiedLow i) :
    Always (watch (step cfg) (freshNext cfg)) Signalled
        (latchStart cfg s) is ↔
      Along (watch (step cfg) (freshNext cfg))
        (makesEdge cfg) (latchStart cfg s) is :=
  always_iff_along_under
    (fun x i hInv _ => latchInv_step x i hInv)
    (fun x i hInv hSignalled hTied =>
      signalled_step x i hInv hSignalled hTied)
    (along_of_mem hTied) (latchInv_start s).1
    (latchInv_start s).2

/- A cycle without an access. -/
def quiet : In := {}

/- An access to the controller's register `r`. -/
def scsiWrite (r : BitVec 4) (b : Byte) : List In :=
  [{ sel := true, write := true
     addr := 0x004000#26 ||| (r.setWidth 26 <<< 2)
     be := 0b1000#4, wdata := b ++ 0#24 }, quiet]

def scsiRead (r : BitVec 4) : List In :=
  [{ sel := true
     addr := 0x004000#26 ||| (r.setWidth 26 <<< 2)
     be := 0b1000#4 }, quiet]

theorem signalled_iff_illegalCommand :
    Always (watch (step ⟨⟨0#4, false⟩, 18⟩)
          (freshNext ⟨⟨0#4, false⟩, 18⟩)) Signalled
        (latchStart ⟨⟨0#4, false⟩, 18⟩ default)
        (scsiWrite 0x3#4 0x7F#8) ↔
      Along (watch (step ⟨⟨0#4, false⟩, 18⟩)
          (freshNext ⟨⟨0#4, false⟩, 18⟩))
        (makesEdge ⟨⟨0#4, false⟩, 18⟩)
        (latchStart ⟨⟨0#4, false⟩, 18⟩ default)
        (scsiWrite 0x3#4 0x7F#8) :=
  signalled_iff ⟨⟨0#4, false⟩, 18⟩ default
    (scsiWrite 0x3#4 0x7F#8) (by decide)

/- The driver acknowledges the SCSI flag. -/
def ackScsi : List In :=
  [{ sel := true, write := true, addr := 0x0000E80#26
     be := 0b1000#4, wdata := 0x08000000#32 }, quiet]

/-
  An illegal command raises the line and its flag is
  acknowledged; a CDB completes in the very cycle in which
  the driver reads the controller's interrupt register.
-/
def readMeetsCompletion : List In :=
  [{ imgMounted := true, imgSize := 32768#64 }] ++
    scsiWrite 0x3#4 0x7F#8 ++ ackScsi ++
    (List.replicate 6 (scsiWrite 0x2#4 0x00#8)).flatten ++
    scsiWrite 0x3#4 0x41#8 ++ List.replicate 6 quiet ++
    scsiRead 0x5#4

theorem completion_not_signalled :
    ¬ ∀ (cfg : Config) (s : Asic) (is : List In),
      (∀ i ∈ is, tiedLow i) →
      Always (watch (step cfg) (freshNext cfg)) Signalled
        (latchStart cfg s) is := by
  intro hAll
  have hEnd := hAll ⟨⟨0#4, false⟩, 18⟩ default
    readMeetsCompletion (by decide +kernel)
    readMeetsCompletion (List.prefix_refl _)
  have hFresh := hEnd (by decide +kernel)
  revert hFresh
  decide +kernel

end Iosb
