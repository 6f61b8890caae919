import Wombat33.Iosb.Shim

/-
  The bytes in the shim.

  What one clock does to the registers that hold a byte on its
  way: the byte the CPU wrote, the one shown to the transceiver,
  the one that came from it and the one loaded into VIA1.

  Key definitions include:
    * `captures`
    * `inbound`

  Key theorems include:
    * `step_outbound`
    * `step_inbound`
    * `step_loads`
-/

------------------------------------------------------------
-- Outbound
------------------------------------------------------------

namespace Iosb

namespace Shim

variable {s n : Shim} {i : ShimIn}

theorem acrArm_shadow :
    (acrArm s i n).via1SrShadow = n.via1SrShadow := by
  unfold acrArm
  simp only []
  split_ifs <;> rfl

theorem srReadArm_shadow :
    (srReadArm s i n).via1SrShadow = n.via1SrShadow := by
  unfold srReadArm
  split_ifs <;> rfl

theorem srWriteArm_shadow :
    (srWriteArm s i n).via1SrShadow =
      if via1SrWr i then via1Din i else n.via1SrShadow := by
  unfold srWriteArm
  simp only []
  split_ifs <;> rfl

theorem countArm_shadow :
    (countArm s n).via1SrShadow = n.via1SrShadow := by
  unfold countArm
  split_ifs <;> rfl

theorem completeArm_shadow :
    (completeArm s i n).via1SrShadow = n.via1SrShadow := by
  unfold completeArm
  split_ifs <;> rfl

theorem handshakeArm_shadow :
    (handshakeArm s i n).via1SrShadow = n.via1SrShadow := by
  unfold handshakeArm
  simp only []
  split_ifs <;> rfl

theorem handshakeArm_din :
    (handshakeArm s i n).adbDinStrobe =
        (if adbEn s then delivers s else n.adbDinStrobe) ∧
      (handshakeArm s i n).adbDin =
        if delivers s then s.via1SrShadow else n.adbDin := by
  unfold handshakeArm delivers
  simp only []
  split_ifs <;> simp_all

theorem adbEn_iff :
    adbEn s = true ↔ s.adbdiv.toNat = 3 := by
  unfold adbEn
  generalize s.adbdiv = d
  revert d
  decide

/- The transceiver is enabled once in four clocks. -/
theorem step_adbdiv
    (hReset : i.nreset = true) :
    (step s i).adbdiv.toNat =
      if adbEn s then 0 else s.adbdiv.toNat + 1 := by
  rw [(step_handshake hReset).1]
  unfold adbEn
  generalize s.adbdiv = d
  revert d
  decide

/- The byte written, and the byte shown to the transceiver. -/
theorem step_outbound
    (hReset : i.nreset = true) :
    (step s i).via1SrShadow =
        (if via1SrWr i then via1Din i else s.via1SrShadow) ∧
      (step s i).adbDinStrobe =
        (if adbEn s then delivers s else s.adbDinStrobe) ∧
      (step s i).adbDin =
        (if delivers s then s.via1SrShadow else s.adbDin) := by
  simp only [step, hReset, Bool.not_true, Bool.false_eq_true,
    if_false]
  have hArms :=
    @arms_handshake s (handshakeArm s i (quiet s)) i
  simp only [handshake, Prod.mk.injEq] at hArms
  rw [completeArm_shadow, countArm_shadow, srWriteArm_shadow,
    srReadArm_shadow, acrArm_shadow, handshakeArm_shadow,
    completeArm_outputs.2.1, completeArm_outputs.2.2,
    hArms.2.2.2.2.1, hArms.2.2.2.2.2, handshakeArm_din.1,
    handshakeArm_din.2]
  exact ⟨rfl, rfl, rfl⟩

end Shim

end Iosb

------------------------------------------------------------
-- Inbound
------------------------------------------------------------

namespace Iosb

namespace Shim

variable {s n : Shim} {i : ShimIn}

/- The transceiver's byte is taken over. -/
def captures (s : Shim) (i : ShimIn) : Bool :=
  adbEn s && i.adbDoutStrobe

/- The registers that only handshake and completion touch. -/
def inbound (n : Shim) :
    Bool × BitVec 8 × Bool × BitVec 8 :=
  (n.via1KbdToMacFresh, n.kbdToMac, n.via1SrExtLoad,
    n.via1SrExtData)

theorem acrArm_inbound :
    inbound (acrArm s i n) = inbound n := by
  unfold acrArm
  simp only []
  split_ifs <;> rfl

theorem srReadArm_inbound :
    inbound (srReadArm s i n) = inbound n := by
  unfold srReadArm
  split_ifs <;> rfl

theorem srWriteArm_inbound :
    inbound (srWriteArm s i n) = inbound n := by
  unfold srWriteArm
  simp only []
  split_ifs <;> rfl

theorem countArm_inbound :
    inbound (countArm s n) = inbound n := by
  unfold countArm
  split_ifs <;> rfl

theorem handshakeArm_inbound :
    inbound (handshakeArm s i (quiet s)) =
      (captures s i || s.via1KbdToMacFresh,
        if captures s i then i.adbDout else s.kbdToMac,
        false, s.via1SrExtData) := by
  unfold handshakeArm captures inbound quiet
  simp only []
  split_ifs <;> simp_all

theorem arms_inbound :
    inbound (countArm s (srWriteArm s i (srReadArm s i
      (acrArm s i (handshakeArm s i (quiet s)))))) =
      (captures s i || s.via1KbdToMacFresh,
        if captures s i then i.adbDout else s.kbdToMac,
        false, s.via1SrExtData) := by
  rw [countArm_inbound, srWriteArm_inbound, srReadArm_inbound,
    acrArm_inbound, handshakeArm_inbound]

theorem completeArm_inbound :
    inbound (completeArm s i n) =
      (!completesFresh s && n.via1KbdToMacFresh, n.kbdToMac,
        completesFresh s || completesIdle s i ||
          n.via1SrExtLoad,
        if completesFresh s || completesIdle s i then s.kbdToMac
        else n.via1SrExtData) := by
  unfold completeArm inbound
  cases hOut : completesOut s with
  | true =>
      have hDir : s.via1ShiftDir = true := by
        simp only [completesOut, Bool.and_eq_true] at hOut
        exact hOut.1
      simp [completesFresh, completesIdle, hDir]
  | false =>
      cases completesFresh s <;> cases completesIdle s i <;> simp

/- The byte that came, until a completion takes it. -/
theorem step_inbound
    (hReset : i.nreset = true) :
    (step s i).via1KbdToMacFresh =
        (!completesFresh s &&
          (captures s i || s.via1KbdToMacFresh)) ∧
      (step s i).kbdToMac =
        if captures s i then i.adbDout else s.kbdToMac := by
  simp only [step, hReset, Bool.not_true, Bool.false_eq_true,
    if_false]
  have hArms := @arms_inbound s i
  simp only [inbound, Prod.mk.injEq] at hArms
  have hDone := @completeArm_inbound s (countArm s (srWriteArm s i
    (srReadArm s i (acrArm s i (handshakeArm s i (quiet s)))))) i
  simp only [inbound, Prod.mk.injEq] at hDone
  rw [hDone.1, hDone.2.1, hArms.1, hArms.2.1]
  exact ⟨rfl, rfl⟩

/- What is loaded into VIA1 is the byte that came last. -/
theorem step_loads
    (hReset : i.nreset = true) :
    (step s i).via1SrExtLoad =
        (completesFresh s || completesIdle s i) ∧
      (step s i).via1SrExtData =
        if completesFresh s || completesIdle s i then s.kbdToMac
        else s.via1SrExtData := by
  simp only [step, hReset, Bool.not_true, Bool.false_eq_true,
    if_false]
  have hArms := @arms_inbound s i
  simp only [inbound, Prod.mk.injEq] at hArms
  have hDone := @completeArm_inbound s (countArm s (srWriteArm s i
    (srReadArm s i (acrArm s i (handshakeArm s i (quiet s)))))) i
  simp only [inbound, Prod.mk.injEq] at hDone
  rw [hDone.2.2.1, hDone.2.2.2, hArms.2.2.1, hArms.2.2.2,
    Bool.or_false]
  exact ⟨rfl, rfl⟩

/- The delays an access arms the timer with. -/
theorem armedDelay_cases
    {armed : BitVec 22 × Bool}
    (hArmed : armedDelay s i = some armed) :
    armed.1.toNat = 100000 ∨ armed.1.toNat = 363000 := by
  unfold armedDelay at hArmed
  split_ifs at hArmed <;>
    · rw [← Option.some.inj hArmed]
      decide

/- The direction turns only at an access. -/
theorem step_dir_none
    (hReset : i.nreset = true)
    (hNone : i.access = none) :
    (step s i).via1ShiftDir = s.via1ShiftDir := by
  rw [step_via1ShiftDir hReset, loadedDir]
  simp [armedDelay, via1AcrWr, via1SrWr, via1SrRd, hNone]

end Shim

end Iosb
