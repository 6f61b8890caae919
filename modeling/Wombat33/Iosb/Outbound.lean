import Wombat33.Clocked.Run
import Wombat33.Iosb.AdbPath
import Wombat33.Iosb.ShimBytes

/-
  Bytes from VIA1 to the transceiver.

  A log beside the system keeps the byte the CPU last wrote to
  the shift register, the bytes of the completed shift-outs and
  those the transceiver has taken at its enabled edges.  Both
  lists are the same but for the byte on its way, unless the CPU
  writes another byte before the completed one is handed over.

  Key definitions include:
    * `SentLog`, `noteSent`
    * `outgoing`, `SentExact`
    * `KeepsByte`

  Key theorems include:
    * `sent_step`
    * `sent_exact_iff`
-/

------------------------------------------------------------
-- The Log
------------------------------------------------------------

namespace Iosb

namespace AdbPath

open Clocked

/- The last byte written, and the clocks since a completion. -/
structure SentLog where
  last : Byte
  age : Nat
  completed : List Byte
  taken : List Byte

def noSent : SentLog := ⟨0x00#8, 0, [], []⟩

variable (s : AdbPath) (i : PathIn)

/- What the transceiver takes at this clock. -/
def takes (j : Adb.In) : List Byte :=
  if j.clkEn && j.adbDinStrobe then [j.adbDin] else []

def noteSent (g : SentLog) : SentLog :=
  if !i.asic.nreset then noSent
  else
    { last :=
        if Shim.via1SrWr (shimIn s i) then
          Shim.via1Din (shimIn s i)
        else g.last
      age := if Shim.completesOut s.shim then 0 else g.age + 1
      completed :=
        if Shim.completesOut s.shim then g.completed ++ [g.last]
        else g.completed
      taken := g.taken ++ takes (adbIn s i) }

/- The byte shown to the transceiver, and one yet to be. -/
def outgoing : List Byte :=
  (if s.shim.adbDinStrobe then [s.shim.adbDin] else []) ++
    if s.shim.via1SrOutPending then [s.shim.via1SrShadow] else []

/-
  The bytes of the completed shift-outs are those taken and at
  most one on its way, for eight clocks at the longest.
-/
structure SentExact (x : AdbPath × SentLog) : Prop where
  bytes : x.2.completed = x.2.taken ++ outgoing x.1
  soon : outgoing x.1 ≠ [] → x.2.age < 8

/- No other byte is written before one is handed over. -/
def KeepsByte : Prop :=
  i.asic.nreset = true →
    Shim.via1SrWr (shimIn s i) = true →
    (Shim.completesOut s.shim = true ∨
      s.shim.via1SrOutPending = true ∧
        Shim.delivers s.shim = false) →
    Shim.via1Din (shimIn s i) = s.shim.via1SrShadow

end AdbPath

end Iosb

------------------------------------------------------------
-- One Clock
------------------------------------------------------------

namespace Iosb

namespace AdbPath

open Clocked

variable {cfg : Config} {s : AdbPath} {i : PathIn} {g : SentLog}

/-
  A byte is pending until the next enabled edge and then shown
  until the one after.  No completion comes meanwhile: the timer
  has run down, and when it is armed it has far to go.
-/
structure SentInv (x : AdbPath × SentLog) : Prop where
  last : x.2.last = x.1.shim.via1SrShadow
  acks : x.1.shim.via1SrOutAck = x.1.shim.adbDinStrobe
  pending : x.1.shim.via1SrOutPending = true →
    x.2.age ≤ x.1.shim.adbdiv.toNat ∧
      x.1.shim.adbDinStrobe = false
  showing : x.1.shim.adbDinStrobe = true →
    x.2.age ≤ x.1.shim.adbdiv.toNat + 4
  timer : x.1.shim.via1SrOutPending = true ∨
      x.1.shim.adbDinStrobe = true →
    x.1.shim.via1ShiftTimer = 0#22 ∨
      100000 ≤ x.1.shim.via1ShiftTimer.toNat + x.2.age

/- Nothing is on its way when a shift-out completes. -/
theorem idle_of_completes
    (hInv : SentInv (s, g))
    (hDone : Shim.completesOut s.shim = true) :
    s.shim.via1SrOutPending = false ∧
      s.shim.adbDinStrobe = false := by
  have hOne : s.shim.via1ShiftTimer = 1#22 := by
    simp only [Shim.completesOut, Bool.and_eq_true,
      beq_iff_eq] at hDone
    exact hDone.2
  have hDiv := s.shim.adbdiv.isLt
  have hNone : ¬ (s.shim.via1SrOutPending = true ∨
      s.shim.adbDinStrobe = true) := by
    intro hBusy
    have hAge : g.age ≤ s.shim.adbdiv.toNat + 4 := by
      rcases hBusy with hPending | hShown
      · exact Nat.le_add_right_of_le (hInv.pending hPending).1
      · exact hInv.showing hShown
    rcases hInv.timer hBusy with hZero | hFar
    · rw [hOne] at hZero
      exact absurd hZero (by decide)
    · have hToNat : (1#22).toNat = 1 := rfl
      rw [hOne, hToNat] at hFar
      simp only at hFar hAge
      omega
  simpa using hNone

/- A timer that an access arms has a whole delay to go. -/
theorem timer_far
    (hFar : s.shim.via1ShiftTimer = 0#22 ∨
      100000 ≤ s.shim.via1ShiftTimer.toNat + g.age)
    (hAge : g.age ≤ 7)
    (hReset : i.asic.nreset = true) :
    (step cfg s i).shim.via1ShiftTimer = 0#22 ∨
      100000 ≤
        (step cfg s i).shim.via1ShiftTimer.toNat + (g.age + 1) := by
  have hShim :
      (step cfg s i).shim = Shim.step s.shim (shimIn s i) := rfl
  rw [hShim, Shim.step_via1ShiftTimer (i := shimIn s i) hReset]
  have hOne : (1#22).toNat = 1 := rfl
  split_ifs with hDone hRuns
  · exact Or.inl rfl
  · refine Or.inr ?_
    have hLess : 1 < s.shim.via1ShiftTimer.toNat := hRuns
    rw [BitVec.toNat_sub, hOne]
    rcases hFar with hZero | hFar
    · rw [hZero] at hLess
      exact absurd hLess (by decide)
    · have hLt := s.shim.via1ShiftTimer.isLt
      omega
  · have hStop : s.shim.via1ShiftTimer = 0#22 := by
      rcases hFar with hZero | hFar
      · exact hZero
      · have hLess : ¬ 1 < s.shim.via1ShiftTimer.toNat := hRuns
        omega
    unfold Shim.loadedTimer
    cases hArmed : Shim.armedDelay s.shim (shimIn s i) with
    | none =>
        simp only [hStop, ite_self]
        exact Or.inl trivial
    | some armed =>
        have hDelay := Shim.armedDelay_cases hArmed
        refine Or.inr ?_
        simp only
        omega

/- A pending byte is handed over at the next enabled edge. -/
theorem delivers_of_inv (hInv : SentInv (s, g)) :
    Shim.delivers s.shim =
      (Shim.adbEn s.shim && s.shim.via1SrOutPending) := by
  unfold Shim.delivers
  cases hPending : s.shim.via1SrOutPending with
  | false => rfl
  | true =>
      have hAck : s.shim.via1SrOutAck = false :=
        hInv.acks.trans (hInv.pending hPending).2
      simp [hAck]

/- The registers of a byte on its way, one clock later. -/
theorem sent_registers
    (hInv : SentInv (s, g))
    (hReset : i.asic.nreset = true) :
    (step cfg s i).shim.via1SrOutPending =
        (Shim.completesOut s.shim ||
          s.shim.via1SrOutPending && !Shim.adbEn s.shim) ∧
      (step cfg s i).shim.via1SrOutAck =
        (step cfg s i).shim.adbDinStrobe ∧
      (step cfg s i).shim.adbDinStrobe =
        if Shim.adbEn s.shim then s.shim.via1SrOutPending
        else s.shim.adbDinStrobe := by
  have hHand := Shim.step_handshake (s := s.shim)
    (i := shimIn s i) hReset
  have hOut := Shim.step_outbound (s := s.shim)
    (i := shimIn s i) hReset
  have hHands := delivers_of_inv hInv
  have hAcks : s.shim.via1SrOutAck = s.shim.adbDinStrobe :=
    hInv.acks
  have hShim :
      (step cfg s i).shim = Shim.step s.shim (shimIn s i) := rfl
  rw [hShim, hHand.2.1, hHand.2.2, hOut.2.1, hHands, hAcks]
  cases Shim.adbEn s.shim <;>
    cases s.shim.via1SrOutPending <;> simp

theorem sentInv_reset (hReset : i.asic.nreset = false) :
    SentInv (step cfg s i, noSent) := by
  have hShim := @shim_reset cfg s i hReset
  constructor <;> simp [hShim, Shim.resetState, noSent]

/- Without a completion a byte only moves on. -/
theorem sentInv_between
    (hInv : SentInv (s, g))
    (hReset : i.asic.nreset = true)
    (hDone : Shim.completesOut s.shim = false) :
    SentInv (step cfg s i, noteSent s i g) := by
  have hLast : g.last = s.shim.via1SrShadow := hInv.last
  have hOut := Shim.step_outbound (s := s.shim)
    (i := shimIn s i) hReset
  rcases @sent_registers cfg s i g hInv hReset with
    ⟨hPend, hAck, hShow⟩
  have hDiv : (step cfg s i).shim.adbdiv.toNat =
      if Shim.adbEn s.shim then 0
      else s.shim.adbdiv.toNat + 1 :=
    Shim.step_adbdiv hReset
  have hThree := @Shim.adbEn_iff s.shim
  have hAge : (noteSent s i g).age = g.age + 1 := by
    simp [noteSent, hReset, hDone]
  rw [hDone, Bool.false_or] at hPend
  refine ⟨?_, hAck, ?_, ?_, ?_⟩
  · show (noteSent s i g).last =
      (Shim.step s.shim (shimIn s i)).via1SrShadow
    rw [hOut.1, ← hLast]
    simp [noteSent, hReset]
  · simp only [hPend, hAge, hDiv, hShow, Bool.and_eq_true,
      Bool.not_eq_true']
    rintro ⟨hPending, hOff⟩
    have hNow := hInv.pending hPending
    simp only [hOff, Bool.false_eq_true, if_false] at hNow ⊢
    exact ⟨by omega, hNow.2⟩
  · simp only [hShow, hAge, hDiv]
    cases hOn : Shim.adbEn s.shim with
    | true =>
        simp only [if_true]
        intro hPending
        have hNow := (hInv.pending hPending).1
        simp only at hNow
        have hLast := hThree.mp hOn
        omega
    | false =>
        simp only [Bool.false_eq_true, if_false]
        intro hShown
        have hNow := hInv.showing hShown
        simp only at hNow
        omega
  · rw [hPend, hShow, hAge]
    intro hBusy
    have hWas : s.shim.via1SrOutPending = true ∨
        s.shim.adbDinStrobe = true := by
      cases hOn : Shim.adbEn s.shim with
      | true => simp_all
      | false => simp_all
    have hSoon : g.age ≤ 7 := by
      have hLt := s.shim.adbdiv.isLt
      rcases hWas with hPending | hShown
      · have hNow := (hInv.pending hPending).1
        simp only at hNow
        omega
      · have hNow := hInv.showing hShown
        simp only at hNow
        omega
    exact timer_far (hInv.timer hWas) hSoon hReset

/- A completion finds nothing on its way. -/
theorem sentInv_completes
    (hInv : SentInv (s, g))
    (hReset : i.asic.nreset = true)
    (hDone : Shim.completesOut s.shim = true) :
    SentInv (step cfg s i, noteSent s i g) := by
  rcases idle_of_completes hInv hDone with ⟨hPending, hShown⟩
  have hLast : g.last = s.shim.via1SrShadow := hInv.last
  have hOut := Shim.step_outbound (s := s.shim)
    (i := shimIn s i) hReset
  rcases @sent_registers cfg s i g hInv hReset with
    ⟨-, hAck, hShow⟩
  rw [hPending, hShown, ite_self] at hShow
  have hTimer : (step cfg s i).shim.via1ShiftTimer = 0#22 := by
    show (Shim.step s.shim (shimIn s i)).via1ShiftTimer = 0#22
    rw [Shim.step_via1ShiftTimer (i := shimIn s i) hReset]
    simp [Shim.completes, hDone]
  refine ⟨?_, hAck, ?_, ?_, fun _ => Or.inl hTimer⟩
  · show (noteSent s i g).last =
      (Shim.step s.shim (shimIn s i)).via1SrShadow
    rw [hOut.1, ← hLast]
    simp [noteSent, hReset]
  · intro _
    exact ⟨by simp [noteSent, hReset, hDone], hShow⟩
  · rw [hShow]
    exact fun hFalse => absurd hFalse (by decide)

/- The system with its log. -/
abbrev sentWatch (cfg : Config) :
    AdbPath × SentLog → PathIn → AdbPath × SentLog :=
  watch (step cfg) (fun g s i => noteSent s i g)

theorem sentInv_step
    (x : AdbPath × SentLog)
    (i : PathIn)
    (hInv : SentInv x) :
    SentInv (sentWatch cfg x i) := by
  rcases x with ⟨s, g⟩
  show SentInv (step cfg s i, noteSent s i g)
  cases hReset : i.asic.nreset with
  | false =>
      have hLog : noteSent s i g = noSent := by
        simp [noteSent, hReset]
      rw [hLog]
      exact sentInv_reset hReset
  | true =>
      cases hDone : Shim.completesOut s.shim with
      | true => exact sentInv_completes hInv hReset hDone
      | false => exact sentInv_between hInv hReset hDone

end AdbPath

end Iosb

------------------------------------------------------------
-- Runs
------------------------------------------------------------

namespace Iosb

namespace AdbPath

open Clocked

variable {cfg : Config} {s : AdbPath} {i : PathIn} {g : SentLog}

theorem soon_of_inv
    (hInv : SentInv (s, g))
    (hSome : outgoing s ≠ []) :
    g.age < 8 := by
  have hLt := s.shim.adbdiv.isLt
  cases hPending : s.shim.via1SrOutPending with
  | true =>
      have hNow := (hInv.pending hPending).1
      simp only at hNow
      omega
  | false =>
      cases hShown : s.shim.adbDinStrobe with
      | true =>
          have hNow := hInv.showing hShown
          simp only at hNow
          omega
      | false =>
          exact absurd (by simp [outgoing, hPending, hShown]) hSome

/- The byte in the shadow register, one clock later. -/
theorem shadow_kept_iff
    (hReset : i.asic.nreset = true) :
    (step cfg s i).shim.via1SrShadow = s.shim.via1SrShadow ↔
      (Shim.via1SrWr (shimIn s i) = true →
        Shim.via1Din (shimIn s i) = s.shim.via1SrShadow) := by
  have hOut := Shim.step_outbound (s := s.shim)
    (i := shimIn s i) hReset
  show (Shim.step s.shim (shimIn s i)).via1SrShadow =
    s.shim.via1SrShadow ↔ _
  rw [hOut.1]
  cases Shim.via1SrWr (shimIn s i) <;> simp

theorem bytes_completes
    (hInv : SentInv (s, g))
    (hBytes : g.completed = g.taken ++ outgoing s)
    (hReset : i.asic.nreset = true)
    (hDone : Shim.completesOut s.shim = true) :
    (noteSent s i g).completed =
        (noteSent s i g).taken ++ outgoing (step cfg s i) ↔
      KeepsByte s i := by
  rcases idle_of_completes hInv hDone with ⟨hPending, hShown⟩
  have hLast : g.last = s.shim.via1SrShadow := hInv.last
  rcases @sent_registers cfg s i g hInv hReset with
    ⟨hPend, -, hShow⟩
  have hNone : outgoing s = [] := by
    simp [outgoing, hPending, hShown]
  have hTakes : takes (adbIn s i) = [] := by
    simp [takes, adbIn, hShown]
  have hNext : outgoing (step cfg s i) =
      [(step cfg s i).shim.via1SrShadow] := by
    simp [outgoing, hPend, hShow, hDone, hPending, hShown]
  have hKeeps : KeepsByte s i ↔
      (Shim.via1SrWr (shimIn s i) = true →
        Shim.via1Din (shimIn s i) = s.shim.via1SrShadow) := by
    simp [KeepsByte, hReset, hDone]
  rw [hKeeps, ← @shadow_kept_iff cfg s i hReset, hNext]
  simp only [noteSent, hReset, hDone, hTakes, hBytes, hNone,
    hLast, Bool.not_true, Bool.false_eq_true, if_false, if_true,
    List.append_nil, List.append_cancel_left_eq,
    List.cons.injEq, and_true]
  exact eq_comm

theorem bytes_between
    (hInv : SentInv (s, g))
    (hBytes : g.completed = g.taken ++ outgoing s)
    (hReset : i.asic.nreset = true)
    (hDone : Shim.completesOut s.shim = false) :
    (noteSent s i g).completed =
        (noteSent s i g).taken ++ outgoing (step cfg s i) ↔
      KeepsByte s i := by
  rcases @sent_registers cfg s i g hInv hReset with
    ⟨hPend, -, hShow⟩
  have hHands := delivers_of_inv hInv
  have hDin : (step cfg s i).shim.adbDin =
      if Shim.delivers s.shim then s.shim.via1SrShadow
      else s.shim.adbDin :=
    (Shim.step_outbound (s := s.shim) (i := shimIn s i)
      hReset).2.2
  have hLog : (noteSent s i g).completed = g.completed ∧
      (noteSent s i g).taken = g.taken ++ takes (adbIn s i) := by
    simp [noteSent, hReset, hDone]
  rw [hDone, Bool.false_or] at hPend
  rw [hLog.1, hLog.2, hBytes]
  cases hOn : Shim.adbEn s.shim with
  | true =>
      -- what is shown is taken, and what is pending is shown
      simp only [hOn, Bool.not_true, Bool.and_false,
        if_true, Bool.true_and] at hPend hShow hHands
      have hKeeps : KeepsByte s i := by
        rintro - - (hNow | ⟨hPending, hNot⟩)
        · exact absurd hNow (by simp [hDone])
        · rw [hHands, hPending] at hNot
          exact absurd hNot (by decide)
      refine iff_of_true ?_ hKeeps
      rw [hHands] at hDin
      simp only [outgoing, takes, adbIn, hOn, hPend, hShow, hDin,
        Bool.true_and, Bool.false_eq_true, if_false,
        List.append_nil, List.append_assoc]
      cases s.shim.via1SrOutPending <;> rfl
  | false =>
      simp only [hOn, Bool.not_false, Bool.and_true,
        Bool.false_eq_true, if_false, Bool.false_and]
        at hPend hShow hHands
      have hTakes : takes (adbIn s i) = [] := by
        simp [takes, adbIn, hOn]
      rw [hHands, if_neg Bool.false_ne_true] at hDin
      rw [hTakes, List.append_nil]
      cases hPending : s.shim.via1SrOutPending with
      | false =>
          have hKeeps : KeepsByte s i := by
            simp [KeepsByte, hDone, hPending]
          refine iff_of_true ?_ hKeeps
          simp [outgoing, hPend, hShow, hDin, hPending]
      | true =>
          have hOff : s.shim.adbDinStrobe = false :=
            (hInv.pending hPending).2
          have hKeeps : KeepsByte s i ↔
              (Shim.via1SrWr (shimIn s i) = true →
                Shim.via1Din (shimIn s i) =
                  s.shim.via1SrShadow) := by
            simp [KeepsByte, hReset, hPending, hHands]
          rw [hKeeps, ← @shadow_kept_iff cfg s i hReset]
          simp [outgoing, hPend, hShow, hPending, hOff, eq_comm]

/- A clock keeps the lists together just where it keeps the byte. -/
theorem sent_step
    (hInv : SentInv (s, g))
    (hExact : SentExact (s, g)) :
    SentExact (sentWatch cfg (s, g) i) ↔ KeepsByte s i := by
  have hNext := @sentInv_step cfg (s, g) i hInv
  have hSoon : SentExact (sentWatch cfg (s, g) i) ↔
      (noteSent s i g).completed =
        (noteSent s i g).taken ++ outgoing (step cfg s i) :=
    ⟨fun hAll => hAll.bytes,
      fun hBytes => ⟨hBytes, soon_of_inv hNext⟩⟩
  rw [hSoon]
  cases hReset : i.asic.nreset with
  | false =>
      have hShim := @shim_reset cfg s i hReset
      have hKeeps : KeepsByte s i := by simp [KeepsByte, hReset]
      refine iff_of_true ?_ hKeeps
      simp [noteSent, hReset, noSent, outgoing, hShim,
        Shim.resetState]
  | true =>
      cases hDone : Shim.completesOut s.shim with
      | true =>
          exact bytes_completes hInv hExact.bytes hReset hDone
      | false =>
          exact bytes_between hInv hExact.bytes hReset hDone

/-
  From a reset on, every byte whose shift-out completes is taken
  by the transceiver exactly once, in order and within eight
  clocks, in the runs in which no other byte is written before
  one is handed over, and in no others.
-/
theorem sent_exact_iff
    (cfg : Config)
    (s : AdbPath)
    (i : PathIn)
    (is : List PathIn)
    (hReset : i.asic.nreset = false) :
    Always (sentWatch cfg) SentExact (step cfg s i, noSent) is ↔
      Along (step cfg) KeepsByte (step cfg s i) is := by
  rw [← along_watch (step cfg) (fun g s i => noteSent s i g)
    KeepsByte (step cfg s i, noSent) is]
  have hInv := @sentInv_reset cfg s i hReset
  have hShim := @shim_reset cfg s i hReset
  have hNone : outgoing (step cfg s i) = [] := by
    simp [outgoing, hShim, Shim.resetState]
  have hEnv : Along (sentWatch cfg) (fun _ _ => True)
      (step cfg s i, noSent) is :=
    along_of_mem fun _ _ => trivial
  refine always_iff_along_under
    (fun x j hInv _ => sentInv_step x j hInv) ?_ hEnv hInv
    ⟨by rw [hNone]; rfl, fun hSome => absurd hNone hSome⟩
  rintro ⟨t, g⟩ j hInv hExact -
  exact sent_step hInv hExact

theorem sent_exact_iff_start :
    Always (sentWatch shipped) SentExact
        (step shipped default inReset, noSent) [{}, {}] ↔
      Along (step shipped) KeepsByte
        (step shipped default inReset) [{}, {}] :=
  sent_exact_iff shipped default inReset [{}, {}] rfl

end AdbPath

end Iosb
