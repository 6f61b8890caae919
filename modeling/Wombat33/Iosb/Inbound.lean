import Wombat33.Adb.Talk
import Wombat33.Clocked.Run
import Wombat33.Iosb.AdbPath
import Wombat33.Iosb.ShimBytes

/-
  Bytes from the transceiver to VIA1.

  A byte is shown when the bus enters a data state; the shim
  takes it over at the next enabled edge and loads it into VIA1
  as soon as the direction is inward.  All of this is over long
  before the next access to VIA1, so nothing is lost but a byte
  that still waits for the direction when another one comes.

  Key definitions include:
    * `TalkLog`, `noteTalk`
    * `incoming`, `TalkExact`
    * `TakenOver`
    * `TalkInv`

  Key theorems include:
    * `talkInv_step`
    * `talk_exact_iff`
-/

------------------------------------------------------------
-- The Log
------------------------------------------------------------

namespace Iosb

namespace AdbPath

open Clocked

variable (s : AdbPath) (i : PathIn)

/- Bytes shown and loaded, and if a load of one comes next. -/
structure TalkLog where
  strobed : List Byte
  loaded : List Byte
  coming : Bool

def noTalk : TalkLog := ⟨[], [], false⟩

/- What VIA1 loads into its shift register at this clock. -/
def loads (j : Via6522.In) : List Byte :=
  if j.srExtComplete && j.srExtLoad then [j.srExtData] else []

def noteTalk (g : TalkLog) : TalkLog :=
  if !i.asic.nreset then noTalk
  else
    { strobed :=
        if Adb.entersData s.adbx (adbIn s i) then
          g.strobed ++ [Adb.talkByte s.adbx]
        else g.strobed
      loaded :=
        if g.coming then g.loaded ++ loads (via1In s i)
        else g.loaded
      coming := Shim.completesFresh s.shim }

/- The bytes between the transceiver and the shift register. -/
def incoming (x : AdbPath × TalkLog) : List Byte :=
  (if x.2.coming then [x.1.shim.via1SrExtData] else []) ++
    (if x.1.shim.via1KbdToMacFresh then [x.1.shim.kbdToMac]
      else []) ++
    if x.1.adbx.host.adbDoutStrobe then [x.1.adbx.host.adbDout]
      else []

/-
  The bytes loaded are those shown, in order, but for the ones
  on the way.  While the direction is inward there are none ten
  clocks after the falling edge of E or later.
-/
structure TalkExact (x : AdbPath × TalkLog) : Prop where
  bytes : x.2.strobed = x.2.loaded ++ incoming x
  soon : x.1.shim.via1ShiftDir = false → incoming x ≠ [] →
    phase x.1 < 10

/- A byte is taken over only where the one before is gone. -/
def TakenOver : Prop :=
  i.asic.nreset = true →
    Shim.captures s.shim (shimIn s i) = true →
    s.shim.via1KbdToMacFresh = false

end AdbPath

end Iosb

------------------------------------------------------------
-- The Direction
------------------------------------------------------------

namespace Iosb

namespace AdbPath

variable {cfg : Config} {s : AdbPath} {i : PathIn}

/- Where VIA1 is written, the shim sees that write or nothing. -/
theorem via1Access_written
    {a : BitVec 4}
    (hWrites : (via1In s i).writes a = true) :
    via1Access s = none ∨
      ∃ d, via1Access s = some (.write a d) := by
  simp only [Via6522.In.writes, via1In, Bool.and_eq_true,
    beq_iff_eq] at hWrites
  unfold via1Access
  simp only [hWrites, if_true]
  split_ifs
  · exact Or.inr ⟨_, rfl⟩
  · exact Or.inl rfl

/- An access to VIA1 turns direction or bus state, not both. -/
theorem turns_one
    (hReset : i.asic.nreset = true)
    (hTurns : (step cfg s i).shim.via1ShiftDir ≠
      s.shim.via1ShiftDir) :
    adbSt (step cfg s i) = adbSt s := by
  have hShim : (step cfg s i).shim =
      Shim.step s.shim (shimIn s i) := rfl
  have hArmed :
      ¬ Shim.armedDelay s.shim (shimIn s i) = none := by
    intro hNone
    refine hTurns ?_
    rw [hShim, Shim.step_via1ShiftDir (i := shimIn s i) hReset,
      Shim.loadedDir, hNone]
  have hOther (a : BitVec 4) (hA : a ≠ 0xA#4) (hB : a ≠ 0xB#4) :
      (via1In s i).writes a = false := by
    by_contra hWrites
    have hAccess := via1Access_written (eq_true_of_ne_false hWrites)
    refine hArmed ?_
    rcases hAccess with hNone | ⟨d, hWrite⟩
    · simp [Shim.armedDelay, Shim.via1AcrWr, Shim.via1SrWr,
        Shim.via1SrRd, shimIn, hNone]
    · simp [Shim.armedDelay, Shim.via1AcrWr, Shim.via1SrWr,
        Shim.via1SrRd, shimIn, hWrite, hA, hB]
  exact adbSt_step hReset (hOther _ (by decide) (by decide))
    (hOther _ (by decide) (by decide))

/- Between the edges neither turns. -/
theorem dir_between
    (hReset : i.asic.nreset = true)
    (hFalling : eFalling s = false) :
    (step cfg s i).shim.via1ShiftDir = s.shim.via1ShiftDir :=
  Shim.step_dir_none (s := s.shim) (i := shimIn s i) hReset
    (via1Access_none hFalling)

theorem adbSt_between
    (hReset : i.asic.nreset = true)
    (hFalling : eFalling s = false) :
    adbSt (step cfg s i) = adbSt s :=
  adbSt_step hReset (via1In_writes _ hFalling)
    (via1In_writes _ hFalling)

end AdbPath

end Iosb

------------------------------------------------------------
-- One Clock
------------------------------------------------------------

namespace Iosb

namespace AdbPath

open Clocked

variable {cfg : Config} {s : AdbPath} {i : PathIn} {g : TalkLog}

/-
  The bus state changes at the falling edge; the transceiver
  sees it at the next enabled edge, the shim has the byte at the
  one after, and VIA1 loads it two clocks later.
-/
structure TalkInv (x : AdbPath × TalkLog) : Prop where
  divided : Divided x.1
  changes : adbSt x.1 ≠ x.1.adbx.host.stPrev →
    phase x.1 ≤ x.1.shim.adbdiv.toNat
  showing : x.1.adbx.host.adbDoutStrobe = true →
    x.1.shim.adbdiv.toNat < phase x.1 ∧
      phase x.1 ≤ x.1.shim.adbdiv.toNat + 4
  fresh : x.1.shim.via1KbdToMacFresh = true →
    x.1.shim.via1ShiftDir = false →
    adbSt x.1 = x.1.adbx.host.stPrev ∧
      x.1.adbx.host.adbDoutStrobe = false ∧ phase x.1 ≤ 8
  coming : x.2.coming = true →
    x.1.shim.via1SrExtComplete = true ∧
      x.1.shim.via1SrExtLoad = true ∧ phase x.1 ≤ 9

/- The registers of the transceiver that show a byte. -/
theorem adbx_step (hReset : i.asic.nreset = true) :
    (step cfg s i).adbx.host.stPrev =
        (if Shim.adbEn s.shim then adbSt s
        else s.adbx.host.stPrev) ∧
      (step cfg s i).adbx.host.adbDout =
        (if Adb.entersData s.adbx (adbIn s i) then
          Adb.talkByte s.adbx
        else s.adbx.host.adbDout) ∧
      (step cfg s i).adbx.host.adbDoutStrobe =
        if Shim.adbEn s.shim then
          Adb.entersData s.adbx (adbIn s i)
        else s.adbx.host.adbDoutStrobe := by
  have hOn : (adbIn s i).reset = false := by
    simp [adbIn, hReset]
  exact Adb.step_shown hOn

/- A data state is entered early in the cycle. -/
theorem early_of_enters
    (hInv : TalkInv (s, g))
    (hEnters : Adb.entersData s.adbx (adbIn s i) = true) :
    Shim.adbEn s.shim = true ∧ phase s ≤ 3 := by
  simp only [Adb.entersData, adbIn, Bool.and_eq_true,
    bne_iff_ne] at hEnters
  have hThree := Shim.adbEn_iff.mp hEnters.1.1
  have hEarly := hInv.changes hEnters.1.2
  simp only at hEarly
  exact ⟨hEnters.1.1, by omega⟩

/- Nothing of it is left at the next falling edge. -/
theorem settled_of_falling
    (hInv : TalkInv (s, g))
    (hFalling : eFalling s = true) :
    adbSt s = s.adbx.host.stPrev ∧
      Adb.entersData s.adbx (adbIn s i) = false ∧
      s.adbx.host.adbDoutStrobe = false ∧ g.coming = false := by
  have hEnd := (falling_iff hInv.divided).mp hFalling
  have hDiv := s.shim.adbdiv.isLt
  simp only at hEnd
  refine ⟨?_, ?_, ?_, ?_⟩
  · by_contra hChange
    have hEarly := hInv.changes hChange
    simp only at hEarly
    omega
  · by_contra hEnters
    have hEarly := early_of_enters hInv
      (eq_true_of_ne_false hEnters)
    omega
  · by_contra hShown
    have hEarly := hInv.showing (eq_true_of_ne_false hShown)
    simp only at hEarly
    omega
  · by_contra hComing
    have hEarly := hInv.coming (eq_true_of_ne_false hComing)
    simp only at hEarly
    omega

theorem adbdiv_step (hReset : i.asic.nreset = true) :
    (step cfg s i).shim.adbdiv.toNat =
      if Shim.adbEn s.shim then 0
      else s.shim.adbdiv.toNat + 1 :=
  Shim.step_adbdiv (s := s.shim) (i := shimIn s i) hReset

/- The registers of the shim that hold the byte. -/
theorem inbound_step (hReset : i.asic.nreset = true) :
    (step cfg s i).shim.via1KbdToMacFresh =
        (!Shim.completesFresh s.shim &&
          (Shim.captures s.shim (shimIn s i) ||
            s.shim.via1KbdToMacFresh)) ∧
      (step cfg s i).shim.kbdToMac =
        if Shim.captures s.shim (shimIn s i) then
          s.adbx.host.adbDout
        else s.shim.kbdToMac :=
  Shim.step_inbound (s := s.shim) (i := shimIn s i) hReset

theorem changes_step
    (hInv : TalkInv (s, g))
    (hReset : i.asic.nreset = true)
    (hChange : adbSt (step cfg s i) ≠
      (step cfg s i).adbx.host.stPrev) :
    phase (step cfg s i) ≤ (step cfg s i).shim.adbdiv.toNat := by
  have hPhase := @phase_step cfg s i hInv.divided hReset
  have hDiv := @adbdiv_step cfg s i hReset
  have hShown := @adbx_step cfg s i hReset
  cases hFalling : eFalling s with
  | true =>
      rw [hPhase.2, hFalling]
      exact Nat.zero_le _
  | false =>
      rw [adbSt_between hReset hFalling, hShown.1] at hChange
      cases hOn : Shim.adbEn s.shim with
      | true => simp [hOn] at hChange
      | false =>
          simp only [hOn, Bool.false_eq_true, if_false] at hChange
          have hEarly := hInv.changes hChange
          simp only at hEarly
          rw [hPhase.2, hFalling, hDiv, hOn]
          simp only [Bool.false_eq_true, if_false]
          omega

theorem showing_step
    (hInv : TalkInv (s, g))
    (hReset : i.asic.nreset = true)
    (hShow : (step cfg s i).adbx.host.adbDoutStrobe = true) :
    (step cfg s i).shim.adbdiv.toNat < phase (step cfg s i) ∧
      phase (step cfg s i) ≤
        (step cfg s i).shim.adbdiv.toNat + 4 := by
  have hPhase := @phase_step cfg s i hInv.divided hReset
  have hDiv := @adbdiv_step cfg s i hReset
  have hShown := @adbx_step cfg s i hReset
  rw [hShown.2.2] at hShow
  cases hFalling : eFalling s with
  | true =>
      have hNone := @settled_of_falling s i g hInv hFalling
      simp [hNone] at hShow
  | false =>
      rw [hPhase.2, hFalling, hDiv]
      cases hOn : Shim.adbEn s.shim with
      | true =>
          simp only [hOn, if_true] at hShow
          have hEarly := early_of_enters hInv hShow
          simp only [Bool.false_eq_true, if_false, if_true]
          omega
      | false =>
          simp only [hOn, Bool.false_eq_true, if_false] at hShow
          have hNow := hInv.showing hShow
          simp only at hNow
          simp only [Bool.false_eq_true, if_false]
          omega

theorem fresh_step
    (hInv : TalkInv (s, g))
    (hReset : i.asic.nreset = true)
    (hFresh : (step cfg s i).shim.via1KbdToMacFresh = true)
    (hIn : (step cfg s i).shim.via1ShiftDir = false) :
    adbSt (step cfg s i) = (step cfg s i).adbx.host.stPrev ∧
      (step cfg s i).adbx.host.adbDoutStrobe = false ∧
      phase (step cfg s i) ≤ 8 := by
  have hPhase := @phase_step cfg s i hInv.divided hReset
  have hShown := @adbx_step cfg s i hReset
  have hHeld := @inbound_step cfg s i hReset
  rw [hHeld.1] at hFresh
  simp only [Bool.and_eq_true, Bool.not_eq_true',
    Bool.or_eq_true] at hFresh
  cases hFalling : eFalling s with
  | true =>
      -- the direction has turned, so the bus state has not
      have hNone := @settled_of_falling s i g hInv hFalling
      have hOut : s.shim.via1ShiftDir = true := by
        have hStill := hFresh.1
        rcases hFresh.2 with hTaken | hWas
        · simp [Shim.captures, shimIn, hNone] at hTaken
        · simpa [Shim.completesFresh, hWas] using hStill
      have hSame : adbSt (step cfg s i) = adbSt s := by
        refine turns_one hReset ?_
        rw [hIn, hOut]
        decide
      refine ⟨?_, ?_, ?_⟩
      · rw [hSame, hShown.1, hNone.1, ite_self]
      · rw [hShown.2.2]
        simp [hNone]
      · rw [hPhase.2, hFalling]
        simp
  | false =>
      rw [dir_between hReset hFalling] at hIn
      have hTaken : Shim.captures s.shim (shimIn s i) = true := by
        have hStill := hFresh.1
        rcases hFresh.2 with hTaken | hWas
        · exact hTaken
        · simp [Shim.completesFresh, hIn, hWas] at hStill
      simp only [Shim.captures, shimIn, Bool.and_eq_true]
        at hTaken
      have hThree := Shim.adbEn_iff.mp hTaken.1
      have hNow := hInv.showing hTaken.2
      simp only at hNow
      have hLate : Adb.entersData s.adbx (adbIn s i) = false := by
        by_contra hEnters
        have hEarly := early_of_enters hInv
          (eq_true_of_ne_false hEnters)
        omega
      refine ⟨?_, ?_, ?_⟩
      · rw [adbSt_between hReset hFalling, hShown.1, hTaken.1,
          if_pos rfl]
      · rw [hShown.2.2, hTaken.1, if_pos rfl, hLate]
      · rw [hPhase.2, hFalling, if_neg Bool.false_ne_true]
        omega

theorem coming_step
    (hInv : TalkInv (s, g))
    (hReset : i.asic.nreset = true)
    (hDone : Shim.completesFresh s.shim = true) :
    (step cfg s i).shim.via1SrExtComplete = true ∧
      (step cfg s i).shim.via1SrExtLoad = true ∧
      phase (step cfg s i) ≤ 9 := by
  have hPhase := @phase_step cfg s i hInv.divided hReset
  have hLoads := Shim.step_loads (s := s.shim) (i := shimIn s i)
    hReset
  have hShows := Shim.step_outputs (s := s.shim)
    (i := shimIn s i) hReset
  have hHeld := hDone
  simp only [Shim.completesFresh, Bool.and_eq_true,
    Bool.not_eq_true'] at hHeld
  have hNow := hInv.fresh hHeld.2 hHeld.1
  simp only at hNow
  refine ⟨?_, ?_, ?_⟩
  · show (Shim.step s.shim (shimIn s i)).via1SrExtComplete = true
    rw [hShows.1, Shim.completes, hDone]
    simp
  · show (Shim.step s.shim (shimIn s i)).via1SrExtLoad = true
    rw [hLoads.1, hDone, Bool.true_or]
  · rw [hPhase.2]
    split_ifs <;> omega

theorem talkInv_reset (hReset : i.asic.nreset = false) :
    TalkInv (step cfg s i, noTalk) := by
  have hShim := @shim_reset cfg s i hReset
  have hHost := @host_reset cfg s i hReset
  have hPhase := @phase_reset cfg s i hReset
  constructor
  · exact hPhase.1
  · intro _
    simp [hPhase.2]
  · simp [hHost, Adb.resetHost]
  · simp [hShim, Shim.resetState]
  · simp [noTalk]

/- The system with its log. -/
abbrev talkWatch (cfg : Config) :
    AdbPath × TalkLog → PathIn → AdbPath × TalkLog :=
  watch (step cfg) (fun g s i => noteTalk s i g)

theorem talkInv_step
    (x : AdbPath × TalkLog)
    (i : PathIn)
    (hInv : TalkInv x) :
    TalkInv (talkWatch cfg x i) := by
  rcases x with ⟨s, g⟩
  show TalkInv (step cfg s i, noteTalk s i g)
  cases hReset : i.asic.nreset with
  | false =>
      have hLog : noteTalk s i g = noTalk := by
        simp [noteTalk, hReset]
      rw [hLog]
      exact talkInv_reset hReset
  | true =>
      have hLog : (noteTalk s i g).coming =
          Shim.completesFresh s.shim := by
        simp [noteTalk, hReset]
      exact
        { divided := (phase_step hInv.divided hReset).1
          changes := changes_step hInv hReset
          showing := showing_step hInv hReset
          fresh := fresh_step hInv hReset
          coming := fun hComing =>
            coming_step hInv hReset (hLog.symm.trans hComing) }

end AdbPath

end Iosb

------------------------------------------------------------
-- Runs
------------------------------------------------------------

namespace Iosb

namespace AdbPath

open Clocked

variable {cfg : Config} {s : AdbPath} {i : PathIn} {g : TalkLog}

theorem soon_of_talkInv
    (hInv : TalkInv (s, g))
    (hIn : s.shim.via1ShiftDir = false)
    (hSome : incoming (s, g) ≠ []) :
    phase s < 10 := by
  have hDiv := s.shim.adbdiv.isLt
  cases hComing : g.coming with
  | true =>
      have hNow := hInv.coming hComing
      simp only at hNow
      omega
  | false =>
      cases hFresh : s.shim.via1KbdToMacFresh with
      | true =>
          have hNow := hInv.fresh hFresh hIn
          simp only at hNow
          omega
      | false =>
          cases hShown : s.adbx.host.adbDoutStrobe with
          | true =>
              have hNow := hInv.showing hShown
              simp only at hNow
              omega
          | false =>
              refine absurd ?_ hSome
              simp [incoming, hComing, hFresh, hShown]

/- A list of the byte that is there, if one is. -/
def held (c : Bool) (b : Byte) : List Byte := if c then [b] else []

@[simp] theorem held_true (b : Byte) : held true b = [b] := rfl

@[simp] theorem held_false (b : Byte) : held false b = [] := rfl

theorem incoming_held :
    incoming (s, g) =
      held g.coming s.shim.via1SrExtData ++
        (held s.shim.via1KbdToMacFresh s.shim.kbdToMac ++
          held s.adbx.host.adbDoutStrobe s.adbx.host.adbDout) := by
  simp [incoming, held]

/- The bytes move on by one place, unless two meet in one. -/
theorem moves_on
    (hInv : TalkInv (s, g))
    (hReset : i.asic.nreset = true) :
    held s.shim.via1KbdToMacFresh s.shim.kbdToMac ++
        held s.adbx.host.adbDoutStrobe s.adbx.host.adbDout ++
        held (Adb.entersData s.adbx (adbIn s i))
          (Adb.talkByte s.adbx) =
      incoming (step cfg s i, noteTalk s i g) ↔
        TakenOver s i := by
  have hShown := @adbx_step cfg s i hReset
  have hHeld := @inbound_step cfg s i hReset
  have hData : (step cfg s i).shim.via1SrExtData =
      if Shim.completesFresh s.shim ||
          Shim.completesIdle s.shim (shimIn s i) then
        s.shim.kbdToMac
      else s.shim.via1SrExtData :=
    (Shim.step_loads (s := s.shim) (i := shimIn s i) hReset).2
  have hComing : (noteTalk s i g).coming =
      Shim.completesFresh s.shim := by
    simp [noteTalk, hReset]
  rw [incoming_held, hComing, hHeld.1, hHeld.2, hData, hShown.2.1,
    hShown.2.2]
  cases hOn : Shim.adbEn s.shim with
  | false =>
      have hNot : Shim.captures s.shim (shimIn s i) = false := by
        simp [Shim.captures, hOn]
      have hEnters :
          Adb.entersData s.adbx (adbIn s i) = false := by
        simp [Adb.entersData, adbIn, hOn]
      refine iff_of_true ?_ fun _ hTaken => ?_
      · simp only [hNot, hEnters, Bool.false_or,
          Bool.false_eq_true, if_false, held_false,
          List.append_nil]
        cases hFresh : s.shim.via1KbdToMacFresh <;>
          cases hDir : s.shim.via1ShiftDir <;>
            simp [Shim.completesFresh, hFresh, hDir]
      · exact absurd (hNot.symm.trans hTaken) (by decide)
  | true =>
      have hTakes : Shim.captures s.shim (shimIn s i) =
          s.adbx.host.adbDoutStrobe := by
        simp [Shim.captures, shimIn, hOn]
      have hNext : held (Adb.entersData s.adbx (adbIn s i))
            (if Adb.entersData s.adbx (adbIn s i) then
              Adb.talkByte s.adbx
            else s.adbx.host.adbDout) =
          held (Adb.entersData s.adbx (adbIn s i))
            (Adb.talkByte s.adbx) := by
        cases Adb.entersData s.adbx (adbIn s i) <;> rfl
      have hOver : TakenOver s i ↔
          (s.adbx.host.adbDoutStrobe = true →
            s.shim.via1KbdToMacFresh = false) := by
        simp [TakenOver, hReset, hTakes]
      rw [if_pos rfl, hNext, hTakes, hOver, ← List.append_assoc,
        List.append_cancel_right_eq]
      cases hFresh : s.shim.via1KbdToMacFresh with
      | false =>
          cases s.adbx.host.adbDoutStrobe <;>
            simp [Shim.completesFresh, hFresh]
      | true =>
          cases hDir : s.shim.via1ShiftDir with
          | true =>
              -- the byte waits for the direction
              cases s.adbx.host.adbDoutStrobe <;>
                simp [Shim.completesFresh, hFresh, hDir]
          | false =>
              have hNone := (hInv.fresh hFresh hDir).2.1
              simp only at hNone
              simp [Shim.completesFresh, hFresh, hDir, hNone]

theorem talk_bytes
    (hInv : TalkInv (s, g))
    (hBytes : g.strobed = g.loaded ++ incoming (s, g))
    (hReset : i.asic.nreset = true) :
    (noteTalk s i g).strobed =
        (noteTalk s i g).loaded ++
          incoming (step cfg s i, noteTalk s i g) ↔
      TakenOver s i := by
  have hStrobed : (noteTalk s i g).strobed = g.strobed ++
      held (Adb.entersData s.adbx (adbIn s i))
        (Adb.talkByte s.adbx) := by
    cases hEnters : Adb.entersData s.adbx (adbIn s i) <;>
      simp [noteTalk, hReset, hEnters]
  have hLoaded : (noteTalk s i g).loaded = g.loaded ++
      held g.coming s.shim.via1SrExtData := by
    cases hComing : g.coming with
    | false => simp [noteTalk, hReset, hComing]
    | true =>
        have hNow := hInv.coming hComing
        simp only at hNow
        simp [noteTalk, hReset, hComing, loads, via1In, hNow]
  have hMoves := @moves_on cfg s i g hInv hReset
  rw [List.append_assoc] at hMoves
  rw [hStrobed, hLoaded, hBytes, @incoming_held s g]
  simp only [List.append_assoc, List.append_cancel_left_eq]
  exact hMoves

/- A clock keeps the lists together just where it keeps a byte. -/
theorem talk_step
    (hInv : TalkInv (s, g))
    (hExact : TalkExact (s, g)) :
    TalkExact (talkWatch cfg (s, g) i) ↔ TakenOver s i := by
  have hNext := @talkInv_step cfg (s, g) i hInv
  have hSoon : TalkExact (talkWatch cfg (s, g) i) ↔
      (noteTalk s i g).strobed = (noteTalk s i g).loaded ++
        incoming (step cfg s i, noteTalk s i g) :=
    ⟨fun hAll => hAll.bytes,
      fun hBytes => ⟨hBytes, soon_of_talkInv hNext⟩⟩
  rw [hSoon]
  cases hReset : i.asic.nreset with
  | true => exact talk_bytes hInv hExact.bytes hReset
  | false =>
      have hShim := @shim_reset cfg s i hReset
      have hHost := @host_reset cfg s i hReset
      refine iff_of_true ?_ (by simp [TakenOver, hReset])
      simp [noteTalk, hReset, noTalk, incoming, hShim, hHost,
        Shim.resetState, Adb.resetHost]

end AdbPath

end Iosb
