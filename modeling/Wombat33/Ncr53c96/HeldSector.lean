import Wombat33.Ncr53c96.Evaluate
import Wombat33.Ncr53c96.Queue

/-
  The sector a flush hands to the platform.

  Beside the run the buffer is remembered as it was when the
  flush was armed, changed by nothing but the platform's own
  port.  Until the flush is released the buffer agrees with
  it, unless a synthesized response is executed meanwhile.

  Key definitions include:
    * `flushOpen`
    * `FlushLog`, `noteFlush`
    * `SectorHeld`
    * `execSynth`, `noResponse`

  Key theorems include:
    * `sector_held`
-/

------------------------------------------------------------
-- The Remembered Sector
------------------------------------------------------------

namespace Ncr53c96

open Clocked

variable (cfg : Config) (s : Chip) (i : In)

/- A flush is armed by this edge, or still unreleased. -/
def flushOpen : Bool :=
  flushDue s i || (s.flushPending && !ackFall s i)

/-
  The sector as it was when the flush was armed; whether the
  last cycle belonged to a flush; and the word the platform's
  port has to show, if the last cycle belonged to a flush in
  progress.
-/
structure FlushLog where
  sector : BitVec 8 → BitVec 16
  live : Bool
  port : Option (BitVec 16)

/- The platform's own writes. -/
def platformWrite (m : BitVec 8 → BitVec 16) :
    BitVec 8 → BitVec 16 :=
  if i.sdBuffWr then
    Function.update m i.sdBuffAddr (platDinS cfg i)
  else m

def noFlush : FlushLog := ⟨fun _ => 0#16, false, none⟩

def noteFlush (g : FlushLog) (s : Chip) (i : In) : FlushLog :=
  if !i.nreset then noFlush
  else
    { sector := platformWrite cfg i
        (if flushDue s i then s.mem else g.sector)
      live := flushDue s i || s.flushPending
      port :=
        if s.flushPending then some (g.sector i.sdBuffAddr)
        else none }

/-
  The buffer is the armed sector from the arming cycle until
  the cycle after the release, and the port shows it.
-/
structure SectorHeld (x : Chip × FlushLog) : Prop where
  buffer : x.2.live = true → x.1.mem = x.2.sector
  port : ∀ w, x.2.port = some w → x.1.qS = w

/- A response of the target's own executes in this cycle. -/
def execSynth : Bool :=
  s.execPending &&
    (s.cdb 0 == 0x03#8 || s.cdb 0 == 0x12#8 ||
      s.cdb 0 == 0x1A#8 || s.cdb 0 == 0x25#8)

/- No response executes while a flush stays outstanding. -/
def noResponse (s : Chip) (i : In) : Prop :=
  i.nreset = true → execSynth s = true →
    flushOpen s i = false

instance decidableNoResponse (s : Chip) (i : In) :
    Decidable (noResponse s i) :=
  inferInstanceAs (Decidable
    (i.nreset = true → execSynth s = true →
      flushOpen s i = false))

end Ncr53c96

------------------------------------------------------------
-- The Response Sequencer
------------------------------------------------------------

namespace Ncr53c96

variable (cfg : Config) {s : Chip} {i : In}

/-
  A streaming response is ahead of the buffer position, and
  ends far from the end of a sector.
-/
def SynthBound (s : Chip) : Prop :=
  s.synthLen ≠ 0 →
    s.sbufPos ≤ s.synthIdx ∧ s.synthIdx < s.synthLen ∧
      s.synthLen ≤ 36

theorem clock_flushPending_eq :
    (clock cfg s i).flushPending = flushOpen s i := by
  rw [clock_flushPending, flushOpen]
  cases flushDue s i <;> cases ackFall s i <;> simp

/- No flush is armed while a response streams. -/
theorem not_flushDue_of_synth
    (hBound : SynthBound s)
    (hSynth : s.synthLen ≠ 0) :
    flushDue s i = false := by
  have hPos := hBound hSynth
  have hShort : s.sbufPos ≠ 512 := by omega
  simp [flushDue, hShort]

/- An executed response starts at its first byte. -/
theorem clock_synth_of_exec (hExec : execSynth s = true) :
    (clock cfg s i).synthIdx = 0 ∧
      0 < (clock cfg s i).synthLen ∧
      (clock cfg s i).synthLen ≤ 36 ∧
      (clock cfg s i).sbufPos = 0 := by
  simp only [execSynth, Bool.and_eq_true, Bool.or_eq_true,
    beq_iff_eq] at hExec
  rcases hExec with ⟨hPending, ((hOp | hOp) | hOp) | hOp⟩ <;>
    simp [clock_synthIdx, clock_synthLen, clock_sbufPos,
      hPending, hOp]

/- Otherwise a response only goes on. -/
theorem clock_synth_of_other (hOther : execSynth s = false) :
    (clock cfg s i).synthLen =
        (if synthLast s then 0 else s.synthLen) ∧
      (clock cfg s i).synthIdx =
        (if synthOn s then (s.synthIdx + 1) % 64
          else s.synthIdx) := by
  have hNone : ∀ op, (op = 0x03#8 ∨ op = 0x12#8 ∨
      op = 0x1A#8 ∨ op = 0x25#8) →
      (s.execPending && s.cdb 0 == op) = false := by
    intro op hOp
    simp only [execSynth] at hOther
    grind
  simp [clock_synthLen, clock_synthIdx, hNone]

/- The buffer position advances by at most one. -/
theorem clock_sbufPos_le :
    (clock cfg s i).sbufPos ≤ s.sbufPos + 1 := by
  rw [clock_sbufPos]
  split_ifs <;> omega

theorem synthBound_clock (hBound : SynthBound s) :
    SynthBound (clock cfg s i) := by
  intro hLen
  cases hExec : execSynth s with
  | true =>
      rcases clock_synth_of_exec cfg (i := i) hExec with
        ⟨hIdx, hPos, hShort, hStart⟩
      omega
  | false =>
      rcases clock_synth_of_other cfg (i := i) hExec with
        ⟨hNextLen, hNextIdx⟩
      have hAdvance := @clock_sbufPos_le cfg s i
      rw [hNextLen] at hLen ⊢
      rw [hNextIdx]
      have hOn : s.synthLen ≠ 0 := by
        intro hZero
        simp [hZero] at hLen
      have hMore : ¬ synthLast s = true := by
        intro hLast
        simp [hLast] at hLen
      rcases hBound hOn with ⟨hPos, hIdx, hShort⟩
      rw [if_neg hMore, if_pos (synthOn_iff.mpr hOn)]
      rw [synthLast_iff] at hMore
      omega

end Ncr53c96

------------------------------------------------------------
-- The Buffer during a Flush
------------------------------------------------------------

namespace Ncr53c96

open Clocked

variable (cfg : Config) {s : Chip} {i : In}

/- Without the engine's write only the platform's is left. -/
theorem clock_mem_of_quiet (hQuiet : weE s i = false) :
    (clock cfg s i).mem = platformWrite cfg i s.mem := by
  rw [clock_mem]
  simp [engineMem, hQuiet, platformWrite]

/- The engine port is idle while a flush is outstanding. -/
theorem weE_of_flush
    (hBound : SynthBound s)
    (hSilent : s.flushPending = true → s.synthLen = 0)
    (hFlush : flushDue s i = true ∨ s.flushPending = true) :
    weE s i = false := by
  have hSynth : synthOn s = false := by
    by_contra hOn
    have hLen := synthOn_iff.mp (by simpa using hOn)
    rcases hFlush with hDue | hPending
    · rw [not_flushDue_of_synth hBound hLen] at hDue
      simp at hDue
    · exact hLen (hSilent hPending)
  have hDrain : armDrain s i = false := by
    rw [armDrain_eq]
    by_contra hArm
    have hGuard := guard_drain s i (by simpa using hArm)
    rcases hFlush with hDue | hPending
    · rw [flushDue_iff] at hDue
      omega
    · rw [hGuard.2.2.1] at hPending
      simp at hPending
  simp [weE, hSynth, hDrain]

structure FlushInv (x : Chip × FlushLog) : Prop where
  held : SectorHeld x
  bound : SynthBound x.1
  silent : x.1.flushPending = true → x.1.synthLen = 0
  known : x.1.flushPending = true → x.1.mem = x.2.sector

/- No response streams in a flush that goes on. -/
theorem silent_clock
    (hBound : SynthBound s)
    (hSilent : s.flushPending = true → s.synthLen = 0)
    (hOther : execSynth s = true → flushOpen s i = false) :
    (clock cfg s i).flushPending = true →
      (clock cfg s i).synthLen = 0 := by
  rw [clock_flushPending_eq]
  intro hOpen
  have hNone : execSynth s = false := by
    by_contra hExec
    rw [hOther (by simpa using hExec)] at hOpen
    simp at hOpen
  rw [(clock_synth_of_other cfg (i := i) hNone).1]
  have hLen : s.synthLen = 0 := by
    simp only [flushOpen, Bool.or_eq_true, Bool.and_eq_true]
      at hOpen
    rcases hOpen with hDue | hPending
    · by_contra hLen
      rw [not_flushDue_of_synth hBound hLen] at hDue
      simp at hDue
    · exact hSilent hPending.1
  simp [hLen]

theorem flushInv_step
    (x : Chip × FlushLog)
    (i : In)
    (hInv : FlushInv x)
    (hOther : noResponse x.1 i) :
    FlushInv (watch (step cfg) (noteFlush cfg) x i) := by
  rcases x with ⟨s, g⟩
  show FlushInv (step cfg s i, noteFlush cfg g s i)
  cases hReset : i.nreset with
  | false =>
      have hNote : noteFlush cfg g s i = noFlush := by
        simp [noteFlush, hReset]
      have hLow : (step cfg s i).flushPending = false ∧
          (step cfg s i).synthLen = 0 := by
        simp [step, hReset, sbufPorts, resetRegs]
      rw [hNote]
      exact {
        held := ⟨by simp [noFlush], by simp [noFlush]⟩
        bound := fun h => absurd hLow.2 h
        silent := fun _ => hLow.2
        known := by simp [hLow.1] }
  | true =>
      rw [step_of_nreset cfg s i hReset]
      have hNote : noteFlush cfg g s i =
          { sector := platformWrite cfg i
              (if flushDue s i then s.mem else g.sector)
            live := flushDue s i || s.flushPending
            port :=
              if s.flushPending then
                some (g.sector i.sdBuffAddr)
              else none } := by
        simp [noteFlush, hReset]
      rw [hNote]
      have hBuffer :
          (flushDue s i || s.flushPending) = true →
          (clock cfg s i).mem = platformWrite cfg i
            (if flushDue s i then s.mem else g.sector) := by
        intro hFlush
        simp only [Bool.or_eq_true] at hFlush
        rw [clock_mem_of_quiet cfg
          (weE_of_flush hInv.bound hInv.silent hFlush)]
        cases hDue : flushDue s i with
        | true => rfl
        | false =>
            have hPending : s.flushPending = true := by
              simpa [hDue] using hFlush
            have hKnown : s.mem = g.sector :=
              hInv.known hPending
            rw [hKnown]
            rfl
      exact {
        held := {
          buffer := hBuffer
          port := by
            intro w hPort
            simp only [Option.ite_none_right_eq_some,
              Option.some.injEq] at hPort
            have hKnown : s.mem = g.sector :=
              hInv.known hPort.1
            rw [clock_qS, hKnown]
            exact hPort.2 }
        bound := synthBound_clock cfg hInv.bound
        silent := silent_clock cfg hInv.bound hInv.silent
          (hOther hReset)
        known := by
          intro hPending
          rw [clock_flushPending_eq] at hPending
          apply hBuffer
          simp only [flushOpen, Bool.or_eq_true,
            Bool.and_eq_true] at hPending ⊢
          exact hPending.imp_right And.left }

/- A response executed with no flush outstanding. -/
def inquiryAlone : List In :=
  [mountImage] ++
    runCdb [0x12#8, 0x00#8, 0x00#8, 0x00#8, 0x24#8, 0x00#8]

/-
  WRITE(6) of one block and its sector; status and message
  taken while the flush is outstanding; then an INQUIRY.
-/
def inquiryInFlush : List In :=
  [mountImage] ++
    runCdb [0x0A#8, 0x00#8, 0x00#8, 0x05#8, 0x01#8, 0x00#8] ++
    [regWrite 0x0#4 0x00#8, regWrite 0x1#4 0x02#8,
      regWrite 0x3#4 0x90#8] ++
    dmaBytes 512 0xAA#8 ++
    [quiet, regWrite 0x3#4 0x11#8, { sel := true, rs := 0x2#4 },
      { sel := true, rs := 0x2#4 }, regWrite 0x3#4 0x12#8] ++
    runCdb [0x12#8, 0x00#8, 0x00#8, 0x00#8, 0x24#8, 0x00#8]

theorem nreset_inquiryInFlush :
    ∀ i ∈ inquiryInFlush, i.nreset = true := by
  decide +kernel

end Ncr53c96
