import Wombat33.Clocked.Toggle
import Wombat33.Dafb.Registers
import Wombat33.Dafb.Scanout

/-
  Vertical blank, from the scanout to the status register.

  The controller runs on two clocks; a tick is an edge of
  either, or of both.  The start of a blank crosses as a
  toggle and sets two status bits.  Beside the run goes a
  notice of the blanks begun, the pulses seen and the status
  bits owed: set by a pulse, and paid by a clearing access in
  a later cycle.

  Key definitions include:
    * `Board`, `Tick`
    * `Notice`, `note`
    * `Announced`, `spares`

  Key theorems include:
    * `announced_step`
    * `blank_announced`
-/

------------------------------------------------------------
-- Both Clocks
------------------------------------------------------------

namespace Dafb

open Clocked

/- The scanout, the crossing and the register file. -/
structure Board where
  scan : Scan
  vbl : Toggle
  file : File

/- Which clocks have an edge, and what each side finds. -/
structure Tick where
  clk : Bool := false
  clkVid : Bool := false
  bus : Bus := {}
  nresetVid : Bool := true
  vram : BitVec 20 → BitVec 32 := fun _ => 0#32

variable (d : Board) (t : Tick)

/- The scanout stands at the first clock of the blank. -/
def vblStartV (s : Scan) : Bool := s.vcnt == 480 && s.hcnt == 0

/- A blank starts with this tick. -/
def blank : Bool := t.clkVid && vblStartV d.scan

def Board.step : Board where
  scan :=
    if t.clkVid then
      Dafb.step d.scan
        { nresetVid := t.nresetVid
          regs := d.file.toRegs
          vram := t.vram }
    else d.scan
  vbl := d.vbl.step (blank d t) t.clk
  file := if t.clk then d.file.step t.bus d.vbl.pulse else d.file

end Dafb

------------------------------------------------------------
-- Notices
------------------------------------------------------------

namespace Dafb

open Clocked

/- Blanks, pulses and the status bits owed. -/
structure Notice where
  since : Nat
  blanks : Nat
  pulses : Nat
  owed : BitVec 3

variable (d : Board) (t : Tick)

/- A pulse reaches the register file. -/
def announces : Bool := t.clk && d.vbl.pulse

def note (g : Notice) (d : Board) (t : Tick) : Notice where
  since := Toggle.since (blank d t) t.clk g.since
  blanks := if blank d t then g.blanks + 1 else g.blanks
  pulses := if announces d t then g.pulses + 1 else g.pulses
  owed :=
    if !t.clk then g.owed
    else if !t.bus.nreset then 0#3
    else if d.vbl.pulse then 0b101#3
    else g.owed &&& ~~~clears d.file t.bus

/-
  The register clock is always enabled, and a blank comes
  three register clocks or more after the one before it.
-/
def paced (x : Board × Notice) (t : Tick) : Prop :=
  t.bus.ce = true ∧
    (blank x.1 t = true →
      3 ≤ if t.clk then x.2.since + 1 else x.2.since)

/-
  Every blank but one still in the crossing has had its one
  pulse; the status bits owed read one, and the interrupt is
  up while an owed bit is enabled.
-/
structure Announced (x : Board × Notice) : Prop where
  counted : x.2.pulses + (if x.2.since < 3 then 1 else 0) =
    x.2.blanks
  status : x.2.owed &&& x.1.file.intStatus = x.2.owed
  line : x.2.owed &&& x.1.file.intEn ≠ 0#3 →
    vblIrq x.1.file = true

/- No clearing access meets the pulse of a blank. -/
def spares (d : Board) (t : Tick) : Prop :=
  announces d t = true → t.bus.nreset = true →
    clears d.file t.bus &&& 0b101#3 = 0#3

instance : Decidable (spares d t) :=
  inferInstanceAs (Decidable (_ → _))

end Dafb

------------------------------------------------------------
-- One Tick
------------------------------------------------------------

namespace Dafb

open Clocked

variable {d : Board} {g : Notice} {t : Tick}

/- Bits of the status that are owed are set. -/
theorem line_of_status
    {f : File} {owed : BitVec 3}
    (hStatus : owed &&& f.intStatus = owed)
    (hEnabled : owed &&& f.intEn ≠ 0#3) :
    vblIrq f = true := by
  simp only [vblIrq, bne_iff_ne]
  intro hNone
  apply hEnabled
  rw [← hStatus, BitVec.and_assoc, hNone, BitVec.and_zero]

/- What a pulse sets, a clearing access of its cycle clears. -/
theorem pulse_cleared
    (v c : BitVec 3) :
    0b101#3 &&& ((v ||| 0b101#3) &&& ~~~c) = 0b101#3 ↔
      c &&& 0b101#3 = 0#3 := by
  revert v c
  decide

/- Clearing what is owed and what is set alike. -/
theorem owed_cleared
    {owed v : BitVec 3}
    (hHeld : owed &&& v = owed)
    (c : BitVec 3) :
    (owed &&& ~~~c) &&& (v &&& ~~~c) = owed &&& ~~~c := by
  have hSwap : (owed &&& ~~~c) &&& (v &&& ~~~c) =
      (owed &&& v) &&& (~~~c &&& ~~~c) := by
    ac_rfl
  rw [hSwap, hHeld, BitVec.and_self]

/- What is owed is set after a tick exactly if it is spared. -/
theorem status_step
    (hStatus : g.owed &&& d.file.intStatus = g.owed)
    (hCe : t.bus.ce = true) :
    (note g d t).owed &&& (d.step t).file.intStatus =
        (note g d t).owed ↔
      spares d t := by
  simp only [note, Board.step, spares, announces]
  cases hClk : t.clk with
  | false => simpa using hStatus
  | true =>
      cases hReset : t.bus.nreset with
      | false => simp
      | true =>
          have hNext := @step_intStatus d.file t.bus d.vbl.pulse
            hReset hCe
          cases hPulse : d.vbl.pulse with
          | true =>
              rw [hPulse] at hNext
              simpa [hNext] using
                pulse_cleared d.file.intStatus
                  (clears d.file t.bus)
          | false =>
              rw [hPulse] at hNext
              simpa [hNext] using
                owed_cleared hStatus (clears d.file t.bus)

/- The invariant: the crossing is tracked. -/
def Tracked (x : Board × Notice) : Prop :=
  x.1.vbl.Tracks x.2.since

theorem tracked_step
    (x : Board × Notice)
    (t : Tick)
    (hTracks : Tracked x)
    (hPaced : paced x t) :
    Tracked (watch Board.step note x t) :=
  Toggle.tracks_step hTracks hPaced.2

/- A tick keeps the blanks announced exactly if it spares. -/
theorem announced_step
    (x : Board × Notice)
    (t : Tick)
    (hTracks : Tracked x)
    (hAnnounced : Announced x)
    (hPaced : paced x t) :
    Announced (watch Board.step note x t) ↔ spares x.1 t := by
  have hStatus := @status_step x.1 x.2 t hAnnounced.status
    hPaced.1
  constructor
  · intro hNext
    exact hStatus.mp hNext.status
  · intro hSpares
    have hSet := hStatus.mpr hSpares
    exact {
      counted := Toggle.counted_step hTracks hPaced.2
        hAnnounced.counted
      status := hSet
      line := line_of_status hSet }

end Dafb

------------------------------------------------------------
-- Runs
------------------------------------------------------------

namespace Dafb

open Clocked

/- Nothing announced yet, and nothing in the crossing. -/
def noNotice : Notice where
  since := 3
  blanks := 0
  pulses := 0
  owed := 0#3

theorem announced_noNotice (d : Board) :
    Announced (d, noNotice) where
  counted := rfl
  status := BitVec.zero_and
  line := fun hEnabled => absurd BitVec.zero_and hEnabled

/-
  Once the crossing has settled, every blank makes one pulse
  and its status bits stay set until a later clearing access,
  along the runs in which no clearing access meets a pulse,
  and along no others.
-/
theorem blank_announced
    (d : Board)
    (ts : List Tick)
    (hSettled : d.vbl.Tracks 3)
    (hPaced : Along (watch Board.step note) paced
      (d, noNotice) ts) :
    Always (watch Board.step note) Announced
        (d, noNotice) ts ↔
      Along Board.step spares d ts := by
  have hRule := always_iff_along_under tracked_step
    announced_step hPaced hSettled (announced_noNotice d)
  exact hRule.trans (along_watch _ _ spares _ _)

/- The scanout after 480 lines, the register file reset. -/
def lineEnd : Board where
  scan := scanned numbered greys default 384000
  vbl := ⟨false, false, false, false⟩
  file := resetFile default

theorem lineEnd_blanks : vblStartV lineEnd.scan = true := by
  rcases @scanned_counters numbered greys default 384000 with
    ⟨hH, hV⟩
  simp [vblStartV, lineEnd, hH, hV]

/- Ticks of an enabled register clock alone are paced. -/
theorem paced_of_registerClock
    {x : Board × Notice} {ts : List Tick}
    (hTicks : ∀ t ∈ ts, t.bus.ce = true ∧ t.clkVid = false) :
    Along (watch Board.step note) paced x ts := by
  apply along_mono _ (along_of_mem hTicks)
  rintro x t ⟨hCe, hStill⟩
  refine ⟨hCe, fun hBlank => ?_⟩
  simp [blank, hStill] at hBlank

/- A read of the blank's clear register. -/
def readClear : Bus := { sel := true, addr := 0x45#8 }

/- A blank, some register clocks, and a clearing read. -/
def clearedByRead (wait : Nat) : List Tick :=
  { clkVid := true } :: (List.replicate wait { clk := true } ++
    [{ clk := true, bus := readClear }])

theorem clearedByRead_paced (wait : Nat) :
    Along (watch Board.step note) paced
      (lineEnd, noNotice) (clearedByRead wait) := by
  refine ⟨⟨rfl, fun _ => Nat.le_refl 3⟩, ?_⟩
  apply paced_of_registerClock
  intro t hTick
  rcases List.mem_append.mp hTick with hWait | hRead
  · rw [List.eq_of_mem_replicate hWait]
    exact ⟨rfl, rfl⟩
  · rw [List.mem_singleton.mp hRead]
    exact ⟨rfl, rfl⟩

/- The status is read clear one clock after the pulse. -/
theorem blank_announced_clearedLater :
    Always (watch Board.step note) Announced
        (lineEnd, noNotice) (clearedByRead 3) ↔
      Along Board.step spares lineEnd (clearedByRead 3) :=
  blank_announced lineEnd (clearedByRead 3)
    (by constructor <;> rfl) (clearedByRead_paced 3)

/- The blank's toggle is all that the first tick changes. -/
theorem lineEnd_step :
    watch Board.step note (lineEnd, noNotice)
        { clkVid := true } =
      ({ scan := (lineEnd.step { clkVid := true }).scan
         vbl := ⟨true, false, false, false⟩
         file := resetFile default },
        { since := 0, blanks := 1, pulses := 0, owed := 0#3 }) := by
  have hBlank : blank lineEnd { clkVid := true } = true := by
    simp [blank, lineEnd_blanks]
  simp only [watch, note, Board.step, hBlank]
  rfl

/- A clearing access that comes with the pulse erases it. -/
theorem read_erases_blank :
    ¬ ∀ (d : Board) (ts : List Tick),
      d.vbl.Tracks 3 →
      Along (watch Board.step note) paced (d, noNotice) ts →
      Always (watch Board.step note) Announced
        (d, noNotice) ts := by
  intro hAll
  have hAlways := hAll lineEnd (clearedByRead 2)
    (by constructor <;> rfl) (clearedByRead_paced 2)
  have hEnd := hAlways (clearedByRead 2) (List.prefix_refl _)
  have hStatus := hEnd.status
  rw [clearedByRead, run_cons, lineEnd_step] at hStatus
  generalize (lineEnd.step { clkVid := true }).scan = sc
    at hStatus
  have hBlock : blk readClear = 1#2 := by decide
  have hClears : swatchClears readClear = 0b111#3 := by decide
  have hBeat : readClear.nreset = true ∧ readClear.ce = true ∧
      readClear.sel = true := by decide
  simp [List.replicate, watch, note, Board.step, Toggle.step,
    Toggle.pulse, blank, File.step, setStatus,
    access_intStatus, hBlock, hClears, hBeat] at hStatus

end Dafb
