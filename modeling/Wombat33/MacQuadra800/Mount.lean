import Mathlib.Algebra.Group.Nat.Defs
import Wombat33.MacQuadra800.Boot
import Wombat33.Ncr53c96.Next
import Wombat33.Clocked.Run

/-
  The mounted image across machine resets.

  The framework announces a mount once; the SCSI target
  forgets it on every reset.  The top level remembers the
  image and announces it again after each reset.  The target
  is the SCSI controller itself, its other pins arbitrary.

  Key definitions include:
    * `Mount`, `Machine`, `step`
    * `Log`, `note`
    * `MountKept`, `MountInv`

  Key theorems include:
    * `mountInv_step`
    * `mount_kept`
-/

------------------------------------------------------------
-- Mount Replay
------------------------------------------------------------

namespace MacQuadra800

/- The registers outside the machine reset. -/
structure Mount where
  valid : Bool
  size : BitVec 64
  replay : Bool
  resetD : Bool
  machImgMounted : Bool
  deriving DecidableEq, Inhabited

namespace Mount

def start : Mount := ⟨false, 0#64, false, true, false⟩

/- The reset has just been released over a valid mount. -/
def released (m : Mount) (reset : Bool) : Bool :=
  m.resetD && !reset && m.valid

variable (m : Mount) (reset imgMounted : Bool)
variable (imgSize : BitVec 64)

/- A pulse, a release and a replay, in order of priority. -/
def next : Mount where
  size := if imgMounted then imgSize else m.size
  valid := if imgMounted then imgSize != 0#64 else m.valid
  replay :=
    if imgMounted then true
    else if m.released reset then true
    else if m.replay && !reset then false
    else m.replay
  resetD := reset
  machImgMounted :=
    if imgMounted then false
    else if m.released reset then false
    else m.replay && !reset

end Mount

end MacQuadra800

------------------------------------------------------------
-- The Machine
------------------------------------------------------------

namespace MacQuadra800

/- The pins of one cycle; `scsi` is what iosb drives. -/
structure MountIn extends Pins where
  imgMounted : Bool := false
  imgSize : BitVec 64 := 0#64
  scsi : Ncr53c96.In := {}
  deriving DecidableEq

structure Machine where
  boot : Boot
  mount : Mount
  scsi : Ncr53c96.Chip
  deriving Inhabited

namespace Machine

variable (cfg : Ncr53c96.Config) (s : Machine) (i : MountIn)

/- At configuration the target's registers hold anything. -/
def start (scsi : Ncr53c96.Chip) : Machine :=
  ⟨Boot.start, Mount.start, scsi⟩

def reset : Bool := s.boot.reset i.toPins

/- The target sees the replayed pulse and the kept size. -/
def scsiIn : Ncr53c96.In :=
  { i.scsi with
    nreset := !s.reset i
    imgMounted := s.mount.machImgMounted
    imgSize := s.mount.size }

def step : Machine where
  boot := s.boot.next i.toPins
  mount := s.mount.next (s.reset i) i.imgMounted i.imgSize
  scsi := Ncr53c96.step cfg s.scsi (s.scsiIn i)

end Machine

end MacQuadra800

------------------------------------------------------------
-- What Is Asked
------------------------------------------------------------

namespace MacQuadra800

open Clocked

/-
  The size of the image mounted last (0: none, or ejected),
  and for how many cycles there was neither a reset nor a
  pulse.
-/
structure Log where
  latest : BitVec 64
  calm : Nat
  deriving DecidableEq

def Log.start : Log := ⟨0#64, 0⟩

def note (g : Log) (s : Machine) (i : MountIn) : Log where
  latest := if i.imgMounted then i.imgSize else g.latest
  calm :=
    if s.reset i || i.imgMounted then 0 else g.calm + 1

/- The target knows the image, with a 32-bit block count. -/
def Knows (scsi : Ncr53c96.Chip) (size : BitVec 64) : Prop :=
  scsi.mounted = decide (size ≠ 0#64) ∧
    scsi.diskBlocks.toNat = size.toNat / 512 % 2 ^ 32

/- Neither a reset, a pulse nor a replay is under way. -/
def Settled (m : Mount) : Prop :=
  m.resetD = false ∧ m.replay = false ∧
    m.machImgMounted = false

/-
  The target knows the latest image in every settled state,
  and the state settles within three cycles.
-/
structure MountKept (x : Machine × Log) : Prop where
  knows : Settled x.1.mount → Knows x.1.scsi x.2.latest
  settles : 3 ≤ x.2.calm → Settled x.1.mount

end MacQuadra800

------------------------------------------------------------
-- The Target's Copy
------------------------------------------------------------

namespace MacQuadra800

variable (cfg : Ncr53c96.Config) {s : Machine} {i : MountIn}

/- A reset cycle clears the target's copy. -/
theorem cleared_of_reset (hReset : s.reset i = true) :
    Knows (s.step cfg i).scsi 0#64 := by
  simp [Machine.step, Machine.scsiIn, Ncr53c96.step, hReset,
    Knows, Ncr53c96.sbufPorts, Ncr53c96.resetRegs]

/- The replayed pulse hands over the remembered size. -/
theorem told_of_pulse
    (hReset : s.reset i = false)
    (hPulse : s.mount.machImgMounted = true) :
    Knows (s.step cfg i).scsi s.mount.size := by
  have hEdge : (s.step cfg i).scsi =
      Ncr53c96.clock cfg s.scsi (s.scsiIn i) := by
    apply Ncr53c96.step_of_nreset
    simp [Machine.scsiIn, hReset]
  rw [hEdge]
  unfold Knows
  rw [Ncr53c96.clock_mounted, Ncr53c96.clock_diskBlocks]
  by_cases hEject : s.mount.size = 0#64 <;>
    simp [Machine.scsiIn, hPulse, hEject,
      Nat.shiftRight_eq_div_pow]

/- Without one the copy stays. -/
theorem keeps_of_no_pulse
    {size : BitVec 64}
    (hReset : s.reset i = false)
    (hPulse : s.mount.machImgMounted = false)
    (hKnows : Knows s.scsi size) :
    Knows (s.step cfg i).scsi size := by
  have hEdge : (s.step cfg i).scsi =
      Ncr53c96.clock cfg s.scsi (s.scsiIn i) := by
    apply Ncr53c96.step_of_nreset
    simp [Machine.scsiIn, hReset]
  rw [hEdge]
  unfold Knows
  rw [Ncr53c96.clock_mounted, Ncr53c96.clock_diskBlocks]
  simp only [Machine.scsiIn, hPulse, Bool.false_eq_true,
    if_false]
  exact hKnows

end MacQuadra800

------------------------------------------------------------
-- The Invariant
------------------------------------------------------------

namespace MacQuadra800

open Clocked

/-
  What the registers outside the reset remember, and what the
  target's copy is in each state of the replay.
-/
structure MountInv (x : Machine × Log) : Prop where
  size : x.1.mount.size = x.2.latest
  valid : x.1.mount.valid = decide (x.2.latest ≠ 0#64)
  loading : x.1.boot.romLoaded = false →
    x.1.mount.resetD = true
  cleared : x.1.boot.romLoaded = true →
    x.1.mount.resetD = true → Knows x.1.scsi 0#64
  pulse : x.1.mount.machImgMounted = true →
    x.1.mount.resetD = false
  knows : Settled x.1.mount → Knows x.1.scsi x.2.latest
  released : 1 ≤ x.2.calm → x.1.mount.resetD = false
  replayed : 2 ≤ x.2.calm → x.1.mount.replay = false
  told : 3 ≤ x.2.calm → x.1.mount.machImgMounted = false

variable (cfg : Ncr53c96.Config)
variable {s : Machine} {g : Log} {i : MountIn}

theorem mountInv_start (scsi : Ncr53c96.Chip) :
    MountInv (Machine.start scsi, Log.start) := by
  constructor <;>
    simp [Machine.start, Log.start, Mount.start, Boot.start,
      Settled]

/- A cycle that ends settled began no replay. -/
theorem idle_of_settled
    (hSettled : Settled (s.step cfg i).mount) :
    s.reset i = false ∧ i.imgMounted = false ∧
      s.mount.replay = false ∧
      s.mount.released (s.reset i) = false := by
  rcases hSettled with ⟨hReset, hReplay, hPulse⟩
  have hReset' : s.reset i = false := hReset
  simp only [Machine.step, Mount.next] at hReplay hPulse
  rw [hReset'] at hReplay hPulse ⊢
  cases hMounted : i.imgMounted with
  | true => simp [hMounted] at hReplay
  | false =>
      cases hReleased : s.mount.released false with
      | true => simp [hMounted, hReleased] at hReplay
      | false =>
          simp [hMounted, hReleased] at hPulse
          exact ⟨rfl, rfl, hPulse, rfl⟩

/- A settled state knows the image: one case per source. -/
theorem knows_step
    (hInv : MountInv (s, g))
    (hSettled : Settled (s.step cfg i).mount) :
    Knows (s.step cfg i).scsi (note g s i).latest := by
  rcases idle_of_settled cfg hSettled with
    ⟨hReset, hMounted, hReplay, hReleased⟩
  have hSize : s.mount.size = g.latest := hInv.size
  have hLatest : (note g s i).latest = g.latest := by
    simp [note, hMounted]
  rw [hLatest]
  cases hPulse : s.mount.machImgMounted with
  | true =>
      rw [← hSize]
      exact told_of_pulse cfg hReset hPulse
  | false =>
      apply keeps_of_no_pulse cfg hReset hPulse
      cases hResetD : s.mount.resetD with
      | false => exact hInv.knows ⟨hResetD, hReplay, hPulse⟩
      | true =>
          -- the release of a reset over no image: none is told
          have hValid : s.mount.valid = false := by
            simpa [Mount.released, hResetD, hReset]
              using hReleased
          have hNone : g.latest = 0#64 := by
            have hSame : s.mount.valid =
                decide (g.latest ≠ 0#64) := hInv.valid
            rw [hValid] at hSame
            simpa using hSame.symm
          have hLoaded :=
            Boot.loaded_of_not_reset _ _ hReset
          rw [hNone]
          exact hInv.cleared hLoaded hResetD

/- A calm cycle after `k` calm ones. -/
theorem calm_cycle
    {k : Nat}
    (hCalm : k + 1 ≤ (note g s i).calm) :
    s.reset i = false ∧ i.imgMounted = false ∧
      k ≤ g.calm := by
  simp only [note] at hCalm
  split at hCalm
  next => omega
  next hCycle =>
      simp only [Bool.or_eq_true, not_or,
        Bool.not_eq_true] at hCycle
      exact ⟨hCycle.1, hCycle.2, by omega⟩

theorem mountInv_step
    (hInv : MountInv (s, g)) :
    MountInv (watch (Machine.step cfg) note (s, g) i) where
  size := by
    have hSize : s.mount.size = g.latest := hInv.size
    simp [Machine.step, Mount.next, note, hSize]
  valid := by
    have hValid : s.mount.valid = decide (g.latest ≠ 0#64) :=
      hInv.valid
    cases hMounted : i.imgMounted with
    | true =>
        by_cases hEject : i.imgSize = 0#64 <;>
          simp [Machine.step, Mount.next, note, hMounted,
            hEject]
    | false =>
        simpa [Machine.step, Mount.next, note, hMounted]
          using hValid
  loading := by
    intro hLoading
    show s.reset i = true
    cases hReset : s.reset i with
    | true => rfl
    | false =>
        have hLoaded := Boot.next_loaded _ i.toPins
          (Boot.loaded_of_not_reset _ _ hReset)
        rw [← hLoading, ← hLoaded]
        rfl
  cleared := by
    intro _ hReset
    exact cleared_of_reset cfg hReset
  pulse := by
    intro hPulse
    show s.reset i = false
    cases hReset : s.reset i with
    | false => rfl
    | true =>
        simp [Machine.step, Mount.next, hReset] at hPulse
  knows := knows_step cfg hInv
  released := by
    intro hCalm
    exact (calm_cycle hCalm).1
  replayed := by
    intro hCalm
    rcases calm_cycle hCalm with ⟨hReset, hMounted, hOne⟩
    have hResetD : s.mount.resetD = false :=
      hInv.released hOne
    simp [Machine.step, Mount.next, Mount.released, hReset,
      hMounted, hResetD]
  told := by
    intro hCalm
    rcases calm_cycle hCalm with ⟨hReset, hMounted, hTwo⟩
    have hReplay : s.mount.replay = false :=
      hInv.replayed hTwo
    simp [Machine.step, Mount.next, hReplay]

/- The invariant is all that is asked for. -/
theorem mountKept_of_inv
    {x : Machine × Log}
    (hInv : MountInv x) :
    MountKept x where
  knows := hInv.knows
  settles := by
    intro hCalm
    exact ⟨hInv.released (by omega), hInv.replayed (by omega),
      hInv.told hCalm⟩

/-
  In every run from configuration, whatever the pulses and
  the resets, the target knows the image mounted last in
  every state that is settled, as every state is after three
  cycles without a reset and without a pulse.
-/
theorem mount_kept (scsi : Ncr53c96.Chip) (is : List MountIn) :
    Always (watch (Machine.step cfg) note) MountKept
      (Machine.start scsi, Log.start) is := by
  apply always_mono (fun _ => mountKept_of_inv)
  exact always_of_along
    (fun x i hInv _ => mountInv_step cfg hInv)
    (along_of_mem fun _ _ => trivial) (mountInv_start scsi)

/- A download, then an image of 2^41 bytes is mounted. -/
def hugeMount : List MountIn :=
  [{ ioctlDownload := true }, {},
    { imgMounted := true, imgSize := 0x20000000000#64 },
    {}, {}, {}]

/- The block count is a 32-bit register. -/
theorem huge_image_wraps :
    ¬ ∀ (cfg : Ncr53c96.Config) (scsi : Ncr53c96.Chip)
      (is : List MountIn),
      Always (watch (Machine.step cfg) note)
        (fun x => 3 ≤ x.2.calm →
          x.1.scsi.mounted = decide (x.2.latest ≠ 0#64) ∧
            x.1.scsi.diskBlocks.toNat =
              x.2.latest.toNat / 512)
        (Machine.start scsi, Log.start) is := by
  intro hAll
  have hEnd := hAll ⟨0#4, false⟩ default hugeMount hugeMount
    (List.prefix_refl _) (by decide +kernel)
  exact absurd hEnd.2 (by decide +kernel)

end MacQuadra800
