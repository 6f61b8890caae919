import Wombat33.Iosb.ScsiLatch

/-
  The hold-off watchdog of a pseudo-DMA beat.

  A block transfer is in flight while the controller's
  request strobe, the platform's acknowledge or its registered
  copy is up.  Beside the run goes the number of cycles the
  present beat has waited for a byte with nothing in flight.

  Key definitions include:
    * `inFlight`, `waiting`
    * `idleWaits`
    * `HoldoffEdge`, `sparesAcked`

  Key theorems include:
    * `holdoffEdge_iff`
    * `holdoff_iff`
-/

------------------------------------------------------------
-- Waiting
------------------------------------------------------------

namespace Iosb

open Clocked

variable (cfg : Config) (s : Asic) (i : In)

/- A block transfer is in flight, by the controller's wire. -/
def inFlight : Bool := Ncr53c96.ioBusy s.scsi (scsiIn s i)

/- A pseudo-DMA beat waits for its next byte. -/
def waiting : Bool :=
  i.nreset && i.ce && s.beat.astate == .sdma &&
    !s.scsi.dmaValid

/- The watchdog's last count. -/
def expiry : Nat := 2 ^ cfg.sdmaTimeoutBits - 1

/-
  Cycles the present beat has waited since its last byte with
  no block transfer in flight.
-/
def idleWaits (k : Nat) (s : Asic) (i : In) : Nat :=
  if !i.nreset then 0
  else if !i.ce then k
  else if s.beat.astate != .sdma || s.scsi.dmaValid then 0
  else if inFlight s i then k
  else k + 1

/-
  What the watchdog owes in one cycle: it does not advance
  while a transfer is in flight, and it releases a beat as
  failed only after that many idle cycles.
-/
structure HoldoffEdge (x : Asic × Nat) (i : In) : Prop where
  held : inFlight x.1 i = true →
    (step cfg x.1 i).beat.sdmaWatch ≤ x.1.beat.sdmaWatch
  earned : waiting x.1 i = true →
    (step cfg x.1 i).beat.sdmaFault = true → expiry cfg ≤ x.2

/-
  No beat short of the last count waits, strobes down, while
  the platform acknowledges or has just ceased to.
-/
def sparesAcked (s : Asic) (i : In) : Prop :=
  waiting s i = true → s.beat.sdmaWatch ≠ expiry cfg →
    s.scsi.ioRd = false → s.scsi.ioWr = false →
    i.ioAck = false ∧ s.scsi.ioAckD = false

/- The watchdog counts idle waits only. -/
def Ages (x : Asic × Nat) : Prop :=
  x.1.beat.astate = .sdma → x.1.beat.sdmaWatch ≤ x.2

end Iosb

------------------------------------------------------------
-- One Cycle
------------------------------------------------------------

namespace Iosb

open Clocked

variable {cfg : Config} {s : Asic} {i : In}

/- While a beat waits, only its watchdog may move. -/
theorem beat_of_waiting
    (hWaiting : waiting s i = true) :
    (step cfg s i).beat =
      beatSdma cfg s
        { s.beat with ack := false, sdmaFault := false } := by
  simp only [waiting, Bool.and_eq_true, beq_iff_eq] at hWaiting
  simp [step, beatNext, hWaiting.1.1.1, hWaiting.1.1.2,
    hWaiting.1.2]

/- The watchdog of a waiting beat. -/
theorem sdmaWatch_of_waiting
    (hWaiting : waiting s i = true) :
    (step cfg s i).beat.sdmaWatch =
      if s.beat.sdmaWatch = expiry cfg then 0
      else if s.scsi.ioRd = false ∧ s.scsi.ioWr = false then
        s.beat.sdmaWatch + 1
      else s.beat.sdmaWatch := by
  have hByte : s.scsi.dmaValid = false := by
    simp only [waiting, Bool.and_eq_true] at hWaiting
    simpa using hWaiting.2
  rw [beat_of_waiting hWaiting]
  simp only [beatSdma, hByte, expiry, beq_iff_eq,
    Bool.false_eq_true, if_false, Bool.and_eq_true,
    Bool.not_eq_true']
  by_cases hLast :
      s.beat.sdmaWatch = 2 ^ cfg.sdmaTimeoutBits - 1
  · simp [hLast]
  · simp only [hLast, if_false]
    split_ifs <;> rfl

/- A waiting beat is released as failed at the last count. -/
theorem sdmaFault_of_waiting
    (hWaiting : waiting s i = true) :
    (step cfg s i).beat.sdmaFault = true ↔
      s.beat.sdmaWatch = expiry cfg := by
  have hByte : s.scsi.dmaValid = false := by
    simp only [waiting, Bool.and_eq_true] at hWaiting
    simpa using hWaiting.2
  rw [beat_of_waiting hWaiting]
  simp only [beatSdma, hByte, expiry, beq_iff_eq,
    Bool.false_eq_true, if_false]
  split_ifs with hLast
  · simp [hLast]
  · simp [hLast]
  · simp [hLast]

/- An idle beat slave accepts a beat or stays idle. -/
theorem beatNext_of_idle
    (hState : s.beat.astate = .idle) :
    beatNext cfg s i =
      if i.sel && !s.beat.ack then
        beatAccept s i
          { s.beat with ack := false, sdmaFault := false }
      else { s.beat with ack := false, sdmaFault := false } := by
  simp only [beatNext, hState]

/- Accepting a beat clears the watchdog or is not for it. -/
theorem beatAccept_watch
    (b : Beat)
    (hIdle : b.astate = .idle) :
    (beatAccept s i b).sdmaWatch = 0 ∨
      ((beatAccept s i b).sdmaWatch = b.sdmaWatch ∧
        (beatAccept s i b).astate ≠ .sdma) := by
  simp only [beatAccept, apply_ite Beat.sdmaWatch,
    apply_ite Beat.astate, ite_self]
  split_ifs <;> simp [hIdle]

/-
  A cycle in which no beat waits clears the watchdog, or
  leaves it alone and brings no beat to wait.
-/
theorem sdmaWatch_of_rest
    (hRest : waiting s i = false) :
    (step cfg s i).beat.sdmaWatch = 0 ∨
      ((step cfg s i).beat.sdmaWatch = s.beat.sdmaWatch ∧
        ((step cfg s i).beat.astate = .sdma →
          s.beat.astate = .sdma ∧ i.ce = false)) := by
  cases hReset : i.nreset with
  | false => simp [step, hReset, resetBeat]
  | true =>
      cases hCe : i.ce with
      | false => simp [step, hReset, hCe]
      | true =>
          have hBeat : (step cfg s i).beat = beatNext cfg s i := by
            simp [step, hReset, hCe]
          rw [hBeat]
          cases hState : s.beat.astate with
          | idle =>
              rw [beatNext_of_idle hState]
              split
              next =>
                  rcases @beatAccept_watch s i
                      { s.beat with
                        ack := false, sdmaFault := false }
                      hState with
                    hClear | ⟨hSame, hOther⟩
                  · exact Or.inl hClear
                  · exact Or.inr ⟨hSame, fun h => absurd h hOther⟩
              next => simp [hState]
          | sdma =>
              have hByte : s.scsi.dmaValid = true := by
                simpa [waiting, hReset, hCe, hState] using hRest
              left
              simp only [beatNext, hState, beatSdma, hByte, if_true]
              split_ifs <;> rfl
          | capture | asc => simp [beatNext, hState]
          | via | sccAcc | sccRel =>
              simp only [beatNext, hState]
              split_ifs <;> simp

/- Each cycle keeps the watchdog to idle waits, if spared. -/
theorem holdoffEdge_iff
    (x : Asic × Nat)
    (i : In)
    (hAges : Ages x) :
    HoldoffEdge cfg x i ↔ sparesAcked cfg x.1 i := by
  rcases x with ⟨s, k⟩
  show HoldoffEdge cfg (s, k) i ↔ sparesAcked cfg s i
  constructor
  · intro hEdge hWaiting hShort hRd hWr
    by_contra hAcked
    have hBusy : inFlight s i = true := by
      simp only [inFlight, Ncr53c96.ioBusy, hRd, hWr,
        Bool.false_or, Bool.or_eq_true]
      by_contra hNone
      rw [not_or, Bool.not_eq_true, Bool.not_eq_true] at hNone
      exact hAcked hNone
    have hHeld := hEdge.held hBusy
    simp only [sdmaWatch_of_waiting hWaiting, hShort, hRd, hWr]
      at hHeld
    have hLess : s.beat.sdmaWatch + 1 ≤ s.beat.sdmaWatch := by
      simpa using hHeld
    omega
  · intro hSpares
    constructor
    · intro hBusy
      show (step cfg s i).beat.sdmaWatch ≤ s.beat.sdmaWatch
      cases hWaiting : waiting s i with
      | false =>
          rcases sdmaWatch_of_rest hWaiting with
            hClear | ⟨hSame, -⟩
          · rw [hClear]
            exact Nat.zero_le _
          · exact hSame.le
      | true =>
          rw [sdmaWatch_of_waiting hWaiting]
          split_ifs with hLast hDown
          · omega
          · have hQuiet :=
              hSpares hWaiting hLast hDown.1 hDown.2
            have hIdle : inFlight s i = false := by
              simp only [inFlight, Ncr53c96.ioBusy, hDown.1,
                hDown.2, hQuiet.2, Bool.or_false]
              exact hQuiet.1
            exact absurd hBusy (by simp [hIdle])
          · exact le_refl _
    · intro hWaiting hFault
      have hLast := (sdmaFault_of_waiting hWaiting).mp hFault
      have hState : s.beat.astate = .sdma := by
        simp only [waiting, Bool.and_eq_true, beq_iff_eq]
          at hWaiting
        exact hWaiting.1.2
      have hCounted : s.beat.sdmaWatch ≤ k := hAges hState
      exact hLast ▸ hCounted

/- Spared or not, the watchdog counts no more than it may. -/
theorem ages_step
    (x : Asic × Nat)
    (i : In)
    (hAges : Ages x)
    (hEdge : HoldoffEdge cfg x i) :
    Ages (watch (step cfg) idleWaits x i) := by
  rcases x with ⟨s, k⟩
  show (step cfg s i).beat.astate = .sdma →
    (step cfg s i).beat.sdmaWatch ≤ idleWaits k s i
  intro hNext
  have hReset : i.nreset = true := by
    by_contra hLow
    rw [Bool.not_eq_true] at hLow
    simp [step, hLow, resetBeat] at hNext
  cases hWaiting : waiting s i with
  | false =>
      rcases @sdmaWatch_of_rest cfg s i hWaiting with
        hClear | ⟨hSame, hStays⟩
      · rw [hClear]
        exact Nat.zero_le _
      · rcases hStays hNext with ⟨hState, hCe⟩
        have hCounted : s.beat.sdmaWatch ≤ k := hAges hState
        simpa [hSame, idleWaits, hReset, hCe] using hCounted
  | true =>
      simp only [waiting, Bool.and_eq_true, beq_iff_eq,
        Bool.not_eq_true'] at hWaiting
      rcases hWaiting with ⟨⟨⟨-, hCe⟩, hState⟩, hByte⟩
      have hWaiting : waiting s i = true := by
        simp [waiting, hReset, hCe, hState, hByte]
      have hCounted : s.beat.sdmaWatch ≤ k := hAges hState
      have hNote : idleWaits k s i =
          if inFlight s i then k else k + 1 := by
        simp [idleWaits, hReset, hCe, hState, hByte]
      rw [hNote]
      cases hBusy : inFlight s i with
      | true =>
          have hHeld := hEdge.held hBusy
          exact hHeld.trans hCounted
      | false =>
          rw [sdmaWatch_of_waiting hWaiting]
          simp only [Bool.false_eq_true, if_false]
          split_ifs <;> omega

end Iosb

------------------------------------------------------------
-- Runs
------------------------------------------------------------

namespace Iosb

open Clocked

/- The machine after a reset cycle, with no beat waiting. -/
def holdoffStart (cfg : Config) (s : Asic) : Asic × Nat :=
  (step cfg s { nreset := false }, 0)

/-
  The watchdog keeps to idle waits along the runs in which no
  beat waits with the strobes down and the acknowledge, or
  its registered copy, up; and along no others.
-/
theorem holdoff_iff
    (cfg : Config)
    (s : Asic)
    (is : List In) :
    Along (watch (step cfg) idleWaits) (HoldoffEdge cfg)
        (holdoffStart cfg s) is ↔
      Along (step cfg) (sparesAcked cfg)
        (step cfg s { nreset := false }) is := by
  have hRule := @along_iff_along_under (Asic × Nat) In
    (watch (step cfg) idleWaits)
    (fun x i => sparesAcked cfg x.1 i) Ages (HoldoffEdge cfg)
    (fun _ _ => True)
    (fun x i hAges _ hEdge => ages_step x i hAges hEdge)
    (fun x i hAges _ => holdoffEdge_iff x i hAges)
    (holdoffStart cfg s) is (along_of_mem (fun _ _ => trivial))
    (fun _ => Nat.le_refl 0)
  exact hRule.trans (along_watch _ _ _ _ _)

end Iosb

------------------------------------------------------------
-- A Slow Sector Load
------------------------------------------------------------

namespace Iosb

open Clocked

/- A pseudo-DMA byte read, held on the bus. -/
def sdmaByteRead : In :=
  { sel := true, addr := 0x004040#26, be := 0b1000#4 }

/-
  READ(6) of one block by transfer information: the byte read
  waits while the platform, having accepted the command,
  streams the block.
-/
def slowLoad : List In :=
  [{ imgMounted := true, imgSize := 32768#64 }] ++
    ([0x08#8, 0x00#8, 0x00#8, 0x00#8, 0x01#8, 0x00#8].map
      (scsiWrite 0x2#4)).flatten ++
    scsiWrite 0x3#4 0x41#8 ++ List.replicate 12 quiet ++
    scsiWrite 0x3#4 0x90#8 ++
    [sdmaByteRead, { sdmaByteRead with ioAck := true }]

/- The strobe has dropped: the watchdog ages in flight. -/
theorem streaming_ages_watchdog :
    ¬ ∀ (cfg : Config) (s : Asic) (is : List In),
      Along (watch (step cfg) idleWaits) (HoldoffEdge cfg)
        (holdoffStart cfg s) is := by
  intro hAll
  have hRun := hAll ⟨⟨0#4, false⟩, 18⟩ default
    (slowLoad ++ [{ sdmaByteRead with ioAck := true }])
  have hLast := ((along_append _ _ _).mp hRun).2.1
  have hHeld := hLast.held (by decide +kernel)
  revert hHeld
  decide +kernel

end Iosb
