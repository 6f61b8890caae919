import Wombat33.Clocked.Run
import Wombat33.Iosb.PdmaBeat

/-
  Conservation of pseudo-DMA bytes.

  Beside the run go two pairs of lists: the bytes the
  controller popped and those the bus was given for its reads,
  the bytes the controller took and those the bus offered in
  its writes.  Between beats each pair is equal; a run in
  which no unrecognised beat moves a byte and no beat is given
  up after its first one keeps it so.

  Key definitions include:
    * `Account`, `Account.note`
    * `Conserved`, `takesOver`
    * `KeepsBytes`

  Key theorems include:
    * `bytesInv_step`
    * `bytes_conserved`
-/

------------------------------------------------------------
-- The Account
------------------------------------------------------------

namespace Iosb

/-
  `popped` and `accepted` are read off the controller;
  `delivered` are the bytes on the enabled lanes of
  acknowledged reads, `offered` those of acknowledged writes.
-/
structure Account where
  present : Present
  popped : List Byte
  delivered : List Byte
  accepted : List Byte
  offered : List Byte
  deriving DecidableEq

def Account.empty : Account where
  present := ⟨false, 0#4, 0#32, []⟩
  popped := []
  delivered := []
  accepted := []
  offered := []

/- A pseudo-DMA beat ends in this cycle, and well. -/
def delivers (cfg : Config) (s : Asic) (i : In) : Bool :=
  s.beat.astate == .sdma && (step cfg s i).beat.ack &&
    !(step cfg s i).beat.sdmaFault

/- A reset begins a new account. -/
def Account.note
    (cfg : Config)
    (g : Account)
    (s : Asic)
    (i : In) : Account :=
  if !i.nreset then .empty
  else
    { present := g.present.note s i
      popped := g.popped ++ poppedNow s i
      delivered := g.delivered ++
        (if delivers cfg s i && !g.present.write then
          laneBytes g.present.be (step cfg s i).beat.rdata
        else [])
      accepted := g.accepted ++ takenNow s i
      offered := g.offered ++
        (if delivers cfg s i && g.present.write then
          laneBytes g.present.be g.present.wdata
        else []) }

/- The bytes of the open beat, if it is of this direction. -/
def openBytes (x : Asic × Account) (write : Bool) : List Byte :=
  if x.1.beat.astate = .sdma ∧ x.2.present.write = write then
    x.2.present.moved
  else []

/-
  What is asked of a state: apart from the bytes of the open
  beat, popped and delivered, accepted and offered are the
  same; an open write's bytes are its first lanes; a handshake
  shown is one of the open beat's; a beat given up on has
  moved nothing.
-/
structure Conserved (x : Asic × Account) : Prop where
  popped : x.2.popped = x.2.delivered ++ openBytes x false
  accepted : x.2.accepted = x.2.offered ++ openBytes x true
  lanes : openBytes x true <+:
    laneBytes x.2.present.be x.2.present.wdata
  shown : x.1.scsi.dmaValid = true →
    x.1.beat.astate = .sdma ∧ x.2.present.moved ≠ []
  failed : x.1.beat.ack = true → x.1.beat.sdmaFault = true →
    x.2.present.moved = []

/- A handshake shown is counted, the last one acknowledged. -/
def takesOver (cfg : Config) (s : Asic) (i : In) : Prop :=
  i.nreset = true → s.scsi.dmaValid = true →
    if s.beat.sdmaLeft = 1 then
      (step cfg s i).beat.ack = true ∧
        (step cfg s i).beat.sdmaFault = false
    else (step cfg s i).beat.sdmaLeft + 1 = s.beat.sdmaLeft

/-
  Bytes move for recognised lanes only, the clock is enabled
  where a handshake is shown, and the watchdog gives up only
  on a beat none of whose bytes has moved or is moving.
-/
structure KeepsBytes
    (cfg : Config) (s : Asic) (i : In) : Prop where
  masks : pops s i = true ∨ takes s i = true →
    recognised s.beat.sdmaBe = true
  enabled : i.nreset = true → s.scsi.dmaValid = true →
    i.ce = true
  patient : expires cfg s i = true →
    s.beat.sdmaLeft = sdmaCount s.beat.sdmaBe ∧
      pops s i = false ∧ takes s i = false

instance decidableKeepsBytes
    (cfg : Config) (s : Asic) (i : In) :
    Decidable (KeepsBytes cfg s i) :=
  decidable_of_iff
    ((pops s i = true ∨ takes s i = true →
        recognised s.beat.sdmaBe = true) ∧
      (i.nreset = true → s.scsi.dmaValid = true →
        i.ce = true) ∧
      (expires cfg s i = true →
        s.beat.sdmaLeft = sdmaCount s.beat.sdmaBe ∧
          pops s i = false ∧ takes s i = false))
    (Iff.intro (fun h => ⟨h.1, h.2.1, h.2.2⟩)
      (fun h => ⟨h.masks, h.enabled, h.patient⟩))

end Iosb

------------------------------------------------------------
-- The Invariant
------------------------------------------------------------

namespace Iosb

open Clocked

structure BytesInv (x : Asic × Account) : Prop where
  kept : Conserved x
  opened : x.1.beat.astate = .sdma →
    ∃ earlier, BeatOpen x.1 x.2.present earlier
  rest : x.1.beat.astate ≠ .sdma → Resting x.1
  masks : x.1.beat.astate = .sdma → x.2.present.moved ≠ [] →
    recognised x.2.present.be = true

variable {cfg : Config} {s : Asic} {i : In} {g : Account}
variable {earlier : List Byte}

theorem openBytes_rest
    (hState : s.beat.astate ≠ .sdma)
    (write : Bool) :
    openBytes (s, g) write = [] := by
  simp [openBytes, hState]

theorem openBytes_open
    (hState : s.beat.astate = .sdma)
    (write : Bool) :
    openBytes (s, g) write =
      if g.present.write = write then g.present.moved
      else [] := by
  simp [openBytes, hState]

/- An open write's bytes are the first on its lanes. -/
theorem lanes_of_open
    (hOpen : BeatOpen s g.present earlier)
    (hMasks : g.present.moved ≠ [] →
      recognised g.present.be = true) :
    openBytes (s, g) true <+:
      laneBytes g.present.be g.present.wdata := by
  rw [openBytes_open hOpen.state]
  by_cases hNothing : g.present.moved = []
  · rw [hNothing, ite_self]
    exact List.nil_prefix
  · split
    next hWrite =>
        rw [← leading_align (hMasks hNothing),
          moved_of_write hOpen hWrite]
        exact leading_prefix (moved_length hOpen) _
    next => exact List.nil_prefix

/- Neither list grows while nothing moves and nothing ends. -/
theorem note_still
    (hReset : i.nreset = true)
    (hPops : pops s i = false)
    (hTakes : takes s i = false)
    (hNone : delivers cfg s i = false) :
    g.note cfg s i = { g with present := g.present.note s i } := by
  simp [Account.note, hReset, poppedNow, takenNow, hPops,
    hTakes, hNone]

/- A beat is given up on before its first byte. -/
theorem bytesInv_failed
    (hReset : i.nreset = true)
    (hInv : BytesInv (s, g))
    (hOpen : BeatOpen s g.present earlier)
    (hOk : KeepsBytes cfg s i)
    (hExpires : expires cfg s i = true) :
    BytesInv (step cfg s i, g.note cfg s i) := by
  rcases hOk.patient hExpires with ⟨hLeft, hPops, hTakes⟩
  rcases beat_failed hExpires with ⟨hAck, hFault, hIdle, hRest⟩
  have hShown : s.scsi.dmaValid = false := by
    simp only [expires, waiting, Bool.and_eq_true,
      Bool.not_eq_true'] at hExpires
    exact hExpires.1.2
  have hNothing : g.present.moved = [] := by
    have hCount := hOpen.left
    rw [hLeft, hOpen.be] at hCount
    have hNone : earlier = [] :=
      List.eq_nil_of_length_eq_zero (by omega)
    rw [hOpen.moved, hNone]
    simp [fresh, hShown]
  have hNote : g.note cfg s i =
      { g with present := g.present.note s i } :=
    note_still hReset hPops hTakes (by simp [delivers, hFault])
  have hSame : g.present.note s i = g.present := by
    rw [note_of_open hReset hOpen.state]
    simp [poppedNow, takenNow, hPops, hTakes]
  have hConserved := hInv.kept
  have hPopped : g.popped =
      g.delivered ++ openBytes (s, g) false :=
    hConserved.popped
  have hAccepted : g.accepted =
      g.offered ++ openBytes (s, g) true :=
    hConserved.accepted
  rw [openBytes_open hOpen.state, hNothing, ite_self]
    at hPopped hAccepted
  rw [hNote, hSame]
  exact {
    kept := {
      popped := by rw [openBytes_rest hRest.state]; exact hPopped
      accepted := by
        rw [openBytes_rest hRest.state]; exact hAccepted
      lanes := by
        rw [openBytes_rest hRest.state]
        exact List.nil_prefix
      shown := by
        have hNext : (step cfg s i).scsi.dmaValid = false := by
          rw [dmaValid_step hReset, hPops, hTakes]
          rfl
        intro hValid
        exact absurd hValid (by simp [hNext])
      failed := fun _ _ => hNothing }
    opened := fun hState => absurd hState hRest.state
    rest := fun _ => hRest
    masks := fun hState => absurd hState hRest.state }

/- A waiting beat: what moves is added to both sides. -/
theorem bytesInv_wait
    (hReset : i.nreset = true)
    (hInv : BytesInv (s, g))
    (hOpen : BeatOpen s g.present earlier)
    (hOk : KeepsBytes cfg s i)
    (hShown : s.scsi.dmaValid = false)
    (hKept : expires cfg s i = false) :
    BytesInv (step cfg s i, g.note cfg s i) := by
  have hNext := beatOpen_wait hReset hOpen hShown hKept
  have hNone : delivers cfg s i = false := by
    simp [delivers, hNext.ack]
  have hNote : g.note cfg s i =
      { g with
        present := g.present.note s i
        popped := g.popped ++ poppedNow s i
        accepted := g.accepted ++ takenNow s i } := by
    simp [Account.note, hReset, hNone]
  have hPresent := @note_of_open s i g.present hReset hOpen.state
  have hConserved := hInv.kept
  have hPopped : g.popped =
      g.delivered ++ openBytes (s, g) false :=
    hConserved.popped
  have hAccepted : g.accepted =
      g.offered ++ openBytes (s, g) true :=
    hConserved.accepted
  rw [openBytes_open hOpen.state] at hPopped hAccepted
  have hRd := hOpen.rd
  have hWr := hOpen.wr
  have hMasks : (g.present.note s i).moved ≠ [] →
      recognised g.present.be = true := by
    intro hMoved
    by_cases hBefore : g.present.moved = []
    · rw [← hOpen.be]
      apply hOk.masks
      by_contra hStill
      rw [not_or, Bool.not_eq_true, Bool.not_eq_true] at hStill
      apply hMoved
      rw [hPresent]
      simp [hBefore, poppedNow, takenNow, hStill.1, hStill.2]
    · exact hInv.masks hOpen.state hBefore
  rw [hNote]
  have hWrite : (g.present.note s i).write = g.present.write := by
    rw [hPresent]
  have hSameBe : (g.present.note s i).be = g.present.be := by
    rw [hPresent]
  have hSameData :
      (g.present.note s i).wdata = g.present.wdata := by
    rw [hPresent]
  have hMoved : (g.present.note s i).moved =
      g.present.moved ++ poppedNow s i ++ takenNow s i := by
    rw [hPresent]
  exact {
    kept := {
      popped := by
        rw [openBytes_open hNext.state, hWrite, hMoved]
        cases hDirection : g.present.write with
        | true =>
            rw [hDirection] at hRd hPopped
            have hNoPop := not_pops (i := i) (Or.inl hRd)
            simpa [poppedNow, hNoPop] using hPopped
        | false =>
            rw [hDirection] at hWr hPopped
            have hNoTake := not_takes (i := i) (Or.inl hWr)
            simp [takenNow, hNoTake, hPopped]
      accepted := by
        rw [openBytes_open hNext.state, hWrite, hMoved]
        cases hDirection : g.present.write with
        | true =>
            rw [hDirection] at hRd hAccepted
            have hNoPop := not_pops (i := i) (Or.inl hRd)
            simp [poppedNow, hNoPop, hAccepted]
        | false =>
            rw [hDirection] at hWr hAccepted
            have hNoTake := not_takes (i := i) (Or.inl hWr)
            simpa [takenNow, hNoTake] using hAccepted
      lanes := lanes_of_open hNext (hSameBe ▸ hMasks)
      shown := by
        intro hValid
        refine ⟨hNext.state, ?_⟩
        show (g.present.note s i).moved ≠ []
        rw [moved_of_shown hNext hValid]
        exact List.append_ne_nil_of_right_ne_nil _
          (List.cons_ne_nil _ _)
      failed := by
        intro hAck
        exact absurd hAck (by simp [hNext.ack]) }
    opened := fun _ => ⟨earlier, hNext⟩
    rest := fun hState => absurd hNext.state hState
    masks := fun _ => hSameBe ▸ hMasks }

/- A byte taken over is still the open beat's. -/
theorem bytesInv_take
    (hReset : i.nreset = true)
    (hCe : i.ce = true)
    (hInv : BytesInv (s, g))
    (hOpen : BeatOpen s g.present earlier)
    (hShown : s.scsi.dmaValid = true)
    (hMore : s.beat.sdmaLeft ≠ 1) :
    BytesInv (step cfg s i, g.note cfg s i) := by
  have hNext := @beatOpen_take cfg s i g.present earlier hReset
    hCe hOpen hShown hMore
  have hNone : delivers cfg s i = false := by
    simp [delivers, hNext.ack]
  rcases @moves_of_shown s i hShown with ⟨hPops, hTakes⟩
  have hNote := @note_still cfg s i g hReset hPops hTakes hNone
  have hPresent := @note_of_shown s i g.present hReset hOpen.state
    hShown
  rw [hPresent] at hNext
  have hConserved := hInv.kept
  have hPopped : g.popped =
      g.delivered ++ openBytes (s, g) false :=
    hConserved.popped
  have hAccepted : g.accepted =
      g.offered ++ openBytes (s, g) true :=
    hConserved.accepted
  rw [openBytes_open hOpen.state] at hPopped hAccepted
  have hMasks := hInv.masks hOpen.state
  rw [hNote, hPresent]
  exact {
    kept := {
      popped := by rw [openBytes_open hNext.state]; exact hPopped
      accepted := by
        rw [openBytes_open hNext.state]; exact hAccepted
      lanes := lanes_of_open hNext hMasks
      shown := by
        have hQuiet : (step cfg s i).scsi.dmaValid = false := by
          rw [dmaValid_step hReset, hPops, hTakes]
          rfl
        intro hValid
        exact absurd hValid (by simp [hQuiet])
      failed := by
        intro hAck
        exact absurd hAck (by simp [hNext.ack]) }
    opened := fun _ => ⟨_, hNext⟩
    rest := fun hState => absurd hNext.state hState
    masks := fun _ => hMasks }

/- The last byte: the beat's bytes are on its lanes. -/
theorem bytesInv_finished
    (hReset : i.nreset = true)
    (hCe : i.ce = true)
    (hInv : BytesInv (s, g))
    (hOpen : BeatOpen s g.present earlier)
    (hShown : s.scsi.dmaValid = true)
    (hLast : s.beat.sdmaLeft = 1) :
    BytesInv (step cfg s i, g.note cfg s i) := by
  rcases @beat_finished cfg s i g.present earlier hReset hCe hOpen
    hShown hLast with ⟨hAck, hFault, -, hRest, hPresent, hDone⟩
  rcases @moves_of_shown s i hShown with ⟨hPops, hTakes⟩
  have hEnds : delivers cfg s i = true := by
    simp [delivers, hOpen.state, hAck, hFault]
  have hConserved := hInv.kept
  have hPopped : g.popped =
      g.delivered ++ openBytes (s, g) false :=
    hConserved.popped
  have hAccepted : g.accepted =
      g.offered ++ openBytes (s, g) true :=
    hConserved.accepted
  rw [openBytes_open hOpen.state] at hPopped hAccepted
  have hBe : recognised g.present.be = true :=
    hInv.masks hOpen.state (hConserved.shown hShown).2
  have hLanes := leading_align hBe g.present.wdata
  have hNote : g.note cfg s i =
      { g with
        delivered := g.delivered ++
          (if g.present.write = false then g.present.moved
          else [])
        offered := g.offered ++
          (if g.present.write = true then g.present.moved
          else []) } := by
    cases hDirection : g.present.write with
    | true =>
        simp [Account.note, hReset, hPresent, hEnds, hDirection,
          poppedNow, takenNow, hPops, hTakes,
          hDone.writes hDirection, hLanes]
    | false =>
        simp [Account.note, hReset, hPresent, hEnds, hDirection,
          poppedNow, takenNow, hPops, hTakes,
          hDone.reads hDirection hBe]
  rw [hNote]
  exact {
    kept := {
      popped := by
        rw [openBytes_rest hRest.state, List.append_nil]
        exact hPopped
      accepted := by
        rw [openBytes_rest hRest.state, List.append_nil]
        exact hAccepted
      lanes := by
        rw [openBytes_rest hRest.state]
        exact List.nil_prefix
      shown := by
        have hQuiet : (step cfg s i).scsi.dmaValid = false := by
          rw [dmaValid_step hReset, hPops, hTakes]
          rfl
        intro hValid
        exact absurd hValid (by simp [hQuiet])
      failed := by
        intro _ hFailed
        exact absurd hFailed (by simp [hFault]) }
    opened := fun hState => absurd hState hRest.state
    rest := fun _ => hRest
    masks := fun hState => absurd hState hRest.state }

/- A pseudo-DMA beat is accepted. -/
theorem bytesInv_accept
    (hReset : i.nreset = true)
    (hInv : BytesInv (s, g))
    (hRest : Resting s)
    (hAccept : accept s i = true)
    (hDevice : device i = .sdma) :
    BytesInv (step cfg s i, g.note cfg s i) := by
  have hNext := @beatOpen_accept cfg s i g.present hReset hAccept
    hDevice hRest
  rcases @moves_of_resting s i hRest with ⟨hPops, hTakes⟩
  have hNone : delivers cfg s i = false := by
    simp [delivers, hNext.ack]
  have hNote := @note_still cfg s i g hReset hPops hTakes hNone
  have hNothing : (g.present.note s i).moved = [] := by
    simp [Present.note, hReset, hAccept]
  have hConserved := hInv.kept
  have hPopped : g.popped =
      g.delivered ++ openBytes (s, g) false :=
    hConserved.popped
  have hAccepted : g.accepted =
      g.offered ++ openBytes (s, g) true :=
    hConserved.accepted
  rw [openBytes_rest hRest.state] at hPopped hAccepted
  have hEmpty (write : Bool) :
      openBytes (step cfg s i,
        { g with present := g.present.note s i }) write = [] := by
    rw [openBytes_open hNext.state, hNothing, ite_self]
  rw [hNote]
  exact {
    kept := {
      popped := by rw [hEmpty]; exact hPopped
      accepted := by rw [hEmpty]; exact hAccepted
      lanes := by rw [hEmpty]; exact List.nil_prefix
      shown := by
        intro hValid
        exact absurd hValid
          (by simp [shown_of_resting hReset hRest])
      failed := fun _ _ => hNothing }
    opened := fun _ => ⟨[], hNext⟩
    rest := fun hState => absurd hNext.state hState
    masks := fun _ hMoved => absurd hNothing hMoved }

/- Any other cycle between beats. -/
theorem bytesInv_rest
    (hReset : i.nreset = true)
    (hInv : BytesInv (s, g))
    (hRest : Resting s)
    (hOther : accept s i = true → device i ≠ .sdma) :
    BytesInv (step cfg s i, g.note cfg s i) := by
  rcases @resting_step cfg s i hReset hRest hOther with
    ⟨hNext, hFault⟩
  rcases @moves_of_resting s i hRest with ⟨hPops, hTakes⟩
  have hNone : delivers cfg s i = false := by
    simp [delivers, hRest.state]
  have hNote := @note_still cfg s i g hReset hPops hTakes hNone
  have hConserved := hInv.kept
  have hPopped : g.popped =
      g.delivered ++ openBytes (s, g) false :=
    hConserved.popped
  have hAccepted : g.accepted =
      g.offered ++ openBytes (s, g) true :=
    hConserved.accepted
  rw [openBytes_rest hRest.state] at hPopped hAccepted
  rw [hNote]
  exact {
    kept := {
      popped := by rw [openBytes_rest hNext.state]; exact hPopped
      accepted := by
        rw [openBytes_rest hNext.state]; exact hAccepted
      lanes := by
        rw [openBytes_rest hNext.state]
        exact List.nil_prefix
      shown := by
        intro hValid
        exact absurd hValid
          (by simp [shown_of_resting hReset hRest])
      failed := by
        intro hAck hFailed
        have hHeld : i.ce = false ∧ s.beat.sdmaFault = true := by
          simpa [hFault] using hFailed
        have hSame := @beat_disabled cfg s i hReset hHeld.1
        have hBusy : accept s i = false := by
          simp [accept, hHeld.1]
        have hBefore := hConserved.failed (hSame ▸ hAck) hHeld.2
        simpa [Present.note, hReset, hBusy, poppedNow, takenNow,
          hPops, hTakes] using hBefore }
    opened := fun hState => absurd hState hNext.state
    rest := fun _ => hNext
    masks := fun hState => absurd hState hNext.state }

theorem bytesInv_reset
    (hReset : i.nreset = false) :
    BytesInv (step cfg s i, Account.empty) := by
  rcases @resting_reset cfg s i hReset with
    ⟨hRest, hFault, hShown⟩
  exact {
    kept := {
      popped := by rw [openBytes_rest hRest.state]; rfl
      accepted := by rw [openBytes_rest hRest.state]; rfl
      lanes := by
        rw [openBytes_rest hRest.state]
        exact List.nil_prefix
      shown := by
        intro hValid
        exact absurd hValid (by simp [hShown])
      failed := fun _ _ => rfl }
    opened := fun hState => absurd hState hRest.state
    rest := fun _ => hRest
    masks := fun _ hMoved => absurd rfl hMoved }

/- Every cycle that keeps its bytes keeps the invariant. -/
theorem bytesInv_step
    (x : Asic × Account)
    (i : In)
    (hInv : BytesInv x)
    (hOk : KeepsBytes cfg x.1 i) :
    BytesInv (watch (step cfg) (Account.note cfg) x i) := by
  rcases x with ⟨s, g⟩
  show BytesInv (step cfg s i, g.note cfg s i)
  cases hReset : i.nreset with
  | false =>
      have hNote : g.note cfg s i = .empty := by
        simp [Account.note, hReset]
      rw [hNote]
      exact bytesInv_reset hReset
  | true =>
      by_cases hState : s.beat.astate = .sdma
      · rcases hInv.opened hState with ⟨earlier, hOpen⟩
        cases hShown : s.scsi.dmaValid with
        | true =>
            have hCe := hOk.enabled hReset hShown
            by_cases hLast : s.beat.sdmaLeft = 1
            · exact bytesInv_finished hReset hCe hInv hOpen hShown
                hLast
            · exact bytesInv_take hReset hCe hInv hOpen hShown
                hLast
        | false =>
            cases hExpires : expires cfg s i with
            | true =>
                exact bytesInv_failed hReset hInv hOpen hOk
                  hExpires
            | false =>
                exact bytesInv_wait hReset hInv hOpen hOk hShown
                  hExpires
      · have hRest := hInv.rest hState
        by_cases hSdma : accept s i = true ∧ device i = .sdma
        · exact bytesInv_accept hReset hInv hRest hSdma.1 hSdma.2
        · exact bytesInv_rest hReset hInv hRest
            (fun hAccept hDevice => hSdma ⟨hAccept, hDevice⟩)

/- A handshake shown is taken over where the beat is open. -/
theorem takesOver_of_inv
    {x : Asic × Account}
    (hInv : BytesInv x)
    (hOk : KeepsBytes cfg x.1 i) :
    takesOver cfg x.1 i := by
  intro hReset hShown
  have hCe := hOk.enabled hReset hShown
  rcases hInv.opened (hInv.kept.shown hShown).1 with
    ⟨earlier, hOpen⟩
  split
  next hLast =>
      have hEnd := @beat_finished cfg x.1 i x.2.present earlier
        hReset hCe hOpen hShown hLast
      exact ⟨hEnd.1, hEnd.2.1⟩
  next hMore =>
      have hNext := @beatOpen_take cfg x.1 i x.2.present earlier
        hReset hCe hOpen hShown hMore
      have hBefore := hOpen.left
      have hAfter := hNext.left
      rw [note_of_shown hReset hOpen.state hShown,
        moved_of_shown hOpen hShown, List.length_append,
        List.length_singleton] at hAfter
      omega

end Iosb

------------------------------------------------------------
-- Runs
------------------------------------------------------------

namespace Iosb

open Clocked

/- The machine after a reset cycle, nothing accounted. -/
def bytesStart (cfg : Config) (s : Asic) : Asic × Account :=
  (step cfg s { nreset := false }, .empty)

/-
  In every run whose cycles all keep their bytes: in every
  state the bytes popped and accepted are those delivered and
  offered, in order, but for the open beat's; and every
  handshake is taken over.
-/
theorem bytes_conserved
    (cfg : Config)
    (s : Asic)
    (is : List In)
    (hKeeps : Along (watch (step cfg) (Account.note cfg))
      (fun x i => KeepsBytes cfg x.1 i) (bytesStart cfg s) is) :
    Always (watch (step cfg) (Account.note cfg)) Conserved
        (bytesStart cfg s) is ∧
      Along (watch (step cfg) (Account.note cfg))
        (fun x i => takesOver cfg x.1 i) (bytesStart cfg s)
        is := by
  have hStart : BytesInv (bytesStart cfg s) :=
    bytesInv_reset rfl
  have hStep := fun x i => @bytesInv_step cfg x i
  constructor
  · exact always_mono (fun _ hInv => hInv.kept)
      (always_of_along hStep hKeeps hStart)
  · exact along_of_invariant hStep
      (fun x i hInv hOk => takesOver_of_inv hInv hOk) hKeeps
      hStart

/- The watchdog's width as built, an idle controller. -/
def built : Config := ⟨⟨0#4, false⟩, 18⟩

/- A write of all four lanes, and the cycles it takes. -/
def longWrite : List In :=
  { sel := true, write := true, addr := 0x004040#26
    be := 0b1111#4, wdata := 0x11223344#32 } ::
    List.replicate 9 quiet

theorem bytes_conserved_longWrite :
    Always (watch (step built) (Account.note built)) Conserved
        (bytesStart built default) longWrite ∧
      Along (watch (step built) (Account.note built))
        (fun x i => takesOver built x.1 i)
        (bytesStart built default) longWrite :=
  bytes_conserved built default longWrite (by decide +kernel)

end Iosb

------------------------------------------------------------
-- Bytes Lost
------------------------------------------------------------

namespace Iosb

open Clocked

variable {cfg : Config} {i : In}

/- A beat given up on after a byte has moved, or as it does. -/
theorem expired_loses
    {x : Asic × Account}
    (hExpires : expires cfg x.1 i = true)
    (hReset : i.nreset = true)
    (hMoved : (x.2.present.note x.1 i).moved ≠ []) :
    ¬ Conserved (watch (step cfg) (Account.note cfg) x i) := by
  intro hKept
  rcases beat_failed hExpires with ⟨hAck, hFault, -, -⟩
  have hNone := hKept.failed hAck hFault
  apply hMoved
  simpa [watch, Account.note, hReset] using hNone

/- The middle lanes of a longword: a word at an odd address. -/
def oddWord : List In :=
  { sel := true, write := true, addr := 0x004040#26
    be := 0b0110#4, wdata := 0x00112200#32 } ::
    List.replicate 3 quiet

/- One byte is taken, and it is on neither lane. -/
theorem odd_word_lost :
    ¬ ∀ (cfg : Config) (s : Asic) (is : List In),
      Always (watch (step cfg) (Account.note cfg)) Conserved
          (bytesStart cfg s) is ∧
        Along (watch (step cfg) (Account.note cfg))
          (fun x i => takesOver cfg x.1 i) (bytesStart cfg s)
          is := by
  intro hAll
  have hKept := (hAll built default oddWord).1 oddWord
    List.prefix_rfl
  have hAccepted := hKept.accepted
  revert hAccepted
  decide +kernel

end Iosb
