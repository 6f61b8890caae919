import Wombat33.MacQuadra800.OneMemory

/-
  How long the memories take.

  A beat of the RAM waits for a write that is still being
  drained, and a read then for its own access; the SDRAM
  bridge's rank bounds either.  The video memory answers in
  its second phase, the display at once.  With the service's
  own bound this limits what a whole access of the CPU or of
  the walker takes, however the two interleave.

  Key definitions include:
    * `beatOwed`, `waitOwed`, `stepsOwed`
    * `Quick`, `AnsweredBy`

  Key theorems include:
    * `rank_machine`
    * `waitOwed_step`
    * `answered_in_time`
-/

------------------------------------------------------------
-- The SDRAM's Rank
------------------------------------------------------------

namespace MacQuadra800

variable {m : Emu} {d : EmuIn} {log : Sdram.Log}

theorem rank_edge
    {x : Sdram.Bridge × Sdram.Log} {i : Sdram.In}
    (hServes : Serves x)
    (hLow : i.init = false)
    (hState : x.1.ctl.state ≠ .startup)
    (hBetween : Sdram.Between x.1 i)
    (hBusy : x.1.sys.busy = true) :
    Sdram.rank (x.1.step i) + i.sys.toNat ≤
      Sdram.rank x.1 := by
  have hSound := hServes.sound
  have hUnclaimed := Sdram.unclaimed_of_free hSound.hand
    hServes.free
  have hPowered : i.init = true → x.1.ctl.state = .startup :=
    fun hHigh => Bool.noConfusion (hHigh.symm.trans hLow)
  have hAdvance := (Sdram.doing_step hSound.hand hSound.prepared
    hUnclaimed hPowered hSound.doing).2
  have hNo := (hSound.prepared.running hState).noCopy
  exact Sdram.rank_step hSound.hand hSound.doing hAdvance
    (Sdram.move_step ⟨rfl, hLow, rfl, rfl⟩ hState hNo)
    hSound.timer hBetween hBusy

/- A beat in the bridge comes nearer with every step. -/
theorem rank_machine
    (hServes : Serves (m.sdram, log))
    (hLocked : d.pllLocked = true)
    (hState : m.sdram.ctl.state ≠ .startup)
    (hBusy : m.sdram.sys.busy = true)
    (hMore : m.rom.sdr.returns = false) :
    Sdram.rank (m.step d).sdram < Sdram.rank m.sdram := by
  have hFree : m.sdram.captures (m.sdramEdge d) = false := by
    simp [Sdram.Bridge.captures, hBusy]
  have hBack : m.sdram.returns (m.sdramEdge d) = false := by
    have hHere : m.sdram.returns (m.sdramEdge d) =
        m.rom.sdr.returns := rfl
    rw [hHere, hMore]
  have hLow : (m.sdramEdge d).init = false := by
    simp [Emu.sdramEdge, hLocked]
  have hLow' (f : BitVec 16) : (d.between f).init = false := by
    simp [EmuIn.between, hLocked]
  have hQuiet (b : Sdram.Bridge) (f : BitVec 16) :
      Sdram.Between b (d.between f) :=
    ⟨captures_between b f, by
      simp [Sdram.Bridge.returns, EmuIn.between]⟩
  have hFirst := rank_edge hServes hLow hState ⟨hFree, hBack⟩
    hBusy
  have hBusy₁ : (m.sdram.step (m.sdramEdge d)).sys.busy =
      true := by
    rw [Sdram.Between.busy ⟨hFree, hBack⟩]
    exact hBusy
  have hNext {b : Sdram.Bridge} {i : Sdram.In}
      (hLow : i.init = false)
      (hPrepared : Sdram.Prepared b)
      (hState : b.ctl.state ≠ .startup) :
      (b.step i).ctl.state ≠ .startup :=
    (Sdram.running_step hState (hPrepared.running hState)
      hLow).2
  have hState₁ := hNext hLow hServes.sound.prepared hState
  have hServes₁ := serves_logged hServes
    (i := m.sdramEdge d)
    ⟨fun hHigh => Bool.noConfusion (hHigh.symm.trans hLow),
      fun _ => hState⟩
  have hSecond := rank_edge hServes₁ (hLow' d.float.2.1) hState₁
    (hQuiet _ _) hBusy₁
  have hState₂ := hNext (hLow' d.float.2.1)
    hServes₁.sound.prepared hState₁
  have hServes₂ := serves_logged hServes₁
    (@between_inService d _ d.float.2.1
      (fun hHigh => Bool.noConfusion
        (hHigh.symm.trans hLocked)))
  have hThird := rank_edge hServes₂ (hLow' d.float.2.2) hState₂
    (hQuiet _ _) hBusy₁
  have hSys : (m.sdramEdge d).sys = true := rfl
  have hStep : (m.step d).sdram =
      ((m.sdram.step (m.sdramEdge d)).step
        (d.between d.float.2.1)).step
          (d.between d.float.2.2) := rfl
  rw [hStep]
  simp only [hSys, Bool.toNat_true, Clocked.watch_fst,
    Sdram.logged] at hFirst hSecond hThird
  omega

theorem rank_pos (b : Sdram.Bridge) : 0 < Sdram.rank b := by
  have hBack := Sdram.returning_bounds b
  unfold Sdram.rank Sdram.work
  split_ifs <;> omega

end MacQuadra800

------------------------------------------------------------
-- One Wait
------------------------------------------------------------

namespace MacQuadra800

open Quadra800 (pins unstalled)

variable {cells₀ : Cells} {m : Emu} {g : Books} {d : EmuIn}

/- The steps to the acknowledge of the beat on the port. -/
def beatOwed (m : Emu) : Nat :=
  if m.memAck then 0
  else if m.beat.isRam then
    (if m.sdram.sys.busy && !m.sdram.sys.posted then
      Sdram.rank m.sdram + 1
    else
      (if m.sdram.sys.busy then Sdram.rank m.sdram else 0) +
        if m.beat.write then 1 else 48)
  else if m.ddr.vramPh then 1
  else 2

/- The steps to the answer of the target that is asked. -/
def waitOwed (m : Emu) : Nat :=
  if m.beat.req then beatOwed m
  else if m.board.service.dafbSel then
    (if m.dafb.ack then 0 else 1)
  else 0

/- Nothing is asked of the ROM or of the I/O ASIC. -/
def Quick (m : Emu) : Prop :=
  m.board.service.iosbSel = false ∧
    (m.beat.req = true → m.beat.isRom = false)

instance (m : Emu) : Decidable (Quick m) :=
  inferInstanceAs (Decidable (_ ∧ (_ → _)))

theorem beatOwed_le (m : Emu) : beatOwed m ≤ 94 := by
  have hRank := Sdram.rank_le m.sdram
  unfold beatOwed
  split_ifs <;> omega

theorem waitOwed_le (m : Emu) : waitOwed m ≤ 94 := by
  have hBeat := beatOwed_le m
  unfold waitOwed
  split_ifs <;> omega

/- A beat that waits is one step nearer to its answer. -/
theorem beatOwed_step
    (hPhases : Phases cells₀ (m, g))
    (hOk : EmuOk (m, g) d)
    (hReset : m.reset d = false)
    (hReq : m.beat.req = true)
    (hRom : m.beat.isRom = false)
    (hAck : m.memAck = false) :
    beatOwed (m.step d) < beatOwed m := by
  have hBeat := port_kept hPhases.rom.port hReset hReq hAck
  have hLocked : d.pllLocked = true := by
    rw [← Bool.not_eq_false]
    intro hLow
    simp [Emu.reset, Boot.reset, hLow] at hReset
  have hPos : 0 < beatOwed m := by
    have hRank := rank_pos m.sdram
    unfold beatOwed
    rw [hAck]
    split_ifs <;> simp_all
  cases hAck' : (m.step d).memAck with
  | true =>
      have hOver : beatOwed (m.step d) = 0 := by
        simp [beatOwed, hAck']
      omega
  | false =>
      have hNone' : (m.step d).ddr.memAckR = false ∧
          (m.step d).sdram.sys.ack = false := by
        simpa [Emu.memAck] using hAck'
      cases hRam : m.beat.isRam with
      | false =>
          have hVram : m.beat.isVram = true := by
            simp [Beat.isVram, hRam, hRom]
          have hFirst : m.ddr.vramPh = false := by
            rw [← Bool.not_eq_true]
            intro hPhase
            have hUp := @deliver_step m d hReq hAck hVram hPhase
            exact Bool.noConfusion (hUp.symm.trans hNone'.1)
          have hSecond : (m.step d).ddr.vramPh = true := by
            rw [vramPh_step]
            simp [hReset, hReq, hAck, hVram, hFirst]
          simp [beatOwed, hAck, hAck', hBeat, hRam, hFirst,
            hSecond]
      | true =>
          have hState : m.sdram.ctl.state ≠ .startup := by
            intro hState
            have hNone := hOk.started hState
            rw [show (m, g).1 = m from rfl, hReq, hRam] at hNone
            exact Bool.noConfusion hNone
          have hNear := @rank_machine m d g.log hPhases.serves
            hLocked hState
          have hBusy' := sys_busy_step m d
          have hPosted' := sys_posted_step m d
          have hTold' := sys_ack_step m d
          have hRank := rank_pos m.sdram
          have hRank' := Sdram.rank_le (m.step d).sdram
          unfold beatOwed
          rw [hAck, hAck', hBeat, hRam]
          simp only [Bool.false_eq_true, if_false, if_true]
          cases hCaptures : m.captures with
          | true =>
              have hFree := (captures_iff.mp hCaptures).2.2.1
              have hRead : m.beat.write = false := by
                simpa [hCaptures, hNone'.2] using hTold'
              simp only [hCaptures, hRead, if_true]
                at hBusy' hPosted'
              simp only [hBusy', hPosted', hFree, hRead,
                Bool.not_false, Bool.and_self, if_true,
                Bool.false_and, Bool.false_eq_true, if_false]
              omega
          | false =>
              have hBusy : m.sdram.sys.busy = true := by
                have hQuiet : m.sdram.sys.ack = false := by
                  simp only [Emu.memAck,
                    Bool.or_eq_false_iff] at hAck
                  exact hAck.2
                rw [← Bool.not_eq_false]
                intro hFree
                have hNow := captures_iff.mpr
                  ⟨hReq, hRam, hFree, hQuiet⟩
                rw [hNow] at hCaptures
                exact Bool.noConfusion hCaptures
              simp only [hCaptures, Bool.false_eq_true,
                if_false] at hBusy' hPosted' hTold'
              cases hReturns : m.rom.sdr.returns with
              | true =>
                  have hPosted : m.sdram.sys.posted = true := by
                    simpa [hReturns, hNone'.2] using hTold'
                  rw [hReturns, if_pos rfl] at hBusy'
                  simp only [hBusy', hBusy, hPosted,
                    Bool.not_true, Bool.and_false,
                    Bool.false_and, Bool.false_eq_true,
                    if_false, if_true]
                  omega
              | false =>
                  have hLess := hNear hBusy hReturns
                  simp only [hReturns, Bool.false_eq_true,
                    if_false] at hBusy' hPosted'
                  simp only [hBusy', hPosted', hBusy,
                    Bool.true_and, if_true]
                  cases m.sdram.sys.posted <;> simp <;> omega

/- Where a target keeps the service waiting, not for long. -/
theorem waitOwed_step
    (hPhases : Phases cells₀ (m, g))
    (hOk : EmuOk (m, g) d)
    (hReset : m.reset d = false)
    (hQuick : Quick m)
    (hStalled : unstalled m.board.service
      (pins m.board (m.env d)) = false) :
    waitOwed (m.step d) < waitOwed m := by
  have hTraffic := hPhases.board.traffic
  have hPort := Quadra800.requested_serving hTraffic
  simp only [unstalled, Bool.or_eq_false_iff,
    decide_eq_false_iff_not, Option.isSome_eq_false_iff,
    Option.isNone_iff_eq_none] at hStalled
  rcases hStalled with ⟨hBusy, hNone⟩
  cases hServing : g.ledger.traffic.serving with
  | none => exact absurd (hTraffic.free hServing).svc hBusy
  | some j =>
      have hNow := hTraffic.busy j hServing
      have hSvc : m.board.service.svc = j.target.svc := hNow.svc
      have hWire : Quadra800.Requested m.board.service j.wire :=
        hNow.port
      have hMemory (hMem : m.board.service.svc = .mem)
          (hReq : m.beat.req = true) :
          waitOwed (m.step d) < waitOwed m := by
        have hAck : m.memAck = false := by
          rw [← Bool.not_eq_true]
          intro hAck
          have hPin : (pins m.board (m.env d)).memAck =
              true := hAck
          simp [Quadra800.replied, hMem, hPin] at hNone
        have hNear := beatOwed_step hPhases hOk hReset hReq
          (hQuick.2 hReq) hAck
        have hBeat := port_kept hPhases.rom.port hReset hReq
          hAck
        unfold waitOwed
        rw [hBeat, hReq]
        exact hNear
      cases hTarget : j.target with
      | ram | rom | vram =>
          simp only [Quadra800.Job.wire, hTarget] at hWire
          exact hMemory (by rw [hSvc, hTarget]; rfl) hWire.1
      | iosb =>
          simp only [Quadra800.Job.wire, hTarget] at hWire
          exact absurd (hWire.2.1.symm.trans hQuick.1)
            Bool.noConfusion
      | berr | openBus =>
          rw [hTarget] at hSvc
          simp [Quadra800.replied, hSvc,
            Quadra800.Target.svc] at hNone
      | dafb =>
          rw [hTarget] at hSvc
          simp only [Quadra800.Job.wire, hTarget] at hWire
          have hReq : m.beat.req = false := hWire.1
          have hSel := hWire.2.2.1
          have hAck : m.dafb.ack = false := by
            rw [← Bool.not_eq_true]
            intro hAck
            have hPin : (pins m.board (m.env d)).dafbAck =
                true := hAck
            simp [Quadra800.replied, hSvc, hPin,
              Quadra800.Target.svc] at hNone
          have hAck' : (m.step d).dafb.ack = true := by
            rw [dafb_ack_step, hReset, hSel, hAck]
            rfl
          have hSel' := shown_step hPhases hAck'
          have hPort' := Quadra800.requested_onWire
            (phases_step hPhases hOk).board.traffic
          have hWire' := Quadra800.onWire_dafb
            (phases_step hPhases hOk).board.traffic hSel'
          rw [hWire'] at hPort'
          have hReq' : (m.step d).beat.req = false := hPort'.1
          simp [waitOwed, hReq, hReq', hSel, hSel', hAck, hAck']

end MacQuadra800

------------------------------------------------------------
-- The Whole Wait
------------------------------------------------------------

namespace Quadra800

variable {x : Board × Ledger} {n : Nat}

theorem told_of_cpuOwed (hNone : cpuOwed n x = 0) :
    n ≤ x.2.cpu.told.length := by
  by_contra hLess
  have hPos := cpuLeft_pos x.1 x.2.traffic
  rw [cpuOwed, if_neg hLess] at hNone
  omega

theorem heard_of_walkerOwed (hNone : walkerOwed n x = 0) :
    n ≤ walkerHeard x := by
  by_contra hLess
  have hPos := distance_bounds .walker x.1.service x.2.traffic
  rw [walkerOwed, if_neg hLess] at hNone
  omega

end Quadra800

namespace MacQuadra800

open Clocked
open Quadra800 (cpuOwed walkerOwed walkerHeard)

/- The board with its ledger. -/
def Emu.joined (x : Emu × Books) :
    Quadra800.Board × Quadra800.Ledger :=
  (x.1.board, x.2.ledger)

/- A step out of reset that asks for nothing slow. -/
def QuickStep (x : Emu × Books) (d : EmuIn) : Prop :=
  EmuOk x d ∧ x.1.reset d = false ∧ Quick x.1

instance (x : Emu × Books) (d : EmuIn) :
    Decidable (QuickStep x d) :=
  inferInstanceAs (Decidable (_ ∧ _ ∧ _))

/-
  Of the moves that are owed each but the first may be waited
  for in full.
-/
def stepsOwed
    (owed : Quadra800.Board × Quadra800.Ledger → Nat)
    (x : Emu × Books) : Nat :=
  if owed (Emu.joined x) = 0 then 0
  else 95 * owed (Emu.joined x) + waitOwed x.1

variable {cells₀ : Cells} {x : Emu × Books} {d : EmuIn}
variable {owed : Quadra800.Board × Quadra800.Ledger → Nat}

theorem stepsOwed_le (hOwed : owed (Emu.joined x) ≤ 11) :
    stepsOwed owed x ≤ 1139 := by
  have hWait := waitOwed_le x.1
  unfold stepsOwed
  split <;> omega

/- A move is made, or the wait for it gets shorter. -/
theorem stepsOwed_step
    (hPhases : Phases cells₀ x)
    (hQuick : QuickStep x d)
    (hEdge : owed (Quadra800.edge (Emu.joined x)
          (x.1.env d)) ≤ owed (Emu.joined x) ∧
      (Quadra800.moves (Emu.joined x) (x.1.env d) = true →
        0 < owed (Emu.joined x) →
        owed (Quadra800.edge (Emu.joined x) (x.1.env d)) <
          owed (Emu.joined x))) :
    stepsOwed owed (emuEdge cells₀ x d) < stepsOwed owed x ∨
      stepsOwed owed (emuEdge cells₀ x d) = 0 := by
  rcases hQuick with ⟨hOk, hReset, hQuick⟩
  have hNext : Emu.joined (emuEdge cells₀ x d) =
      Quadra800.edge (Emu.joined x) (x.1.env d) := rfl
  have hWait := waitOwed_le (emuEdge cells₀ x d).1
  unfold stepsOwed
  rw [hNext]
  cases hMoves : Quadra800.moves (Emu.joined x)
      (x.1.env d) with
  | true =>
      have hLess := hEdge.2 hMoves
      split <;> split <;> omega
  | false =>
      have hLe := hEdge.1
      have hNear : waitOwed (emuEdge cells₀ x d).1 <
          waitOwed x.1 :=
        waitOwed_step hPhases hOk hReset hQuick hMoves
      split <;> split <;> omega

/-
  What an owner asked before is answered once the machine has
  gone on for as many steps.
-/
theorem owed_in_time
    {asked : Quadra800.Board × Quadra800.Ledger → Nat}
    {n : Nat}
    {ds : List EmuIn}
    (hGrow : ∀ y e, e.nreset = true →
      asked y ≤ asked (Quadra800.edge y e))
    (hEdge : ∀ y e, Quadra800.BoardInv y → n ≤ asked y →
      Quadra800.Contract y e → e.nreset = true →
        owed (Quadra800.edge y e) ≤ owed y ∧
          (Quadra800.moves y e = true → 0 < owed y →
            owed (Quadra800.edge y e) < owed y))
    (hPhases : Phases cells₀ x)
    (hAsked : n ≤ asked (Emu.joined x))
    (hAlong : Along (emuEdge cells₀) QuickStep x ds)
    (hLong : stepsOwed owed x ≤ ds.length) :
    owed (Emu.joined (run (emuEdge cells₀) x ds)) = 0 := by
  have hRunning : ∀ (y : Emu × Books) (e : EmuIn),
      QuickStep y e → (y.1.env e).nreset = true := by
    intro y e hQuick
    simp [Emu.env, hQuick.2.1]
  have hSpent := @measure_spent _ _ (emuEdge cells₀) QuickStep
    (fun y => Phases cells₀ y ∧ n ≤ asked (Emu.joined y))
    (stepsOwed owed)
    (fun y e hInv hQuick =>
      ⟨phases_step hInv.1 hQuick.1,
        Nat.le_trans hInv.2 (hGrow _ _ (hRunning y e hQuick))⟩)
    (fun y e hInv hQuick =>
      stepsOwed_step hInv.1 hQuick
        (hEdge _ _ hInv.1.board hInv.2 hQuick.1.board
          (hRunning y e hQuick)))
    x ds hAlong ⟨hPhases, hAsked⟩ hLong
  by_contra hMore
  rw [stepsOwed, if_neg hMore] at hSpent
  omega

/- What both parties had asked by `x` is answered by `y`. -/
def AnsweredBy (x y : Emu × Books) : Prop :=
  x.2.ledger.cpu.asked.length ≤ y.2.ledger.cpu.told.length ∧
    x.2.ledger.walker.walks.length ≤
      walkerHeard (Emu.joined y)

/-
  In every run of the machine: while nothing is asked of the
  ROM or of the I/O ASIC, every access that the CPU or the
  walker had open is answered within 1139 clocks, refreshes,
  posted writes and the other party's accesses included.
-/
theorem answered_in_time
    (cells₀ : Cells)
    (b₀ : Sdram.Bridge)
    (v : VramArrays)
    (f : Dafb.File)
    (ds ds' : List EmuIn)
    (hOk : Along (emuEdge cells₀) EmuOk
      (emuStart cells₀ b₀ v f) ds)
    (hQuick : Along (emuEdge cells₀) QuickStep
      (run (emuEdge cells₀) (emuStart cells₀ b₀ v f) ds) ds')
    (hLong : 1139 ≤ ds'.length) :
    AnsweredBy
      (run (emuEdge cells₀) (emuStart cells₀ b₀ v f) ds)
      (run (emuEdge cells₀) (emuStart cells₀ b₀ v f)
        (ds ++ ds')) := by
  have hPhases : Phases cells₀
      (run (emuEdge cells₀) (emuStart cells₀ b₀ v f) ds) :=
    invariant_run (fun _ _ hInv hNow => phases_step hInv hNow)
      hOk phases_start
  rw [run_append]
  generalize run (emuEdge cells₀) (emuStart cells₀ b₀ v f) ds =
    x at *
  constructor
  · apply @Quadra800.told_of_cpuOwed
      (Emu.joined (run (emuEdge cells₀) x ds'))
    exact owed_in_time
      (fun y e hReset => (Quadra800.asked_grows y e hReset).1)
      (fun _ _ hy hn hc hr => Quadra800.cpuOwed_edge hy hn hc hr)
      hPhases (Nat.le_refl _) hQuick
      (Nat.le_trans (stepsOwed_le (Quadra800.cpuOwed_le _ _))
        hLong)
  · apply @Quadra800.heard_of_walkerOwed
      (Emu.joined (run (emuEdge cells₀) x ds'))
    exact owed_in_time
      (fun y e hReset => (Quadra800.asked_grows y e hReset).2)
      (fun _ _ hy hn hc hr =>
        Quadra800.walkerOwed_edge hy hn hc hr)
      hPhases (Nat.le_refl _) hQuick
      (Nat.le_trans
        (stepsOwed_le (Quadra800.walkerOwed_le _ _)) hLong)

theorem resting_quick
    (n : Nat)
    (hResting : Resting x) :
    Along (emuEdge blankCells) QuickStep x
      (List.replicate n ({} : EmuIn)) := by
  induction n generalizing x with
  | zero => trivial
  | succ n ih =>
      have hReq : x.1.beat.req = false := hResting.mem
      refine ⟨⟨resting_ok hResting,
        running_of_pins rfl hResting.loaded, hResting.iosb,
        fun hHigh => ?_⟩, ih (resting_step blankCells hResting)⟩
      exact Bool.noConfusion (hHigh.symm.trans hReq)

/- A longword is asked for across two of the video memory. -/
def askedRun : List EmuIn :=
  download ++ List.replicate 6 writeVram ++ [({} : EmuIn)] ++
    List.replicate 2 readVram

def answeredRun : List EmuIn :=
  List.replicate 10 readVram ++
    List.replicate 1129 ({} : EmuIn)

theorem answered_in_time_vram :
    AnsweredBy (run (emuEdge blankCells) blankStart askedRun)
        (run (emuEdge blankCells) blankStart
          (askedRun ++ answeredRun)) ∧
      (run (emuEdge blankCells) blankStart
        askedRun).2.ledger.cpu.asked.length = 2 ∧
      (run (emuEdge blankCells) blankStart
        askedRun).2.ledger.cpu.told.length = 1 := by
  have hResting : Resting (run (emuEdge blankCells)
      (run (emuEdge blankCells) blankStart askedRun)
      (List.replicate 10 readVram)) :=
    ⟨by decide +kernel, by decide +kernel, by decide +kernel,
      by decide +kernel, by decide +kernel, rfl, rfl⟩
  have hQuick : Along (emuEdge blankCells) QuickStep
      (run (emuEdge blankCells) blankStart askedRun)
      answeredRun := by
    rw [answeredRun, along_append]
    exact ⟨by decide +kernel, resting_quick 1129 hResting⟩
  have hLong : answeredRun.length = 10 + 1129 := by
    rw [answeredRun, List.length_append, List.length_replicate,
      List.length_replicate]
  have hTime := answered_in_time blankCells Sdram.blankBridge
    blankVram default askedRun answeredRun (by decide +kernel)
    hQuick (Nat.le_of_eq hLong.symm)
  exact ⟨hTime, by decide +kernel, by decide +kernel⟩

end MacQuadra800
