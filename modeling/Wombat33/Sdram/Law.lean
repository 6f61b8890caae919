import Wombat33.Sdram.Deadline

/-
  The memory law, in service and from power-up on.

  A beat taken during the power-up sequence waits for the
  controller.  The end of the sequence raises `ready`, though,
  and the bridge takes any rise for the completion of the
  access it is waiting for.

  Key definitions include:
    * `MemoryLaw`
    * `Sound`
    * `Powered`

  Key theorems include:
    * `memory_law`
    * `power_up_law`
-/

------------------------------------------------------------
-- The Law
------------------------------------------------------------

namespace Sdram

open Clocked

/- A run of the bridge with its log. -/
abbrev logged : Bridge × Log → In → Bridge × Log :=
  watch Bridge.step noteBeat

/-
  A completion ends an access: the beat's burst, or its next
  half.  With no beat in progress every read has had one
  burst, every write two words, each beat one acknowledge, and
  the cells are the memory; an acknowledged read has what it
  asked for.  No beat is in progress for long.
-/
structure MemoryLaw (x : Bridge × Log) : Prop where
  completion : x.1.completes = true →
    x.2.bursts = x.2.reads ∧
      x.2.words + (if x.1.sys.rWe && !x.1.ram.acc then 1 else 0)
        = 2 * x.2.writes
  settled : x.1.sys.busy = false →
    stored x.1 = x.2.mem ∧ x.2.words = 2 * x.2.writes ∧
      x.2.bursts = x.2.reads ∧
      x.2.acks = x.2.reads + x.2.writes
  answer : x.1.sys.busy = false → x.1.sys.ack = true →
    x.1.sys.rdata = x.2.want
  deadline : x.1.sys.busy = true → x.2.age ≤ 46

/- What every cycle keeps while the power-up is unclaimed. -/
structure Sound (x : Bridge × Log) : Prop where
  hand : Hand x.1
  doing : Doing x.1
  prepared : Prepared x.1
  kept : Kept x.1 x.2
  timer : x.1.refcnt ≤ 771
  late : x.1.sys.busy = true → x.2.age + rank x.1 ≤ 46

/- Nothing but power-up resets the controller. -/
def Powered (b : Bridge) (i : In) : Prop :=
  i.init = true → b.ctl.state = .startup

instance (b : Bridge) (i : In) : Decidable (Powered b i) :=
  inferInstanceAs (Decidable (_ → _))

end Sdram

------------------------------------------------------------
-- One Cycle
------------------------------------------------------------

namespace Sdram

open Clocked

variable {x : Bridge × Log} {i : In}

theorem timer_step
    {b : Bridge}
    (hTimer : b.refcnt ≤ 771) :
    (b.step i).refcnt ≤ 771 := by
  rw [refcnt_step hTimer]
  cases hFires : changes b with
  | true => exact Nat.zero_le _
  | false =>
      have hBelow : b.refcnt ≠ 771 := by
        simpa [changes] using hFires
      simp
      omega

/- A beat's age and rank together never pass the bound. -/
theorem late_step
    (hSound : Sound x)
    (hAdvance : Advance x.1 i)
    (hPowered : Powered x.1 i)
    (hBusy' : (logged x i).1.sys.busy = true) :
    (logged x i).2.age + rank (logged x i).1 ≤ 46 := by
  rcases x with ⟨b, g⟩
  have hRank := rank_le (b.step i)
  show (noteBeat g b i).age + rank (b.step i) ≤ 46
  cases hCaptures : b.captures i with
  | true =>
      simp only [noteBeat, hCaptures, Bool.true_or, if_true]
      omega
  | false =>
      by_cases hState : b.ctl.state = .startup
      · simp only [noteBeat, hState, beq_self_eq_true,
          Bool.or_true, if_true]
        omega
      · have hInit : i.init = false := by
          rw [← Bool.not_eq_true]
          exact fun hReset => hState (hPowered hReset)
        have hBusyNext : (b.step i).sys.busy = true := hBusy'
        rw [(@sys_step b i).1, hCaptures] at hBusyNext
        have hBack : b.returns i = false := by
          rw [← Bool.not_eq_true]
          intro hReturns
          simp [hReturns] at hBusyNext
        have hBusy : b.sys.busy = true := by
          simpa [hBack] using hBusyNext
        have hNo := (hSound.prepared.running hState).noCopy
        have hLess := rank_step hSound.hand hSound.doing hAdvance
          (move_step ⟨rfl, hInit, rfl, rfl⟩ hState hNo)
          hSound.timer ⟨hCaptures, hBack⟩ hBusy
        have hLate : g.age + rank b ≤ 46 := hSound.late hBusy
        have hUp : (b.ctl.state == .startup) = false :=
          beq_false_of_ne hState
        simp only [noteBeat, hCaptures, hUp, Bool.or_self,
          Bool.false_eq_true, if_false]
        cases hSys : i.sys with
        | true =>
            simp only [hSys, Bool.toNat_true] at hLess
            simp only [if_true]
            omega
        | false =>
            simp only [hSys, Bool.toNat_false] at hLess
            simp only [Bool.false_eq_true, if_false]
            omega

/- While the power-up is unclaimed the bridge is sound. -/
theorem sound_step
    (hSound : Sound x)
    (hPowered : Powered x.1 i)
    (hOk : Unclaimed x.1) :
    Sound (logged x i) := by
  rcases x with ⟨b, g⟩
  rcases doing_step hSound.hand hSound.prepared hOk hPowered
    hSound.doing with ⟨hDoing, hAdvance⟩
  have hHand := hand_step hSound.hand hDoing.second
  exact {
    hand := hHand
    doing := hDoing
    prepared := prepared_step b i hSound.prepared
    kept := kept_step hSound.hand hHand hAdvance hSound.kept
    timer := timer_step hSound.timer
    late := late_step hSound hAdvance hPowered }

/- A completion in a sound state ends an access. -/
theorem completion_of_sound
    (hSound : Sound x)
    (hCompletes : x.1.completes = true) :
    x.2.bursts = x.2.reads ∧
      x.2.words + (if x.1.sys.rWe && !x.1.ram.acc then 1 else 0)
        = 2 * x.2.writes := by
  rcases x with ⟨b, g⟩
  have hWork : b.ram.busyR = true := by
    simp only [Bridge.completes, Bool.and_eq_true] at hCompletes
    exact hCompletes.1.1.1
  have hLanding : landing b = true := by
    have hNow : b.completes = true := hCompletes
    simp [landing, hNow]
  rcases hSound.hand.working hWork with ⟨hBusy, -, hNone⟩
  cases hWe : b.sys.rWe with
  | true =>
      have hWrite := hSound.kept.write hBusy hWe
      simp only [stores, hNone, hWork, hLanding, if_true,
        Bool.false_eq_true, if_false, Bool.toNat_true] at hWrite
      refine ⟨hWrite.2.1, ?_⟩
      cases hAcc : b.ram.acc with
      | true =>
          simp only [hAcc, Bool.toNat_true] at hWrite
          simp
          omega
      | false =>
          simp only [hAcc, Bool.toNat_false] at hWrite
          simp
          omega
  | false =>
      have hRead := hSound.kept.read hBusy hWe
      simp only [loads, hNone, hWork, hLanding, if_true,
        Bool.false_eq_true, if_false, Bool.toNat_true] at hRead
      refine ⟨?_, ?_⟩
      · show g.bursts = g.reads
        omega
      · simp only [Bool.false_and, Bool.false_eq_true, if_false]
        exact hRead.2.2.1

theorem law_of_sound (hSound : Sound x) : MemoryLaw x where
  completion := completion_of_sound hSound
  settled := hSound.kept.free
  answer := hSound.kept.rdata
  deadline := fun hBusy => by
    have hLate := hSound.late hBusy
    omega

/- A rise of `ready` that is claimed ends no access. -/
theorem unlawful_of_claimed
    (hSound : Sound x)
    (hClaimed : ¬ Unclaimed x.1) :
    ¬ MemoryLaw (logged x i) := by
  rcases x with ⟨b, g⟩
  have hHand : Hand b := hSound.hand
  simp only [Unclaimed, not_forall] at hClaimed
  rcases hClaimed with ⟨hState, hEnd, hLow, hTaken⟩
  have hRest : Rest b := by
    cases hSound.doing with
    | rest h => exact h
    | opened h | column h | burst3 h | burst2 h | burst1 h =>
        exact absurd (h.symm.trans hState) State.noConfusion
    | wrote h => exact absurd (h.state.symm.trans hState) State.noConfusion
    | word0 h => exact absurd (h.state.symm.trans hState) State.noConfusion
    | word1 h => exact absurd (h.state.symm.trans hState) State.noConfusion
  intro hLaw
  have hComes : b.ram.busyR = true ∨ b.arrives = true := by
    cases hBusy : b.ram.busyR <;> cases hArrives : b.arrives <;>
      simp_all
  have hCompletes : (b.step i).completes = true := by
    rw [completes_of_startup hHand hRest hState]
    rcases hComes with h | h <;> simp [h, hEnd, hLow]
  have hCompletion := hLaw.completion hCompletes
  have hBusy : b.sys.busy = true := by
    rcases hComes with h | h
    · exact (hHand.working h).1
    · exact (hHand.asked (asking_of_arrives hHand h).1).1
  have hFree : b.captures i = false := by
    simp [Bridge.captures, hBusy]
  have hQuiet := (@startup_access b i hState).2.1
  rcases @note_of_quiet b i g hQuiet with ⟨hBursts, hWords⟩
  rcases @note_of_uncaptured b i g hFree with
    ⟨-, -, hReads, hWrites⟩
  have hWe : (b.step i).sys.rWe = b.sys.rWe := by
    rw [(@beat_step b i).2.2.2, hFree]
    rfl
  have hAnswering : b.answering = false := by
    rcases hComes with h | h
    · exact (hHand.working h).2.2
    · exact (hHand.asked (asking_of_arrives hHand h).1).2.2
  have hHalf : b.ram.busyR = true →
      (b.step i).ram.acc = b.ram.acc := by
    intro hWork
    rw [ram_of_waiting hWork hRest.single (hRest.level hWork)]
  have hFirst : b.ram.busyR = false →
      (b.step i).ram.acc = false := by
    intro hIdle
    apply acc_of_arrived hIdle hRest.single
    simp only [Bridge.completes, Bool.and_eq_true] at hCompletes
    exact hCompletes.1.1.1
  simp only [logged, watch_fst, watch_snd, hBursts, hWords,
    hReads, hWrites, hWe] at hCompletion
  cases hWrite : b.sys.rWe with
  | true =>
      have hOwed : g.words + 2 = 2 * g.writes + stores b :=
        (hSound.kept.write hBusy hWrite).2.2
      simp only [stores, hAnswering, hRest.landing] at hOwed
      cases hWork : b.ram.busyR with
      | true =>
          rw [hWrite, hHalf hWork] at hCompletion
          cases hAcc : b.ram.acc <;>
            simp [hWork, hAcc] at hOwed hCompletion <;> omega
      | false =>
          rw [hWrite, hFirst hWork] at hCompletion
          simp [hWork] at hOwed hCompletion
          omega
  | false =>
      have hOwed : g.bursts + 1 = g.reads + loads b :=
        (hSound.kept.read hBusy hWrite).2.2.2
      simp [loads, hAnswering, hRest.landing] at hOwed
      omega

end Sdram

------------------------------------------------------------
-- From Power-Up On
------------------------------------------------------------

namespace Sdram

open Clocked

theorem hand_powerOn (b₀ : Bridge) : Hand (powerOn b₀) := by
  constructor <;> simp [powerOn, Bridge.asking, Bridge.answering]

theorem rest_powerOn (b₀ : Bridge) : Rest (powerOn b₀) where
  state := ⟨State.noConfusion, State.noConfusion⟩
  single := rfl
  delay := rfl
  ready := fun hUp => absurd rfl hUp
  level := Bool.noConfusion
  first := Bool.noConfusion
  drained := fun hUp => absurd rfl hUp

theorem kept_powerOn (b₀ : Bridge) :
    Kept (powerOn b₀) (fresh (powerOn b₀)) where
  free := fun _ => ⟨rfl, rfl, rfl, rfl⟩
  rdata := fun _ => Bool.noConfusion
  acks := Bool.noConfusion
  write := Bool.noConfusion
  read := Bool.noConfusion
  high := Bool.noConfusion
  half := Bool.noConfusion
  drained := Bool.noConfusion
  hold := Bool.noConfusion

theorem sound_powerOn (b₀ : Bridge) :
    Sound (powerOn b₀, fresh (powerOn b₀)) where
  hand := hand_powerOn b₀
  doing := .rest (rest_powerOn b₀)
  prepared := prepared_of_reached ⟨b₀, [], rfl⟩
  kept := kept_powerOn b₀
  timer := Nat.zero_le _
  late := fun hBusy => absurd hBusy Bool.noConfusion

/- The law in service, and no beat before it. -/
def InService (b : Bridge) (i : In) : Prop :=
  Powered b i ∧
    (b.captures i = true → b.ctl.state ≠ .startup)

instance (b : Bridge) (i : In) : Decidable (InService b i) :=
  inferInstanceAs (Decidable (Powered b i ∧ (_ → _)))

/- Without a beat nothing claims the end of the power-up. -/
theorem unclaimed_of_free
    {b : Bridge}
    (hHand : Hand b)
    (hFree : b.ctl.state = .startup → b.sys.busy = false) :
    Unclaimed b := by
  intro hState _ _
  have hNone := hFree hState
  constructor
  · rw [← Bool.not_eq_true]
    intro hWork
    simp [(hHand.working hWork).1] at hNone
  · rw [← Bool.not_eq_true]
    intro hArrives
    have hAsking := (asking_of_arrives hHand hArrives).1
    simp [(hHand.asked hAsking).1] at hNone

theorem free_step
    {b : Bridge} {i : In}
    (hPrepared : Prepared b)
    (hService : InService b i)
    (hFree : b.ctl.state = .startup → b.sys.busy = false)
    (hState' : (b.step i).ctl.state = .startup) :
    (b.step i).sys.busy = false := by
  by_cases hState : b.ctl.state = .startup
  · have hNone : b.captures i = false := by
      rw [← Bool.not_eq_true]
      exact fun hCaptures => hService.2 hCaptures hState
    rw [(@sys_step b i).1, hNone, hFree hState]
    cases b.returns i <;> rfl
  · have hInit : i.init = false := by
      rw [← Bool.not_eq_true]
      exact fun hReset => hState (hService.1 hReset)
    exact absurd hState'
      (running_step hState (hPrepared.running hState) hInit).2

/- In service the bridge is the memory, beat by beat. -/
theorem memory_law
    (b₀ : Bridge)
    (is : List In)
    (hService : Along Bridge.step InService (powerOn b₀) is) :
    Always logged MemoryLaw
      (powerOn b₀, fresh (powerOn b₀)) is := by
  have hStep (x : Bridge × Log) (i : In)
      (hInv : Sound x ∧
        (x.1.ctl.state = .startup → x.1.sys.busy = false))
      (hEnv : InService x.1 i) :
      Sound (logged x i) ∧
        ((logged x i).1.ctl.state = .startup →
          (logged x i).1.sys.busy = false) := by
    rcases hInv with ⟨hSound, hFree⟩
    have hOk := unclaimed_of_free hSound.hand hFree
    exact ⟨sound_step hSound hEnv.1 hOk,
      free_step hSound.prepared hEnv hFree⟩
  have hAlong := (along_watch Bridge.step noteBeat InService
    (powerOn b₀, fresh (powerOn b₀)) is).mpr hService
  have hAlways := always_of_along hStep hAlong
    ⟨sound_powerOn b₀, fun _ => rfl⟩
  exact always_mono (fun _ hInv => law_of_sound hInv.1) hAlways

/- Once in service, every input without a reset is. -/
theorem inService_of_running
    {b : Bridge} {is : List In}
    (hInit : ∀ i ∈ is, i.init = false)
    (hState : b.ctl.state ≠ .startup)
    (hRunning : Running b) :
    Along Bridge.step InService b is := by
  induction is generalizing b with
  | nil => trivial
  | cons i is ih =>
      have hQuiet : i.init = false := hInit i (by simp)
      have hNext := running_step hState hRunning hQuiet
      refine ⟨⟨fun hReset => ?_, fun _ => hState⟩,
        ih (fun j hJ => hInit j (by simp [hJ])) hNext.2
          hNext.1⟩
      simp [hQuiet] at hReset

/- The power-up, four writes and the reads that follow. -/
theorem memory_law_traffic :
    Always logged MemoryLaw
      (powerOn blankBridge, fresh (powerOn blankBridge))
      (List.replicate 12103 ({} : In) ++
        (List.replicate 90
            { req := true, we := true, be := 0b1010#4
              addr := 5#25, wdata := 0x11223344#32 } ++
          List.replicate 90 { req := true, addr := 5#25 })) := by
  apply memory_law
  rw [along_append]
  constructor
  · apply along_mono (fun b i (hQuiet : i = ({} : In)) => ?_)
      (along_of_mem (fun _ hMem => List.eq_of_mem_replicate hMem))
    rw [hQuiet]
    exact ⟨Bool.noConfusion, by simp [Bridge.captures]⟩
  · have hService := @quietRun_service blankBridge 12101 rfl
    have hState : (quietRun blankBridge 12103).ctl.state ≠
        .startup := by simp [hService.1]
    have hRunning :=
      (prepared_of_reached
        (reached_quietRun blankBridge 12103)).running hState
    unfold quietRun at hState hRunning
    apply inService_of_running _ hState hRunning
    intro i hMem
    rcases List.mem_append.mp hMem with h | h <;>
      rw [List.eq_of_mem_replicate h]

/-
  The law holds along every run in which no beat claims the
  rise of `ready` that ends the power-up, and in no other.
-/
theorem power_up_law
    (b₀ : Bridge)
    (is : List In)
    (hPowered : Along Bridge.step Powered (powerOn b₀) is) :
    Always logged MemoryLaw
        (powerOn b₀, fresh (powerOn b₀)) is ↔
      Along Bridge.step (fun b _ => Unclaimed b)
        (powerOn b₀) is := by
  have hStart := sound_powerOn b₀
  have hStep (x : Bridge × Log) (i : In)
      (hSound : Sound x)
      (hEnv : Powered x.1 i) :
      MemoryLaw (logged x i) ↔ Unclaimed x.1 := by
    constructor
    · intro hLaw
      by_contra hClaimed
      exact unlawful_of_claimed hSound hClaimed hLaw
    · intro hOk
      exact law_of_sound (sound_step hSound hEnv hOk)
  have hEdges := @always_iff_along _ _ logged
    (fun x i => MemoryLaw (logged x i)) MemoryLaw
    (fun _ _ _ => Iff.rfl) _ is (law_of_sound hStart)
  have hEnv := (along_watch Bridge.step noteBeat Powered
    (powerOn b₀, fresh (powerOn b₀)) is).mpr hPowered
  have hSame := along_watch Bridge.step noteBeat
    (fun b _ => Unclaimed b) (powerOn b₀, fresh (powerOn b₀)) is
  rw [hEdges, ← hSame]
  apply along_iff_along_under _ hStep hEnv hStart
  intro x i hSound hPower hLaw
  exact sound_step hSound hPower
    ((hStep x i hSound hPower).mp hLaw)

/- A read asked for in the very first cycle. -/
def earlyRead (n : Nat) : List In :=
  { req := true } :: List.replicate n {}

theorem earlyRead_succ (n : Nat) :
    earlyRead (n + 1) = earlyRead n ++ [({} : In)] := by
  simp only [earlyRead, List.cons_append, List.replicate_succ']

theorem init_earlyRead (n : Nat) :
    ∀ i ∈ earlyRead n, i.init = false := by
  intro i hMem
  rcases List.mem_cons.mp hMem with h | h
  · rw [h]
  · rw [List.eq_of_mem_replicate h]

theorem powered_of_quiet
    {b : Bridge} {is : List In}
    (hInit : ∀ i ∈ is, i.init = false) :
    Along Bridge.step Powered b is := by
  have hPowered (b : Bridge) (i : In)
      (hQuiet : i.init = false) : Powered b i := by
    intro hReset
    rw [hQuiet] at hReset
    exact absurd hReset Bool.false_ne_true
  exact along_mono hPowered (along_of_mem hInit)

theorem power_up_law_early :
    Always logged MemoryLaw
        (powerOn blankBridge, fresh (powerOn blankBridge))
        (earlyRead 12101) ↔
      Along Bridge.step (fun b _ => Unclaimed b)
        (powerOn blankBridge) (earlyRead 12101) :=
  power_up_law blankBridge (earlyRead 12101)
    (powered_of_quiet (init_earlyRead 12101))

/- The sequence runs on, with the read waiting from then on. -/
theorem earlyRead_state
    {n : Nat}
    (hLe : n ≤ 12100) :
    (run Bridge.step (powerOn blankBridge)
        (earlyRead n)).ctl.state = .startup ∧
      pos (run Bridge.step (powerOn blankBridge)
        (earlyRead n)).ctl = 4284 + n ∧
      (run Bridge.step (powerOn blankBridge)
        (earlyRead n)).ctl.ready = false := by
  have hLength : (earlyRead n).length = n + 1 := by
    simp only [earlyRead, List.length_cons,
      List.length_replicate]
  have hRun := @startup_run blankBridge (earlyRead n)
    (init_earlyRead n) (by omega)
  rw [hLength] at hRun
  refine ⟨hRun.1, ?_, hRun.2.2.2.2⟩
  rw [hRun.2.1]
  omega

theorem earlyRead_busy
    {n : Nat}
    (hLe : n ≤ 12097) :
    (run Bridge.step (powerOn blankBridge)
        (earlyRead (n + 3))).ram.busyR = true ∧
      (run Bridge.step (powerOn blankBridge)
        (earlyRead (n + 3))).ram.rd2 = false := by
  induction n with
  | zero => decide +kernel
  | succ n ih =>
      rcases ih (by omega) with ⟨hBusy, hSingle⟩
      have hReady :=
        (@earlyRead_state (n + 3) (by omega)).2.2
      rw [Nat.add_right_comm, earlyRead_succ, run_append]
      simp only [run_cons, run_nil]
      rw [ram_of_waiting hBusy hSingle (completes_of_low hReady)]
      exact ⟨hBusy, hSingle⟩

/- Before its end the sequence raises nothing. -/
theorem unclaimed_earlyRead
    {n : Nat}
    (hLe : n ≤ 12100) :
    Along Bridge.step (fun b _ => Unclaimed b)
      (powerOn blankBridge) (earlyRead n) := by
  induction n with
  | zero => decide +kernel
  | succ n ih =>
      rw [earlyRead_succ, along_append]
      refine ⟨ih (by omega), ⟨?_, trivial⟩⟩
      intro hState hEnd hReady
      have hPos := (@earlyRead_state n (by omega)).2.1
      rw [pos, if_pos hEnd] at hPos
      omega

/-
  The first beat's completion is the end of the power-up: the
  read is over with no access at the chips.
-/
theorem power_up_completes :
    Along Bridge.step Powered (powerOn blankBridge)
        (earlyRead 12101) ∧
      ¬ Always logged MemoryLaw
        (powerOn blankBridge, fresh (powerOn blankBridge))
        (earlyRead 12101) := by
  refine ⟨powered_of_quiet (init_earlyRead 12101), ?_⟩
  intro hAlways
  have hSound : Sound (run logged
      (powerOn blankBridge, fresh (powerOn blankBridge))
      (earlyRead 12100)) := by
    have hEnv : Along logged
        (fun x i => Powered x.1 i ∧ Unclaimed x.1)
        (powerOn blankBridge, fresh (powerOn blankBridge))
        (earlyRead 12100) := by
      rw [along_watch Bridge.step noteBeat
        (fun b i => Powered b i ∧ Unclaimed b), along_and]
      exact ⟨powered_of_quiet (init_earlyRead 12100),
        unclaimed_earlyRead (by decide)⟩
    exact invariant_run
      (fun x i hInv hOk => sound_step hInv hOk.1 hOk.2)
      hEnv (sound_powerOn blankBridge)
  have hLast := hAlways (earlyRead 12101) (List.prefix_refl _)
  rw [earlyRead_succ, run_append] at hLast
  refine unlawful_of_claimed hSound ?_ hLast
  rw [run_watch_fst]
  simp only
  rcases @earlyRead_state 12100 (by decide) with
    ⟨hState, hPos, hReady⟩
  have hBusy := (@earlyRead_busy 12097 (by decide)).1
  rw [show 12097 + 3 = 12100 from rfl] at hBusy
  intro hUnclaimed
  have hEnd : (run Bridge.step (powerOn blankBridge)
      (earlyRead 12100)).ctl.refreshCount = 0#14 := by
    rw [pos] at hPos
    split_ifs at hPos with hZero
    · exact hZero
    · have hLt := (run Bridge.step (powerOn blankBridge)
        (earlyRead 12100)).ctl.refreshCount.isLt
      omega
  have hNone := (hUnclaimed hState hEnd hReady).1
  rw [hBusy] at hNone
  exact absurd hNone Bool.noConfusion

end Sdram
