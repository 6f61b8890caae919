import Wombat33.Ncr53c96.Reachable

/-
  The interrupt register over whole runs.

  The causes of one cycle collect in an accumulator and are
  merged into the register at the bottom of the clocked
  block.  A read returns what the register held before the
  edge; causes of the reading cycle itself are kept for the
  next read.

  Key definitions include:
    * `chipReset`
    * `RaisedUnread`
    * `InterruptsExact`

  Key theorems include:
    * `clock_istatus_bit`
    * `interrupts_exact`
-/

------------------------------------------------------------
-- One Edge
------------------------------------------------------------

namespace Ncr53c96

variable (cfg : Config) {s : Chip} {i : In}

/- The chip reset command, with or without the DMA bit. -/
def chipReset (i : In) : Bool := cmdIs i 0x02#7

/-
  One bit of the register.  A cause raised wins over the read
  and over the chip reset; a reset clears only if nothing was
  raised with it.
-/
theorem clock_istatus_bit (k : Nat) :
    (clock cfg s i).istatus.getLsbD k =
      ((raised cfg s i).getLsbD k ||
        (s.istatus.getLsbD k && !isrRead i &&
          (!chipReset i || raised cfg s i != 0x00#8))) := by
  rw [clock_istatus, clock_iNew]
  cases isrRead i with
  | true => simp
  | false =>
      by_cases hRaised : raised cfg s i = 0x00#8
      · cases hChip : cmdIs i 0x02#7 <;>
          simp [chipReset, hRaised, hChip]
      · have hAny : (raised cfg s i != 0x00#8) = true :=
          bne_iff_ne.mpr hRaised
        simp [hAny, Bool.or_comm]

/- The line is high exactly while a cause is held. -/
theorem clock_irq_iff
    (hLine : s.irq = (s.istatus != 0x00#8)) :
    (clock cfg s i).irq =
      ((clock cfg s i).istatus != 0x00#8) := by
  rw [clock_irq, clock_istatus]
  cases isrRead i with
  | true => simp
  | false =>
      by_cases hRaised : (clock cfg s i).iNew = 0x00#8
      · simp only [hRaised, bne_self_eq_false,
          Bool.false_eq_true, if_false]
        split
        · simp
        · exact hLine
      · simp [hRaised, BitVec.or_eq_zero_iff]

/- A cause raised is held. -/
theorem clock_istatus_of_raised :
    raised cfg s i &&& (clock cfg s i).istatus =
      raised cfg s i := by
  apply BitVec.eq_of_getLsbD_eq
  intro k hk
  rw [BitVec.getLsbD_and, clock_istatus_bit]
  cases (raised cfg s i).getLsbD k <;> rfl

/- Without an access or a cause nothing changes. -/
theorem clock_istatus_of_idle
    (hSel : i.sel = false)
    (hRaised : raised cfg s i = 0x00#8) :
    (clock cfg s i).istatus = s.istatus := by
  rw [clock_istatus, clock_iNew, hRaised]
  simp [isrRead, regRdCyc, cmdIs, regWr, regWrCyc, hSel]

/- A read of the interrupt register returns the register. -/
theorem rdata_of_isrRead
    (hRead : isrRead i = true) :
    rdata s i = s.istatus := by
  simp only [isrRead, Bool.and_eq_true, beq_iff_eq] at hRead
  simp [rdata, hRead.2]

end Ncr53c96

------------------------------------------------------------
-- Runs
------------------------------------------------------------

namespace Ncr53c96

open Clocked

variable (cfg : Config)

/-
  Cause `k` was raised in a cycle of the run, and the
  register has not been read since.
-/
def RaisedUnread (s : Chip) (is : List In) (k : Nat) : Prop :=
  ∃ pre i post, is = pre ++ i :: post ∧
    (raised cfg (run (step cfg) s pre) i).getLsbD k = true ∧
    ∀ j ∈ post, isrRead j = false

/-
  The interrupt register after a run out of reset: the line
  follows it, each cause in it was raised and not yet read,
  and a read returns each cause raised in an earlier cycle,
  unless the register was read or the chip reset in between.
-/
structure InterruptsExact (s₀ : Chip) (is : List In) :
    Prop where
  line : (run (step cfg) (powerOn cfg s₀) is).irq = true ↔
    (run (step cfg) (powerOn cfg s₀) is).istatus ≠ 0x00#8
  caused : ∀ k,
    (run (step cfg) (powerOn cfg s₀) is).istatus.getLsbD k =
      true →
    RaisedUnread cfg (powerOn cfg s₀) is k
  returned : ∀ pre i post read,
    is = pre ++ i :: post →
    (∀ j ∈ post, isrRead j = false ∧ chipReset j = false) →
    isrRead read = true →
    raised cfg (run (step cfg) (powerOn cfg s₀) pre) i &&&
        rdata (run (step cfg) (powerOn cfg s₀) is) read =
      raised cfg (run (step cfg) (powerOn cfg s₀) pre) i

variable {cfg}

/- A cause held stays until a read or a chip reset. -/
theorem istatus_bit_run
    {s : Chip} {is : List In} {k : Nat}
    (hClocked : ∀ i ∈ is, i.nreset = true)
    (hKept : ∀ i ∈ is, isrRead i = false ∧
      chipReset i = false)
    (hHeld : s.istatus.getLsbD k = true) :
    (run (step cfg) s is).istatus.getLsbD k = true := by
  refine @invariant_run Chip In (step cfg)
    (fun _ i => i.nreset = true ∧ isrRead i = false ∧
      chipReset i = false)
    (fun s => s.istatus.getLsbD k = true) ?_ s is ?_ hHeld
  · rintro s i hHeld ⟨hReset, hRead, hChip⟩
    rw [step_of_nreset cfg s i hReset, clock_istatus_bit]
    simp [hHeld, hRead, hChip]
  · exact along_of_mem
      (fun i hi => ⟨hClocked i hi, hKept i hi⟩)

/- One more cycle: old causes unread, or a new one. -/
theorem raisedUnread_snoc
    {s : Chip} {is : List In} {i : In} {k : Nat}
    (h : (raised cfg (run (step cfg) s is) i).getLsbD k =
        true ∨
      RaisedUnread cfg s is k ∧ isrRead i = false) :
    RaisedUnread cfg s (is ++ [i]) k := by
  rcases h with hNow | ⟨⟨pre, j, post, rfl, hThen, hNone⟩, hRead⟩
  · exact ⟨is, i, [], rfl, hNow, by simp⟩
  · refine ⟨pre, j, post ++ [i], by simp, hThen, ?_⟩
    intro j' hj'
    rcases List.mem_append.mp hj' with hj' | hj'
    · exact hNone j' hj'
    · rw [List.mem_singleton.mp hj']
      exact hRead

theorem istatus_caused
    {s₀ : Chip} {is : List In} {k : Nat}
    (hClocked : ∀ i ∈ is, i.nreset = true)
    (hHeld : (run (step cfg) (powerOn cfg s₀) is).istatus.getLsbD
      k = true) :
    RaisedUnread cfg (powerOn cfg s₀) is k := by
  induction is using List.reverseRecOn with
  | nil =>
      have hClear : (powerOn cfg s₀).istatus = 0x00#8 := by
        simp [powerOn, step, sbufPorts, resetRegs]
      simp [hClear] at hHeld
  | append_singleton is i ih =>
      have hReset : i.nreset = true :=
        hClocked i (by simp)
      rw [run_append, run_cons, run_nil,
        step_of_nreset cfg _ i hReset, clock_istatus_bit]
        at hHeld
      simp only [Bool.or_eq_true, Bool.and_eq_true,
        Bool.not_eq_true'] at hHeld
      apply raisedUnread_snoc
      rcases hHeld with hNow | ⟨⟨hOld, hRead⟩, -⟩
      · exact Or.inl hNow
      · have hBefore := ih
          (fun j hj => hClocked j (by simp [hj])) hOld
        exact Or.inr ⟨hBefore, hRead⟩

theorem irq_line
    {s₀ : Chip} {is : List In}
    (hClocked : ∀ i ∈ is, i.nreset = true) :
    (run (step cfg) (powerOn cfg s₀) is).irq =
      ((run (step cfg) (powerOn cfg s₀) is).istatus !=
        0x00#8) := by
  refine @invariant_run Chip In (step cfg)
    (fun _ i => i.nreset = true)
    (fun s => s.irq = (s.istatus != 0x00#8)) ?_ _ is
    (along_of_mem hClocked) ?_
  · intro s i hLine hReset
    rw [step_of_nreset cfg s i hReset]
    exact clock_irq_iff cfg hLine
  · simp [powerOn, step, sbufPorts, resetRegs]

/-
  No interrupt is lost and none invented, in any run out of
  reset.
-/
theorem interrupts_exact
    (cfg : Config)
    (s₀ : Chip)
    (is : List In)
    (hClocked : ∀ i ∈ is, i.nreset = true) :
    InterruptsExact cfg s₀ is := by
  refine ⟨?_, fun k => istatus_caused hClocked, ?_⟩
  · rw [irq_line hClocked, bne_iff_ne]
  · rintro pre i post read rfl hKept hRead
    have hReset : i.nreset = true := hClocked i (by simp)
    have hPost : ∀ j ∈ post, j.nreset = true :=
      fun j hj => hClocked j (by simp [hj])
    rw [rdata_of_isrRead hRead]
    apply BitVec.eq_of_getLsbD_eq
    intro k hk
    rw [BitVec.getLsbD_and]
    cases hRaised : (raised cfg
        (run (step cfg) (powerOn cfg s₀) pre) i).getLsbD k with
    | false => rfl
    | true =>
        rw [Bool.true_and, run_append, run_cons]
        apply istatus_bit_run hPost hKept
        rw [step_of_nreset cfg _ i hReset, clock_istatus_bit,
          hRaised, Bool.true_or]

/-
  An illegal command, then a CDB that is executed in the very
  cycle in which the interrupt register is read.
-/
def readMeetsExec : List In :=
  [mountImage, regWrite 0x3#4 0x7F#8] ++
    List.replicate 6 (regWrite 0x2#4 0x00#8) ++
    [regWrite 0x3#4 0x41#8] ++ List.replicate 7 quiet ++
    [{ sel := true, rs := 0x5#4 }]

theorem interrupts_exact_readMeetsExec :
    InterruptsExact ⟨0#4, false⟩ default readMeetsExec :=
  interrupts_exact ⟨0#4, false⟩ default readMeetsExec
    (by decide)

end Ncr53c96
