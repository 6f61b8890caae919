import Wombat33.Via6522.Timers

/-
  The interrupt flags.

  A flag is meant to be set from its event until an access
  clears it.  A write of the flag register takes the old flags
  and forgets the events of its own clock, those of the flags
  it does not name included: these interrupts are lost.

  Key definitions include:
    * `asked`, `noteFlags`
    * `Spares`

  Key theorems include:
    * `flags_step`
    * `flags_exact_iff`
    * `timeout_lost`
-/

------------------------------------------------------------
-- What Is Asked to Be Cleared
------------------------------------------------------------

namespace Via6522

open Clocked

variable (s : Via) (i : In)

/- A port access, and whether it clears the second line too. -/
def portAAccess : Bool :=
  i.writes rORA || i.reads rORA || i.reads rORANoHs

def portBAccess : Bool := i.writes rORB || i.reads rORB

/- The flags an access clears, beside the flag register's. -/
def accessed : BitVec 7 :=
  BitVec.ofBool (i.writes rT1CH || i.writes rT1LH ||
      i.reads rT1CL) ++
    BitVec.ofBool (i.writes rT2CH || i.reads rT2CL) ++
    BitVec.ofBool (portBAccess i) ++
    BitVec.ofBool (portBAccess i && !cb2NoIrqClr s) ++
    BitVec.ofBool (i.writes rSR || i.reads rSR) ++
    BitVec.ofBool (portAAccess i) ++
    BitVec.ofBool (portAAccess i && !ca2NoIrqClr s)

/- The flags a write of the flag register names. -/
def named : BitVec 7 :=
  if i.writes rIFR then i.dataIn.setWidth 7 else 0#7

def asked : BitVec 7 := accessed s i ||| named i

/- The flags as they are meant. -/
def noteFlags (flags : BitVec 7) (s : Via) (i : In) : BitVec 7 :=
  if i.reset then 0#7
  else (flags ||| irqEvents s i) &&& ~~~(asked s i)

/- No new event meets a write of the flag register. -/
def Spares : Prop :=
  i.reset = false → i.writes rIFR = true →
    irqEvents s i &&& ~~~(named i) &&& ~~~s.irqFlags = 0#7

end Via6522

------------------------------------------------------------
-- Masks
------------------------------------------------------------

namespace Via6522

variable {s : Via} {i : In} {flags : BitVec 7}

def portBMask (keeps : Bool) : BitVec 7 :=
  if keeps then 0b0010000#7 else 0b0011000#7

def portAMask (keeps : Bool) : BitVec 7 :=
  if keeps then 0b0000010#7 else 0b0000011#7

/- The flags cleared by a write, by the register. -/
def writtenMask (w : Bool) (a : BitVec 4) (b c : Bool) : BitVec 7 :=
  if w && a == rORB then portBMask b
  else if w && a == rORA then portAMask c
  else if w && a == rT1CH || w && a == rT1LH then 0b1000000#7
  else if w && a == rT2CH then 0b0100000#7
  else if w && a == rSR then 0b0000100#7
  else 0#7

/- And those cleared by a read. -/
def readMask (r : Bool) (a : BitVec 4) (b c : Bool) : BitVec 7 :=
  if r && a == rORB then portBMask b
  else if r && a == rORA || r && a == rORANoHs then portAMask c
  else if r && a == rT1CL then 0b1000000#7
  else if r && a == rT2CL then 0b0100000#7
  else if r && a == rSR then 0b0000100#7
  else 0#7

theorem clear_portB (keeps : Bool) :
    clearBit 4 (clearIf (!keeps) 3 flags) =
      flags &&& ~~~(portBMask keeps) := by
  cases keeps with
  | true => rfl
  | false =>
      simp only [clearBit, clearIf, portBMask, Bool.not_false,
        if_true, BitVec.and_assoc]
      rfl

theorem clear_portA (keeps : Bool) :
    clearBit 1 (clearIf (!keeps) 0 flags) =
      flags &&& ~~~(portAMask keeps) := by
  cases keeps with
  | true => rfl
  | false =>
      simp only [clearBit, clearIf, portAMask, Bool.not_false,
        if_true, BitVec.and_assoc]
      rfl

theorem and_not_zero : flags &&& ~~~0#7 = flags := by
  have hOnes : ~~~0#7 = BitVec.allOnes 7 := rfl
  rw [hOnes, BitVec.and_allOnes]

/- Masks are chosen as the flags are cleared. -/
theorem mask_if (c : Bool) (x y : BitVec 7) :
    (if c then flags &&& ~~~x else flags &&& ~~~y) =
      flags &&& ~~~(if c then x else y) := by
  cases c <;> rfl

theorem mask_last (c : Bool) (x : BitVec 7) :
    (if c then flags &&& ~~~x else flags) =
      flags &&& ~~~(if c then x else 0#7) := by
  cases c with
  | true => rfl
  | false => exact and_not_zero.symm

theorem flagsWritten_mask (hOther : i.writes rIFR = false) :
    flagsWritten s i flags =
      flags &&& ~~~(writtenMask (i.wen && i.falling) i.addr
        (cb2NoIrqClr s) (ca2NoIrqClr s)) := by
  have hNot : ¬ i.writes rIFR = true := by simp [hOther]
  have hSix : clearBit 6 flags = flags &&& ~~~0b1000000#7 := rfl
  have hFive : clearBit 5 flags = flags &&& ~~~0b0100000#7 := rfl
  have hTwo : clearBit 2 flags = flags &&& ~~~0b0000100#7 := rfl
  rw [flagsWritten, if_neg hNot, clear_portB, clear_portA, hSix,
    hFive, hTwo, mask_last, mask_if, mask_if, mask_if, mask_if]
  rfl

theorem flagsRead_mask :
    flagsRead s i flags =
      flags &&& ~~~(readMask (i.ren && i.falling) i.addr
        (cb2NoIrqClr s) (ca2NoIrqClr s)) := by
  have hSix : clearBit 6 flags = flags &&& ~~~0b1000000#7 := rfl
  have hFive : clearBit 5 flags = flags &&& ~~~0b0100000#7 := rfl
  have hTwo : clearBit 2 flags = flags &&& ~~~0b0000100#7 := rfl
  rw [flagsRead, clear_portB, clear_portA, hSix, hFive, hTwo,
    mask_last, mask_if, mask_if, mask_if, mask_if]
  rfl

theorem accessed_mask :
    accessed s i =
      writtenMask (i.wen && i.falling) i.addr (cb2NoIrqClr s)
          (ca2NoIrqClr s) |||
        readMask (i.ren && i.falling) i.addr (cb2NoIrqClr s)
          (ca2NoIrqClr s) := by
  unfold accessed portAAccess portBAccess
  simp only [In.writes, In.reads]
  generalize (i.wen && i.falling) = w
  generalize (i.ren && i.falling) = r
  generalize cb2NoIrqClr s = b
  generalize ca2NoIrqClr s = c
  generalize i.addr = a
  revert w r b c a
  decide +kernel

/- The accesses clear what they are meant to. -/
theorem flags_accessed (hOther : i.writes rIFR = false) :
    flagsRead s i (flagsWritten s i flags) =
      flags &&& ~~~(accessed s i) := by
  rw [flagsRead_mask, flagsWritten_mask hOther, accessed_mask,
    BitVec.and_assoc, BitVec.not_or]

end Via6522

------------------------------------------------------------
-- Runs
------------------------------------------------------------

namespace Via6522

open Clocked

variable {s : Via} {i : In}

/- A write of the flag register touches no other register. -/
theorem accessed_none (hWrite : i.writes rIFR = true) :
    accessed s i = 0#7 := by
  have hAddr : i.addr = rIFR := by
    simp only [In.writes, Bool.and_eq_true, beq_iff_eq] at hWrite
    exact hWrite.2
  rw [accessed_mask, hAddr]
  generalize (i.wen && i.falling) = w
  generalize (i.ren && i.falling) = r
  generalize cb2NoIrqClr s = b
  generalize ca2NoIrqClr s = c
  revert w r b c
  decide

/- It takes the old flags, not those of this clock. -/
theorem flags_named (hWrite : i.writes rIFR = true) :
    flagsRead s i
        (flagsWritten s i (s.irqFlags ||| irqEvents s i)) =
      s.irqFlags &&& ~~~(named i) := by
  have hAddr : i.addr = rIFR := by
    simp only [In.writes, Bool.and_eq_true, beq_iff_eq] at hWrite
    exact hWrite.2
  have hWritten :
      flagsWritten s i (s.irqFlags ||| irqEvents s i) =
        s.irqFlags &&& ~~~(named i) := by
    rw [named, if_pos hWrite, flagsWritten, hWrite]
    simp [In.writes, hAddr, rIFR, rORB, rORA, rT1CH, rT1LH, rT2CH,
      rSR]
  rw [hWritten, flagsRead]
  simp [In.reads, hAddr, rIFR, rORB, rORA, rT1CL, rT2CL, rSR,
    rORANoHs]

/- Both are the same but for new events that are not named. -/
theorem lost_iff (f e d : BitVec 7) :
    f &&& ~~~d = (f ||| e) &&& ~~~d ↔
      e &&& ~~~d &&& ~~~f = 0#7 := by
  constructor
  · intro hSame
    apply BitVec.eq_of_getLsbD_eq
    intro k hk
    have hBit := congrArg (fun x => x.getLsbD k) hSame
    simp only [BitVec.getLsbD_and, BitVec.getLsbD_or,
      BitVec.getLsbD_not, hk, decide_true, Bool.true_and,
      BitVec.getLsbD_zero] at hBit ⊢
    revert hBit
    cases f.getLsbD k <;> cases e.getLsbD k <;>
      cases d.getLsbD k <;> decide
  · intro hNone
    apply BitVec.eq_of_getLsbD_eq
    intro k hk
    have hBit := congrArg (fun x => x.getLsbD k) hNone
    simp only [BitVec.getLsbD_and, BitVec.getLsbD_or,
      BitVec.getLsbD_not, hk, decide_true, Bool.true_and,
      BitVec.getLsbD_zero] at hBit ⊢
    revert hBit
    cases f.getLsbD k <;> cases e.getLsbD k <;>
      cases d.getLsbD k <;> decide

/- One clock keeps the flags exact just where it spares them. -/
theorem flags_step :
    (s.step i).irqFlags = noteFlags s.irqFlags s i ↔
      Spares s i := by
  show irqFlagsEdge s i = noteFlags s.irqFlags s i ↔ Spares s i
  unfold irqFlagsEdge noteFlags Spares
  cases hReset : i.reset with
  | true => simp
  | false =>
      cases hWrite : i.writes rIFR with
      | false =>
          have hNamed : named i = 0#7 := by simp [named, hWrite]
          simp [flags_accessed hWrite, asked, hNamed]
      | true =>
          simp [flags_named hWrite, asked, accessed_none hWrite,
            lost_iff]

/-
  Every flag is set from its event to the access that clears
  it, in the runs in which no write of the flag register meets
  a new event that it does not name, and in no others.
-/
theorem flags_exact_iff
    (s : Via)
    (is : List In) :
    Always (watch Via.step noteFlags)
        (fun x => x.1.irqFlags = x.2) (s, s.irqFlags) is ↔
      Along Via.step Spares s is := by
  rw [← along_watch Via.step noteFlags Spares (s, s.irqFlags)]
  refine always_iff_along ?_ rfl
  rintro ⟨t, flags⟩ i hExact
  simp only at hExact
  subst hExact
  exact flags_step

end Via6522

------------------------------------------------------------
-- A Timeout Lost
------------------------------------------------------------

namespace Via6522

open Clocked

variable {s : Via} {i : In} {is : List In}

theorem irqEvents_timerA :
    (irqEvents s i).getLsbD 6 = timerAEvent s i := by
  unfold irqEvents
  repeat rw [BitVec.getLsbD_append]
  cases timerAEvent s i <;> rfl

/- Without its event a flag stays clear. -/
theorem timerFlag_clear
    (hClear : s.irqFlags.getLsbD 6 = false)
    (hOther : i.writes rIFR = false)
    (hEvent : timerAEvent s i = false) :
    (s.step i).irqFlags.getLsbD 6 = false := by
  show (irqFlagsEdge s i).getLsbD 6 = false
  unfold irqFlagsEdge
  split_ifs
  · simp
  · rw [flags_accessed hOther, BitVec.getLsbD_and,
      BitVec.getLsbD_or, hClear, irqEvents_timerA, hEvent]
    rfl

/- Nor does a write of the flag register set it. -/
theorem timerFlag_written
    (hClear : s.irqFlags.getLsbD 6 = false)
    (hWrite : i.writes rIFR = true) :
    (s.step i).irqFlags.getLsbD 6 = false := by
  show (irqFlagsEdge s i).getLsbD 6 = false
  unfold irqFlagsEdge
  split_ifs
  · simp
  · rw [flags_named hWrite, BitVec.getLsbD_and, hClear]
    rfl

/- A timer that is over keeps its flag clear. -/
theorem timerFlag_over
    (hAlong : Along Via.step OneShot s is)
    (hOver : s.timerA.mayInterrupt = false)
    (hClear : s.irqFlags.getLsbD 6 = false) :
    Always Via.step (fun s => s.irqFlags.getLsbD 6 = false)
      s is := by
  have hKept : Always Via.step
      (fun s => s.timerA.mayInterrupt = false ∧
        s.irqFlags.getLsbD 6 = false) s is := by
    refine always_of_along ?_ hAlong ⟨hOver, hClear⟩
    rintro t j ⟨hMay, hFlag⟩ hShot
    have hEvent : timerAEvent t j = false := by
      rw [timerA_event, hMay, Bool.and_false]
    refine ⟨timerA_over hShot.toLeft hMay, ?_⟩
    cases hWrite : j.writes rIFR with
    | false => exact timerFlag_clear hFlag hWrite hEvent
    | true => exact timerFlag_written hFlag hWrite
  exact always_mono (fun _ hBoth => hBoth.2) hKept

/-
  A one-shot that ends at a write of the flag register is not
  reported, then or later, even if the write names only others.
-/
theorem timeout_lost
    (s : Via)
    (i : In)
    (is : List In)
    (hEvent : timerAEvent s i = true)
    (hClear : s.irqFlags.getLsbD 6 = false)
    (hWrite : i.writes rIFR = true)
    (hAlong : Along Via.step OneShot s (i :: is)) :
    Always Via.step (fun s => s.irqFlags.getLsbD 6 = false)
      s (i :: is) := by
  have hShot : OneShot s i := hAlong.1
  have hEnd : i.timerTick = true ∧ dueA s.timerA = 0 := by
    rw [timerA_event] at hEvent
    simp only [Bool.and_eq_true, decide_eq_true_eq] at hEvent
    exact hEvent.1
  have hOver : (s.step i).timerA.mayInterrupt = false := by
    rw [(timerA_reload hShot.toLeft hEnd.1 hEnd.2).2.1,
      hShot.mode, Bool.and_false]
  exact (always_cons s i is).mpr ⟨hClear,
    timerFlag_over hAlong.2 hOver
      (timerFlag_written hClear hWrite)⟩

/- The tick at which timer 1 has run out, and CA1 is cleared. -/
def endingA : Via :=
  { (default : Via) with
    timerA := { (default : TimerA) with
      reload := true, mayInterrupt := true } }

def clearCA1 : In :=
  { timerTick := true, falling := true, wen := true
    addr := rIFR, dataIn := 0x02#8 }

theorem timeout_lost_clearing :
    timerAEvent endingA clearCA1 = true ∧
      Always Via.step (fun s => s.irqFlags.getLsbD 6 = false)
        endingA (clearCA1 :: threeTicks) :=
  ⟨rfl, timeout_lost endingA clearCA1 threeTicks rfl rfl rfl
    ⟨⟨⟨rfl, rfl⟩, rfl⟩, ⟨⟨rfl, rfl⟩, rfl⟩, ⟨⟨rfl, rfl⟩, rfl⟩,
      ⟨⟨rfl, rfl⟩, rfl⟩, trivial⟩⟩

end Via6522
