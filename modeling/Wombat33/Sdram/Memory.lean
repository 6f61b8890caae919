import Wombat33.Sdram.Advance

/-
  The bridge as a byte-addressable memory.

  A log keeps the memory that the beats taken so far make up,
  what a read is to return, and how many beats, acknowledges
  and accesses there have been.  The chips' cells follow the
  log's memory, behind it by what has not been drained yet.

  Key definitions include:
    * `Log`, `noteBeat`
    * `Drained`, `stores`, `loads`
    * `Kept`

  Key theorems include:
    * `kept_step`
-/

------------------------------------------------------------
-- The Log
------------------------------------------------------------

namespace Sdram

open Lanes

/-
  `mem` is the memory after every beat taken so far, `want`
  what the last read taken is to return; `bursts` and `words`
  count what the chips have been asked for, and `age` the
  machine's edges since a beat was taken in service.
-/
structure Log where
  mem : Mem 25
  want : BitVec 32
  reads : Nat
  writes : Nat
  acks : Nat
  bursts : Nat
  words : Nat
  age : Nat

def noteBeat (g : Log) (b : Bridge) (i : In) : Log where
  mem :=
    if b.captures i && i.we then
      storeLanes g.mem i.addr i.be i.wdata
    else g.mem
  want :=
    if b.captures i && !i.we then loadWord g.mem i.addr
    else g.want
  reads :=
    if b.captures i && !i.we then g.reads + 1 else g.reads
  writes :=
    if b.captures i && i.we then g.writes + 1 else g.writes
  acks :=
    if i.sys && (b.step i).sys.ack then g.acks + 1 else g.acks
  bursts :=
    if (b.step i).ctl.command == .read then g.bursts + 1
    else g.bursts
  words :=
    if (b.step i).ctl.command == .write then g.words + 1
    else g.words
  age :=
    if b.captures i || b.ctl.state == .startup then 0
    else if i.sys then g.age + 1
    else g.age

/- Nothing taken yet, and the memory as it was found. -/
def fresh (b : Bridge) : Log where
  mem := stored b
  want := 0#32
  reads := 0
  writes := 0
  acks := 0
  bursts := 0
  words := 0
  age := 0

/- A half of the captured write is in its cell. -/
def Drained (b : Bridge) (low : Bool) : Prop :=
  storeLanes (stored b) b.sys.rAddr (halfLanes low b.sys.rBe)
    b.sys.rWdata = stored b

/- How many of the beat's accesses the chips have seen. -/
def stores (b : Bridge) : Nat :=
  if b.answering then 2
  else if b.ram.busyR then b.ram.acc.toNat + (landing b).toNat
  else 0

def loads (b : Bridge) : Nat :=
  if b.answering then 1
  else if b.ram.busyR then (landing b).toNat
  else 0

/- What a beat in progress owes, and that none owes else. -/
structure Kept (b : Bridge) (g : Log) : Prop where
  free : b.sys.busy = false →
    stored b = g.mem ∧ g.words = 2 * g.writes ∧
      g.bursts = g.reads ∧ g.acks = g.reads + g.writes
  rdata : b.sys.busy = false → b.sys.ack = true →
    b.sys.rdata = g.want
  acks : b.sys.busy = true →
    g.acks + (if b.sys.rWe then 0 else 1) =
      g.reads + g.writes
  write : b.sys.busy = true → b.sys.rWe = true →
    g.mem = storeLanes (stored b) b.sys.rAddr b.sys.rBe
        b.sys.rWdata ∧
      g.bursts = g.reads ∧
      g.words + 2 = 2 * g.writes + stores b
  read : b.sys.busy = true → b.sys.rWe = false →
    stored b = g.mem ∧ g.want = loadWord g.mem b.sys.rAddr ∧
      g.words = 2 * g.writes ∧
      g.bursts + 1 = g.reads + loads b
  high : b.ram.busyR = true → b.sys.rWe = true →
    b.ram.acc = true → Drained b false
  half : b.ram.busyR = true → b.sys.rWe = true →
    landing b = true → Drained b b.ram.acc
  drained : b.answering = true → b.sys.rWe = true →
    stored b = g.mem
  hold : b.answering = true → b.sys.rWe = false →
    b.ram.hold = g.want

end Sdram

------------------------------------------------------------
-- Halves in the Memory
------------------------------------------------------------

namespace Sdram

open Lanes

variable {b : Bridge} {i : In}

theorem halfLanes_or (be : BitVec 4) :
    halfLanes false be ||| halfLanes true be = be := by
  apply BitVec.eq_of_getLsbD_eq
  intro k hK
  rw [BitVec.getLsbD_or, halfLanes_bit, halfLanes_bit]
  cases be.getLsbD k <;> cases decide (k < 2) <;> rfl

theorem halfLanes_or_be (low : Bool) (be : BitVec 4) :
    halfLanes low be ||| be = be := by
  apply BitVec.eq_of_getLsbD_eq
  intro k hK
  rw [BitVec.getLsbD_or, halfLanes_bit]
  cases be.getLsbD k <;> simp

/- A write command stores the enabled lanes of its half. -/
theorem stored_of_writes
    (hCells : ∀ v, cell (b.step i) v =
      if v = b.word then mergeHalf b.bs b.din (cell b v)
      else cell b v) :
    stored (b.step i) =
      storeLanes (stored b) b.sys.rAddr
        (halfLanes b.ram.acc b.sys.rBe) b.sys.rWdata :=
  stored_of_cells b.sys.rAddr b.ram.acc b.sys.rBe b.sys.rWdata
    hCells

/- With both halves drained the beat is in the memory. -/
theorem stored_of_drained
    (hHigh : Drained b false)
    (hLow : Drained b true) :
    storeLanes (stored b) b.sys.rAddr b.sys.rBe b.sys.rWdata =
      stored b := by
  calc
    storeLanes (stored b) b.sys.rAddr b.sys.rBe b.sys.rWdata =
        storeLanes
          (storeLanes (stored b) b.sys.rAddr
            (halfLanes false b.sys.rBe) b.sys.rWdata)
          b.sys.rAddr (halfLanes true b.sys.rBe)
          b.sys.rWdata := by
      rw [storeLanes_storeLanes, halfLanes_or]
    _ = storeLanes (stored b) b.sys.rAddr
          (halfLanes true b.sys.rBe) b.sys.rWdata := by
      rw [hHigh]
    _ = stored b := hLow

/- The beat's address, lanes and data. -/
def sameBeat (b n : Bridge) : Prop :=
  n.sys.rAddr = b.sys.rAddr ∧ n.sys.rWdata = b.sys.rWdata ∧
    n.sys.rBe = b.sys.rBe

theorem drained_of_stored
    {n : Bridge} {low : Bool}
    (hSame : sameBeat b n)
    (hStored : stored n = stored b)
    (hDrained : Drained b low) :
    Drained n low := by
  rcases hSame with ⟨hAddr, hData, hBe⟩
  unfold Drained
  rw [hAddr, hData, hBe, hStored]
  exact hDrained

/- A half is drained once it is stored, and stays so. -/
theorem drained_of_writes
    {n : Bridge} {low : Bool}
    (hSame : sameBeat b n)
    (hStored : stored n =
      storeLanes (stored b) b.sys.rAddr
        (halfLanes low b.sys.rBe) b.sys.rWdata) :
    Drained n low := by
  rcases hSame with ⟨hAddr, hData, hBe⟩
  unfold Drained
  rw [hAddr, hData, hBe, hStored, storeLanes_storeLanes,
    BitVec.or_self]

theorem drained_kept
    {n : Bridge} {low low' : Bool}
    (hSame : sameBeat b n)
    (hStored : stored n =
      storeLanes (stored b) b.sys.rAddr
        (halfLanes low b.sys.rBe) b.sys.rWdata)
    (hDrained : Drained b low') :
    Drained n low' := by
  rcases hSame with ⟨hAddr, hData, hBe⟩
  unfold Drained
  rw [hAddr, hData, hBe, hStored, storeLanes_storeLanes,
    BitVec.or_comm, ← storeLanes_storeLanes, hDrained]

end Sdram

------------------------------------------------------------
-- One Cycle
------------------------------------------------------------

namespace Sdram

open Lanes

variable {b : Bridge} {i : In} {g : Log}

/- What a cycle answers. -/
theorem ack_step :
    (b.step i).sys.ack =
        (if i.sys then
          (b.captures i && i.we) ||
            (b.returns i && !b.sys.posted)
        else b.sys.ack) ∧
      (b.step i).sys.rdata =
        (if b.returns i && !b.sys.posted then b.ram.hold
        else b.sys.rdata) := by
  unfold Bridge.captures Bridge.returns
  simp only [Bridge.step, Bridge.sysNext]
  cases i.sys
  · simp
  · cases b.sys.busy <;> cases i.req <;> cases b.sys.ack <;>
      cases b.sys.ackSync1 != b.sys.ackSeen <;>
      cases b.sys.posted <;> cases i.we <;> simp

/- A cycle that takes no beat keeps what the log expects. -/
theorem note_of_uncaptured (hFree : b.captures i = false) :
    (noteBeat g b i).mem = g.mem ∧
      (noteBeat g b i).want = g.want ∧
      (noteBeat g b i).reads = g.reads ∧
      (noteBeat g b i).writes = g.writes := by
  simp [noteBeat, hFree]

/- A cycle without an access counts none. -/
theorem note_of_quiet
    (hQuiet : (b.step i).ctl.command ≠ .read ∧
      (b.step i).ctl.command ≠ .write) :
    (noteBeat g b i).bursts = g.bursts ∧
      (noteBeat g b i).words = g.words := by
  simp [noteBeat, hQuiet.1, hQuiet.2]

/- Off the controller's side there is only waiting. -/
theorem Advance.quiet
    (hAdvance : Advance b i)
    (hBusy : b.ram.busyR = false) :
    ((b.step i).ctl.command ≠ .read ∧
        (b.step i).ctl.command ≠ .write) ∧
      b.finishes = false ∧ landing (b.step i) = false ∧
      ((b.step i).ram.busyR = true →
        (b.step i).ram.acc = false) := by
  cases hAdvance with
  | stays hQuiet hGoesOn _ hArrived _ _ =>
      exact ⟨hQuiet, hGoesOn, hArrived hBusy⟩
  | writes h | reads h | halves h | ends h | answers h =>
      exact absurd (hBusy.symm.trans h) Bool.noConfusion

/- A beat is taken. -/
theorem kept_of_captures
    (hHand : Hand b)
    (hHand' : Hand (b.step i))
    (hAdvance : Advance b i)
    (hKept : Kept b g)
    (hCaptures : b.captures i = true) :
    Kept (b.step i) (noteBeat g b i) := by
  rcases idle_of_captures hCaptures with ⟨hBusy, hReturns⟩
  have hIdle : b.ram.busyR = false := by
    rw [← Bool.not_eq_true]
    intro hWork
    simp [(hHand.working hWork).1] at hBusy
  have hQuiet := (hAdvance.quiet hIdle).1
  have hAsking : (b.step i).asking = true := by
    rw [asking_step hHand, hCaptures]
    rfl
  rcases hHand'.asked hAsking with ⟨hBusy', hIdle', hNone'⟩
  rcases @beat_step b i with ⟨hAddr, hData, hBe, hWe⟩
  simp only [hCaptures, if_true] at hAddr hData hBe hWe
  have hSys : i.sys = true := by
    simp only [Bridge.captures, Bool.and_eq_true] at hCaptures
    exact hCaptures.1.1.1
  have hAck := (@ack_step b i).1
  simp only [hSys, hCaptures, hReturns, if_true,
    Bool.true_and, Bool.false_and, Bool.or_false] at hAck
  rcases hKept.free hBusy with ⟨hMem, hWords, hBursts, hAcks⟩
  have hStored := stored_of_quiet hQuiet.2
  rcases @note_of_quiet b i g hQuiet with ⟨hBursts', hWords'⟩
  have hStores : stores (b.step i) = 0 := by
    simp [stores, hNone', hIdle']
  have hLoads : loads (b.step i) = 0 := by
    simp [loads, hNone', hIdle']
  constructor
  · exact fun h => absurd (h.symm.trans hBusy') Bool.noConfusion
  · exact fun h => absurd (h.symm.trans hBusy') Bool.noConfusion
  · intro _
    simp only [noteBeat, hCaptures, hSys, hAck, hWe] at hAcks ⊢
    cases i.we <;> simp <;> omega
  · intro _ hWrite
    have hWrite' : i.we = true := hWe.symm.trans hWrite
    refine ⟨?_, ?_, ?_⟩
    · simp only [noteBeat, hCaptures, hWrite', hAddr, hData,
        hBe, hStored, hMem, Bool.and_self, if_true]
    · simp only [hBursts', hBursts]
      simp [noteBeat, hWrite']
    · simp only [hWords', hWords, hStores]
      simp [noteBeat, hCaptures, hWrite']
      omega
  · intro _ hRead
    have hRead' : i.we = false := hWe.symm.trans hRead
    refine ⟨?_, ?_, ?_, ?_⟩
    · simpa [noteBeat, hRead', hStored] using hMem
    · simp [noteBeat, hCaptures, hRead', hAddr]
    · simp only [hWords', hWords]
      simp [noteBeat, hRead']
    · simp only [hBursts', hBursts, hLoads]
      simp [noteBeat, hCaptures, hRead']
  · exact fun h => absurd (h.symm.trans hIdle') Bool.noConfusion
  · exact fun h => absurd (h.symm.trans hIdle') Bool.noConfusion
  · exact fun h => absurd (h.symm.trans hNone') Bool.noConfusion
  · exact fun h => absurd (h.symm.trans hNone') Bool.noConfusion

/- A beat's end comes back. -/
theorem kept_of_returns
    (hHand : Hand b)
    (hHand' : Hand (b.step i))
    (hAdvance : Advance b i)
    (hKept : Kept b g)
    (hReturns : b.returns i = true) :
    Kept (b.step i) (noteBeat g b i) := by
  have hAnswering := (answering_of_returns hHand hReturns).1
  rcases hHand.answered hAnswering with ⟨hBusy, hIdle, -⟩
  have hFree : b.captures i = false := by
    simp [Bridge.captures, hBusy]
  have hSys : i.sys = true := by
    simp only [Bridge.returns, Bool.and_eq_true] at hReturns
    exact hReturns.1.1
  have hBusy' : (b.step i).sys.busy = false := by
    rw [(@sys_step b i).1, hFree, hReturns]
    rfl
  have hIdle' : (b.step i).ram.busyR ≠ true := by
    intro hWork
    simp [(hHand'.working hWork).1] at hBusy'
  have hNone' : (b.step i).answering ≠ true := by
    intro hAnswers
    simp [(hHand'.answered hAnswers).1] at hBusy'
  have hPosted : b.sys.posted = b.sys.rWe := by
    rw [hHand.posted, hBusy]
    rfl
  rcases @ack_step b i with ⟨hAck, hRdata⟩
  simp only [hSys, hFree, hReturns, hPosted, if_true,
    Bool.true_and, Bool.false_and, Bool.false_or] at hAck hRdata
  have hQuiet := (hAdvance.quiet hIdle).1
  have hStored := stored_of_quiet hQuiet.2
  rcases @note_of_quiet b i g hQuiet with ⟨hBursts', hWords'⟩
  rcases @note_of_uncaptured b i g hFree with
    ⟨hMem', hWant', hReads', hWrites'⟩
  have hAcks := hKept.acks hBusy
  have hAcks' : (noteBeat g b i).acks =
      g.acks + (if b.sys.rWe then 0 else 1) := by
    simp only [noteBeat, hSys, hAck]
    cases b.sys.rWe <;> rfl
  constructor
  · intro _
    simp only [hStored, hMem', hReads', hWrites', hBursts',
      hWords', hAcks']
    cases hWe : b.sys.rWe with
    | true =>
        have hWrite := hKept.write hBusy hWe
        simp only [hWe, stores, hAnswering, if_true]
          at hWrite hAcks ⊢
        refine ⟨hKept.drained hAnswering hWe, ?_, ?_, ?_⟩ <;>
          omega
    | false =>
        have hRead := hKept.read hBusy hWe
        simp only [hWe, loads, hAnswering, if_true]
          at hRead hAcks ⊢
        refine ⟨hRead.1, ?_, ?_, ?_⟩ <;> omega
  · intro _ hAcked
    have hRead : b.sys.rWe = false := by
      simpa [hAck] using hAcked
    simp only [hRdata, hRead, hWant']
    exact hKept.hold hAnswering hRead
  · exact fun h => absurd (hBusy'.symm.trans h) Bool.noConfusion
  · exact fun h => absurd (hBusy'.symm.trans h) Bool.noConfusion
  · exact fun h => absurd (hBusy'.symm.trans h) Bool.noConfusion
  · exact fun h => absurd h hIdle'
  · exact fun h => absurd h hIdle'
  · exact fun h => absurd h hNone'
  · exact fun h => absurd h hNone'

end Sdram

namespace Sdram

open Lanes

variable {b : Bridge} {i : In} {g : Log}

/- Neither taken nor answered, no beat changes sides. -/
structure Between (b : Bridge) (i : In) : Prop where
  free : b.captures i = false
  back : b.returns i = false

theorem Between.busy (h : Between b i) :
    (b.step i).sys.busy = b.sys.busy := by
  rw [(@sys_step b i).1, h.free, h.back]
  rfl

theorem Between.beat (h : Between b i) :
    sameBeat b (b.step i) ∧
      (b.step i).sys.rWe = b.sys.rWe := by
  rcases @beat_step b i with ⟨hAddr, hData, hBe, hWe⟩
  simp only [h.free] at hAddr hData hBe hWe
  exact ⟨⟨hAddr, hData, hBe⟩, hWe⟩

theorem Between.acks (h : Between b i) :
    (noteBeat g b i).acks = g.acks := by
  have hAck := (@ack_step b i).1
  simp only [h.free, h.back, Bool.false_and, Bool.or_self]
    at hAck
  simp only [noteBeat, hAck]
  cases i.sys <;> rfl

theorem Between.answering
    (h : Between b i)
    (hHand : Hand b) :
    (b.step i).answering = (b.finishes || b.answering) := by
  rw [answering_step hHand, h.back]
  cases b.finishes <;> rfl

/- The bridge's read register keeps what it holds. -/
theorem hold_of_free
    (hBusy : b.ram.busyR = false)
    (hSingle : b.ram.rd2 = false) :
    (b.step i).ram.hold = b.ram.hold := by
  simp only [Bridge.step, Bridge.ramNext, hBusy, hSingle,
    Bool.false_eq_true, if_false, Bool.not_false, if_true]
  by_cases hCome : (b.ram.reqSync1 != b.ram.reqSeen) = true
  · rw [if_pos hCome]
  · rw [if_neg hCome]

/- No beat is taken, and there is none. -/
theorem kept_of_free
    (hHand : Hand b)
    (hHand' : Hand (b.step i))
    (hAdvance : Advance b i)
    (hKept : Kept b g)
    (hBetween : Between b i)
    (hBusy : b.sys.busy = false) :
    Kept (b.step i) (noteBeat g b i) := by
  have hBusy' := hBetween.busy.trans hBusy
  have hIdle : b.ram.busyR = false := by
    rw [← Bool.not_eq_true]
    intro hWork
    simp [(hHand.working hWork).1] at hBusy
  have hIdle' : (b.step i).ram.busyR ≠ true := by
    intro hWork
    simp [(hHand'.working hWork).1] at hBusy'
  have hNone' : (b.step i).answering ≠ true := by
    intro hAnswers
    simp [(hHand'.answered hAnswers).1] at hBusy'
  have hQuiet := (hAdvance.quiet hIdle).1
  rcases @note_of_quiet b i g hQuiet with ⟨hBursts', hWords'⟩
  rcases @note_of_uncaptured b i g hBetween.free with
    ⟨hMem', hWant', hReads', hWrites'⟩
  constructor
  · intro _
    rw [stored_of_quiet hQuiet.2, hMem', hReads', hWrites',
      hBursts', hWords', hBetween.acks]
    exact hKept.free hBusy
  · intro _ hAcked
    rcases @ack_step b i with ⟨hAck, hRdata⟩
    simp only [hBetween.free, hBetween.back, Bool.false_and,
      Bool.or_self] at hAck hRdata
    rw [hWant', hRdata]
    apply hKept.rdata hBusy
    rw [hAck] at hAcked
    split_ifs at hAcked
    exact hAcked
  · exact fun h => absurd (hBusy'.symm.trans h) Bool.noConfusion
  · exact fun h => absurd (hBusy'.symm.trans h) Bool.noConfusion
  · exact fun h => absurd (hBusy'.symm.trans h) Bool.noConfusion
  · exact fun h => absurd h hIdle'
  · exact fun h => absurd h hIdle'
  · exact fun h => absurd h hNone'
  · exact fun h => absurd h hNone'

/- What becomes of the accesses of the beat in progress. -/
theorem accesses_step
    (hHand : Hand b)
    (hAdvance : Advance b i)
    (hBetween : Between b i) :
    (b.sys.rWe = true →
      (noteBeat g b i).bursts = g.bursts ∧
        (noteBeat g b i).words + stores b =
          g.words + stores (b.step i)) ∧
      (b.sys.rWe = false →
        (noteBeat g b i).words = g.words ∧
          (noteBeat g b i).bursts + loads b =
            g.bursts + loads (b.step i)) := by
  have hAnswers := hBetween.answering hHand
  have hWorking := (@ram_step b i).1
  have hNone (h : b.ram.busyR = true) : b.answering = false :=
    (hHand.working h).2.2
  have hStill (h : b.ram.busyR = true) : b.arrives = false := by
    simp [Bridge.arrives, h]
  cases hAdvance with
  | stays hQuiet hGoesOn hHalf hArrived hLanded hRises =>
      rcases @note_of_quiet b i g hQuiet with ⟨hBursts, hWords⟩
      rw [hGoesOn, Bool.false_or] at hAnswers
      simp only [hGoesOn, Bool.false_eq_true, if_false]
        at hWorking
      have hStores : stores (b.step i) = stores b := by
        unfold stores
        rw [hAnswers]
        cases hBusy : b.ram.busyR with
        | true =>
            rw [hWorking, hStill hBusy, hBusy, hHalf hBusy,
              hLanded hBusy]
            rfl
        | false =>
            have hNext := hArrived hBusy
            cases hWork : (b.step i).ram.busyR with
            | true => simp [hNext.1, hNext.2 hWork]
            | false => rfl
      have hLoads : loads (b.step i) = loads b := by
        unfold loads
        rw [hAnswers]
        cases hBusy : b.ram.busyR with
        | true =>
            rw [hWorking, hStill hBusy, hBusy, hLanded hBusy]
            rfl
        | false =>
            have hNext := hArrived hBusy
            cases hWork : (b.step i).ram.busyR with
            | true => simp [hNext.1]
            | false => rfl
      simp [hBursts, hWords, hStores, hLoads]
  | writes hBusy hWrite hCommand _ hHalf hFlies hGoesOn _ =>
      simp only [hGoesOn, hNone hBusy, hStill hBusy, hBusy,
        Bool.or_self, Bool.false_eq_true, if_false]
        at hAnswers hWorking
      simp [noteBeat, hCommand, stores, hAnswers, hNone hBusy,
        hWorking, hBusy, hHalf, hFlies, hWrite]
      omega
  | reads hBusy hRead hCommand hFlies hGoesOn _ =>
      simp only [hGoesOn, hNone hBusy, hStill hBusy, hBusy,
        Bool.or_self, Bool.false_eq_true, if_false]
        at hAnswers hWorking
      simp [noteBeat, hCommand, loads, hAnswers, hNone hBusy,
        hWorking, hBusy, hFlies, hRead]
  | halves hBusy hWrite hQuiet hHalf hLands hGoesOn =>
      rcases @note_of_quiet b i g hQuiet with ⟨hBursts, hWords⟩
      simp only [hGoesOn, hNone hBusy, hStill hBusy, hBusy,
        Bool.or_self, Bool.false_eq_true, if_false]
        at hAnswers hWorking
      simp [hBursts, hWords, stores, hAnswers, hNone hBusy,
        hWorking, hBusy, hHalf, hLands, hWrite]
  | ends hBusy hWrite hQuiet hHalf hLands hDone =>
      rcases @note_of_quiet b i g hQuiet with ⟨hBursts, hWords⟩
      simp [hBursts, hWords, stores, hAnswers, hNone hBusy,
        hBusy, hHalf, hLands, hWrite, hDone]
  | answers hBusy hRead hQuiet hLands hDone _ hHold =>
      rcases @note_of_quiet b i g hQuiet with ⟨hBursts, hWords⟩
      simp [hBursts, hWords, loads, hAnswers, hNone hBusy,
        hBusy, hLands, hRead, hDone]

end Sdram

namespace Sdram

open Lanes

variable {b : Bridge} {i : In} {g : Log}

/- The memory after a cycle of a write in progress. -/
theorem mem_step
    (hAdvance : Advance b i)
    (hWrite : b.sys.rWe = true) :
    storeLanes (stored (b.step i)) b.sys.rAddr b.sys.rBe
        b.sys.rWdata =
      storeLanes (stored b) b.sys.rAddr b.sys.rBe
        b.sys.rWdata := by
  cases hAdvance with
  | writes _ _ _ hCells =>
      rw [stored_of_writes hCells, storeLanes_storeLanes,
        halfLanes_or_be]
  | stays hQuiet => rw [stored_of_quiet hQuiet.2]
  | halves _ _ hQuiet => rw [stored_of_quiet hQuiet.2]
  | ends _ _ hQuiet => rw [stored_of_quiet hQuiet.2]
  | reads _ hRead => exact absurd (hRead.symm.trans hWrite) Bool.noConfusion
  | answers _ hRead =>
      exact absurd (hRead.symm.trans hWrite) Bool.noConfusion

/- A read keeps the memory. -/
theorem stored_of_read
    (hAdvance : Advance b i)
    (hRead : b.sys.rWe = false) :
    stored (b.step i) = stored b := by
  apply stored_of_quiet
  cases hAdvance with
  | stays hQuiet => exact hQuiet.2
  | answers _ _ hQuiet => exact hQuiet.2
  | reads _ _ hCommand => simp [hCommand]
  | writes _ hWrite =>
      exact absurd (hRead.symm.trans hWrite) Bool.noConfusion
  | halves _ hWrite =>
      exact absurd (hRead.symm.trans hWrite) Bool.noConfusion
  | ends _ hWrite =>
      exact absurd (hRead.symm.trans hWrite) Bool.noConfusion

/- The halves of a write in progress. -/
theorem halves_step
    (hAdvance : Advance b i)
    (hKept : Kept b g)
    (hBetween : Between b i)
    (hWork : (b.step i).ram.busyR = true)
    (hWrite : b.sys.rWe = true) :
    ((b.step i).ram.acc = true → Drained (b.step i) false) ∧
      (landing (b.step i) = true →
        Drained (b.step i) (b.step i).ram.acc) := by
  have hSame := hBetween.beat.1
  have hWorking := (@ram_step b i).1
  cases hAdvance with
  | stays hQuiet hGoesOn hHalf hArrived hLanded hRises =>
      have hStored := stored_of_quiet hQuiet.2
      cases hBusy : b.ram.busyR with
      | true =>
          rw [hHalf hBusy, hLanded hBusy]
          exact ⟨fun hAcc => drained_of_stored hSame hStored
              (hKept.high hBusy hWrite hAcc),
            fun hLands => drained_of_stored hSame hStored
              (hKept.half hBusy hWrite hLands)⟩
      | false =>
          rw [(hArrived hBusy).1, (hArrived hBusy).2 hWork]
          exact ⟨Bool.noConfusion, Bool.noConfusion⟩
  | writes hBusy _ hCommand hCells hHalf hFlies _ _ =>
      have hStored := stored_of_writes hCells
      rw [hHalf]
      exact ⟨fun hAcc => drained_kept hSame hStored
          (hKept.high hBusy hWrite hAcc),
        fun _ => drained_of_writes hSame hStored⟩
  | halves hBusy _ hQuiet hHalf hLands _ =>
      have hHigh := hKept.half hBusy hWrite hLands.1
      rw [hHalf.1] at hHigh
      rw [hLands.2]
      exact ⟨fun _ => drained_of_stored hSame
          (stored_of_quiet hQuiet.2) hHigh,
        Bool.noConfusion⟩
  | ends _ _ _ _ _ hDone =>
      rw [hWorking, hDone] at hWork
      exact absurd hWork Bool.noConfusion
  | reads _ hRead => exact absurd (hRead.symm.trans hWrite) Bool.noConfusion
  | answers _ hRead =>
      exact absurd (hRead.symm.trans hWrite) Bool.noConfusion

/- What a beat that is answered has done. -/
theorem answers_step
    (hHand : Hand b)
    (hAdvance : Advance b i)
    (hKept : Kept b g)
    (hBetween : Between b i)
    (hAnswers : (b.step i).answering = true) :
    (b.sys.rWe = true → stored (b.step i) = g.mem) ∧
      (b.sys.rWe = false →
        (b.step i).ram.hold = g.want) := by
  rw [hBetween.answering hHand] at hAnswers
  have hOld (hGoesOn : b.finishes = false) :
      b.answering = true := by
    simpa [hGoesOn] using hAnswers
  have hNone (hBusy : b.ram.busyR = true) :
      b.answering ≠ true := by
    simp [(hHand.working hBusy).2.2]
  cases hAdvance with
  | stays hQuiet hGoesOn _ _ _ _ =>
      have hNow := hOld hGoesOn
      have hFree := (hHand.answered hNow).2.1
      have hSingle : b.ram.rd2 = false := by
        rw [← Bool.not_eq_true]
        intro hSecond
        simp [hHand.second hSecond] at hFree
      refine ⟨fun hWrite => ?_, fun hRead => ?_⟩
      · rw [stored_of_quiet hQuiet.2]
        exact hKept.drained hNow hWrite
      · rw [hold_of_free hFree hSingle]
        exact hKept.hold hNow hRead
  | ends hBusy hWrite hQuiet hHalf hLands _ =>
      refine ⟨fun _ => ?_, fun hRead =>
        absurd (hRead.symm.trans hWrite) Bool.noConfusion⟩
      have hTaken := (hHand.working hBusy).1
      have hLow := hKept.half hBusy hWrite hLands
      rw [hHalf] at hLow
      rw [stored_of_quiet hQuiet.2,
        (hKept.write hTaken hWrite).1]
      exact (stored_of_drained (hKept.high hBusy hWrite hHalf)
        hLow).symm
  | answers hBusy hRead _ _ _ _ hHold =>
      refine ⟨fun hWrite =>
        absurd (hRead.symm.trans hWrite) Bool.noConfusion, fun _ => ?_⟩
      have hTaken := (hHand.working hBusy).1
      rcases hKept.read hTaken hRead with ⟨hMem, hWant, -⟩
      rw [hHold, hWant, ← hMem, loadWord_stored]
      rfl
  | writes hBusy _ _ _ _ _ hGoesOn _ =>
      exact absurd (hOld hGoesOn) (hNone hBusy)
  | reads hBusy _ _ _ hGoesOn _ =>
      exact absurd (hOld hGoesOn) (hNone hBusy)
  | halves hBusy _ _ _ _ hGoesOn =>
      exact absurd (hOld hGoesOn) (hNone hBusy)

/- A beat is in progress. -/
theorem kept_of_work
    (hHand : Hand b)
    (hAdvance : Advance b i)
    (hKept : Kept b g)
    (hBetween : Between b i)
    (hBusy : b.sys.busy = true) :
    Kept (b.step i) (noteBeat g b i) := by
  have hBusy' := hBetween.busy.trans hBusy
  rcases hBetween.beat with ⟨⟨hAddr, hData, hBe⟩, hWe⟩
  rcases @note_of_uncaptured b i g hBetween.free with
    ⟨hMem', hWant', hReads', hWrites'⟩
  have hAccesses := @accesses_step b i g hHand hAdvance hBetween
  constructor
  · exact fun h => absurd (h.symm.trans hBusy') Bool.noConfusion
  · exact fun h => absurd (h.symm.trans hBusy') Bool.noConfusion
  · intro _
    rw [hBetween.acks, hWe, hReads', hWrites']
    exact hKept.acks hBusy
  · intro _ hWrite
    rw [hWe] at hWrite
    have hOld := hKept.write hBusy hWrite
    have hCounts := hAccesses.1 hWrite
    rw [hMem', hWrites', hReads', hAddr, hData, hBe,
      mem_step hAdvance hWrite]
    refine ⟨hOld.1, ?_, ?_⟩ <;> omega
  · intro _ hRead
    rw [hWe] at hRead
    have hOld := hKept.read hBusy hRead
    have hCounts := hAccesses.2 hRead
    rw [hMem', hWant', hWrites', hReads', hAddr,
      stored_of_read hAdvance hRead]
    refine ⟨hOld.1, hOld.2.1, ?_, ?_⟩ <;> omega
  · intro hWork hWrite
    exact (halves_step hAdvance hKept hBetween hWork
      (hWe.symm.trans hWrite)).1
  · intro hWork hWrite
    exact (halves_step hAdvance hKept hBetween hWork
      (hWe.symm.trans hWrite)).2
  · intro hAnswers hWrite
    rw [hMem']
    exact (answers_step hHand hAdvance hKept hBetween
      hAnswers).1 (hWe.symm.trans hWrite)
  · intro hAnswers hRead
    rw [hWant']
    exact (answers_step hHand hAdvance hKept hBetween
      hAnswers).2 (hWe.symm.trans hRead)

/- Every cycle keeps what a beat owes. -/
theorem kept_step
    (hHand : Hand b)
    (hHand' : Hand (b.step i))
    (hAdvance : Advance b i)
    (hKept : Kept b g) :
    Kept (b.step i) (noteBeat g b i) := by
  cases hCaptures : b.captures i with
  | true =>
      exact kept_of_captures hHand hHand' hAdvance hKept
        hCaptures
  | false =>
      cases hReturns : b.returns i with
      | true =>
          exact kept_of_returns hHand hHand' hAdvance hKept
            hReturns
      | false =>
          cases hBusy : b.sys.busy with
          | true =>
              exact kept_of_work hHand hAdvance hKept
                ⟨hCaptures, hReturns⟩ hBusy
          | false =>
              exact kept_of_free hHand hHand' hAdvance hKept
                ⟨hCaptures, hReturns⟩ hBusy

end Sdram
