import Wombat33.Clocked.Run
import Wombat33.Ncr53c96.Step

/-
  Strict evaluation of long runs.

  A concrete run of a thousand cycles is checked by computing
  it.  The control registers and one word of the buffer are
  evaluated after each cycle, before the next one is begun,
  so that no cycle's work is repeated by a later one.  Most
  arms of a cycle are off; these are passed over.

  Key definitions include:
    * `powerOn`, `regWrite`, `dmaBytes`, `runCdb`
    * `forced`, `stepQuick`
    * `evalRun`, `evalEdges`

  Key theorems include:
    * `stepQuick_eq`
    * `evalRun_eq`, `along_of_eval`, `eval_of_along`
-/

------------------------------------------------------------
-- Forcing Registers
------------------------------------------------------------

namespace Ncr53c96

variable {α : Type}

def forceBool (b : Bool) (k : Bool → α) : α :=
  match b with
  | false => k false
  | true => k true

def forceNat (n : Nat) (k : Nat → α) : α :=
  match n with
  | 0 => k 0
  | m + 1 => k (m + 1)

def forcePhase (p : Phase) (k : Phase → α) : α :=
  match p with
  | .dout => k .dout
  | .din => k .din
  | .cmd => k .cmd
  | .stat => k .stat
  | .mout => k .mout
  | .min => k .min

def forceWord (w : BitVec 16) (k : BitVec 16 → α) : α :=
  forceNat w.toNat fun n => k (BitVec.ofNat 16 n)

theorem forceBool_eq (b : Bool) (k : Bool → α) :
    forceBool b k = k b := by
  cases b <;> rfl

theorem forceNat_eq (n : Nat) (k : Nat → α) :
    forceNat n k = k n := by
  cases n <;> rfl

theorem forcePhase_eq (p : Phase) (k : Phase → α) :
    forcePhase p k = k p := by
  cases p <;> rfl

theorem forceWord_eq (w : BitVec 16) (k : BitVec 16 → α) :
    forceWord w k = k w := by
  simp [forceWord, forceNat_eq]

/-
  Go on with the control registers and the first word of the
  sector buffer evaluated.
-/
def forced (s : Chip) (k : Chip → α) : α :=
  forceNat s.tcounter fun tcounter =>
  forceBool s.tcZero fun tcZero =>
  forceNat s.fifoCnt fun fifoCnt =>
  forcePhase s.phase fun phase =>
  forceBool s.dmaActive fun dmaActive =>
  forceBool s.dmaValid fun dmaValid =>
  forceBool s.irq fun irq =>
  forceBool s.cdbActive fun cdbActive =>
  forceNat s.cdbPos fun cdbPos =>
  forceNat s.cdbNeed fun cdbNeed =>
  forceNat s.skipCnt fun skipCnt =>
  forceBool s.xferMsgOut fun xferMsgOut =>
  forceBool s.execPending fun execPending =>
  forceBool s.xferIn fun xferIn =>
  forceBool s.xferOut fun xferOut =>
  forceBool s.xferPioIn fun xferPioIn =>
  forceBool s.xferPioOut fun xferPioOut =>
  forceBool s.chunkIrqArmed fun chunkIrqArmed =>
  forceNat s.blocksLeft fun blocksLeft =>
  forceNat s.sbufLen fun sbufLen =>
  forceNat s.sbufPos fun sbufPos =>
  forceBool s.dataDirIn fun dataDirIn =>
  forceBool s.bufValid fun bufValid =>
  forceNat s.synthIdx fun synthIdx =>
  forceNat s.synthLen fun synthLen =>
  forceBool s.ioRd fun ioRd =>
  forceBool s.ioWr fun ioWr =>
  forceBool s.flushPending fun flushPending =>
  forceBool s.ioAckD fun ioAckD =>
  forceBool s.eqWr fun eqWr =>
  forceWord (s.mem 0#8) fun word =>
  k { s with
    tcounter := tcounter, tcZero := tcZero
    fifoCnt := fifoCnt, phase := phase
    dmaActive := dmaActive, dmaValid := dmaValid, irq := irq
    cdbActive := cdbActive, cdbPos := cdbPos
    cdbNeed := cdbNeed, skipCnt := skipCnt
    xferMsgOut := xferMsgOut, execPending := execPending
    xferIn := xferIn, xferOut := xferOut
    xferPioIn := xferPioIn, xferPioOut := xferPioOut
    chunkIrqArmed := chunkIrqArmed
    blocksLeft := blocksLeft, sbufLen := sbufLen
    sbufPos := sbufPos, dataDirIn := dataDirIn
    bufValid := bufValid, synthIdx := synthIdx
    synthLen := synthLen, ioRd := ioRd, ioWr := ioWr
    flushPending := flushPending, ioAckD := ioAckD
    eqWr := eqWr, mem := Function.update s.mem 0#8 word }

theorem forced_eq (s : Chip) (k : Chip → α) :
    forced s k = k s := by
  simp only [forced, forceNat_eq, forceBool_eq,
    forcePhase_eq, forceWord_eq, Function.update_eq_self]

end Ncr53c96

------------------------------------------------------------
-- Passing Over Idle Arms
------------------------------------------------------------

namespace Ncr53c96

/- An arm that is off is passed over, not unfolded. -/
def doing (go : Bool) (arm : Chip → Chip) (n : Chip) : Chip :=
  match go with
  | false => n
  | true => arm n

theorem doing_eq
    {go : Bool} {arm : Chip → Chip}
    (hOff : go = false → ∀ n, arm n = n) :
    doing go arm = arm := by
  funext n
  cases go with
  | false => exact (hOff rfl n).symm
  | true => rfl

variable (cfg : Config) (s : Chip) (i : In)

/- The arms of `engineArms`, in its order. -/
def engineQuick : Chip :=
  doing s.execPending (execArm s) <|
  doing (cdbComplete s) (cdbArm s) <|
  doing (synthOn s) (synthArm s) <|
  doing (armMsgOut s i) (msgOutArm s (armMsgOut s i)) <|
  doing (armPioIn s i) (pioInArm s i (armPioIn s i)) <|
  doing (armFill s i) (fun n =>
    decTc (armFill s i) s <| advancePos s (armFill s i) <|
      fifoPush (armFill s i) s (sbufByte s) n) <|
  doing (armDrain s i) (fun n =>
    fifoShift (armDrain s i) s <|
      advancePos s (armDrain s i) n) <|
  doing (armCdbFf s i) (fun n =>
    fifoShift (armCdbFf s i) s <|
      cdbByte (armCdbFf s i) s (s.fifo 0) n) <|
  doing (armSwallow s i) (dmaTake (armSwallow s i)) <|
  doing (armOutDma s i) (fun n =>
    decTc (armOutDma s i) s <|
      fifoPush (armOutDma s i) s i.dmaWdata <|
      dmaTake (armOutDma s i) n) <|
  doing (armCdbDma s i) (fun n =>
    decTc (armCdbDma s i) s <|
      cdbByte (armCdbDma s i) s i.dmaWdata <|
      dmaTake (armCdbDma s i) n) <|
  doing (armRdIdle s i) (dmaAnswer (armRdIdle s i) 0xFF#8) <|
  doing (armPop s i) (fun n =>
    fifoShift (armPop s i) s <|
      dmaAnswer (armPop s i) (s.fifo 0) n) <|
  doing (prefetchDue s i) (prefetchArm s i) <|
  ackArm s i <|
  doing i.imgMounted (mountArm i)
    { s with iNew := 0x00#8, dmaValid := false }

def endQuick (n : Chip) : Chip :=
  doing (pioInUnderflow s i) (pioInUnderflowArm s i) <|
  doing (msgOutDone s) (msgOutDoneArm s) <|
  doing (pioOutDone s) (pioOutDoneArm s) <|
  doing (doutDone s i) (doutDoneArm s i) <|
  doing (flushDue s i) (flushArm s i) <|
  doing (dinUnderflow s i) (dinUnderflowArm s i) <|
  doing (dinDone s) (dinDoneArm s i) n

def clockQuick : Chip :=
  sbufPorts cfg s i <| interruptMerge s i <|
    doing (regWrCyc i || regRdCyc i) (registers cfg s i) <|
    endQuick s i <| engineQuick s i

def stepQuick : Chip :=
  if i.nreset then clockQuick cfg s i
  else sbufPorts cfg s i (resetRegs s)

theorem raise_off (bits : Byte) (n : Chip) :
    raise false bits n = n := by
  simp [raise]

theorem execArm_off
    (hOff : s.execPending = false)
    (n : Chip) :
    execArm s n = n := by
  simp [execArm, hOff, execCdb, illegalRequest, startBlocks,
    readCapacity, synthesize, requestSense, testUnitReady,
    execStart, raise_off]

theorem registers_off
    (hOff : (regWrCyc i || regRdCyc i) = false)
    (n : Chip) :
    registers cfg s i n = n := by
  rcases Bool.or_eq_false_iff.mp hOff with ⟨hWr, hRd⟩
  simp [registers, regRd, regWr, hWr, hRd, execCommand,
    raise_off, fifoShift, fifoPush, plainWrite, tcLatchWrite,
    transferPad, messageAccept, commandComplete, transferInfo,
    selectStop, selectCdb, resetBus, resetChip, flushFifo,
    loadCounter, infoMsgIn, infoMsgOut, infoOut, infoIn,
    infoStatus, collectCdb, loadStatus]

theorem engineQuick_eq : engineQuick s i = engineArms s i := by
  have hExec := doing_eq (execArm_off s)
  unfold engineQuick engineArms fifoEngine
  rw [hExec]
  -- One goal for each of the other arms: off, it is idle.
  repeat rw [doing_eq]
  all_goals
    intro hOff n
    simp [hOff, cdbArm, synthArm, synthLast, msgOutArm,
      pioInArm, decTc, advancePos, fifoPush, fifoShift,
      cdbByte, dmaTake, dmaAnswer, prefetchArm, mountArm,
      raise_off]

theorem endQuick_eq : endQuick s i = endArms s i := by
  funext n
  unfold endQuick endArms
  repeat rw [doing_eq]
  all_goals
    intro hOff n
    simp [hOff, pioInUnderflowArm, msgOutDoneArm,
      pioOutDoneArm, doutDoneArm, flushArm, dinUnderflowArm,
      dinDoneArm, raise_off, collectCdb]

theorem stepQuick_eq : stepQuick cfg s i = step cfg s i := by
  unfold stepQuick step clockQuick clock
  rw [doing_eq (registers_off cfg s i), engineQuick_eq,
    endQuick_eq]

end Ncr53c96

------------------------------------------------------------
-- Building Blocks of Runs
------------------------------------------------------------

namespace Ncr53c96

/- The chip after a reset cycle. -/
def powerOn (cfg : Config) (s : Chip) : Chip :=
  step cfg s { nreset := false }

/- A cycle without an access. -/
def quiet : In := {}

/- A write to register `r`. -/
def regWrite (r : BitVec 4) (b : Byte) : In :=
  { sel := true, write := true, rs := r, wdata := b }

/- `n` bytes by pseudo-DMA, with a cycle to drain each. -/
def dmaBytes (n : Nat) (b : Byte) : List In :=
  (List.replicate n
    [{ dmaWr := true, dmaWdata := b }, quiet]).flatten

/- An image of 64 sectors is mounted. -/
def mountImage : In :=
  { imgMounted := true, imgSize := 32768#64 }

/-
  A CDB put in the FIFO, a select that collects it, and time
  for it to be executed.
-/
def runCdb (cdb : List Byte) : List In :=
  cdb.map (regWrite 0x2#4) ++ [regWrite 0x3#4 0x41#8] ++
    List.replicate 9 quiet

end Ncr53c96

------------------------------------------------------------
-- Runs
------------------------------------------------------------

namespace Ncr53c96

open Clocked

variable {G : Type}

/- The state after the edge that follows `is` from reset. -/
def startedBy (is : List In) : Chip :=
  step ⟨0#4, false⟩
    (run (step ⟨0#4, false⟩) (powerOn ⟨0#4, false⟩ default) is)
    quiet

/- A test of the state a watched run ends in. -/
def evalRun
    (cfg : Config)
    (note : G → Chip → In → G)
    (test : Chip × G → Bool) :
    List In → Chip → G → Bool
  | [], s, g => test (s, g)
  | i :: is, s, g =>
      forced (stepQuick cfg s i) fun s' =>
        evalRun cfg note test is s' (note g s i)

theorem evalRun_eq
    (cfg : Config)
    (note : G → Chip → In → G)
    (test : Chip × G → Bool)
    (is : List In)
    (s : Chip)
    (g : G) :
    evalRun cfg note test is s g =
      test (run (watch (step cfg) note) (s, g) is) := by
  induction is generalizing s g with
  | nil => rfl
  | cons i is ih => rw [evalRun, forced_eq, stepQuick_eq, ih]; rfl

/-
  Test every edge of a watched run, one state after the other,
  and the state it ends in; `force` evaluates the observer.
-/
def evalEdges
    (cfg : Config)
    (note : G → Chip → In → G)
    (force : G → (G → Bool) → Bool)
    (ok : Chip × G → In → Bool)
    (test : Chip × G → Bool) :
    List In → Chip → G → Bool
  | [], s, g => test (s, g)
  | i :: is, s, g =>
      ok (s, g) i &&
        forced (stepQuick cfg s i) fun s' =>
          force (note g s i) fun g' =>
            evalEdges cfg note force ok test is s' g'

variable {cfg : Config} {note : G → Chip → In → G}
variable {force : G → (G → Bool) → Bool}

theorem evalEdges_iff
    (hForce : ∀ g k, force g k = k g)
    (ok : Chip × G → In → Bool)
    (test : Chip × G → Bool)
    (is : List In)
    (s : Chip)
    (g : G) :
    evalEdges cfg note force ok test is s g = true ↔
      Along (watch (step cfg) note)
          (fun x i => ok x i = true) (s, g) is ∧
        test (run (watch (step cfg) note) (s, g) is) = true := by
  induction is generalizing s g with
  | nil => simp [evalEdges]
  | cons i is ih =>
      rw [evalEdges, forced_eq, stepQuick_eq, hForce,
        Bool.and_eq_true, along_cons, ih, and_assoc]
      rfl

theorem along_of_eval
    {edge : Chip × G → In → Prop}
    (hForce : ∀ g k, force g k = k g)
    (ok : Chip × G → In → Bool)
    (hOk : ∀ x i, ok x i = true → edge x i)
    {is : List In} {s : Chip} {g : G}
    (hEval : evalEdges cfg note force ok (fun _ => true)
      is s g = true) :
    Along (watch (step cfg) note) edge (s, g) is :=
  along_mono hOk
    ((evalEdges_iff hForce ok _ is s g).mp hEval).1

theorem eval_of_along
    {edge : Chip × G → In → Prop}
    (hForce : ∀ g k, force g k = k g)
    (ok : Chip × G → In → Bool)
    (hOk : ∀ x i, edge x i → ok x i = true)
    {is : List In} {s : Chip} {g : G}
    (hAlong : Along (watch (step cfg) note) edge (s, g) is) :
    evalEdges cfg note force ok (fun _ => true)
      is s g = true :=
  (evalEdges_iff hForce ok _ is s g).mpr
    ⟨along_mono hOk hAlong, rfl⟩

end Ncr53c96
