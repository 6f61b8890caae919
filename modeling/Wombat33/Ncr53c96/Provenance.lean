import Wombat33.Ncr53c96.HeldSector
import Wombat33.Ncr53c96.Reachable
import Wombat33.Ncr53c96.StrayWrite

/-
  Where the bytes of a data-in phase come from.

  Beside the run every byte of the sector buffer and of the
  FIFO carries a tag: the CDB it was brought in for, counted
  from reset, and whether the platform loaded it, the target
  synthesized it, or it came another way.

  Key definitions include:
    * `Tag`, `LoadLog`, `noteLoad`
    * `PlatformOk`
    * `OwnAnswer`
    * `Separate`
-/

------------------------------------------------------------
-- Tags
------------------------------------------------------------

namespace Ncr53c96

open Clocked

inductive Origin where
  | disk
  | synth
  | other
  deriving DecidableEq

/- The CDB a byte belongs to, its origin, and the byte. -/
structure Tag where
  cmd : Nat
  origin : Origin
  byte : Byte
  deriving DecidableEq

/-
  The number of the CDB executed last, what it answers with,
  and whether it is a WRITE; the load in flight, the CDB that
  strobed it and the words the platform has written; the CDB
  whose response streams; and the tags.
-/
structure LoadLog where
  cmd : Nat
  answer : Option Origin
  writing : Bool
  loading : Bool
  owner : Nat
  written : BitVec 256
  stream : Nat
  tags : Nat → Tag
  fifo : List Tag

/- A READ executes in this cycle. -/
def execRead (s : Chip) : Bool :=
  s.execPending && (s.cdb 0 == 0x08#8 || s.cdb 0 == 0x28#8)

/- What the CDB that executes will answer with. -/
def answerOf (s : Chip) : Option Origin :=
  if execRead s then some .disk
  else if execSynth s then some .synth
  else none

variable (cfg : Config)

/- The tag of a byte pushed into the FIFO. -/
def pushTag (g : LoadLog) (s : Chip) (i : In) (b : Byte) :
    Tag :=
  if armFill s i || armPioIn s i then
    { g.tags s.sbufPos with byte := b }
  else ⟨g.cmd, .other, b⟩

/- The buffer's tags after the engine port's write. -/
def engineTags (g : LoadLog) (s : Chip) (i : In) : Nat → Tag :=
  if synthOn s then
    Function.update g.tags s.synthIdx
      ⟨g.stream, .synth, synthByte s s.synthKind s.synthIdx⟩
  else if armDrain s i then
    Function.update g.tags s.sbufPos
      (g.fifo.headD ⟨g.cmd, .other, s.fifo 0⟩)
  else g.tags

/- The platform writes a word: two bytes, the first high. -/
def platformTags (g : LoadLog) (i : In) (t : Nat → Tag) :
    Nat → Tag :=
  if i.sdBuffWr then
    fun j =>
      if j / 2 = i.sdBuffAddr.toNat then
        ⟨g.owner, .disk,
          bufByte (fun _ => platDinS cfg i) j⟩
      else t j
  else t

def noteLoad (g : LoadLog) (s : Chip) (i : In) : LoadLog where
  cmd := if s.execPending then g.cmd + 1 else g.cmd
  answer := if s.execPending then answerOf s else g.answer
  writing := if s.execPending then execWrite s else g.writing
  loading := prefetchDue s i || (g.loading && !ackFall s i)
  owner := if prefetchDue s i then g.cmd else g.owner
  written :=
    if prefetchDue s i then 0#256
    else if i.sdBuffWr then
      g.written ||| 1#256 <<< i.sdBuffAddr.toNat
    else g.written
  stream := if execSynth s then g.cmd + 1 else g.stream
  tags := platformTags cfg g i (engineTags g s i)
  fifo :=
    ((fifoAct cfg s i).map (pushTag g s i)).apply g.fifo

/- Nothing was executed yet. -/
def noLoads (s : Chip) : LoadLog where
  cmd := 0
  answer := none
  writing := false
  loading := false
  owner := 0
  written := 0#256
  stream := 0
  tags := fun j => ⟨0, .other, bufByte s.mem j⟩
  fifo := []

end Ncr53c96

------------------------------------------------------------
-- Contract, Property and Condition
------------------------------------------------------------

namespace Ncr53c96

/-
  The platform acknowledges what was strobed, writes only
  while it serves a load, and drops the acknowledge of a load
  after all its words are written.
-/
structure PlatformOk
    (x : Chip × LoadLog)
    (i : In) : Prop where
  clocked : i.nreset = true
  ack : i.ioAck = true →
    x.1.ioRd = true ∨ x.1.ioWr = true ∨ x.1.ioAckD = true
  serves : i.sdBuffWr = true →
    x.2.loading = true ∧ i.ioAck = true
  whole : ackFall x.1 i = true → x.2.loading = true →
    x.2.written = BitVec.allOnes 256

instance decidablePlatformOk
    (x : Chip × LoadLog) (i : In) :
    Decidable (PlatformOk x i) :=
  decidable_of_iff
    (i.nreset = true ∧
      (i.ioAck = true → x.1.ioRd = true ∨
        x.1.ioWr = true ∨ x.1.ioAckD = true) ∧
      (i.sdBuffWr = true →
        x.2.loading = true ∧ i.ioAck = true) ∧
      (ackFall x.1 i = true → x.2.loading = true →
        x.2.written = BitVec.allOnes 256))
    ⟨fun ⟨h₁, h₂, h₃, h₄⟩ => ⟨h₁, h₂, h₃, h₄⟩,
      fun ⟨h₁, h₂, h₃, h₄⟩ => ⟨h₁, h₂, h₃, h₄⟩⟩

/- A byte of the answer to the CDB executed last. -/
def ofCdb (g : LoadLog) (t : Tag) : Prop :=
  t.cmd = g.cmd ∧ g.answer = some t.origin

/-
  What the claim of the handshake comes to at one edge.  A
  load is published only for the CDB that strobed it; a byte
  that enters the FIFO in DATA IN, and a byte the initiator
  takes there, belong to the answer of the CDB executed last;
  and no platform write meets a WRITE.
-/
structure OwnAnswer (x : Chip × LoadLog) (i : In) : Prop where
  published : publish x.1 i = true → x.2.owner = x.2.cmd
  filled : x.1.phase = .din →
    (armFill x.1 i = true ∨ armPioIn x.1 i = true) →
    ofCdb x.2 (x.2.tags x.1.sbufPos) ∧
      (x.2.tags x.1.sbufPos).byte = sbufByte x.1
  handed : x.1.phase = .din →
    (armPop x.1 i = true ∨ armRdIdle x.1 i = true ∨
      regRd i 0x2#4 = true) →
    ∃ t, x.2.fifo.head? = some t ∧ ofCdb x.2 t ∧
      t.byte = x.1.fifo 0
  untouched : x.2.writing = true → i.sdBuffWr = false

/-
  The initiator or a data-in arm pushes into the FIFO, or
  MESSAGE IN puts its byte there.
-/
def pushes (s : Chip) (i : In) : Bool :=
  armFill s i || armPioIn s i || armOutDma s i ||
    regWr i 0x2#4 || (cmdIs i 0x10#7 && s.phase == .min)

/-
  No CDB executes over a load that stays in flight, no READ
  over a response that goes on streaming, and no response in
  a cycle that arms a flush of more than the last block; a
  CDB that answers with data finds the FIFO empty; in DATA IN
  the initiator pushes nothing and reads no empty FIFO.
-/
structure Separate (x : Chip × LoadLog) (i : In) : Prop where
  load : x.1.execPending = true →
    prefetchDue x.1 i = false ∧
      (x.2.loading = true → ackFall x.1 i = true)
  response : execRead x.1 = true →
    synthOn x.1 = true → synthLast x.1 = true
  flush : execSynth x.1 = true →
    flushDue x.1 i = true → x.1.blocksLeft ≤ 1
  drained : (execRead x.1 || execSynth x.1) = true →
    x.1.fifoCnt = 0 ∧ pushes x.1 i = false
  quiet : x.1.phase = .din →
    regWr i 0x2#4 = false ∧ armOutDma x.1 i = false ∧
      armRdIdle x.1 i = false ∧
      (regRd i 0x2#4 = true → x.1.fifoCnt ≠ 0)

instance decidableSeparate (x : Chip × LoadLog) (i : In) :
    Decidable (Separate x i) :=
  decidable_of_iff
    ((x.1.execPending = true → prefetchDue x.1 i = false ∧
        (x.2.loading = true → ackFall x.1 i = true)) ∧
      (execRead x.1 = true →
        synthOn x.1 = true → synthLast x.1 = true) ∧
      (execSynth x.1 = true →
        flushDue x.1 i = true → x.1.blocksLeft ≤ 1) ∧
      ((execRead x.1 || execSynth x.1) = true →
        x.1.fifoCnt = 0 ∧ pushes x.1 i = false) ∧
      (x.1.phase = .din →
        regWr i 0x2#4 = false ∧ armOutDma x.1 i = false ∧
          armRdIdle x.1 i = false ∧
          (regRd i 0x2#4 = true → x.1.fifoCnt ≠ 0)))
    ⟨fun ⟨h₁, h₂, h₃, h₄, h₅⟩ => ⟨h₁, h₂, h₃, h₄, h₅⟩,
      fun ⟨h₁, h₂, h₃, h₄, h₅⟩ => ⟨h₁, h₂, h₃, h₄, h₅⟩⟩

end Ncr53c96

------------------------------------------------------------
-- Evaluating a Contract
------------------------------------------------------------

namespace Ncr53c96

open Clocked

/- Go on with the log's small fields evaluated. -/
def forcedLog (g : LoadLog) (k : LoadLog → Bool) : Bool :=
  forceNat g.cmd fun cmd =>
  forceBool g.writing fun writing =>
  forceBool g.loading fun loading =>
  forceNat g.owner fun owner =>
  forceNat g.written.toNat fun written =>
  forceNat g.stream fun stream =>
  k { g with
    cmd := cmd, writing := writing, loading := loading
    owner := owner, written := BitVec.ofNat 256 written
    stream := stream }

theorem forcedLog_eq (g : LoadLog) (k : LoadLog → Bool) :
    forcedLog g k = k g := by
  simp [forcedLog, forceNat_eq, forceBool_eq]

end Ncr53c96
