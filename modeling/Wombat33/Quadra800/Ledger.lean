import Wombat33.Bus32.Transaction
import Wombat33.Quadra800.Service

/-
  The ledger of a run.

  Beside the board a ledger writes down what each party asks
  for, what each target is sent and what each party is told.
  It also keeps the accounts that relate these lists: which
  beat is in service, which answer is on its way, and which
  beats belong to which CPU transaction.

  Key definitions include:
    * `Job`, `Wire`, `Reply`, `Visit`
    * `Traffic.note`, `CpuBook.note`, `WalkBook.note`
    * `Contract`
    * `Delivered`
-/

------------------------------------------------------------
-- Jobs and Replies
------------------------------------------------------------

namespace Quadra800

inductive Owner
  | cpu
  | walker
  deriving DecidableEq

/- What comes back for a beat. -/
inductive Reply
  | data (w : BitVec 32)
  | fault
  deriving DecidableEq

/- A beat taken into service, with the RAM size pins then. -/
structure Job where
  owner : Owner
  beat : Beat
  ramCfg : BitVec 2
  target : Target

/- What a target's pins say. -/
inductive Wire
  | mem (memsel : BitVec 2) (b : Beat)
  | iosb
      (write : Bool)
      (addr : BitVec 26)
      (be : BitVec 4)
      (wdata : BitVec 32)
  | dafb
      (write : Bool)
      (addr : BitVec 8)
      (wdata : BitVec 32)

/- The one target a job is sent to, and what it is sent. -/
def Job.wire (j : Job) : Option Wire :=
  match j.target with
  | .ram => some (.mem mselRam j.beat)
  | .rom => some (.mem mselRom j.beat)
  | .vram => some (.mem mselVram j.beat)
  | .iosb =>
      some (.iosb j.beat.write (j.beat.addr.extractLsb' 0 26)
        j.beat.be j.beat.wdata)
  | .dafb =>
      some (.dafb j.beat.write (j.beat.addr.extractLsb' 0 8)
        j.beat.wdata)
  | .berr => none
  | .openBus => none

/- A job and its reply, as its target saw them. -/
def exchanged (p : Job × Reply) : Option (Wire × Reply) :=
  p.1.wire.map (fun wire => (wire, p.2))

/- A job's reply, as its owner hears it. -/
def owed (p : Job × Reply) : Owner × Reply :=
  (p.1.owner, p.2)

/- What no target is asked for, the service decides. -/
def Honest (p : Job × Reply) : Prop :=
  (p.1.target = .berr → p.2 = .fault) ∧
    (p.1.target = .openBus → p.2 = .data 0#32) ∧
    (p.2 = .fault → p.1.target = .berr ∨ p.1.target = .iosb)

/- The target the address decodes to, job after job. -/
def Routed (jobs : List Job) : Prop :=
  ∀ before j, before ++ [j] <+: jobs →
    j.target =
      decode (before.all (fun k => !endsOverlay k.beat))
        j.ramCfg j.beat.addr

end Quadra800

------------------------------------------------------------
-- Visits
------------------------------------------------------------

namespace Quadra800

open Bus32

/- The one beat, or the first of two, of a transaction. -/
def firstBeat (t : Txn) : Beat where
  write := t.write
  addr := t.addr.extractLsb' 2 30
  be := lanes (fOff t.addr).toNat (fN0 t.size t.addr)
  wdata := fWsh t.size t.data >>> (8 * (fOff t.addr).toNat)

/- The second of two beats. -/
def tailBeat (t : Txn) : Beat where
  write := t.write
  addr := t.addr.extractLsb' 2 30 + 1
  be := lanes 0 (fEnd t.size t.addr - 4)
  wdata :=
    fWsh t.size t.data <<< (8 * (4 - (fOff t.addr).toNat))

def isSplit (t : Txn) : Bool := decide (4 < fEnd t.size t.addr)

/- A CPU transaction and the replies to its own beats. -/
structure Visit where
  txn : Txn
  replies : List Reply

/- A second beat follows a first one that did not fault. -/
def Visit.presented (v : Visit) : List Beat :=
  match v.replies with
  | .data _ :: _ =>
      if isSplit v.txn then [firstBeat v.txn, tailBeat v.txn]
      else [firstBeat v.txn]
  | _ => [firstBeat v.txn]

/- Every beat of the visit has its reply. -/
def Visit.Whole (v : Visit) : Prop :=
  v.replies.length = v.presented.length

/- The first operand bytes at the top, as `rd_stream0`. -/
def stream (t : Txn) (d : BitVec 32) : BitVec 32 :=
  d <<< (8 * (fOff t.addr).toNat)

/- The answer the replies to its own beats make. -/
def Visit.outcome (v : Visit) : Reply :=
  match v.replies with
  | [.data d] =>
      .data (stream v.txn d >>> (8 * (4 - fBytes v.txn.size)))
  | [.data d, .data d'] =>
      .data ((stream v.txn d |||
          d' >>> (8 * (4 - (fOff v.txn.addr).toNat))) >>>
        (8 * (4 - fBytes v.txn.size)))
  | _ => .fault

end Quadra800

------------------------------------------------------------
-- The Service's Traffic
------------------------------------------------------------

namespace Quadra800

variable (s : Service) (i : Pins)

/- The targets whose request is up, with their pins. -/
def lines : List Wire :=
  (if s.memReq then
    [.mem s.memMemsel
      ⟨s.memWrite, s.memAddr, s.memBe, s.memWdata⟩]
  else []) ++
  (if s.iosbSel then
    [.iosb s.iosbWrite s.iosbAddr s.iosbBe s.iosbWdata]
  else []) ++
  (if s.dafbSel then
    [.dafb s.dafbWrite s.dafbAddr s.dafbWdata]
  else [])

/- The exchanges that end in this cycle at the targets. -/
def exchanges : List (Wire × Reply) :=
  (if s.memReq && i.memAck then
    [(.mem s.memMemsel
      ⟨s.memWrite, s.memAddr, s.memBe, s.memWdata⟩,
      .data i.memRdata)]
  else []) ++
  (if s.iosbSel && i.iosbAck then
    [(.iosb s.iosbWrite s.iosbAddr s.iosbBe s.iosbWdata,
      if i.iosbFault then .fault else .data i.iosbRdata)]
  else []) ++
  (if s.dafbSel && i.dafbAck then
    [(.dafb s.dafbWrite s.dafbAddr s.dafbWdata,
      .data i.dafbRdata)]
  else [])

/- The answers the pins show in this cycle. -/
def answers : List (Owner × Reply) :=
  (if s.bAck then [(.cpu, .data s.bRdata)] else []) ++
  (if s.cpuBerr then [(.cpu, .fault)] else []) ++
  (if s.walkerAck then [(.walker, .data s.walkerData)]
    else []) ++
  (if s.walkerBerr then [(.walker, .fault)] else [])

/- The beat the service takes in this cycle. -/
def taken : Option Job :=
  if s.svc = .idle ∧ (walkerPend s i || cpuPend s i) then
    some {
      owner := if walkerPend s i then .walker else .cpu
      beat := nextBeat s i
      ramCfg := i.ramCfg
      target := decode s.overlay i.ramCfg (nextBeat s i).addr }
  else none

/- The reply to the beat in service, in this cycle. -/
def replied : Option Reply :=
  match s.svc with
  | .idle => none
  | .mem => if i.memAck then some (.data i.memRdata) else none
  | .iosb =>
      if i.iosbAck then
        some (if i.iosbFault then .fault
          else .data i.iosbRdata)
      else none
  | .dafb =>
      if i.dafbAck then some (.data i.dafbRdata) else none
  | .berr => some .fault
  | .openBus => some (.data 0#32)

/-
  `jobs`, `sent` and `heard` are read off the pins; the beat
  in service and the beats served relate them.
-/
structure Traffic where
  jobs : List Job := []
  sent : List (Wire × Reply) := []
  heard : List (Owner × Reply) := []
  served : List (Job × Reply) := []
  serving : Option Job := none

/- The beat in service with the reply of this cycle. -/
def ending (g : Traffic) : Option (Job × Reply) :=
  g.serving.bind (fun j => (replied s i).map (fun r => (j, r)))

def Traffic.note (g : Traffic) : Traffic where
  jobs := g.jobs ++ (taken s i).toList
  sent := g.sent ++ exchanges s i
  heard := g.heard ++ answers s
  served := g.served ++ (ending s i g).toList
  serving :=
    match g.serving with
    | none => taken s i
    | some j => if (replied s i).isSome then none else some j

end Quadra800

------------------------------------------------------------
-- The Books of the Requesters
------------------------------------------------------------

namespace Quadra800

open Bus32

/-
  The CPU's requests and what it was told, the beats the
  splitter presented, and the visits that account for them:
  `now` is the one in progress.
-/
structure CpuBook where
  asked : List Txn := []
  told : List Reply := []
  beats : List Beat := []
  past : List Visit := []
  now : Option Visit := none

/- Its answer ends the walker's request; a low cycle the rest. -/
inductive Walk
  | idle
  | asking (b : Beat)
  | closing

structure WalkBook where
  walks : List Beat := []
  walk : Walk := .idle

variable (m : Board) (e : Env)

def busTxn : Txn where
  write := e.busWrite
  size := e.busSize
  addr := e.busAddr
  data := e.busWdata

/- The beat on the adapter's pins. -/
def busBeat (s : Adapter) : Beat where
  write := s.bWrite
  addr := s.bAddr
  be := s.bBe
  wdata := s.bWdata

/- The adapter presents a beat after this cycle. -/
def presents (s : Adapter) (i : In) : Bool :=
  if s.active then !i.tBerr && i.bAck && firstOfTwo s
  else i.tReq && !s.tAck

/- What the CPU is told in this cycle. -/
def tells : List Reply :=
  (if m.bus.tAck then [.data m.bus.tRdata] else []) ++
  (if m.service.cpuBerr then [.fault] else [])

/- A visit with the reply its beat gets in this cycle. -/
def Visit.hear (v : Visit) : Visit :=
  { v with
    replies := v.replies ++
      (if m.service.bAck then [.data m.service.bRdata]
        else []) ++
      (if m.service.cpuBerr then [.fault] else []) }

def CpuBook.note (g : CpuBook) : CpuBook where
  asked := g.asked ++
    (if e.busReq && g.now.isNone then [busTxn e] else [])
  told := g.told ++ tells m
  beats := g.beats ++
    (if presents m.bus (busIn m e) then
      [busBeat (Bus32.step m.bus (busIn m e))]
    else [])
  past := g.past ++
    (if (tells m).isEmpty then []
      else (g.now.map (Visit.hear m)).toList)
  now :=
    match g.now with
    | none => if e.busReq then some ⟨busTxn e, []⟩ else none
    | some v =>
        if (tells m).isEmpty then some (v.hear m) else none

/- The walker sees its answer in this cycle. -/
def walkerTold : Bool :=
  m.service.walkerAck || m.service.walkerBerr

def WalkBook.note (g : WalkBook) : WalkBook :=
  match g.walk with
  | .idle =>
      if e.walkerReq then
        { walks := g.walks ++ [walkerBeat (pins m e)]
          walk := .asking (walkerBeat (pins m e)) }
      else g
  | .asking _ =>
      if walkerTold m then
        { g with
          walk := if e.walkerReq then .closing else .idle }
      else g
  | .closing => if e.walkerReq then g else { g with walk := .idle }

structure Ledger where
  traffic : Traffic := {}
  cpu : CpuBook := {}
  walker : WalkBook := {}

/- A reset begins a new ledger. -/
def Ledger.note (g : Ledger) : Ledger :=
  if !e.nreset then {}
  else if e.ce then
    { traffic := g.traffic.note m.service (pins m e)
      cpu := g.cpu.note m e
      walker := g.walker.note m e }
  else g

end Quadra800

------------------------------------------------------------
-- The Contract and the Conclusion
------------------------------------------------------------

namespace Quadra800

open Bus32 Clocked

/-
  The CPU holds its request until its answer, and so does the
  walker.  A walker request counts as a new one only after a
  low cycle.
-/
structure Contract (x : Board × Ledger) (e : Env) : Prop where
  cpu : ∀ v, x.2.cpu.now = some v → tells x.1 = [] →
    e.busReq = true ∧ busTxn e = v.txn
  walker : ∀ b, x.2.walker.walk = .asking b →
    walkerTold x.1 = false →
      e.walkerReq = true ∧ walkerBeat (pins x.1 e) = b

/- The beats of one owner among the jobs. -/
def beatsOf (o : Owner) (jobs : List Job) : List Beat :=
  (jobs.filter (fun j => j.owner = o)).map Job.beat

/- The replies of one owner among the answers. -/
def repliesOf (o : Owner) (heard : List (Owner × Reply)) :
    List Reply :=
  (heard.filter (fun p => p.1 = o)).map Prod.snd

/- The visits so far, the one in progress last. -/
def CpuBook.visits (g : CpuBook) : List Visit :=
  g.past ++ g.now.toList

/-
  Every answer once and to its owner.  `taken`: each beat
  presented is taken once.  `routed` and `sent`: each job
  goes to the target its address decodes to and to no other.
  `heard`: each is answered once, its owner hearing its own
  reply.  `asked` to `told`: a CPU transaction presents its
  own beats, none after a fault, and is told what the replies
  to these make.
-/
structure Delivered (m : Board) (g : Ledger) : Prop where
  taken_cpu : ∃ waiting, waiting.length ≤ 1 ∧
    g.cpu.beats = beatsOf .cpu g.traffic.jobs ++ waiting
  taken_walker : ∃ waiting, waiting.length ≤ 1 ∧
    g.walker.walks = beatsOf .walker g.traffic.jobs ++ waiting
  routed : Routed g.traffic.jobs
  jobs : g.traffic.jobs =
    g.traffic.served.map Prod.fst ++ g.traffic.serving.toList
  sent : g.traffic.sent = g.traffic.served.filterMap exchanged
  lines : lines m.service =
    (g.traffic.serving.bind Job.wire).toList
  honest : ∀ p ∈ g.traffic.served, Honest p
  heard : g.traffic.heard ++ answers m.service =
    g.traffic.served.map owed
  once : (answers m.service).length ≤ 1
  asked : g.cpu.asked = g.cpu.visits.map Visit.txn
  beats : g.cpu.beats = g.cpu.visits.flatMap Visit.presented
  replies : repliesOf .cpu g.traffic.heard =
    g.cpu.visits.flatMap Visit.replies
  told : g.cpu.told = g.cpu.past.map Visit.outcome
  whole : ∀ v ∈ g.cpu.past, v.Whole

end Quadra800
