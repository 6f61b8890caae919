import Wombat33.Bus32.Operand

/-
  Transactions over a byte memory.

  The beat side is served by a byte memory that answers a
  beat whenever it likes.  A ledger beside the run keeps the
  transaction in progress, the memory it found, the beats
  served for it and the transaction completed before it.

  Key definitions include:
    * `World`, `Env`, `World.step`
    * `Ledger`, `Ledger.note`
    * `Inv`
    * `pins`

  Key theorems include:
    * `transactions_exact`
-/

------------------------------------------------------------
-- The Adapter with its Memory
------------------------------------------------------------

namespace Bus32

open Lanes

structure World where
  bus : Adapter
  mem : Mem 30

/-
  What the CPU drives in one cycle, and whether the memory
  answers the beat it finds requested.  A write beat's read
  data is whatever `junk` says.
-/
structure Env where
  nreset : Bool := true
  ce : Bool := true
  tReq : Bool := false
  tWrite : Bool := false
  tSize : BitVec 2 := 0#2
  tAddr : BitVec 32 := 0#32
  tWdata : BitVec 32 := 0#32
  tBerr : Bool := false
  ready : Bool := false
  junk : BitVec 32 := 0#32

variable (w : World) (e : Env)

/- The memory answers a requested beat in this cycle. -/
def beatServed : Bool := e.ce && e.ready && w.bus.bReq

def worldIn : In where
  nreset := e.nreset
  ce := e.ce
  tReq := e.tReq
  tWrite := e.tWrite
  tSize := e.tSize
  tAddr := e.tAddr
  tWdata := e.tWdata
  tBerr := e.tBerr
  bAck := beatServed w e
  bRdata :=
    if w.bus.bWrite then e.junk
    else loadWord w.mem w.bus.bAddr

@[simp] theorem worldIn_nreset :
    (worldIn w e).nreset = e.nreset := rfl

@[simp] theorem worldIn_ce : (worldIn w e).ce = e.ce := rfl

@[simp] theorem worldIn_tReq :
    (worldIn w e).tReq = e.tReq := rfl

@[simp] theorem worldIn_tBerr :
    (worldIn w e).tBerr = e.tBerr := rfl

@[simp] theorem worldIn_bAck :
    (worldIn w e).bAck = beatServed w e := rfl

/- The memory after a cycle: a served write beat is stored. -/
def memNext : Mem 30 :=
  if beatServed w e && w.bus.bWrite then
    storeLanes w.mem w.bus.bAddr w.bus.bBe w.bus.bWdata
  else w.mem

def World.step : World where
  bus := Bus32.step w.bus (worldIn w e)
  mem := memNext w e

end Bus32

------------------------------------------------------------
-- The Ledger
------------------------------------------------------------

namespace Bus32

open Lanes

/- A transaction as the CPU presents it. -/
structure Txn where
  write : Bool
  size : BitVec 2
  addr : BitVec 32
  data : BitVec 32

def Env.txn (e : Env) : Txn where
  write := e.tWrite
  size := e.tSize
  addr := e.tAddr
  data := e.tWdata

/- The memory a transaction leaves. -/
def Txn.after (t : Txn) (m : Mem 30) : Mem 30 :=
  if t.write then store m t.addr (fBytes t.size) t.data else m

/- The longwords of a transaction's beats, in order. -/
def Txn.beats (t : Txn) : List (BitVec 30) :=
  if 4 < fEnd t.size t.addr then
    [word (w := 30) t.addr, word (w := 30) t.addr + 1]
  else [word (w := 30) t.addr]

/-
  The transaction accepted last, the memory it found and the
  beats served for it; `last` is the transaction completed
  since, `prior` the one completed just before it.
-/
structure Ledger where
  txn : Txn
  before : Mem 30
  served : List (BitVec 30)
  last : Option Txn
  prior : Option Txn

def Ledger.note (g : Ledger) (w : World) (e : Env) : Ledger :=
  if !e.nreset then { g with last := none }
  else if !e.ce then g
  else if w.bus.active then
    (if e.tBerr then { g with last := none }
    else if beatServed w e then
      { g with
        served := g.served ++ [w.bus.bAddr]
        last := if firstOfTwo w.bus then none else some g.txn }
    else g)
  else if e.tReq && !w.bus.tAck then
    { txn := e.txn, before := w.mem, served := []
      last := none, prior := g.last }
  else g

end Bus32

------------------------------------------------------------
-- The Invariant
------------------------------------------------------------

namespace Bus32

open Lanes Clocked

/- What `tAck` promises about the transaction it answers. -/
structure Answered (w : World) (g : Ledger) : Prop where
  mem : w.mem = g.txn.after g.before
  data : g.txn.write = false →
    w.bus.tRdata =
      load g.before g.txn.addr (fBytes g.txn.size)
  served : g.served = g.txn.beats

/- The transaction as the adapter latched it. -/
structure Latched (s : Adapter) (t : Txn) : Prop where
  write : s.bWrite = t.write
  off : s.rOff = fOff t.addr
  bytes : s.rBytes = fBytes t.size
  last : s.rEnd = fEnd t.size t.addr
  wsh : s.rWsh = fWsh t.size t.data

/- The first beat is requested. -/
structure FirstBeat (w : World) (g : Ledger) : Prop where
  addr : w.bus.bAddr = word (w := 30) g.txn.addr
  be : w.bus.bBe =
    lanes (fOff g.txn.addr).toNat (fN0 g.txn.size g.txn.addr)
  wdata : w.bus.bWdata =
    fWsh g.txn.size g.txn.data >>>
      (8 * (fOff g.txn.addr).toNat)
  mem : w.mem = g.before
  served : g.served = []

/- The memory between the two beats of a write. -/
def Txn.halfway (t : Txn) (m : Mem 30) : Mem 30 :=
  if t.write then
    storeLanes m (word (w := 30) t.addr)
      (lanes (fOff t.addr).toNat (4 - (fOff t.addr).toNat))
      (fWsh t.size t.data >>> (8 * (fOff t.addr).toNat))
  else m

/- The tail beat of a split is requested. -/
structure TailBeat (w : World) (g : Ledger) : Prop where
  split : 4 < fEnd g.txn.size g.txn.addr
  addr : w.bus.bAddr = word (w := 30) g.txn.addr + 1
  be : w.bus.bBe = lanes 0 (fEnd g.txn.size g.txn.addr - 4)
  wdata : w.bus.bWdata =
    fWsh g.txn.size g.txn.data <<<
      (8 * (4 - (fOff g.txn.addr).toNat))
  mem : w.mem = g.txn.halfway g.before
  stream : g.txn.write = false →
    w.bus.rStream =
      loadWord g.before (word (w := 30) g.txn.addr) <<<
        (8 * (fOff g.txn.addr).toNat)
  served : g.served = [word (w := 30) g.txn.addr]

/- What holds in every state of every run from reset. -/
structure Inv (x : World × Ledger) : Prop where
  req : x.1.bus.bReq = x.1.bus.active
  answered : x.1.bus.tAck = true →
    x.1.bus.active = false ∧ Answered x.1 x.2
  latched : x.1.bus.active = true → Latched x.1.bus x.2.txn
  first : x.1.bus.active = true → x.1.bus.second = false →
    FirstBeat x.1 x.2
  tail : x.1.bus.active = true → x.1.bus.second = true →
    TailBeat x.1 x.2
  last : ∀ t, x.2.last = some t →
    x.1.bus.active = false ∧
      ∃ m, x.1.mem = t.after m
  prior : ∀ t, x.2.prior = some t →
    ∃ m, x.2.before = t.after m

variable {w : World} {g : Ledger} {e : Env}

/- The invariant after a cycle of each kind. -/
theorem inv_reset (g : Ledger) (m : Mem 30)
    (hLast : g.last = none)
    (hPrior : ∀ t, g.prior = some t → ∃ m, g.before = t.after m) :
    Inv (⟨resetState, m⟩, g) where
  req := rfl
  answered := by simp [resetState]
  latched := by simp [resetState]
  first := by simp [resetState]
  tail := by simp [resetState]
  last := by simp [hLast]
  prior := hPrior

/- An answer is withdrawn and nothing else happens. -/
theorem inv_wait (hInv : Inv (w, g))
    (hQuiet : beatServed w e = false) :
    Inv (⟨wait w.bus, memNext w e⟩, g) := by
  have hMem : memNext w e = w.mem := by simp [memNext, hQuiet]
  rw [hMem]
  exact {
    req := hInv.req
    answered := by simp [wait]
    latched := fun hActive =>
      let h := hInv.latched hActive
      ⟨h.write, h.off, h.bytes, h.last, h.wsh⟩
    first := fun hActive hFirst =>
      let h := hInv.first hActive hFirst
      ⟨h.addr, h.be, h.wdata, h.mem, h.served⟩
    tail := fun hActive hSecond =>
      let h := hInv.tail hActive hSecond
      ⟨h.split, h.addr, h.be, h.wdata, h.mem, h.stream,
        h.served⟩
    last := hInv.last
    prior := hInv.prior }

theorem inv_abort (hInv : Inv (w, g)) :
    Inv (⟨abort w.bus, memNext w e⟩,
      { g with last := none }) where
  req := rfl
  answered := by simp [abort]
  latched := by simp [abort]
  first := by simp [abort]
  tail := by simp [abort]
  last := by simp
  prior := hInv.prior

theorem inv_accept (hInv : Inv (w, g))
    (hIdle : w.bus.active = false) :
    Inv (⟨accept w.bus (worldIn w e), memNext w e⟩,
      { txn := e.txn, before := w.mem, served := []
        last := none, prior := g.last }) := by
  have hReq : w.bus.bReq = false := by rw [hInv.req, hIdle]
  have hMem : memNext w e = w.mem := by
    simp [memNext, beatServed, hReq]
  rw [hMem]
  exact {
    req := rfl
    answered := by simp [accept]
    latched := fun _ => ⟨rfl, rfl, rfl, rfl, rfl⟩
    first := fun _ _ => ⟨rfl, rfl, rfl, rfl, rfl⟩
    tail := by simp [accept]
    last := by simp
    prior := fun t hPrior => (hInv.last t hPrior).2 }

/- The first of two beats is served. -/
theorem inv_splitBeat (hInv : Inv (w, g))
    (hActive : w.bus.active = true)
    (hServed : beatServed w e = true)
    (hFirst : firstOfTwo w.bus = true) :
    Inv (⟨splitBeat w.bus (worldIn w e), memNext w e⟩,
      { g with served := g.served ++ [w.bus.bAddr]
               last := none }) := by
  simp only [firstOfTwo, Bool.and_eq_true, Bool.not_eq_true',
    decide_eq_true_eq] at hFirst
  rcases hFirst with ⟨hSecond, hSplit⟩
  have hLatched : Latched w.bus g.txn :=
    hInv.latched hActive
  have hBeat : FirstBeat w g := hInv.first hActive hSecond
  rw [hLatched.last] at hSplit
  have hN0 : fN0 g.txn.size g.txn.addr =
      4 - (fOff g.txn.addr).toNat := by
    simp [fN0, hSplit]
  exact {
    req := by simpa [splitBeat] using hInv.req
    answered := by simp [splitBeat]
    latched := fun _ =>
      ⟨hLatched.write, hLatched.off, hLatched.bytes,
        hLatched.last, hLatched.wsh⟩
    first := by simp [splitBeat]
    tail := fun _ _ => {
      split := hSplit
      addr := by simp [splitBeat, hBeat.addr]
      be := by simp [splitBeat, hLatched.last]
      wdata := by
        simp [splitBeat, rN0, hLatched.wsh, hLatched.off]
      mem := by
        simp [memNext, hServed, hLatched.write, Txn.halfway,
          hBeat.addr, hBeat.be, hBeat.wdata, hBeat.mem, hN0]
      stream := by
        intro (hRead : g.txn.write = false)
        simp [splitBeat, rdStream0, worldIn, hLatched.write,
          hLatched.off, hRead, hBeat.addr, hBeat.mem]
      served := by simp [hBeat.served, hBeat.addr] }
    last := by simp
    prior := hInv.prior }

/- The only beat is served. -/
theorem answered_single (hLatched : Latched w.bus g.txn)
    (hBeat : FirstBeat w g)
    (hSecond : w.bus.second = false)
    (hServed : beatServed w e = true)
    (hFits : fEnd g.txn.size g.txn.addr ≤ 4) :
    Answered ⟨finish w.bus (worldIn w e), memNext w e⟩
      { g with served := g.served ++ [w.bus.bAddr]
               last := some g.txn } := by
  have hN0 : fN0 g.txn.size g.txn.addr =
      fBytes g.txn.size := by
    simp only [fN0]
    rw [if_neg (by omega)]
  exact {
    mem := by
      simp only [memNext, hServed, Bool.true_and,
        hLatched.write, hBeat.addr, hBeat.be, hBeat.wdata,
        hBeat.mem, hN0, Txn.after]
      rw [storeLanes_single _ _ _ _ hFits]
    data := by
      intro (hRead : g.txn.write = false)
      simp only [finish, hSecond, rdStream0, worldIn,
        hLatched.write, hLatched.off, hLatched.bytes,
        hRead, hBeat.addr, hBeat.mem, Bool.false_eq_true,
        if_false]
      exact load_single _ _ _ hFits
    served := by
      simp only [hBeat.served, hBeat.addr, Txn.beats]
      rw [if_neg (by omega)]
      rfl }

/- The tail beat is served. -/
theorem answered_split (hLatched : Latched w.bus g.txn)
    (hBeat : TailBeat w g)
    (hSecond : w.bus.second = true)
    (hServed : beatServed w e = true) :
    Answered ⟨finish w.bus (worldIn w e), memNext w e⟩
      { g with served := g.served ++ [w.bus.bAddr]
               last := some g.txn } := by
  have hSplit := hBeat.split
  exact {
    mem := by
      simp only [memNext, hServed, Bool.true_and,
        hLatched.write, hBeat.addr, hBeat.be, hBeat.wdata,
        hBeat.mem, Txn.after, Txn.halfway]
      split
      next => exact storeLanes_split _ _ _ _ hSplit
      next => rfl
    data := by
      intro (hRead : g.txn.write = false)
      have hMem : w.mem = g.before := by
        simp [hBeat.mem, Txn.halfway, hRead]
      simp only [finish, hSecond, rN0, worldIn,
        hLatched.write, hLatched.off, hLatched.bytes,
        hRead, hBeat.addr, hMem, hBeat.stream hRead,
        Bool.false_eq_true, if_false, if_true]
      exact load_split _ _ _ hSplit
    served := by
      simp only [hBeat.served, hBeat.addr, Txn.beats]
      rw [if_pos hSplit]
      rfl }

theorem inv_finish (hInv : Inv (w, g))
    (hActive : w.bus.active = true)
    (hServed : beatServed w e = true)
    (hLast : firstOfTwo w.bus = false) :
    Inv (⟨finish w.bus (worldIn w e), memNext w e⟩,
      { g with served := g.served ++ [w.bus.bAddr]
               last := some g.txn }) := by
  have hLatched : Latched w.bus g.txn :=
    hInv.latched hActive
  have hAnswered :
      Answered ⟨finish w.bus (worldIn w e), memNext w e⟩
        { g with served := g.served ++ [w.bus.bAddr]
                 last := some g.txn } := by
    cases hSecond : w.bus.second with
    | true =>
        exact answered_split hLatched
          (hInv.tail hActive hSecond) hSecond hServed
    | false =>
        have hFits : fEnd g.txn.size g.txn.addr ≤ 4 := by
          rw [← hLatched.last]
          simpa [firstOfTwo, hSecond] using hLast
        exact answered_single hLatched
          (hInv.first hActive hSecond) hSecond hServed hFits
  exact {
    req := rfl
    answered := fun _ => ⟨rfl, hAnswered⟩
    latched := by simp [finish]
    first := by simp [finish]
    tail := by simp [finish]
    last := by
      intro t hTxn
      have hSame : g.txn = t := Option.some.inj hTxn
      exact ⟨rfl, g.before, hSame ▸ hAnswered.mem⟩
    prior := hInv.prior }

/- Without its clock enable the adapter serves no beat. -/
theorem inv_hold (hInv : Inv (w, g)) (hCe : e.ce = false) :
    Inv (⟨w.bus, memNext w e⟩, g) := by
  have hMem : memNext w e = w.mem := by
    simp [memNext, beatServed, hCe]
  rw [hMem]
  exact hInv

/- One cycle keeps the invariant. -/
theorem inv_step (x : World × Ledger) (e : Env)
    (hInv : Inv x) :
    Inv (watch World.step Ledger.note x e) := by
  rcases x with ⟨w, g⟩
  simp only [watch, World.step, Ledger.note, Bus32.step,
    clock, worldIn_nreset, worldIn_ce, worldIn_tReq,
    worldIn_tBerr, worldIn_bAck]
  cases hReset : e.nreset with
  | false =>
      exact inv_reset _ _ rfl hInv.prior
  | true =>
      cases hCe : e.ce with
      | false => simpa using inv_hold hInv hCe
      | true =>
          cases hActive : w.bus.active with
          | true =>
              cases hBerr : e.tBerr with
              | true => simpa using inv_abort hInv
              | false =>
                  cases hServed : beatServed w e with
                  | false => simpa using inv_wait hInv hServed
                  | true =>
                      cases hFirst : firstOfTwo w.bus with
                      | true =>
                          simpa using inv_splitBeat hInv
                            hActive hServed hFirst
                      | false =>
                          simpa using inv_finish hInv
                            hActive hServed hFirst
          | false =>
              have hReq : w.bus.bReq = false := by
                rw [← hActive]
                exact hInv.req
              have hQuiet : beatServed w e = false := by
                simp [beatServed, hReq]
              by_cases hNew : (e.tReq && !w.bus.tAck) = true
              · have hNext := inv_accept (e := e) hInv hActive
                simp only [Bool.and_eq_true,
                  Bool.not_eq_true'] at hNew
                simpa [hNew] using hNext
              · simpa [hNew] using inv_wait hInv hQuiet

/- Every run from reset keeps it. -/
theorem inv_run (m : Mem 30) (g : Ledger)
    (hLast : g.last = none) (hPrior : g.prior = none)
    (es : List Env) :
    Inv (run (watch World.step Ledger.note)
      (⟨resetState, m⟩, g) es) :=
  invariant_always inv_step es
    (inv_reset g m hLast (by simp [hPrior]))

end Bus32

------------------------------------------------------------
-- Aborted Transactions
------------------------------------------------------------

namespace Bus32

open Clocked

/-
  What the pins show: the answer with its data, and the
  requested beat.
-/
def pins (s : Adapter) :
    Option (BitVec 32) ×
      Option (Bool × BitVec 30 × BitVec 4 × BitVec 32) :=
  (if s.tAck then some s.tRdata else none,
    if s.bReq then some (s.bWrite, s.bAddr, s.bBe, s.bWdata)
    else none)

/-
  Two adapters that differ only in registers they will write
  before they read them again.
-/
structure Alike (s s' : Adapter) : Prop where
  active : s.active = s'.active
  req : s.bReq = s'.bReq
  ack : s.tAck = s'.tAck
  rdata : s.tAck = true → s.tRdata = s'.tRdata
  beat : s.bReq = true →
    s.bWrite = s'.bWrite ∧ s.bAddr = s'.bAddr ∧
      s.bBe = s'.bBe ∧ s.bWdata = s'.bWdata
  latched : s.active = true →
    s.bReq = true ∧ s.second = s'.second ∧
      s.rOff = s'.rOff ∧ s.rBytes = s'.rBytes ∧
      s.rEnd = s'.rEnd ∧ s.rWsh = s'.rWsh
  stream : s.active = true → s.second = true →
    s.rStream = s'.rStream

theorem alike_wait {s s' : Adapter} (hAlike : Alike s s') :
    Alike (wait s) (wait s') where
  active := hAlike.active
  req := hAlike.req
  ack := rfl
  rdata := by simp [wait]
  beat := hAlike.beat
  latched := hAlike.latched
  stream := hAlike.stream

theorem alike_accept (s s' : Adapter) (i : In) :
    Alike (accept s i) (accept s' i) where
  active := rfl
  req := rfl
  ack := rfl
  rdata := by simp [accept]
  beat := by simp [accept]
  latched := by simp [accept]
  stream := by simp [accept]

theorem alike_splitBeat {s s' : Adapter} (i : In)
    (hAlike : Alike s s') (hActive : s.active = true) :
    Alike (splitBeat s i) (splitBeat s' i) := by
  rcases hAlike.latched hActive with
    ⟨hReq, hSecond, hOff, hBytes, hEnd, hWsh⟩
  rcases hAlike.beat hReq with ⟨hWrite, hAddr, -, -⟩
  exact {
    active := hAlike.active
    req := hAlike.req
    ack := rfl
    rdata := by simp [splitBeat]
    beat := by
      simp [splitBeat, rN0, hWrite, hAddr, hOff, hEnd, hWsh]
    latched := by
      simp [splitBeat, hReq, hOff, hBytes, hEnd, hWsh]
    stream := by simp [splitBeat, rdStream0, hOff] }

theorem alike_finish {s s' : Adapter} (i : In)
    (hAlike : Alike s s') (hActive : s.active = true) :
    Alike (finish s i) (finish s' i) := by
  rcases hAlike.latched hActive with
    ⟨hReq, hSecond, hOff, hBytes, hEnd, hWsh⟩
  exact {
    active := rfl
    req := rfl
    ack := rfl
    rdata := by
      intro _
      simp only [finish, rdStream0, rN0, ← hSecond, hOff,
        hBytes]
      split
      next h => rw [hAlike.stream hActive h]
      next => rfl
    beat := by simp [finish]
    latched := by simp [finish]
    stream := by simp [finish] }

/- An aborted adapter is alike to one fresh from reset. -/
theorem alike_abort (s : Adapter) :
    Alike (abort s) resetState where
  active := rfl
  req := rfl
  ack := rfl
  rdata := by simp [abort]
  beat := by simp [abort]
  latched := by simp [abort]
  stream := by simp [abort]

theorem alike_clock {s s' : Adapter} (i : In)
    (hAlike : Alike s s') : Alike (clock s i) (clock s' i) := by
  unfold clock
  rw [← hAlike.active, ← hAlike.ack]
  split
  next =>
      exact ⟨rfl, rfl, rfl, by simp [abort], by simp [abort],
        by simp [abort], by simp [abort]⟩
  next =>
      split
      next =>
          split
          next => exact alike_accept s s' i
          next => exact alike_wait hAlike
      next hBusy =>
          have hActive : s.active = true := by
            simpa using hBusy
          rcases hAlike.latched hActive with
            ⟨-, hSecond, -, -, hEnd, -⟩
          have hFirst : firstOfTwo s' = firstOfTwo s := by
            simp [firstOfTwo, hSecond, hEnd]
          rw [hFirst]
          split
          next =>
              split
              next => exact alike_splitBeat i hAlike hActive
              next => exact alike_finish i hAlike hActive
          next => exact alike_wait hAlike

/- Alike adapters stay alike under the same inputs. -/
theorem alike_step {s s' : Adapter} (i : In)
    (hAlike : Alike s s') : Alike (step s i) (step s' i) := by
  unfold step
  split
  next =>
      exact ⟨rfl, rfl, rfl, fun _ => rfl,
        fun _ => ⟨rfl, rfl, rfl, rfl⟩, by simp [resetState],
        fun _ _ => rfl⟩
  next =>
      split
      next => exact alike_clock i hAlike
      next => exact hAlike

theorem alike_run {s s' : Adapter} (is : List In)
    (hAlike : Alike s s') :
    Alike (run step s is) (run step s' is) := by
  induction is generalizing s s' with
  | nil => exact hAlike
  | cons i is ih => exact ih (alike_step i hAlike)

theorem pins_of_alike {s s' : Adapter}
    (hAlike : Alike s s') : pins s = pins s' := by
  rcases hAlike with
    ⟨hActive, hReq, hAck, hRdata, hBeat, hLatched, hStream⟩
  unfold pins
  rw [← hAck, ← hReq]
  congr 1
  · split
    next h => rw [hRdata h]
    next => rfl
  · split
    next h =>
        rcases hBeat h with ⟨hWrite, hAddr, hBe, hWdata⟩
        rw [hWrite, hAddr, hBe, hWdata]
    next => rfl

end Bus32

------------------------------------------------------------
-- Exactness
------------------------------------------------------------

namespace Bus32

open Lanes Clocked

/- An adapter fresh from reset, over any memory. -/
def start (m : Mem 30) : World × Ledger :=
  (⟨resetState, m⟩,
    { txn := ⟨false, 0#2, 0#32, 0#32⟩, before := m
      served := [], last := none, prior := none })

/- The world and its ledger after a list of cycles. -/
def after (m : Mem 30) (es : List Env) : World × Ledger :=
  run (watch World.step Ledger.note) (start m) es

theorem inv_after (m : Mem 30) (es : List Env) :
    Inv (after m es) :=
  invariant_always inv_step es
    (inv_reset _ m rfl (by simp))

/- A read that follows a write to the same operand. -/
theorem read_after_write {x : World × Ledger} {t : Txn}
    (hInv : Inv x)
    (hAck : x.1.bus.tAck = true)
    (hRead : x.2.txn.write = false)
    (hPrior : x.2.prior = some t)
    (hWrite : t.write = true)
    (hAddr : t.addr = x.2.txn.addr)
    (hSize : t.size = x.2.txn.size) :
    x.1.bus.tRdata = operand (fBytes t.size) t.data := by
  rcases hInv.prior t hPrior with ⟨m, hBefore⟩
  rw [(hInv.answered hAck).2.data hRead, hBefore, ← hAddr,
    ← hSize]
  simp only [Txn.after, hWrite, if_true]
  exact load_store_same (w := 30) _ _ _ (fBytes_le _)

/-
  In every state of every run from reset: an answered
  transaction changed exactly its operand's bytes or returned
  exactly them, with the beats its alignment asks for; and a
  bus error during a transaction leaves an adapter that no
  later input can tell from one fresh from reset.
-/
theorem transactions_exact (m : Mem 30) (es : List Env) :
    ((after m es).1.bus.tAck = true →
      (after m es).1.bus.bReq = false ∧
      Answered (after m es).1 (after m es).2 ∧
      ∀ t, (after m es).2.prior = some t →
        t.write = true →
        (after m es).2.txn.write = false →
        t.addr = (after m es).2.txn.addr →
        t.size = (after m es).2.txn.size →
        (after m es).1.bus.tRdata =
          operand (fBytes t.size) t.data) ∧
    ∀ i : In, i.nreset = true → i.ce = true →
      i.tBerr = true →
      (after m es).1.bus.active = true →
      (step (after m es).1.bus i).tAck = false ∧
      (step (after m es).1.bus i).bReq = false ∧
      (step (after m es).1.bus i).active = false ∧
      ∀ is, pins (run step (step (after m es).1.bus i) is) =
        pins (run step resetState is) := by
  have hInv := inv_after m es
  constructor
  · intro hAck
    rcases hInv.answered hAck with ⟨hIdle, hAnswered⟩
    refine ⟨by rw [hInv.req, hIdle], hAnswered, ?_⟩
    intro t hPrior hWrite hRead hAddr hSize
    exact read_after_write hInv hAck hRead hPrior hWrite
      hAddr hSize
  · intro i hReset hCe hBerr hActive
    have hAbort : step (after m es).1.bus i =
        abort (after m es).1.bus := by
      simp [step, clock, hReset, hCe, hBerr, hActive]
    rw [hAbort]
    refine ⟨rfl, rfl, rfl, ?_⟩
    intro is
    exact pins_of_alike (alike_run is (alike_abort _))

/- A split word write, and the same word read back. -/
def writeThenRead : List Env :=
  [{ tReq := true, tWrite := true, tSize := 1#2
     tAddr := 0xFFFFFFFF#32, tWdata := 0x1234BEEF#32 },
    { ready := true }, {}, { ready := true }, {},
    { tReq := true, tSize := 1#2, tAddr := 0xFFFFFFFF#32 },
    { ready := true }, { ready := true }]

theorem transactions_exact_writeThenRead :
    (after (fun _ => 0#8) writeThenRead).1.bus.tRdata =
        0x0000BEEF#32 ∧
      (step (after (fun _ => 0#8)
        (writeThenRead.take 1)).1.bus
          { tBerr := true }).bReq = false :=
  ⟨((transactions_exact (fun _ => 0#8) writeThenRead).1
      rfl).2.2 ⟨true, 1#2, 0xFFFFFFFF#32, 0x1234BEEF#32⟩
      rfl rfl rfl rfl rfl,
    ((transactions_exact (fun _ => 0#8)
      (writeThenRead.take 1)).2 { tBerr := true }
      rfl rfl rfl rfl).2.1⟩

end Bus32
