import Wombat33.Oracle.Compare

/-
  The suites of `score_vs_oracle.py` and its exit code.

  A suite pairs the rows, compares each pair and reports the
  tally.  Where the source walks a sorted set of keys, only
  the order of the complaints depends on the sorting; the
  keys are walked here as they come.

  Key definitions include:
    * `scoreCpu`, `scoreFpu`, `scoreSelfscored`, `scoreMmu`
    * `main`
-/

------------------------------------------------------------
-- Options
------------------------------------------------------------

namespace Oracle

structure Args where
  ccrPolicy : Policy := .arch
  maskAexc : Bool := false
  flatEnv : Bool := false

def envreadRows : List Text :=
  ["MOVEC.L VBR,D0".toList,
    "MOVEC.L CACR,D0".toList,
    "MOVE.L ([bd.W,A6]),D1".toList,
    "MOVE.L ([bd.W,A6],D0.L*2,od.W),D1".toList,
    "MOVE.L ([bd.W,A6,D0.L*2],od.W),D1".toList,
    "MOVE.L ([bd.L,A6],D0.L*4,od.L),D1".toList,
    "MOVE.L (xxx).W=$1820,D1".toList]

def envreadRow (name : Text) : Bool :=
  envreadRows.any (·.isPrefixOf name)

/- `final` if the row has it, the trap state otherwise. -/
def Row.state (r : Row) : Option State :=
  if r.final.isSome then r.final else r.trapState

/- A missing vector counts as 0. -/
def Row.vector (r : Row) : Int := r.vec.getD 0

end Oracle

------------------------------------------------------------
-- CPU
------------------------------------------------------------

namespace Oracle

variable (py : Python) (args : Args) (deltas : List Int)

/- A field that only counts if the oracle has it. -/
def ifHas {α : Type} (vo : Option α) (check : α → Check) :
    Check :=
  match vo with
  | none => fun t => .ok t
  | some x => check x

/- Registers of both rows; a missing list is empty. -/
def regsOf
    (row : Text)
    (field : Nat → Field)
    (stack : Bool)
    (vo vc : Option (List Int)) : Check :=
  fun t =>
    .ok (regs deltas row field stack 0
      (vo.getD []) (vc.getD []) t)

def cpuState (n : Text) (so sc : State) : Check :=
  fun t => do
    let t ← ifHas so.ccr
      (fun v => ccrCheck py args.ccrPolicy n v sc.ccr) t
    let t ← ifHas so.pc
      (fun v t =>
        .ok (scalar deltas n .pc (some v) sc.pc t)) t
    let t ← regsOf deltas n .d false so.d sc.d t
    let t ← regsOf deltas n .a true so.a sc.a t
    ifHas so.ram
      (fun v => ramBytes deltas n v (sc.ram.getD [])) t

def cpuRow (o c : Row) : Check :=
  fun t =>
    match o.name with
    | none => .error .keyError
    | some n =>
        if args.flatEnv && envreadRow n then
          .ok (t.cls .envread)
        else if o.vector != c.vector then .ok (t.fail n .vec)
        else if o.final.isSome != c.final.isSome then
          .ok (t.fail n .state)
        else
          match o.state, c.state with
          | some so, some sc => cpuState py args deltas n so sc t
          | _, _ => .error .keyError

def scoreCpu (oracle cand : List Row) : Except Crash Tally := do
  let (pairs, t) ← pairRows oracle cand {}
  let deltas ← deriveDelta pairs [.pc, .a]
  pairs.foldlM (fun t p => cpuRow py args deltas p.1 p.2 t) t

end Oracle

------------------------------------------------------------
-- FPU
------------------------------------------------------------

namespace Oracle

variable (args : Args) (deltas : List Int)

/- One machine trapped with vector 11, the other executed. -/
def fpPolicyPair (vo vc : Int) : Bool :=
  (vo == 11 || vc == 11) && (vo == 0 || vc == 0)

/- The accrued-exception byte of the status register. -/
def fpsrAexc : Nat := 0xF8

def fpsrCheck (n : Text) (vo vc : Option Int) : Check :=
  fun t =>
    if vo == vc then .ok t.ok
    else
      match vo, vc with
      | some x, some y =>
          if args.maskAexc &&
              clear fpsrAexc x == clear fpsrAexc y then
            .ok (t.cls .aexc)
          else .ok (t.fail n .fpsr)
      | _, _ => .error .typeError

def fpuState (n : Text) (so sc : State) : Check :=
  fun t => do
    let t ← regsOf deltas n .d false so.d sc.d t
    let t ← regsOf deltas n .a true so.a sc.a t
    let t := if so.fp == sc.fp then t.ok else t.fail n .fp
    let t := scalar [] n .fpcr so.fpcr sc.fpcr t
    let t := scalar deltas n .fpiar so.fpiar sc.fpiar t
    fpsrCheck args n so.fpsr sc.fpsr t

/- The oracle's kind of state, which the candidate may lack. -/
def stateLike (o r : Row) : State :=
  (if o.final.isSome then r.final else r.trapState).getD {}

def fpuRow (o c : Row) : Check :=
  fun t =>
    match o.name with
    | none => .error .keyError
    | some name =>
        let n := baseName name
        if o.vector != c.vector then
          if fpPolicyPair o.vector c.vector then
            .ok (t.cls .fpPolicy)
          else .ok (t.fail n .vec)
        else
          fpuState args deltas n (stateLike o o)
            (stateLike o c) t

def scoreFpu (oracle cand : List Row) : Except Crash Tally := do
  let (pairs, t) ← pairRows oracle cand {}
  let deltas ← deriveDelta pairs [.a, .fpiar]
  pairs.foldlM (fun t p => fpuRow args deltas p.1 p.2 t) t

end Oracle

------------------------------------------------------------
-- Integration and Save/Restore
------------------------------------------------------------

namespace Oracle

def containsText (w : Text) : Text → Bool
  | [] => w.isEmpty
  | c :: rest =>
      w.isPrefixOf (c :: rest) || containsText w rest

/- Silicon keeps the low half of an FPIAR write. -/
def fpiarAlike (n : Text) (vo vc : Option Int) : Bool :=
  containsText "FPIAR".toList n &&
    vo.getD 0 % 65536 == vc.getD 0 % 65536

def selfscoredRow (o c : Row) : Check :=
  fun t =>
    match o.name with
    | none => .error .keyError
    | some n =>
        if o.vector != c.vector then
          if fpPolicyPair o.vector c.vector then
            .ok (t.cls .fpPolicy)
          else .ok (t.fail n .vec)
        else if o.actual != c.actual then
          if fpiarAlike n o.actual c.actual then
            .ok (t.cls .fpiar)
          else .ok (t.fail n .actual)
        else if o.expected != c.expected || o.pass != c.pass then
          .ok (t.cls .golden)
        else .ok t.ok

def scoreSelfscored (oracle cand : List Row) :
    Except Crash Tally := do
  let (pairs, t) ← pairRows oracle cand {}
  pairs.foldlM (fun t p => selfscoredRow p.1 p.2 t) t

end Oracle

------------------------------------------------------------
-- MMU
------------------------------------------------------------

namespace Oracle

/- Where a run put its tables; the last such row counts. -/
abbrev Reloc := List (Text × Int)

def relocOf (rows : List Row) : Reloc :=
  rows.foldl (fun reloc r => r.reloc.getD reloc) []

/- The rows of tests: the named ones that do not relocate. -/
def testRows (rows : List Row) : List Row :=
  rows.filter (fun r => r.reloc.isNone && r.name.isSome)

def regionSize (key : Text) : Int :=
  if key == "data".toList then 0x40 else 0x1000

/-
  A value in a region of the oracle, moved to where the
  candidate has that region.
-/
def translated (ro rc : Reloc) (v : Int) : Int :=
  match ro.find? (fun e =>
      decide (e.2 ≤ v) && decide (v < e.2 + regionSize e.1)) with
  | some (key, base) => v + ((rc.lookup key).getD base - base)
  | none => v

def mmuTargets : List Text :=
  ["TC".toList, "ITT0".toList, "ITT1".toList, "DTT0".toList,
    "DTT1".toList, "URP".toList, "SRP".toList, "MMUSR".toList]

/- The register a `MOVEC` row is about. -/
def mmuTarget (isWord : Char → Bool) : Text → Option Text
  | [] => none
  | c :: rest =>
      let here :=
        if "MOVEC ".toList.isPrefixOf (c :: rest) then
          mmuTargets.find? (fun r =>
            r.isPrefixOf ((c :: rest).drop 6) &&
              atEnd isWord ((c :: rest).drop (6 + r.length)))
        else none
      match here with
      | some r => some (r.map Char.toLower)
      | none => mmuTarget isWord rest

variable (ro rc : Reloc)

def mmuRegs
    (row : Text)
    (field : Nat → Field)
    (i : Nat) :
    List Int → List Int → Tally → Tally
  | x :: xs, y :: ys, t =>
      mmuRegs row field (i + 1) xs ys
        (if x == y || translated ro rc x == y then t.ok
        else t.fail row (field i))
  | _, _, t => t

/- The flag bits of MMUSR agree; its address is relocated. -/
def mmusrAlike (key : Text) (x y : Int) : Bool :=
  key == "mmusr".toList && x % 4096 == y % 4096 &&
    x != 0 && y != 0

def rootAlike (key : Text) (x y : Int) : Bool :=
  (key == "urp".toList || key == "srp".toList) &&
    translated ro rc x == y

/- The row is about another register. -/
def offTarget (target : Option Text) (key : Text) : Bool :=
  target.any (· != key)

def mmuReg
    (row : Text)
    (target : Option Text)
    (mo mc : List (Text × Int))
    (key : Text) : Check :=
  fun t =>
    match mo.lookup key, mc.lookup key with
    | some x, some y =>
        if x == y || rootAlike ro rc key x y then .ok t.ok
        else if mmusrAlike key x y then .ok (t.cls .layout)
        else if offTarget target key then .ok (t.cls .env)
        else .ok (t.fail row (.mmu key))
    | _, _ => .error .typeError

/- The windows by base; a later one replaces an earlier. -/
def windowMap (windows : List Window) :
    Except Crash (List (Int × List Int)) :=
  windows.foldlM
    (fun map w =>
      match w.base, w.bytes with
      | some base, some bytes => .ok ((base, bytes) :: map)
      | _, _ => .error .keyError)
    []

/- A flag byte, the last of a descriptor, differs. -/
def flagsDiffer (address : Int) : List Int → List Int → Bool
  | x :: xs, y :: ys =>
      (address % 4 == 3 && x != y) ||
        flagsDiffer (address + 1) xs ys
  | _, _ => false

def inFrame (base : Int) : Bool :=
  decide (0x3FF00 ≤ base) && decide (base < 0x40000)

def inTables (base : Int) : Bool :=
  decide (0x3000 ≤ base) && decide (base < 0x3500)

def windowCheck
    (row : Text)
    (wo wc : List (Int × List Int))
    (t : Tally)
    (base : Int) : Except Crash Tally :=
  let bo := (wo.lookup base).getD []
  let bc := (wc.lookup base).getD []
  if inFrame base then
    .ok (if bo != bc then t.cls .frame else t.ok)
  else if inTables base then
    if flagsDiffer base bo bc then
      .ok (t.fail row (.window base))
    else .ok (if bo != bc then t.cls .reloc else t.ok)
  else if bo != bc then .ok (t.fail row (.window base))
  else .ok t.ok

/- The keys of two dictionaries, each once. -/
def keysOf {α β : Type} [BEq α] (xs ys : List (α × β)) :
    List α :=
  (xs.map (·.1) ++ ys.map (·.1)).eraseDups

def windowsCheck (row : Text) (o c : Row) : Check :=
  fun t => do
    let wo ← windowMap (o.windows.getD [])
    let wc ← windowMap (c.windows.getD [])
    (keysOf wo wc).foldlM (windowCheck row wo wc) t

def mmuState (py : Python) (n : Text) (so sc : State) : Check :=
  fun t => do
    let mo := so.mmu.getD []
    let mc := sc.mmu.getD []
    let target := mmuTarget py.isWord n
    (keysOf mo mc).foldlM
      (fun t key => mmuReg ro rc n target mo mc key t)
      (mmuRegs ro rc n .a 0 (so.a.getD []) (sc.a.getD [])
        (mmuRegs ro rc n .d 0 (so.d.getD []) (sc.d.getD []) t))

def mmuRow (py : Python) (o c : Row) : Check :=
  fun t =>
    match o.name with
    | none => .error .keyError
    | some n =>
        if o.skipped.getD false != c.skipped.getD false then
          .ok (t.fail n .skipped)
        else if o.skipped.getD false then .ok t.ok
        else if o.vector != c.vector then .ok (t.fail n .vec)
        else do
          let t ← mmuState ro rc py n (o.final.getD {})
            (c.final.getD {}) t
          windowsCheck n o c t

def scoreMmu (py : Python) (oracle cand : List Row) :
    Except Crash Tally := do
  let ro := relocOf oracle
  let rc := relocOf cand
  let (pairs, t) ←
    pairRows (testRows oracle) (testRows cand) {}
  pairs.foldlM (fun t p => mmuRow ro rc py p.1 p.2 t) t

end Oracle

------------------------------------------------------------
-- The Exit Code
------------------------------------------------------------

namespace Oracle

inductive Suite where
  | cpu
  | fpu
  | integration
  | saverestore
  | mmu
  deriving DecidableEq

def score
    (py : Python)
    (args : Args)
    (oracle cand : List Row) :
    Suite → Except Crash Tally
  | .cpu => scoreCpu py args oracle cand
  | .fpu => scoreFpu args oracle cand
  | .integration => scoreSelfscored oracle cand
  | .saverestore => scoreSelfscored oracle cand
  | .mmu => scoreMmu py oracle cand

/- An exception that is not caught exits with 1. -/
def main
    (py : Python)
    (suite : Suite)
    (args : Args)
    (oracle cand : List UInt8) : Nat :=
  let run : Except Crash Tally := do
    let oracle ← load py oracle
    let cand ← load py cand
    score py args oracle cand suite
  match run with
  | .ok t => t.report
  | .error _ => 1

end Oracle
