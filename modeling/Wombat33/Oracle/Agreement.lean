import Wombat33.Checks.Basic
import Wombat33.Oracle.Suites

/-
  What the comparison is for.

  Agreement is stated without the script: each row the oracle
  file should hold is readable and has the candidate's row in
  its place, and each field of it that a suite compares is
  there too, of the same length, with the same value up to
  the tolerated classes.  Completeness names the parts of it
  that the script does not look at.

  Key definitions include:
    * `Paired`, `Kept`
    * `CpuAgrees`, `FpuAgrees`, `SelfAgrees`, `MmuAgrees`
    * `Agrees`
    * `Complete`
-/

------------------------------------------------------------
-- Rows and Fields
------------------------------------------------------------

namespace Oracle

/- Each oracle row has the candidate's row in its place. -/
def Paired
    (R : Row → Row → Prop)
    (os cs : List Row) : Prop :=
  ∀ (k : Nat) (o : Row), os[k]? = some o →
    ∃ c : Row, cs[k]? = some c ∧ R o c

/- What the oracle has, the candidate has, and it is alike. -/
def Kept
    {α : Type}
    (R : α → α → Prop)
    (vo vc : Option α) : Prop :=
  ∀ x, vo = some x → ∃ y, vc = some y ∧ R x y

/- A field the oracle has is there at all. -/
def Present {α : Type} (vo vc : Option α) : Prop :=
  Kept (fun _ _ => True) vo vc

def SameLength {α : Type} (vo vc : Option (List α)) : Prop :=
  Kept (fun xs ys => xs.length = ys.length) vo vc

def SameName (o c : Row) : Prop :=
  ∃ n n', o.name = some n ∧ c.name = some n' ∧
    baseName n = baseName n'

/- Registers of one length; the stack pointer may differ. -/
def RegsAlike
    (stack : Bool)
    (R : Int → Int → Prop)
    (xs ys : List Int) : Prop :=
  xs.length = ys.length ∧
    ∀ (i : Nat) (x y : Int),
      xs[i]? = some x → ys[i]? = some y →
        (stack = true ∧ i = 7) ∨ R x y

/- Equal, or a payload address moved by a trusted shift. -/
def Alike (deltas : List Int) (x y : Int) : Prop :=
  x = y ∨ moved deltas x y = true

def WordAlike (deltas : List Int) (bo bc : List Int) : Prop :=
  bo = bc ∨ ∃ x y, word bo = .ok x ∧ word bc = .ok y ∧
    moved deltas x y = true

/- Memory word by word; what is left over is equal. -/
def RamAlike (deltas : List Int) :
    List Int → List Int → Prop
  | x₀ :: x₁ :: x₂ :: x₃ :: xs, y₀ :: y₁ :: y₂ :: y₃ :: ys =>
      WordAlike deltas [x₀, x₁, x₂, x₃] [y₀, y₁, y₂, y₃] ∧
        RamAlike deltas xs ys
  | xs, ys => xs = ys

end Oracle

------------------------------------------------------------
-- Agreement
------------------------------------------------------------

namespace Oracle

section CpuFpu

variable (py : Python) (args : Args) (deltas : List Int)

structure CpuStateAgrees (n : Text) (so sc : State) :
    Prop where
  ccr : Kept (fun x y => x = y ∨
    ccrAlike py args.ccrPolicy n x y = true) so.ccr sc.ccr
  pc : Kept (Alike deltas) so.pc sc.pc
  d : Kept (RegsAlike false (Alike deltas)) so.d sc.d
  a : Kept (RegsAlike true (Alike deltas)) so.a sc.a
  ram : Kept (RamAlike deltas) so.ram sc.ram

/- The bare machine cannot reproduce this row at all. -/
def Environment (o : Row) : Prop :=
  args.flatEnv = true ∧
    ∃ n, o.name = some n ∧ envreadRow n = true

def CpuAgrees (o c : Row) : Prop :=
  SameName o c ∧
    (Environment args o ∨
      Kept Eq o.vec c.vec ∧
        ∃ so sc, o.final.isSome = c.final.isSome ∧
          o.state = some so ∧ c.state = some sc ∧
          CpuStateAgrees py args deltas (o.name.getD []) so sc)

structure FpuStateAgrees (so sc : State) : Prop where
  d : Kept (RegsAlike false (Alike deltas)) so.d sc.d
  a : Kept (RegsAlike true (Alike deltas)) so.a sc.a
  fp : Kept Eq so.fp sc.fp
  fpcr : Kept Eq so.fpcr sc.fpcr
  fpiar : Kept (Alike deltas) so.fpiar sc.fpiar
  fpsr : Kept (fun x y => x = y ∨ args.maskAexc = true ∧
    clear fpsrAexc x = clear fpsrAexc y) so.fpsr sc.fpsr

/-
  One trapped on an unimplemented operation that the other
  executed: the row decides nothing else.
-/
def PolicyRow (o c : Row) : Prop :=
  Present o.vec c.vec ∧ o.vector ≠ c.vector ∧
    fpPolicyPair o.vector c.vector = true

def FpuAgrees (o c : Row) : Prop :=
  SameName o c ∧
    (PolicyRow o c ∨
      Kept Eq o.vec c.vec ∧
        FpuStateAgrees args deltas (stateLike o o)
          (stateLike o c))

end CpuFpu

/- The low halves agree where FPIAR is what is read back. -/
def ActualAlike (n : Text) (x y : Int) : Prop :=
  x = y ∨ fpiarAlike n (some x) (some y) = true

def SelfAgrees (o c : Row) : Prop :=
  SameName o c ∧
    (PolicyRow o c ∨
      Kept Eq o.vec c.vec ∧
        Kept (ActualAlike (o.name.getD [])) o.actual c.actual)

section Mmu

variable (ro rc : Reloc) (py : Python)

/- Equal, up to where the run put its tables. -/
def Translated (x y : Int) : Prop :=
  x = y ∨ translated ro rc x = y

/-
  An MMU register: equal, relocated, or not the one the row
  is about.
-/
def RegisterAlike (n key : Text) (x y : Int) : Prop :=
  x = y ∨ rootAlike ro rc key x y = true ∨
    mmusrAlike key x y = true ∨
    offTarget (mmuTarget py.isWord n) key = true

/-
  A window: its bytes are equal; a table's flag bytes are; a
  fault frame's need not be.
-/
def WindowAlike (base : Int) (bo bc : List Int) : Prop :=
  bo.length = bc.length ∧
    (inFrame base = true ∨
      (inTables base = true ∧ flagsDiffer base bo bc = false) ∨
      bo = bc)

structure MmuStateAgrees (n : Text) (so sc : State) :
    Prop where
  d : Kept (RegsAlike false (Translated ro rc)) so.d sc.d
  a : Kept (RegsAlike false (Translated ro rc)) so.a sc.a
  mmu : ∀ key, Kept (RegisterAlike ro rc py n key)
    ((so.mmu.getD []).lookup key) ((sc.mmu.getD []).lookup key)

def WindowsAgree (o c : Row) : Prop :=
  ∃ wo wc, windowMap (o.windows.getD []) = .ok wo ∧
    windowMap (c.windows.getD []) = .ok wc ∧
    ∀ base, Kept (WindowAlike base) (wo.lookup base)
      (wc.lookup base)

def MmuAgrees (o c : Row) : Prop :=
  SameName o c ∧
    (o.skipped = some true ∨
      Kept Eq o.vec c.vec ∧
        MmuStateAgrees ro rc py (o.name.getD [])
          (o.final.getD {}) (c.final.getD {}) ∧
        WindowsAgree o c)

end Mmu

/- The rows that are tests, whether they have a name or not. -/
def tests (rows : List Row) : List Row :=
  rows.filter (·.reloc.isNone)

def RowsAgree
    (py : Python)
    (args : Args)
    (os cs : List Row) :
    Suite → Prop
  | .cpu => ∃ deltas,
      deriveDelta (os.zip cs) [.pc, .a] = .ok deltas ∧
        Paired (CpuAgrees py args deltas) os cs
  | .fpu => ∃ deltas,
      deriveDelta (os.zip cs) [.a, .fpiar] = .ok deltas ∧
        Paired (FpuAgrees args deltas) os cs
  | .integration => Paired SelfAgrees os cs
  | .saverestore => Paired SelfAgrees os cs
  | .mmu =>
      Paired (MmuAgrees (relocOf os) (relocOf cs) py)
        (tests os) (testRows cs)

/-
  Every line of the oracle that should hold a row is readable,
  and every row agrees.
-/
structure Agrees
    (py : Python)
    (suite : Suite)
    (args : Args)
    (oracle cand : List UInt8) : Prop where
  readable : ∀ line ∈ rowLines oracle, py.loads line ≠ .ok none
  rows : ∃ os cs, load py oracle = .ok os ∧
    load py cand = .ok cs ∧ RowsAgree py args os cs suite

end Oracle

------------------------------------------------------------
-- Completeness
------------------------------------------------------------

namespace Oracle

/- The bytes after the last whole word. -/
def ramTail (ram : List Int) : List Int :=
  ram.drop (ram.length / 4 * 4)

/- The lists are of one length, and memory ends alike. -/
structure CpuStateComplete (so sc : State) : Prop where
  d : SameLength so.d sc.d
  a : SameLength so.a sc.a
  ram : Kept (fun xs ys => ramTail xs = ramTail ys)
    so.ram sc.ram

def CpuComplete (args : Args) (o c : Row) : Prop :=
  c.name.isSome = true ∧
    (Environment args o ∨
      Present o.vec c.vec ∧
        ∀ so sc, o.state = some so → c.state = some sc →
          CpuStateComplete so sc)

def FpuComplete (o c : Row) : Prop :=
  c.name.isSome = true ∧ Present o.vec c.vec ∧
    (PolicyRow o c ∨
      SameLength (stateLike o o).d (stateLike o c).d ∧
        SameLength (stateLike o o).a (stateLike o c).a)

def SelfComplete (o c : Row) : Prop :=
  c.name.isSome = true ∧ Present o.vec c.vec ∧
    (PolicyRow o c ∨ Present o.actual c.actual)

def WindowsComplete (o c : Row) : Prop :=
  ∀ wo wc, windowMap (o.windows.getD []) = .ok wo →
    windowMap (c.windows.getD []) = .ok wc →
    ∀ base, SameLength (wo.lookup base) (wc.lookup base)

def MmuComplete (o c : Row) : Prop :=
  c.name.isSome = true ∧
    (o.skipped = some true ∨
      Present o.vec c.vec ∧
        SameLength (o.final.getD {}).d (c.final.getD {}).d ∧
        SameLength (o.final.getD {}).a (c.final.getD {}).a ∧
        WindowsComplete o c)

def RowsComplete
    (args : Args)
    (os cs : List Row) :
    Suite → Prop
  | .cpu => Paired (CpuComplete args) os cs
  | .fpu => Paired FpuComplete os cs
  | .integration => Paired SelfComplete os cs
  | .saverestore => Paired SelfComplete os cs
  | .mmu =>
      (∀ o ∈ tests os, o.name.isSome = true) ∧
        Paired MmuComplete (tests os) (testRows cs)

/-
  No oracle line is unreadable, the candidate is not short of
  a row, and in no row is it short of a vector, a register
  list, a self-test's result or a window, or do the bytes
  after the last whole word of memory differ.
-/
structure Complete
    (py : Python)
    (suite : Suite)
    (args : Args)
    (oracle cand : List UInt8) : Prop where
  readable : ∀ line ∈ rowLines oracle, py.loads line ≠ .ok none
  rows : ∀ os cs, load py oracle = .ok os →
    load py cand = .ok cs → RowsComplete args os cs suite

end Oracle
