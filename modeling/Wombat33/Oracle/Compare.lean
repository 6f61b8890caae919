import Wombat33.Oracle.Rows

/-
  The tally and the comparisons the suites share.

  What the script prints is left out; the tally keeps the
  class of each tolerated difference, and the row and field
  of each real one.  A comparison that would compute with, or
  format, a missing value raises.

  Key definitions include:
    * `Tally`
    * `baseName`, `pairRows`
    * `deriveDelta`
    * `scalar`, `regs`, `ramBytes`, `ccrCheck`
-/

------------------------------------------------------------
-- The Tally
------------------------------------------------------------

namespace Oracle

/- The classes of tolerated differences. -/
inductive Kind where
  | layout
  | label
  | golden
  | fpPolicy
  | fpiar
  | ccr
  | aexc
  | stack
  | env
  | envread
  | reloc
  | frame
  deriving DecidableEq

/- What a real difference is about. -/
inductive Field where
  | order
  | vec
  | state
  | ccr
  | pc
  | d (i : Nat)
  | a (i : Nat)
  | ram
  | fp
  | fpcr
  | fpiar
  | fpsr
  | actual
  | skipped
  | mmu (register : Text)
  | window (base : Int)
  deriving DecidableEq

structure Tally where
  matched : Nat := 0
  classes : List Kind := []
  real : List (Text × Field) := []
  deriving DecidableEq

namespace Tally

def ok (t : Tally) : Tally :=
  { t with matched := t.matched + 1 }

def cls (kind : Kind) (t : Tally) : Tally :=
  { t with classes := kind :: t.classes }

def fail (row : Text) (field : Field) (t : Tally) : Tally :=
  { t with real := (row, field) :: t.real }

def report (t : Tally) : Nat :=
  if t.real.isEmpty then 0 else 1

/- No real difference was counted. -/
def Clean (t : Tally) : Prop := t.real = []

@[simp] theorem clean_ok (t : Tally) :
    t.ok.Clean ↔ t.Clean := Iff.rfl

@[simp] theorem clean_cls (kind : Kind) (t : Tally) :
    (t.cls kind).Clean ↔ t.Clean := Iff.rfl

@[simp] theorem not_clean_fail
    (row : Text) (field : Field) (t : Tally) :
    ¬ (t.fail row field).Clean := by
  simp [Clean, fail]

theorem report_iff (t : Tally) : t.report = 0 ↔ t.Clean := by
  simp [report, Clean]

end Tally

abbrev Check := Tally → Except Crash Tally

end Oracle

------------------------------------------------------------
-- Pairing
------------------------------------------------------------

namespace Oracle

def fsglSuffix : Text := " [040-unimpl->vec11]".toList

/- A retired suffix does not distinguish two names. -/
def baseName (n : Text) : Text :=
  if fsglSuffix.isSuffixOf n then
    n.take (n.length - fsglSuffix.length)
  else n

/-
  The rows of both files, place by place, up to the end of
  the shorter or the first place where the names differ.
-/
def pairRows :
    List Row → List Row → Tally →
      Except Crash (List (Row × Row) × Tally)
  | o :: os, c :: cs, t =>
      if baseName (o.name.getD []) !=
          baseName (c.name.getD []) then
        .ok ([], t.fail (o.name.getD []) .order)
      else if o.name == c.name then do
        let (rest, t) ← pairRows os cs t
        return ((o, c) :: rest, t)
      else if o.name.isNone then .error .keyError
      else do
        let (rest, t) ← pairRows os cs (t.cls .label)
        return ((o, c) :: rest, t)
  | _, _, t => .ok ([], t)

end Oracle

------------------------------------------------------------
-- The Payload's Shift
------------------------------------------------------------

namespace Oracle

def payloadLo : Int := 0x40000

def payloadHi : Int := 0x80000

def inPayload (v : Int) : Bool :=
  decide (payloadLo ≤ v) && decide (v < payloadHi)

/- The fields a shift is derived from. -/
inductive Shifted where
  | pc
  | a
  | fpiar

/- The final state, or the trap state if it is empty. -/
def Row.anyState (r : Row) : State :=
  match r.final with
  | some s => if s == {} then r.trapState.getD {} else s
  | none => r.trapState.getD {}

/- The differences of address registers; a7 is the stack. -/
def listShifts (i : Nat) : List Int → List Int → List Int
  | x :: xs, y :: ys =>
      if i != 7 && x != y && inPayload x then
        (y - x) :: listShifts (i + 1) xs ys
      else listShifts (i + 1) xs ys
  | _, _ => []

def scalarShift (vo vc : Option Int) :
    Except Crash (List Int) :=
  match vo, vc with
  | none, _ => .ok []
  | some x, none =>
      if inPayload x then .error .typeError else .ok []
  | some x, some y =>
      .ok (if x != y && inPayload x then [y - x] else [])

def fieldShifts (so sc : State) :
    Shifted → Except Crash (List Int)
  | .pc => scalarShift so.pc sc.pc
  | .fpiar => scalarShift so.fpiar sc.fpiar
  | .a =>
      match so.a with
      | none => .ok []
      | some xs => .ok (listShifts 0 xs (sc.a.getD []))

def addShifts
    (fields : List Shifted)
    (counted : List Int)
    (p : Row × Row) :
    Except Crash (List Int) :=
  fields.foldlM
    (fun counted f => do
      let shifts ← fieldShifts p.1.anyState p.2.anyState f
      return counted ++ shifts)
    counted

/-
  A shift seen three times is trusted; more than eight of
  them cannot be normalized.
-/
def deriveDelta
    (pairs : List (Row × Row))
    (fields : List Shifted) :
    Except Crash (List Int) := do
  let counted ← pairs.foldlM (addShifts fields) []
  let deltas :=
    counted.eraseDups.filter (fun d => 3 ≤ counted.count d)
  if 8 < deltas.length then .error .sysExit else .ok deltas

end Oracle

------------------------------------------------------------
-- Values, Registers and Memory
------------------------------------------------------------

namespace Oracle

variable (deltas : List Int)

/- The value is a payload address moved by a trusted shift. -/
def moved (x y : Int) : Bool :=
  inPayload x && deltas.any (fun d => y == x + d)

def scalar
    (row : Text)
    (field : Field)
    (vo vc : Option Int)
    (t : Tally) : Tally :=
  if vo == vc then t.ok
  else
    match vo, vc with
    | some x, some y =>
        if moved deltas x y then t.cls .layout
        else t.fail row field
    | _, _ => t.fail row field

/- Registers place by place; a7 of `a` belongs to the stack. -/
def regs
    (row : Text)
    (field : Nat → Field)
    (stack : Bool)
    (i : Nat) :
    List Int → List Int → Tally → Tally
  | x :: xs, y :: ys, t =>
      regs row field stack (i + 1) xs ys
        (if stack && i == 7 && x != y then t.cls .stack
        else scalar deltas row (field i) (some x) (some y) t)
  | _, _, t => t

/- A big-endian word; a value outside a byte raises. -/
def word (bytes : List Int) : Except Crash Int :=
  if bytes.all (fun b => decide (0 ≤ b) && decide (b < 256))
  then .ok (bytes.foldl (fun acc b => 256 * acc + b) 0)
  else .error .valueError

/- Whole words, and whether one of them differs. -/
def ramWords :
    List Int → List Int → Tally → Except Crash (Bool × Tally)
  | x₀ :: x₁ :: x₂ :: x₃ :: xs,
    y₀ :: y₁ :: y₂ :: y₃ :: ys, t =>
      if [x₀, x₁, x₂, x₃] == [y₀, y₁, y₂, y₃] then
        ramWords xs ys t
      else do
        let io ← word [x₀, x₁, x₂, x₃]
        let ic ← word [y₀, y₁, y₂, y₃]
        if moved deltas io ic then
          ramWords xs ys (t.cls .layout)
        else do
          let (_, t) ← ramWords xs ys t
          return (true, t)
  | _, _, t => .ok (false, t)

def ramBytes (row : Text) (bo bc : List Int) : Check :=
  fun t =>
    if bo == bc then .ok t.ok
    else do
      let (bad, t) ← ramWords deltas bo bc t
      if bad || bo.length != bc.length then
        return t.fail row .ram
      else return t.ok

end Oracle

------------------------------------------------------------
-- Condition Codes
------------------------------------------------------------

namespace Oracle

inductive Policy where
  | arch
  | silicon
  deriving DecidableEq

/- The next character is no word character. -/
def atEnd (isWord : Char → Bool) (t : Text) : Bool :=
  !(t.head?.any isWord)

/- The pattern `\bW\b` for a word `W`. -/
def searchWord (isWord : Char → Bool) (w : Text) :
    Bool → Text → Bool
  | _, [] => false
  | inside, c :: rest =>
      (!inside && w.isPrefixOf (c :: rest) &&
          atEnd isWord ((c :: rest).drop w.length)) ||
        searchWord isWord w (isWord c) rest

/-
  The undefined condition codes: the instructions, the mask,
  and when it applies.
-/
def ccrUndef : List (List Text × Nat × (Int → Bool)) :=
  [(["ABCD".toList, "SBCD".toList, "NBCD".toList], 0x0A,
      fun _ => true),
    (["CHK2".toList, "CMP2".toList], 0x0A, fun _ => true),
    (["CHK".toList], 0x07, fun _ => true),
    (["DIVS".toList, "DIVU".toList], 0x0C,
      fun c => c / 2 % 2 == 1)]

/- `v & ~mask` for a mask within a byte. -/
def clear (mask : Nat) (v : Int) : Int :=
  v - ((v % 256).toNat &&& mask : Nat)

/- The mask of the first class that matches, if any. -/
def ccrMask
    (py : Python)
    (policy : Policy)
    (name : Text)
    (v : Int) : Option Nat :=
  if policy == .arch then
    (ccrUndef.find? (fun e =>
      e.1.any (fun w => searchWord py.isWord w false name) &&
        e.2.2 v)).map (·.2.1)
  else none

/- The codes differ where they are undefined, if at all. -/
def ccrAlike
    (py : Python)
    (policy : Policy)
    (name : Text)
    (x y : Int) : Bool :=
  (ccrMask py policy name x).any
    (fun mask => clear mask x == clear mask y)

def ccrCheck
    (py : Python)
    (policy : Policy)
    (name : Text)
    (vo : Int)
    (vc : Option Int) : Check :=
  fun t =>
    match vc with
    | none => .error .typeError
    | some y =>
        if vo == y then .ok t.ok
        else if ccrAlike py policy name vo y then
          .ok (t.cls .ccr)
        else .ok (t.fail name .ccr)

end Oracle
