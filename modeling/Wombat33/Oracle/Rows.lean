/-
  The result files of `score_vs_oracle.py`.

  A bench writes one JSON object a line.  A row's fields may
  be missing and its lists of any length; those present have
  the types the bench writes.  The JSON decoder and the
  regular expressions' notion of a word character belong to
  the language's library and are parameters.

  Key definitions include:
    * `State`, `Window`, `Row`
    * `Python`, `Crash`
    * `rowLines`, `load`
-/

------------------------------------------------------------
-- Rows
------------------------------------------------------------

namespace Oracle

abbrev Text := List Char

/-
  The machine state of a row.  `other` says that the object
  has a key the script does not read.
-/
structure State where
  ccr : Option Int := none
  pc : Option Int := none
  d : Option (List Int) := none
  a : Option (List Int) := none
  ram : Option (List Int) := none
  fp : Option (List (List Int)) := none
  fpcr : Option Int := none
  fpsr : Option Int := none
  fpiar : Option Int := none
  mmu : Option (List (Text × Int)) := none
  other : Bool := false
  deriving DecidableEq

structure Window where
  base : Option Int
  bytes : Option (List Int)
  deriving DecidableEq

structure Row where
  name : Option Text := none
  vec : Option Int := none
  final : Option State := none
  trapState : Option State := none
  actual : Option Int := none
  expected : Option Int := none
  pass : Option Int := none
  skipped : Option Bool := none
  windows : Option (List Window) := none
  reloc : Option (List (Text × Int)) := none
  deriving DecidableEq

/- Why the script stops without a verdict; it exits with 1. -/
inductive Crash where
  | keyError
  | typeError
  | valueError
  | recursionError
  | sysExit
  deriving DecidableEq

/-
  What the script uses of the language's library: decoding one
  line (`none` is a `JSONDecodeError`), and `\w`.
-/
structure Python where
  loads : Text → Except Crash (Option Row)
  isWord : Char → Bool

end Oracle

------------------------------------------------------------
-- Lines
------------------------------------------------------------

namespace Oracle

/- The line boundaries of `splitlines` within Latin-1. -/
def isBreak (c : Char) : Bool :=
  [10, 11, 12, 13, 28, 29, 30, 133].contains c.toNat

/- The white space of `strip` within Latin-1. -/
def isSpace (c : Char) : Bool :=
  [9, 10, 11, 12, 13, 28, 29, 30, 31, 32, 133, 160].contains
    c.toNat

/-
  The lines of a text; a line feed right after a carriage
  return belongs to the same boundary.
-/
def splitLines (line : Text) (cr : Bool) : Text → List Text
  | [] => if line.isEmpty then [] else [line.reverse]
  | c :: rest =>
      if cr && c.toNat == 10 then splitLines [] false rest
      else if isBreak c then
        line.reverse :: splitLines [] (c.toNat == 13) rest
      else splitLines (c :: line) false rest

def strip (t : Text) : Text :=
  ((t.dropWhile isSpace).reverse.dropWhile isSpace).reverse

/- Latin-1, with the zero bytes dropped. -/
def decode (raw : List UInt8) : Text :=
  (raw.filter (· != 0)).map (fun b => Char.ofNat b.toNat)

/- The lines that should hold a row: they open with a brace. -/
def rowLines (raw : List UInt8) : List Text :=
  ((splitLines [] false (decode raw)).map strip).filter
    (fun line => line.head? == some (Char.ofNat 123))

/- Every line is decoded; a malformed one is dropped. -/
def parseLines (py : Python) :
    List Text → Except Crash (List Row)
  | [] => .ok []
  | line :: rest => do
      let row ← py.loads line
      let rows ← parseLines py rest
      return row.toList ++ rows

def load (py : Python) (raw : List UInt8) :
    Except Crash (List Row) :=
  parseLines py (rowLines raw)

end Oracle
