import Mathlib.Data.Nat.Digits.Defs
import Wombat33.Clocked.Run

/-
  The result writer of the preboot benches.

  Characters are collected in a batch buffer; a full batch is
  written and left behind, a commit writes the batch filled
  so far in place.  The driver is given requests of at most
  16 KB and answers each with a result code; what it answers
  may depend on everything it was given before.

  Key definitions include:
    * `JwCtx`, `JsonlWriter`, `Request`
    * `driverWriteSector`, `writeCurrentBatch`
    * `jwPutc`, `jwPuts`, `jwPutul`
    * `jwCommitLine`, `jwFlush`
    * `Call`, `session`
-/

------------------------------------------------------------
-- Writer and Driver
------------------------------------------------------------

namespace Preboot

abbrev Byte := BitVec 8

structure JwCtx where
  refnum : BitVec 16
  drive : BitVec 16
  baseOffset : BitVec 32
  maxBytes : BitVec 32
  deriving DecidableEq

structure JsonlWriter where
  ctx : JwCtx
  sector : Nat → Byte
  used : BitVec 32
  written : BitVec 32
  lastErr : BitVec 16

/- The parameter block of a write, with the bytes it names. -/
structure Request where
  refnum : BitVec 16
  vRefnum : BitVec 16
  posOffset : BitVec 32
  buffer : List Byte
  deriving DecidableEq

/- A request and the driver's result; zero is no error. -/
structure Served where
  request : Request
  ioResult : BitVec 16
  deriving DecidableEq

/- What the driver answers, after what it has served. -/
abbrev Driver := List Served → Request → BitVec 16

/- The writer, and what the driver has served so far. -/
structure Session where
  w : JsonlWriter
  log : List Served

end Preboot

------------------------------------------------------------
-- Batches
------------------------------------------------------------

namespace Preboot

variable (batch : Nat) (driver : Driver)

/- The batch size as the code's 32-bit operand. -/
def jwBatchBytes : BitVec 32 := BitVec.ofNat 32 batch

/- `len` bytes of the buffer from `off` on. -/
def bytesAt (sector : Nat → Byte) (off len : Nat) : List Byte :=
  (List.range len).map fun k => sector (off + k)

def driverWriteChunk
    (s : Session)
    (byteOff : BitVec 32)
    (buf : List Byte) : Session × BitVec 16 :=
  let request : Request := {
    refnum := s.w.ctx.refnum
    vRefnum := s.w.ctx.drive
    posOffset := byteOff
    buffer := buf }
  let r := driver s.log request
  ({ s with log := s.log ++ [⟨request, r⟩] }, r)

/- The slicing loop of `driver_write_sector`. -/
def driverWriteLoop
    (s : Session)
    (base : BitVec 32)
    (off : Nat) : Session × BitVec 16 :=
  if off < batch then
    let len := min (batch - off) 16384
    let p := driverWriteChunk driver s
      (base + BitVec.ofNat 32 off) (bytesAt s.w.sector off len)
    if p.2 ≠ 0#16 then p
    else driverWriteLoop p.1 base (off + len)
  else (s, 0#16)
  termination_by batch - off

def driverWriteSector (s : Session) (sectorIdx : BitVec 32) :
    Session × BitVec 16 :=
  driverWriteLoop batch driver s
    (s.w.ctx.baseOffset + sectorIdx * jwBatchBytes batch) 0

/- The unused tail of the batch is cleared first. -/
def padBatch (w : JsonlWriter) : JsonlWriter :=
  if w.used < jwBatchBytes batch then
    { w with sector := fun k =>
        if w.used.toNat ≤ k ∧ k < batch then 0#8
        else w.sector k }
  else w

/- The first error stays. -/
def noteError (w : JsonlWriter) (r : BitVec 16) :
    JsonlWriter :=
  if r ≠ 0#16 ∧ w.lastErr = 0#16 then { w with lastErr := r }
  else w

def writeCurrentBatch (s : Session) : Session :=
  let w := padBatch batch s.w
  let batchIdx := w.written / jwBatchBytes batch
  let p := driverWriteSector batch driver { s with w := w }
    batchIdx
  { p.1 with w := noteError p.1.w p.2 }

def flushSector (s : Session) : Session :=
  let s' := writeCurrentBatch batch driver s
  { s' with w := { s'.w with
      written := s'.w.written + jwBatchBytes batch
      used := 0#32 } }

end Preboot

------------------------------------------------------------
-- The Writer's Calls
------------------------------------------------------------

namespace Preboot

variable (batch : Nat) (driver : Driver)

def jwInit (ctx : JwCtx) : Session where
  w := {
    ctx := ctx
    sector := fun _ => 0#8
    used := 0#32
    written := 0#32
    lastErr := 0#16 }
  log := []

def jwPutc (s : Session) (c : Byte) : Session :=
  if s.w.ctx.maxBytes ≤ s.w.written + s.w.used then s
  else
    let s' : Session := { s with w := { s.w with
      sector := fun k =>
        if k = s.w.used.toNat then c else s.w.sector k
      used := s.w.used + 1#32 } }
    if s'.w.used = jwBatchBytes batch then
      flushSector batch driver s'
    else s'

/- A string ends at its first zero. -/
def jwPuts (s : Session) : List Byte → Session
  | [] => s
  | c :: cs =>
      if c = 0#8 then s
      else jwPuts (jwPutc batch driver s c) cs

/- The digits of a positive number, lowest first. -/
def lowDigits (v : Nat) : List Byte :=
  if v = 0 then []
  else BitVec.ofNat 8 (0x30 + v % 10) :: lowDigits (v / 10)

def fPutul (v : BitVec 32) : List Byte :=
  if v = 0#32 then [0x30#8] else (lowDigits v.toNat).reverse

def jwPutul (s : Session) (v : BitVec 32) : Session :=
  (fPutul v).foldl (jwPutc batch driver) s

def jwCommitLine (s : Session) : Session :=
  if s.w.used = 0#32 then s
  else writeCurrentBatch batch driver s

def jwFlush (s : Session) : Session :=
  if 0#32 < s.w.used then flushSector batch driver s
  else s

inductive Call
  | putc (c : Byte)
  | puts (s : List Byte)
  | putul (v : BitVec 32)
  | commitLine
  | flush

def call (s : Session) : Call → Session
  | .putc c => jwPutc batch driver s c
  | .puts cs => jwPuts batch driver s cs
  | .putul v => jwPutul batch driver s v
  | .commitLine => jwCommitLine batch driver s
  | .flush => jwFlush batch driver s

/- The session after a list of calls. -/
def session (ctx : JwCtx) (calls : List Call) : Session :=
  Clocked.run (call batch driver) (jwInit ctx) calls

/- What a call hands to the writer. -/
def Call.chars : Call → List Byte
  | .putc c => [c]
  | .puts cs => cs.takeWhile (· ≠ 0#8)
  | .putul v =>
      (if v = 0#32 then [0] else
        (Nat.digits 10 v.toNat).reverse).map
          fun d => BitVec.ofNat 8 (0x30 + d)
  | .commitLine => []
  | .flush => []

/- A commit or a flush has just been done. -/
def Call.syncs : Call → Bool
  | .commitLine => true
  | .flush => true
  | _ => false

end Preboot
