/-
  The block addressing of `aux_ufs.py`: the list of a file's
  blocks, gathered from the inode and its three indirect
  blocks, and the file's bytes read along it.

  The image is a list of bytes; a read at its end is short,
  and what Python would raise is an error.

  Key definitions include:
    * `Ufs`, `Inode`
    * `Ufs.indirect`
    * `Ufs.blocklist`
    * `Ufs.readBlocks`
-/

------------------------------------------------------------
-- The Image
------------------------------------------------------------

namespace AuxUfs

abbrev Byte := BitVec 8

/- What Python raises. -/
inductive PyError
  | value
  | struct
  | zeroDivision
  deriving DecidableEq

/- The image, and what is used of its superblock. -/
structure Ufs where
  image : List Byte
  base : Int
  bsize : Int
  fsize : Int
  nindir : Int

structure Inode where
  size : Nat
  db : Fin 12 → Nat
  ib : Fin 3 → Nat

/- `seek` and `read`; a negative count reads everything. -/
def Ufs.readAt (fs : Ufs) (off n : Int) :
    Except PyError (List Byte) :=
  if off < 0 then .error .value
  else if n < 0 then .ok (fs.image.drop off.toNat)
  else .ok ((fs.image.drop off.toNat).take n.toNat)

def be32 (b : List Byte) (o : Nat) : Except PyError Nat :=
  if o + 4 ≤ b.length then
    .ok ((b.getD o 0#8).toNat * 0x1000000 +
      (b.getD (o + 1) 0#8).toNat * 0x10000 +
      (b.getD (o + 2) 0#8).toNat * 0x100 +
      (b.getD (o + 3) 0#8).toNat)
  else .error .struct

def Ufs.fragOff (fs : Ufs) (fragno : Nat) : Int :=
  fs.base + fragno * fs.fsize

/- A slice `xs[:n]`; a negative end counts from behind. -/
def sliceTo {α : Type} (xs : List α) (n : Int) : List α :=
  if 0 ≤ n then xs.take n.toNat
  else xs.take (xs.length - (-n).toNat)

end AuxUfs

------------------------------------------------------------
-- Block Lists
------------------------------------------------------------

namespace AuxUfs

namespace Ufs

variable (fs : Ufs) (want : Int)

/- The loop over a table, with what it does for a pointer. -/
def tableLoop
    (tbl : List Byte)
    (visit : Nat → List Nat → Except PyError (List Nat)) :
    List Nat → List Nat → Except PyError (List Nat)
  | [], out => .ok out
  | k :: ks, out =>
      if want ≤ out.length then .ok out
      else do
        let b ← be32 tbl (4 * k)
        let out ← visit b out
        tableLoop tbl visit ks out

/- An indirect block, unless it is absent or not wanted. -/
def walkTable
    (visit : Nat → List Nat → Except PyError (List Nat))
    (fragno : Nat)
    (out : List Nat) : Except PyError (List Nat) :=
  if want ≤ out.length ∨ fragno = 0 then .ok out
  else do
    let tbl ← fs.readAt (fs.fragOff fragno) fs.bsize
    tableLoop want tbl visit (List.range fs.nindir.toNat) out

/- `_indirect`; the level is one more than the first argument. -/
def indirect : Nat → Nat → List Nat →
    Except PyError (List Nat)
  | 0 => walkTable fs want fun b out => .ok (out ++ [b])
  | level + 1 =>
      walkTable fs want fun b out => indirect level b out

def nblk (i : Inode) : Except PyError Int :=
  if fs.bsize = 0 then .error .zeroDivision
  else .ok ((i.size + fs.bsize - 1).fdiv fs.bsize)

/- The loop over the three trees. -/
def treeLoop (i : Inode) :
    List (Fin 3) → List Nat → Except PyError (List Nat)
  | [], out => .ok out
  | lvl :: lvls, out =>
      if want ≤ out.length then .ok out
      else do
        let out ← fs.indirect want lvl (i.ib lvl) out
        treeLoop i lvls out

def blocklist (i : Inode) : Except PyError (List Nat) := do
  let n ← fs.nblk i
  let out := sliceTo (List.ofFn i.db) (min 12 n)
  let out ← fs.treeLoop n i [0, 1, 2] out
  .ok (sliceTo out n)

end Ufs

end AuxUfs

------------------------------------------------------------
-- File Contents
------------------------------------------------------------

namespace AuxUfs

namespace Ufs

variable (fs : Ufs)

/- The bytes of one block; block 0 is a hole. -/
def blockBytes (b : Nat) : Except PyError (List Byte) :=
  if b = 0 then .ok (List.replicate fs.bsize.toNat 0#8)
  else fs.readAt (fs.fragOff b) fs.bsize

/- The blocks of the list, one behind the other. -/
def gather : List Nat → Except PyError (List Byte)
  | [] => .ok []
  | b :: bs => do
      let block ← fs.blockBytes b
      let rest ← gather bs
      .ok (block ++ rest)

/- `read`, for a file that keeps its data in blocks. -/
def readBlocks (i : Inode) : Except PyError (List Byte) := do
  let blocks ← fs.blocklist i
  let data ← fs.gather blocks
  .ok (data.take i.size)

end Ufs

end AuxUfs
