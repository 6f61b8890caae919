import Mathlib.Algebra.Group.Nat.Defs
import Wombat33.AuxUfs.Gaps
import Wombat33.AuxUfs.Ufs

/-
  The block list of a file whose indirect blocks may be
  absent.

  The three trees of an inode are given as they are stored in
  the image.  By the addressing rules of the filesystem an
  absent block is a hole of its whole span; the script leaves
  it out, and so shifts every block behind it.

  Key definitions include:
    * `Tree`, `Tree.entry`, `Tree.marks`
    * `Ufs.Stored`, `Layout`
    * `Layout.ffsBlock`
    * `Layout.ListRight`, `Layout.ContentsRight`

  Key theorems include:
    * `indirect_eq`
    * `blocklist_eq`
    * `blocklist_iff`
-/

------------------------------------------------------------
-- Trees of Indirect Blocks
------------------------------------------------------------

namespace AuxUfs

/-
  A pointer of a level, with what it leads to: the number of
  a data block, or an indirect block of pointers one level
  below.
-/
inductive Tree : Nat → Type
  | block (b : Nat) : Tree 0
  | absent {d : Nat} : Tree (d + 1)
  | table {d : Nat} (sub : Nat → Tree d) : Tree (d + 1)

namespace Tree

variable (nindir : Nat)

/- The addressing rule: an absent block is all holes. -/
def entry : {d : Nat} → Tree d → Nat → Nat
  | _, block b, _ => b
  | _, absent, _ => 0
  | d + 1, table sub, n =>
      (sub (n / nindir ^ d)).entry (n % nindir ^ d)

/- The blocks in order, those under absent blocks unmarked. -/
def marks : {d : Nat} → Tree d → List (Option Nat)
  | _, block b => [some b]
  | d + 1, absent => List.replicate (nindir ^ (d + 1)) none
  | _, table sub =>
      (List.range nindir).flatMap fun k => (sub k).marks

theorem length_marks {d : Nat} (t : Tree d) :
    (t.marks nindir).length = nindir ^ d := by
  induction t with
  | block b => rfl
  | absent => simp [marks]
  | @table d sub ih =>
      simp [marks, List.length_flatMap, ih, Nat.pow_succ,
        Nat.mul_comm]

theorem fill_marks
    {d : Nat}
    (t : Tree d)
    (n : Nat)
    (hn : n < nindir ^ d) :
    (Gaps.fill 0 (t.marks nindir))[n]? =
      some (t.entry nindir n) := by
  induction t generalizing n with
  | block b =>
      have hZero : n = 0 := by simpa using hn
      simp [hZero, marks, Gaps.fill, entry]
  | absent =>
      have hIn : n < nindir ^ (_ + 1) := hn
      simp [marks, Gaps.fill, entry, hIn]
  | @table d sub ih =>
      rw [Nat.pow_succ, Nat.mul_comm] at hn
      have hPos : 0 < nindir ^ d := by
        rcases Nat.eq_zero_or_pos (nindir ^ d) with hZero | hPos
        · simp [hZero] at hn
        · exact hPos
      have hFill : Gaps.fill 0 ((table sub).marks nindir) =
          (List.range nindir).flatMap fun k =>
            Gaps.fill 0 ((sub k).marks nindir) := by
        simp [Gaps.fill, marks, List.map_flatMap]
      rw [hFill, Gaps.getElem?_flatMap
        (fun k => by rw [Gaps.length_fill, length_marks])
        nindir n hn]
      exact ih _ _ (Nat.mod_lt _ hPos)

/- The block numbers found in the tree, in order. -/
def leaves {d : Nat} (t : Tree d) : List Nat :=
  (t.marks nindir).reduceOption

theorem leaves_absent {d : Nat} :
    (absent : Tree (d + 1)).leaves nindir = [] := by
  simp [leaves, marks]

end Tree

/- The image holds the tree at a pointer. -/
def Ufs.Stored (fs : Ufs) : {d : Nat} → Tree d → Nat → Prop
  | _, .block b, p => p = b
  | _, .absent, p => p = 0
  | _, .table sub, p => p ≠ 0 ∧
      ∃ tbl, fs.readAt (fs.fragOff p) fs.bsize = .ok tbl ∧
        ∀ k < fs.nindir.toNat, ∃ q,
          be32 tbl (4 * k) = .ok q ∧ fs.Stored (sub k) q

end AuxUfs

------------------------------------------------------------
-- What the Script Gathers
------------------------------------------------------------

namespace AuxUfs

variable {fs : Ufs} {i : Inode}

/- As many of `more` as are still wanted. -/
theorem take_step (want : Nat) (out more rest : List Nat) :
    out ++ more.take (want - out.length) ++
        rest.take (want -
          (out ++ more.take (want - out.length)).length) =
      out ++ (more ++ rest).take (want - out.length) := by
  rw [List.append_assoc, List.take_append]
  congr 3
  rw [List.length_append, List.length_take]
  omega

theorem tableLoop_eq
    {want : Nat}
    {tbl : List Byte}
    {visit : Nat → List Nat → Except PyError (List Nat)}
    {found : Nat → List Nat}
    (ks : List Nat)
    (hVisit : ∀ k ∈ ks, ∃ q, be32 tbl (4 * k) = .ok q ∧
      ∀ out : List Nat, out.length < want → visit q out =
        .ok (out ++ (found k).take (want - out.length)))
    (out : List Nat) :
    Ufs.tableLoop want tbl visit ks out =
      .ok (out ++ (ks.flatMap found).take
        (want - out.length)) := by
  induction ks generalizing out with
  | nil => simp [Ufs.tableLoop]
  | cons k ks ih =>
      unfold Ufs.tableLoop
      split
      next hFull =>
        have hNone : want - out.length = 0 := by omega
        simp [hNone]
      next hMore =>
        have hLess : out.length < want := by omega
        rcases hVisit k List.mem_cons_self with
          ⟨q, hPointer, hFound⟩
        have hRest := ih
          (fun j hj => hVisit j (List.mem_cons_of_mem k hj))
          (out ++ (found k).take (want - out.length))
        rw [hPointer]
        show (do
          let out ← visit q out
          Ufs.tableLoop want tbl visit ks out) = _
        rw [hFound out hLess]
        show Ufs.tableLoop want tbl visit ks _ = _
        rw [hRest, take_step]
        rfl

theorem walkTable_eq
    {want d : Nat}
    {t : Tree (d + 1)}
    {visit : Nat → List Nat → Except PyError (List Nat)}
    (hVisit : ∀ (s : Tree d) (q : Nat), fs.Stored s q →
      ∀ out : List Nat, out.length < want → visit q out =
        .ok (out ++ (s.leaves fs.nindir.toNat).take
          (want - out.length)))
    {p : Nat}
    (hStored : fs.Stored t p)
    (out : List Nat) :
    fs.walkTable want visit p out =
      .ok (out ++ (t.leaves fs.nindir.toNat).take
        (want - out.length)) := by
  unfold Ufs.walkTable
  cases t with
  | absent =>
      have hZero : p = 0 := hStored
      simp [hZero, Tree.leaves_absent]
  | table sub =>
      rcases hStored with ⟨hPresent, tbl, hRead, hTable⟩
      split
      next hFull =>
        have hNone : want - out.length = 0 := by
          rcases hFull with hFull | hZero
          · omega
          · exact absurd hZero hPresent
        simp [hNone]
      next hMore =>
        have hLeaves : (Tree.table sub).leaves fs.nindir.toNat =
            (List.range fs.nindir.toNat).flatMap fun k =>
              (sub k).leaves fs.nindir.toNat := by
          simp only [Tree.leaves, Tree.marks,
            List.reduceOption, List.filterMap_flatMap]
        rw [hRead, hLeaves]
        show Ufs.tableLoop want tbl visit _ out = _
        apply tableLoop_eq
        intro k hk
        rcases hTable k (List.mem_range.mp hk) with
          ⟨q, hPointer, hSub⟩
        exact ⟨q, hPointer, hVisit (sub k) q hSub⟩

/- The script finds the blocks that are there, in order. -/
theorem indirect_eq
    (want : Nat)
    {d : Nat}
    (t : Tree (d + 1))
    {p : Nat}
    (hStored : fs.Stored t p)
    (out : List Nat) :
    fs.indirect want d p out =
      .ok (out ++ (t.leaves fs.nindir.toNat).take
        (want - out.length)) := by
  induction d generalizing p out with
  | zero =>
      apply walkTable_eq (d := 0) ?_ hStored out
      intro s q hBlock out' hLess
      cases s with
      | block b =>
          have hSame : q = b := hBlock
          have hOne : want - out'.length =
              (want - out'.length - 1) + 1 := by omega
          rw [hOne]
          simp [hSame, Tree.leaves, Tree.marks]
  | succ d ih =>
      apply walkTable_eq ?_ hStored out
      intro s q hSub out' _
      exact ih s hSub out'

end AuxUfs

------------------------------------------------------------
-- Files
------------------------------------------------------------

namespace AuxUfs

/- An inode with the trees the image holds for it. -/
structure Layout (fs : Ufs) (i : Inode) where
  single : Tree 1
  double : Tree 2
  triple : Tree 3
  positive : 0 < fs.bsize
  single_stored : fs.Stored single (i.ib 0)
  double_stored : fs.Stored double (i.ib 1)
  triple_stored : fs.Stored triple (i.ib 2)

namespace Layout

variable {fs : Ufs} {i : Inode} (L : Layout fs i)

/- The blocks that cover the file. -/
def nblk (_ : Layout fs i) : Nat :=
  (i.size + fs.bsize.toNat - 1) / fs.bsize.toNat

/-
  The addressing rules: twelve direct blocks, then the three
  trees, each over the span of its level.
-/
def ffsBlock (n : Nat) : Option Nat :=
  let nindir := fs.nindir.toNat
  if h : n < 12 then some (i.db ⟨n, h⟩)
  else if n - 12 < nindir ^ 1 then
    some (L.single.entry nindir (n - 12))
  else if n - 12 - nindir ^ 1 < nindir ^ 2 then
    some (L.double.entry nindir (n - 12 - nindir ^ 1))
  else if n - 12 - nindir ^ 1 - nindir ^ 2 < nindir ^ 3 then
    some (L.triple.entry nindir
      (n - 12 - nindir ^ 1 - nindir ^ 2))
  else none

/- All blocks in reach, those under absent blocks unmarked. -/
def marks : List (Option Nat) :=
  (List.ofFn i.db).map some ++
    (L.single.marks fs.nindir.toNat ++
      (L.double.marks fs.nindir.toNat ++
        L.triple.marks fs.nindir.toNat))

/- The block numbers the image stores for the file. -/
def stored : List Nat := L.marks.reduceOption

/- The first block under an absent one, or out of reach. -/
def gap : Nat := Gaps.lead L.marks

theorem ffsBlock_eq (n : Nat) :
    L.ffsBlock n = (Gaps.fill 0 L.marks)[n]? := by
  have hSingle := Tree.fill_marks fs.nindir.toNat L.single
  have hDouble := Tree.fill_marks fs.nindir.toNat L.double
  have hTriple := Tree.fill_marks fs.nindir.toNat L.triple
  have hDirect : Gaps.fill 0 ((List.ofFn i.db).map some) =
      List.ofFn i.db := by
    simp [Gaps.fill]
  unfold ffsBlock marks
  simp only [Gaps.fill_append, hDirect]
  split
  next hn =>
    rw [List.getElem?_append_left (by simpa using hn),
      List.getElem?_ofFn, dif_pos hn]
  next hn =>
    rw [List.getElem?_append_right (by simp; omega),
      List.length_ofFn]
    split
    next hOne =>
      rw [List.getElem?_append_left
        (by rw [Gaps.length_fill, Tree.length_marks]
            exact hOne)]
      exact (hSingle _ hOne).symm
    next hOne =>
      rw [List.getElem?_append_right
        (by rw [Gaps.length_fill, Tree.length_marks]; omega),
        Gaps.length_fill, Tree.length_marks]
      split
      next hTwo =>
        rw [List.getElem?_append_left
          (by rw [Gaps.length_fill, Tree.length_marks]
              exact hTwo)]
        exact (hDouble _ hTwo).symm
      next hTwo =>
        rw [List.getElem?_append_right
          (by rw [Gaps.length_fill, Tree.length_marks]; omega),
          Gaps.length_fill, Tree.length_marks]
        split
        next hThree => exact (hTriple _ hThree).symm
        next hThree =>
          symm
          apply List.getElem?_eq_none
          rw [Gaps.length_fill, Tree.length_marks]
          omega

theorem nblk_eq : fs.nblk i = .ok (L.nblk : Int) := by
  have hPos := L.positive
  have hZero : fs.bsize ≠ 0 := by omega
  unfold Ufs.nblk nblk
  rw [if_neg hZero]
  congr 1
  rw [Int.fdiv_eq_ediv_of_nonneg _ (by omega)]
  have hSize : fs.bsize = (fs.bsize.toNat : Int) := by omega
  have hSum : (i.size : Int) + fs.bsize - 1 =
      ((i.size + fs.bsize.toNat - 1 : Nat) : Int) := by omega
  rw [hSum]
  conv_lhs => rw [hSize]
  exact (Int.natCast_ediv _ _).symm

theorem stored_eq :
    L.stored = List.ofFn i.db ++
      (L.single.leaves fs.nindir.toNat ++
        (L.double.leaves fs.nindir.toNat ++
          L.triple.leaves fs.nindir.toNat)) := by
  have hDirect : ((List.ofFn i.db).map some).reduceOption =
      List.ofFn i.db := by
    simp only [List.reduceOption, List.filterMap_map,
      Function.comp_def, id_eq, List.filterMap_some]
  rw [stored, marks, List.reduceOption_append,
    List.reduceOption_append, List.reduceOption_append, hDirect]
  rfl

/- One tree more. -/
theorem treeLoop_cons
    {want : Nat}
    (lvl : Fin 3)
    (t : Tree (lvl + 1))
    (hStored : fs.Stored t (i.ib lvl))
    {lvls : List (Fin 3)}
    {found : List Nat}
    (hRest : ∀ out : List Nat, fs.treeLoop want i lvls out =
      .ok (out ++ found.take (want - out.length)))
    (out : List Nat) :
    fs.treeLoop want i (lvl :: lvls) out =
      .ok (out ++ (t.leaves fs.nindir.toNat ++ found).take
        (want - out.length)) := by
  unfold Ufs.treeLoop
  split
  next hFull =>
    have hNone : want - out.length = 0 := by omega
    simp [hNone]
  next hMore =>
    rw [indirect_eq want t hStored out]
    show fs.treeLoop want i lvls _ = _
    rw [hRest, take_step]

/- What the script returns. -/
theorem blocklist_eq :
    fs.blocklist i = .ok (L.stored.take L.nblk) := by
  have hNone : ∀ out : List Nat,
      fs.treeLoop L.nblk i [] out =
        .ok (out ++ ([] : List Nat).take
          (L.nblk - out.length)) := by
    intro out
    simp [Ufs.treeLoop]
  have hTrees := treeLoop_cons 0 L.single L.single_stored
    (treeLoop_cons 1 L.double L.double_stored
      (treeLoop_cons 2 L.triple L.triple_stored hNone))
  have hMin : min 12 (L.nblk : Int) =
      ((min 12 L.nblk : Nat) : Int) := by omega
  have hDirect : sliceTo (List.ofFn i.db)
      (min 12 (L.nblk : Int)) =
        (List.ofFn i.db).take L.nblk := by
    rw [hMin, sliceTo, if_pos (by omega), Int.toNat_natCast,
      List.take_eq_take_iff, List.length_ofFn]
    omega
  have hLength : ((List.ofFn i.db).take L.nblk).length =
      min L.nblk 12 := by
    rw [List.length_take, List.length_ofFn]
  have hAll : L.stored.take L.nblk =
      (List.ofFn i.db).take L.nblk ++
        (L.single.leaves fs.nindir.toNat ++
          (L.double.leaves fs.nindir.toNat ++
            (L.triple.leaves fs.nindir.toNat ++ []))).take
          (L.nblk - ((List.ofFn i.db).take
            L.nblk).length) := by
    rw [L.stored_eq, List.take_append, List.append_nil, hLength,
      List.length_ofFn]
    congr 2
    omega
  have hTrim : sliceTo (L.stored.take L.nblk) (L.nblk : Int) =
      L.stored.take L.nblk := by
    rw [sliceTo, if_pos (by omega), Int.toNat_natCast,
      List.take_take, Nat.min_self]
  unfold Ufs.blocklist
  rw [L.nblk_eq]
  show (do
    let out ← fs.treeLoop L.nblk i [0, 1, 2]
      (sliceTo (List.ofFn i.db) (min 12 (L.nblk : Int)))
    Except.ok (sliceTo out L.nblk)) = _
  rw [hDirect, hTrees, ← hAll]
  show Except.ok (sliceTo (L.stored.take L.nblk) L.nblk) = _
  rw [hTrim]

end Layout

end AuxUfs

------------------------------------------------------------
-- When the List Is Right
------------------------------------------------------------

namespace AuxUfs

namespace Layout

variable {fs : Ufs} {i : Inode} (L : Layout fs i)

/- Entry `n` of the list is logical block `n`. -/
def ListRight : Prop :=
  ∃ l, fs.blocklist i = .ok l ∧ l.length = L.nblk ∧
    ∀ n < L.nblk, ∃ b, L.ffsBlock n = some b ∧ l[n]? = some b

/- The image holds the blocks; the last one may be cut. -/
def Complete : Prop :=
  ∀ n < L.nblk, ∀ b, L.ffsBlock n = some b →
    ∃ bytes, fs.blockBytes b = .ok bytes ∧
      (bytes.length = fs.bsize.toNat ∨ (n + 1 = L.nblk ∧
        i.size ≤ n * fs.bsize.toNat + bytes.length))

/- The contents have every block at its own offset. -/
def ContentsRight : Prop :=
  L.Complete → ∃ data, fs.readBlocks i = .ok data ∧
    data.length = i.size ∧
    ∀ n < L.nblk, ∀ b bytes, L.ffsBlock n = some b →
      fs.blockBytes b = .ok bytes →
      ∀ j < bytes.length, n * fs.bsize.toNat + j < i.size →
        data[n * fs.bsize.toNat + j]? = bytes[j]?

/-
  From the first block under an absent one on, the file is
  all holes, and so are the numbers stored in those places.
-/
def SparseOk : Prop :=
  ∀ n, L.gap ≤ n → n < L.nblk →
    L.ffsBlock n = some 0 ∧ L.stored[n]? = some 0

theorem listRight_iff :
    L.ListRight ↔ L.nblk ≤ L.marks.length ∧
      L.stored.take L.nblk =
        (Gaps.fill 0 L.marks).take L.nblk := by
  unfold ListRight
  rw [L.blocklist_eq]
  constructor
  · rintro ⟨l, hList, hLength, hBlocks⟩
    rw [Except.ok.injEq] at hList
    have hReach : L.nblk ≤ L.marks.length := by
      by_contra hShort
      rcases hBlocks (L.nblk - 1) (by omega) with ⟨b, hFfs, -⟩
      rw [L.ffsBlock_eq] at hFfs
      rcases List.getElem?_eq_some_iff.mp hFfs with ⟨hIn, -⟩
      rw [Gaps.length_fill] at hIn
      omega
    refine ⟨hReach, ?_⟩
    rw [hList]
    apply List.ext_getElem?
    intro n
    rw [List.getElem?_take]
    split
    next hn =>
      rcases hBlocks n hn with ⟨b, hFfs, hEntry⟩
      rw [hEntry, ← hFfs, L.ffsBlock_eq]
    next hn => exact List.getElem?_eq_none (by omega)
  · rintro ⟨hReach, hEq⟩
    refine ⟨_, rfl, ?_, ?_⟩
    · rw [hEq, List.length_take, Gaps.length_fill]
      omega
    · intro n hn
      have hIn : n < (Gaps.fill 0 L.marks).length := by
        rw [Gaps.length_fill]
        omega
      rw [hEq, L.ffsBlock_eq, List.getElem?_take, if_pos hn,
        List.getElem?_eq_getElem hIn]
      exact ⟨_, rfl, rfl⟩

/- The bytes of a block that can be read. -/
def bytesOf (fs : Ufs) (b : Nat) : List Byte :=
  (fs.blockBytes b).toOption.getD []

theorem bytesOf_eq
    {b : Nat}
    {bytes : List Byte}
    (hRead : fs.blockBytes b = .ok bytes) :
    bytesOf fs b = bytes := by
  rw [bytesOf, hRead]
  rfl

theorem gather_eq
    (l : List Nat)
    (hRead : ∀ b ∈ l, ∃ bytes, fs.blockBytes b = .ok bytes) :
    fs.gather l = .ok ((l.map (bytesOf fs)).flatten) := by
  induction l with
  | nil => rfl
  | cons b l ih =>
      rcases hRead b List.mem_cons_self with ⟨bytes, hBytes⟩
      have hRest := ih
        (fun c hc => hRead c (List.mem_cons_of_mem b hc))
      unfold Ufs.gather
      rw [hBytes, hRest, List.map_cons, List.flatten_cons,
        bytesOf_eq hBytes]
      rfl

/- The last byte of the file is in its last block. -/
theorem last_block
    (hSome : 0 < i.size) :
    L.nblk = (i.size - 1) / fs.bsize.toNat + 1 := by
  have hPos := L.positive
  have hSum : i.size + fs.bsize.toNat - 1 =
      i.size - 1 + fs.bsize.toNat := by omega
  rw [nblk, hSum, Nat.add_div_right _ (by omega)]

/- The bytes of the file, block by block. -/
theorem flatten_entry
    {l : List Nat}
    (hComplete : L.Complete)
    (hLength : l.length = L.nblk)
    (hBlocks : ∀ n (hn : n < l.length),
      L.ffsBlock n = some l[n])
    {n j : Nat}
    (hn : n < l.length)
    (hj : j < (bytesOf fs l[n]).length) :
    ((l.map (bytesOf fs)).flatten)[n * fs.bsize.toNat + j]? =
      (bytesOf fs l[n])[j]? := by
  apply Gaps.getElem?_flatten
  · rw [List.getElem?_map, List.getElem?_eq_getElem hn]
    rfl
  · intro c hMem
    rcases List.mem_iff_getElem?.mp hMem with ⟨m, hm⟩
    rw [List.getElem?_take] at hm
    split at hm
    next hLess =>
      have hIn : m < l.length := by omega
      rw [List.getElem?_map, List.getElem?_eq_getElem hIn] at hm
      have hSame : bytesOf fs l[m] = c := Option.some.inj hm
      rcases hComplete m (by omega) _ (hBlocks m hIn) with
        ⟨bytes, hBytes, hWhole | ⟨hLast, -⟩⟩
      · rw [← hSame, bytesOf_eq hBytes]
        exact hWhole
      · omega
    next => simp at hm
  · exact hj

/- From a right list the contents follow. -/
theorem contentsRight_of_listRight
    (hRight : L.ListRight) :
    L.ContentsRight := by
  intro hComplete
  rcases hRight with ⟨l, hList, hLength, hRest⟩
  have hBlocks : ∀ n (hn : n < l.length),
      L.ffsBlock n = some l[n] := by
    intro n hn
    rcases hRest n (by omega) with ⟨b, hFfs, hb⟩
    rw [List.getElem?_eq_getElem hn] at hb
    rw [hFfs, ← hb]
  have hRead : ∀ n (hn : n < l.length), ∃ bytes,
      fs.blockBytes l[n] = .ok bytes ∧
      (bytes.length = fs.bsize.toNat ∨ (n + 1 = L.nblk ∧
        i.size ≤ n * fs.bsize.toNat + bytes.length)) :=
    fun n hn => hComplete n (by omega) _ (hBlocks n hn)
  have hReads : ∀ b ∈ l, ∃ bytes,
      fs.blockBytes b = .ok bytes := by
    intro b hMem
    rcases List.getElem_of_mem hMem with ⟨n, hn, rfl⟩
    rcases hRead n hn with ⟨bytes, hBytes, -⟩
    exact ⟨bytes, hBytes⟩
  have hGather := gather_eq l hReads
  have hSize : i.size ≤ (l.map (bytesOf fs)).flatten.length := by
    by_cases hNone : i.size = 0
    · omega
    · have hLast := L.last_block (by omega)
      have hn : (i.size - 1) / fs.bsize.toNat < l.length := by
        omega
      have hPlace := Nat.div_add_mod (i.size - 1) fs.bsize.toNat
      have hPos := L.positive
      have hMod := Nat.mod_lt (i.size - 1)
        (by omega : 0 < fs.bsize.toNat)
      rw [Nat.mul_comm] at hPlace
      rcases hRead _ hn with ⟨bytes, hBytes, hWhole⟩
      have hIn : (i.size - 1) % fs.bsize.toNat <
          (bytesOf fs
            (l[(i.size - 1) / fs.bsize.toNat])).length := by
        rw [bytesOf_eq hBytes]
        rcases hWhole with hWhole | ⟨-, hCut⟩ <;> omega
      have hEntry := L.flatten_entry hComplete hLength hBlocks
        hn hIn
      rw [List.getElem?_eq_getElem hIn] at hEntry
      rcases List.getElem?_eq_some_iff.mp hEntry with
        ⟨hBelow, -⟩
      omega
  refine ⟨(l.map (bytesOf fs)).flatten.take i.size, ?_, ?_, ?_⟩
  · unfold Ufs.readBlocks
    rw [hList]
    show (do
      let data ← fs.gather l
      Except.ok (data.take i.size)) = _
    rw [hGather]
    rfl
  · rw [List.length_take]
    omega
  · intro n hn b bytes hFfs hBytes j hj hEnd
    have hIn : n < l.length := by omega
    have hSame : l[n] = b := by
      have hBoth := hBlocks n hIn
      rw [hFfs] at hBoth
      exact (Option.some.inj hBoth).symm
    have hOf : bytesOf fs l[n] = bytes := by
      rw [hSame]
      exact bytesOf_eq hBytes
    have hEntry := L.flatten_entry hComplete hLength hBlocks hIn
      (j := j) (by rw [hOf]; exact hj)
    rw [List.getElem?_take, if_pos hEnd, hEntry, hOf]

/-
  The list is right, and the contents with it, exactly when
  no data lies behind an absent block and nothing stored is
  shifted into the file.
-/
theorem blocklist_iff :
    L.ListRight ∧ L.ContentsRight ↔ L.SparseOk := by
  have hEntries := Gaps.take_eq_iff_entries 0 L.marks L.nblk
  have hOk : L.SparseOk ↔ ∀ n, Gaps.lead L.marks ≤ n →
      n < L.nblk → (Gaps.fill 0 L.marks)[n]? = some 0 ∧
        L.marks.reduceOption[n]? = some 0 := by
    unfold SparseOk
    simp only [L.ffsBlock_eq]
    rfl
  rw [hOk, ← hEntries]
  constructor
  · rintro ⟨hRight, -⟩
    exact L.listRight_iff.mp hRight
  · intro hEq
    have hRight := L.listRight_iff.mpr hEq
    exact ⟨hRight, L.contentsRight_of_listRight hRight⟩

end Layout

/- An indirect block with one pointer, in its first entry. -/
def noPointers : List Byte := List.replicate 4092 0#8

def tableOf (p : Nat) : List Byte :=
  0#8 :: 0#8 :: 0#8 :: BitVec.ofNat 8 p :: noPointers

theorem length_tableOf (p : Nat) : (tableOf p).length = 4096 := by
  have hRest : noPointers.length = 4092 := List.length_replicate
  simp only [tableOf, List.length_cons, hRest]

theorem be32_tableOf
    {p : Nat}
    (hp : p < 256)
    (k : Nat)
    (hk : k < 1024) :
    be32 (tableOf p) (4 * k) = .ok (if k = 0 then p else 0) := by
  have hIn : 4 * k + 4 ≤ (tableOf p).length := by
    rw [length_tableOf]
    omega
  have hRest : ∀ o, 4 ≤ o → (tableOf p).getD o 0#8 = 0#8 := by
    intro o ho
    have hIndex : o = (o - 4) + 1 + 1 + 1 + 1 := by omega
    rw [hIndex, tableOf, List.getD_cons_succ,
      List.getD_cons_succ, List.getD_cons_succ,
      List.getD_cons_succ, List.getD_eq_getElem?_getD,
      noPointers, List.getElem?_replicate]
    split <;> rfl
  rw [be32, if_pos hIn]
  by_cases hZero : k = 0
  · have hByte : (BitVec.ofNat 8 p).toNat = p := by
      rw [BitVec.toNat_ofNat]
      omega
    subst hZero
    show Except.ok (0 * 0x1000000 + 0 * 0x10000 + 0 * 0x100 +
      (BitVec.ofNat 8 p).toNat) = _
    rw [hByte, if_pos rfl]
    congr 1
    omega
  · rw [hRest _ (by omega), hRest _ (by omega),
      hRest _ (by omega), hRest _ (by omega), if_neg hZero]
    rfl

/-
  Blocks of 4 KB; at fragment 4 a double indirect block that
  names fragment 8, where an indirect block names block 99.
-/
def sparseFs : Ufs where
  image := List.replicate 4096 0#8 ++ (tableOf 8 ++ tableOf 99)
  base := 0
  bsize := 4096
  fsize := 1024
  nindir := 1024

/- No single indirect block, and data behind its span. -/
def sparseInode : Inode where
  size := 1037 * 4096
  db := fun _ => 20
  ib := fun lvl => if lvl.val = 1 then 4 else 0

theorem readAt_table :
    sparseFs.readAt (sparseFs.fragOff 4) 4096 =
        .ok (tableOf 8) ∧
      sparseFs.readAt (sparseFs.fragOff 8) 4096 =
        .ok (tableOf 99) := by
  have hHead : (List.replicate 4096 0#8 : List Byte).length =
      4096 := List.length_replicate
  have hFirst := length_tableOf 8
  have hSecond := length_tableOf 99
  constructor
  · show Except.ok ((sparseFs.image.drop 4096).take 4096) = _
    rw [sparseFs, List.drop_left' hHead, List.take_left' hFirst]
  · show Except.ok ((sparseFs.image.drop 8192).take 4096) = _
    have hBoth : (List.replicate 4096 0#8 ++ tableOf 8).length =
        8192 := by
      rw [List.length_append, hHead, hFirst]
    rw [sparseFs, ← List.append_assoc, List.drop_left' hBoth,
      List.take_of_length_le (by omega)]

/- The indirect block at fragment 8, and what leads to it. -/
def lastTable : Tree 1 :=
  .table fun j => .block (if j = 0 then 99 else 0)

def lastTables (k : Nat) : Tree 1 :=
  if k = 0 then lastTable else .absent

theorem lastTables_stored (k : Nat) :
    sparseFs.Stored (lastTables k) (if k = 0 then 8 else 0) := by
  unfold lastTables
  by_cases hZero : k = 0
  · rw [if_pos hZero, if_pos hZero]
    refine ⟨by decide, tableOf 99, readAt_table.2, ?_⟩
    intro j hj
    exact ⟨_, be32_tableOf (by omega) j hj, rfl⟩
  · rw [if_neg hZero, if_neg hZero]
    rfl

theorem sparse_positive : 0 < sparseFs.bsize := by
  decide

theorem sparseTables_stored :
    sparseFs.Stored (.table lastTables) (sparseInode.ib 1) := by
  refine ⟨by decide, tableOf 8, readAt_table.1, ?_⟩
  intro k hk
  have hEight : 8 < 256 := by omega
  exact ⟨_, be32_tableOf hEight k hk, lastTables_stored k⟩

theorem sparseSingle_stored :
    sparseFs.Stored (.absent : Tree 1) (sparseInode.ib 0) :=
  rfl

theorem sparseTriple_stored :
    sparseFs.Stored (.absent : Tree 3) (sparseInode.ib 2) :=
  rfl

def sparseLayout : Layout sparseFs sparseInode where
  single := .absent
  double := .table lastTables
  triple := .absent
  positive := sparse_positive
  single_stored := sparseSingle_stored
  double_stored := sparseTables_stored
  triple_stored := sparseTriple_stored

/- The first block behind the hole. -/
theorem lastTable_head :
    ∃ rest, lastTable.marks 1024 = some 99 :: rest := by
  have hRange : List.range 1024 =
      0 :: (List.range 1023).map Nat.succ :=
    List.range_succ_eq_map
  rw [lastTable, Tree.marks, hRange, List.flatMap_cons,
    Tree.marks, if_pos rfl]
  exact ⟨_, List.cons_append⟩

theorem lastTables_head :
    ∃ rest, (Tree.table lastTables).leaves 1024 =
      99 :: rest := by
  have hRange : List.range 1024 =
      0 :: (List.range 1023).map Nat.succ :=
    List.range_succ_eq_map
  have hFirst : lastTables 0 = lastTable := if_pos rfl
  rcases lastTable_head with ⟨rest, hMarks⟩
  rw [Tree.leaves, Tree.marks, hRange, List.flatMap_cons, hFirst,
    hMarks, List.cons_append, List.reduceOption_cons_of_some]
  exact ⟨_, rfl⟩

theorem sparseLayout_stored :
    sparseLayout.stored[12]? = some 99 := by
  have hNindir : sparseFs.nindir.toNat = 1024 := rfl
  have hSingle : sparseLayout.single.leaves 1024 = [] :=
    Tree.leaves_absent 1024
  rcases lastTables_head with ⟨rest, hLeaves⟩
  have hDouble : sparseLayout.double.leaves 1024 =
      99 :: rest := hLeaves
  rw [sparseLayout.stored_eq, hNindir, hSingle, hDouble,
    List.getElem?_append_right (Nat.le_of_eq List.length_ofFn),
    List.length_ofFn, List.nil_append, List.cons_append,
    Nat.sub_self, List.getElem?_cons_zero]

/- The script has block 99 in place of the first hole. -/
theorem sparse_shifted :
    sparseLayout.ffsBlock 12 = some 0 ∧
      sparseLayout.stored[12]? = some 99 ∧
      ¬ sparseLayout.ListRight := by
  have hHole : sparseLayout.ffsBlock 12 = some 0 := rfl
  have hStored := sparseLayout_stored
  refine ⟨hHole, hStored, ?_⟩
  rintro ⟨l, hList, -, hBlocks⟩
  rw [sparseLayout.blocklist_eq, Except.ok.injEq] at hList
  have hIn : 12 < sparseLayout.nblk := by decide
  rcases hBlocks 12 hIn with ⟨b, hFfs, hb⟩
  rw [← hList, List.getElem?_take, if_pos hIn, hStored] at hb
  rw [hHole, ← hb] at hFfs
  exact absurd hFfs (by decide)

end AuxUfs
