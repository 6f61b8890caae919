import Wombat33.Clocked.Run
import Wombat33.Iosb.Core

/-
  The pseudo-VIA's edge latches.

  A flag is owed to a source from the cycle after its line
  rises until the driver acknowledges that very source or,
  for the sources that follow their line, the line falls.
  The flags are held except where an IFR write for another
  source meets the edge.

  Key definitions include:
    * `Source`, `line`, `rises`, `acked`
    * `noteOwed`, `Held`
    * `swallows`

  Key theorems include:
    * `flag_next`
    * `flags_held_iff`
-/

------------------------------------------------------------
-- Sources
------------------------------------------------------------

namespace Iosb

/- The interrupt sources latched by edges. -/
inductive Source where
  | scsi
  | slot
  | asc
  deriving DecidableEq, Repr

/- A source's flag in IFR. -/
def Source.bit : Source → Nat
  | scsi => 3
  | slot => 1
  | asc => 4

/- The flag follows the line down as well as up. -/
def Source.follows : Source → Bool
  | scsi => true
  | slot => true
  | asc => false

variable (s : Asic) (i : In) (src : Source)

def line : Bool :=
  match src with
  | .scsi => scsiIrqI s i
  | .slot => slotAny i
  | .asc => ascIrqI i

/- The line as the last clock edge sampled it. -/
def lineD : Bool :=
  match src with
  | .scsi => s.via2.scsiD
  | .slot => s.via2.slotD
  | .asc => s.via2.ascD

def rises : Bool := line s i src && !lineD s src

def falls : Bool :=
  src.follows && !line s i src && lineD s src

def flag : Bool := s.via2.ifr.getLsbD src.bit

/- An IFR write with this source's bit set. -/
def acked : Bool :=
  ifrWrite s i && (wbyte i).getLsbD src.bit

/- An IFR write for others meets the edge of a clear flag. -/
def swallows : Bool :=
  rises s i src && ifrWrite s i &&
    !(wbyte i).getLsbD src.bit && !flag s src

end Iosb

------------------------------------------------------------
-- Next Flags
------------------------------------------------------------

namespace Iosb

theorem getLsbD_setBit
    {b k : Nat}
    (hb : b < 8)
    (hk : k < 8)
    (go x : Bool)
    (v : Byte) :
    (setBit go b x v).getLsbD k =
      if go && k == b then x else v.getLsbD k := by
  have hOne : (1#8 <<< b).getLsbD k = decide (k = b) := by
    have hAll : ∀ b < 8, ∀ k < 8,
        (1#8 <<< b).getLsbD k = decide (k = b) := by
      decide
    exact hAll b hb k hk
  cases go with
  | false => simp [setBit]
  | true =>
      cases x <;>
        simp only [setBit, if_true, Bool.false_eq_true,
          if_false, BitVec.getLsbD_or, BitVec.getLsbD_and,
          BitVec.getLsbD_not, hOne] <;>
        by_cases hSame : k = b <;> simp [hSame, hk, hb]

theorem getLsbD_append_seven
    {b : Nat}
    (hb : b < 7)
    (u : BitVec 1)
    (v : BitVec 7) :
    (u ++ v : BitVec 8).getLsbD b = v.getLsbD b := by
  have hAppend : (u ++ v).getLsbD b = _ :=
    BitVec.getLsbD_append
  simpa only [hb, if_true] using hAppend

/- Only bits 0, 1, 3 and 4 answer to a write. -/
theorem getLsbD_ifrAck (src : Source) (v w : Byte) (e : Byte) :
    (e.extractLsb' 7 1 ++ (v.extractLsb' 0 7 &&&
        ~~~(w.extractLsb' 0 7 &&& 0x1B#7)) : BitVec 8).getLsbD
          src.bit =
      (v.getLsbD src.bit && !w.getLsbD src.bit) := by
  cases src <;>
    simp only [Source.bit] <;>
    rw [getLsbD_append_seven (by omega)] <;>
    simp

variable (s : Asic) (i : In) (src : Source)

/- What one clock edge makes of a flag. -/
theorem flag_next :
    (ifrNext s i).getLsbD src.bit =
      if ifrWrite s i then
        flag s src && !(wbyte i).getLsbD src.bit
      else if rises s i src then true
      else if falls s i src then false
      else flag s src := by
  unfold ifrNext
  split
  next => exact getLsbD_ifrAck src _ _ _
  next =>
      simp only [ifrEdges, rises, falls, flag]
      cases src with
      | scsi =>
          simp (disch := omega) only [Source.bit,
            getLsbD_setBit, line, lineD, Source.follows]
          rcases Bool.eq_false_or_eq_true (scsiIrqI s i)
            with h | h <;>
            rcases Bool.eq_false_or_eq_true s.via2.scsiD
              with h' | h' <;>
            simp [h, h']
      | slot =>
          simp (disch := omega) only [Source.bit,
            getLsbD_setBit, line, lineD, Source.follows]
          rcases Bool.eq_false_or_eq_true (slotAny i)
            with h | h <;>
            rcases Bool.eq_false_or_eq_true s.via2.slotD
              with h' | h' <;>
            simp [h, h']
      | asc =>
          simp (disch := omega) only [Source.bit,
            getLsbD_setBit, line, lineD, Source.follows]
          rcases Bool.eq_false_or_eq_true (ascIrqI i)
            with h | h <;>
            rcases Bool.eq_false_or_eq_true s.via2.ascD
              with h' | h' <;>
            simp [h, h']

end Iosb

------------------------------------------------------------
-- Owed Flags
------------------------------------------------------------

namespace Iosb

open Clocked

/-
  The flags owed after a cycle: a rising line creates the
  debt, an acknowledge of the source or a fall of a followed
  line ends it.
-/
def noteOwed (owed : Source → Bool) (s : Asic) (i : In) :
    Source → Bool :=
  fun src =>
    if !i.nreset then false
    else if !i.ce then owed src
    else if acked s i src then false
    else if rises s i src then true
    else if falls s i src then false
    else owed src

/- Every owed flag is set. -/
def Held (x : Asic × (Source → Bool)) : Prop :=
  ∀ src, x.2 src = true → flag x.1 src = true

/- No edge is swallowed in this cycle. -/
def noSwallow (s : Asic) (i : In) : Prop :=
  i.nreset = true → i.ce = true →
    ∀ src, swallows s i src = false

/-
  The debt against the flag, for an old debt `o`, an old flag
  `f`, a write `w` with data bit `d`, a rise `r`, a fall `l`.
-/
theorem held_bits :
    ∀ o f w d r l : Bool,
      (o = true → f = true) →
      (((if w && d then false
          else if r then true
          else if l then false
          else o) = true →
        (if w then f && !d
          else if r then true
          else if l then false
          else f) = true) ↔
        (r && w && !d && !f) = false) := by
  decide

variable (cfg : Config)

/- One cycle holds the flags exactly if it swallows none. -/
theorem held_step
    (x : Asic × (Source → Bool))
    (i : In)
    (hHeld : Held x) :
    Held (watch (step cfg) noteOwed x i) ↔
      noSwallow x.1 i := by
  rcases x with ⟨s, owed⟩
  unfold Held noSwallow
  simp only [watch_fst, watch_snd, noteOwed]
  cases hReset : i.nreset with
  | false => simp
  | true =>
      cases hCe : i.ce with
      | false =>
          have hSame : (step cfg s i).via2 = s.via2 := by
            simp [step, hReset, hCe]
          have hFlag : ∀ src, flag (step cfg s i) src =
              flag s src := by
            simp [flag, hSame]
          simp only [hFlag]
          simpa using fun src => hHeld src
      | true =>
          have hFlag : ∀ src, flag (step cfg s i) src =
              (ifrNext s i).getLsbD src.bit := by
            intro src
            simp [flag, step, via2Next, hReset, hCe]
          simp only [hFlag, flag_next, acked, swallows]
          simp only [Bool.not_true, Bool.false_eq_true,
            if_false, forall_const]
          apply forall_congr'
          intro src
          have hOwed : owed src = true → flag s src = true :=
            hHeld src
          exact held_bits _ _ _ _ _ _ hOwed

/- The machine after a reset cycle, with nothing owed. -/
def start (s : Asic) : Asic × (Source → Bool) :=
  (step cfg s { nreset := false }, fun _ => false)

theorem held_start (s : Asic) : Held (start cfg s) := by
  intro src hOwed
  simp [start] at hOwed

/-
  A run from reset always holds the owed flags exactly if no
  cycle of it swallows an edge.
-/
theorem flags_held_iff (s : Asic) (is : List In) :
    Always (watch (step cfg) noteOwed) Held (start cfg s)
        is ↔
      Along (watch (step cfg) noteOwed)
        (fun x i => noSwallow x.1 i) (start cfg s) is :=
  always_iff_along (held_step cfg) (held_start cfg s)

/- A vertical blank meets the acknowledge of a sound flag. -/
def vblMeetsAscAck : List In :=
  [{ sel := true, write := true, addr := 0x0000E80#26
     be := 0b1000#4, wdata := 0x10000000#32
     vblIrq := true }]

theorem flags_not_always_held :
    ¬ ∀ (cfg : Config) (s : Asic) (is : List In),
      Always (watch (step cfg) noteOwed) Held (start cfg s)
        is := by
  intro hAll
  have hEnd := hAll ⟨⟨0#4, false⟩, 18⟩ default
    vblMeetsAscAck vblMeetsAscAck (List.prefix_refl _)
  have hFlag := hEnd .slot (by decide)
  revert hFlag
  decide

end Iosb
