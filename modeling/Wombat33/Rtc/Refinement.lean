import Wombat33.Clocked.Run
import Wombat33.Rtc.Chip

/-
  The RTC/PRAM chip refines the byte store.

  Beside the chip runs a log of the host's lines: the store
  as the enable line last changed, the bytes clocked in since
  and the bits of the next byte.  Served in the store, they
  say what the RAM holds, what the chip waits for and what it
  sends.

  Key definitions include:
    * `Log`, `noteLines`
    * `IsByteStore`

  Key theorems include:
    * `refines_step`
    * `pram_is_byte_store`
-/

------------------------------------------------------------
-- The Host's Lines
------------------------------------------------------------

namespace Rtc

/-
  What the host did: the levels before this clock, the store
  at the last change of the enable line, the bytes and bits
  clocked in since, and the clocks given to a read.
-/
structure Log where
  ce : Bool
  clk : Bool
  store : Store
  bytes : List Byte
  bits : List Bool
  sent : Nat

/- The bits of a byte, most significant first. -/
def byteOf (bits : List Bool) : Byte :=
  bits.foldl shiftIn 0x00#8

/- The store and the chip's wait after the log's bytes. -/
def Log.served (g : Log) : Store × Wants :=
  serve g.store g.bytes

/- The chip is selected, and the clock line falls. -/
def Log.falls (g : Log) (i : In) : Bool :=
  !i.ceN && g.clk && !i.clkIn

/- A falling clock gives a bit, or takes one. -/
def Log.clocked (g : Log) (d : Bool) : Log :=
  match g.served.2 with
  | .clocks _ => { g with sent := g.sent + 1 }
  | _ =>
      if g.bits.length == 7 then
        { g with
          bytes := g.bytes ++ [byteOf (g.bits ++ [d])]
          bits := [] }
      else { g with bits := g.bits ++ [d] }

/- A selection that has just begun, or ended. -/
def Log.closed (g : Log) (st : Store) : Log :=
  { g with store := st, bytes := [], bits := [], sent := 0 }

/-
  One clock on the host's lines.  A reset clears the
  write-protect bit.
-/
def noteLines (g : Log) (i : In) : Log :=
  if !i.nreset then
    { g.closed { g.served.1 with wprot := false } with
      ce := true, clk := false }
  else
    { (if i.ceN != g.ce then g.closed g.served.1
        else if g.falls i then g.clocked i.dataIn
        else g) with
      ce := i.ceN, clk := i.clkIn }

/- The chip with its log, after a reset. -/
def logStart (cfg : Config) (s : Chip) : Chip × Log :=
  (step cfg s { nreset := false },
    { ce := true, clk := false, store := ⟨s.pram, false⟩
      bytes := [], bits := [], sent := 0 })

/- A read command is complete, and the host has not let go. -/
def Log.sending (g : Log) : Bool :=
  match g.served.2 with
  | .clocks _ => true
  | _ => false

/-
  The RAM and the write-protect bit are the store's; the
  data line is driven exactly in a read, and shows the bits
  of the byte addressed, most significant first.
-/
structure IsByteStore (x : Chip × Log) : Prop where
  pram : x.1.pram = x.2.served.1.mem
  wprot : x.1.wprot = x.2.served.1.wprot
  driven : ∀ i, dataOe x.1 i = (x.2.sending && !i.ceN)
  shown : ∀ b, x.2.served.2 = .clocks (some b) →
    ∀ k, k < 8 → x.2.sent = k + 1 →
      dataOut x.1 = b.getLsbD (7 - k)

end Rtc

------------------------------------------------------------
-- One Clock of the Chip
------------------------------------------------------------

namespace Rtc

variable (cfg : Config) {s : Chip} {i : In}

/- The wall clock moves nothing the transfers read. -/
theorem wallClock_eq (n : Chip) :
    ∃ sec init div, wallClock cfg s i n =
      { n with seconds := sec, rtcInit := init, secdiv := div } := by
  unfold wallClock
  simp only
  split
  · exact ⟨_, _, n.secdiv, rfl⟩
  · exact ⟨_, n.rtcInit, _, rfl⟩

/- A read launched a clock ago lands, if there is one. -/
theorem landRead_eq (s : Chip) :
    landRead s s =
      { s with
        dataByte := if s.rdPend then s.pramQ else s.dataByte
        rdPend := false } := by
  unfold landRead
  cases s
  split <;> simp_all

theorem landRead_of_not (hPend : s.rdPend = false) :
    landRead s s = s := by
  simp [landRead, hPend]

/- A clock out of reset: a read lands, then a bit moves. -/
theorem step_clocked (hReset : i.nreset = true) :
    ∃ sec init div, step cfg s i =
      pramPorts s i (bitEngine s i
        { landRead s s with
          ceD := i.ceN, clkD := i.clkIn
          seconds := sec, rtcInit := init, secdiv := div }) := by
  rcases @wallClock_eq cfg s i (landRead s s) with
    ⟨sec, init, div, hWall⟩
  exact ⟨sec, init, div, by simp [step, hWall, hReset]⟩

/- The RAM's write decoder knows the classic slots. -/
theorem slot_decoded (c : Byte) :
    (c.getLsbD 6 || c.extractLsb' 4 3 == 0b010#3) =
      isSlot (register c) := by
  revert c
  decide +kernel

/- So does the read dispatch. -/
theorem slot_dispatched (c : Byte) :
    isSlot (register c) =
      (!((register c).extractLsb' 3 2 == 0b00#2) &&
        ((register c).extractLsb' 2 3 == 0b010#3 ||
          (register c).getLsbD 4)) := by
  revert c
  decide +kernel

theorem slotAddr_eq (c : Byte) :
    slotAddr (register c) = 0#3 ++ c.extractLsb' 2 5 := by
  revert c
  decide +kernel

/- Register 13 is in no other class. -/
theorem protect_dispatched (r : BitVec 5) :
    (r == 13#5) = true →
      (r.extractLsb' 3 2 == 0b00#2) = false ∧
        (r.extractLsb' 2 3 == 0b010#3) = false ∧
          isSlot r = false := by
  revert r
  decide +kernel

end Rtc

------------------------------------------------------------
-- The Invariant
------------------------------------------------------------

namespace Rtc

/- The chip takes bits; those of the next byte are shifted in. -/
structure Receiving (s : Chip) (g : Log) : Prop where
  dirOut : s.dirOut = false
  rdPend : s.rdPend = false
  dataByte : s.dataByte = byteOf g.bits
  bitCount : s.bitCount = BitVec.ofNat 4 g.bits.length
  sent : g.sent = 0

/-
  The chip gives bits.  The byte of a PRAM read is still on
  its way for one clock, in which the clock line is low.
-/
structure Sending (s : Chip) (g : Log) (b : Option Byte) :
    Prop where
  dirOut : s.dirOut = true
  bitCount : s.bitCount = 8#4 - BitVec.ofNat 4 g.sent
  byte : ∀ v, b = some v →
    (s.rdPend = true ∧ s.pramQ = v ∧ g.sent = 0 ∧
      s.clkD = false) ∨
    (s.rdPend = false ∧ s.dataByte = v)
  shown : ∀ v, b = some v → ∀ k, k < 8 → g.sent = k + 1 →
    s.outBit = v.getLsbD (7 - k)

/- The command state agrees with what the store waits for. -/
def Agrees (s : Chip) (g : Log) : Wants → Prop
  | .command => s.state = .normal ∧ Receiving s g
  | .data r =>
      s.state = .write ∧ register s.cmd = r ∧ Receiving s g
  | .address c => s.state = .xpcmd ∧ s.cmd = c ∧ Receiving s g
  | .extData a =>
      s.state = .xpwrite ∧ s.xpaddr = a ∧ Receiving s g
  | .clocks b => s.state = .normal ∧ Sending s g b

structure Refines (x : Chip × Log) : Prop where
  ce : x.1.ceD = x.2.ce
  clk : x.1.clkD = x.2.clk
  pram : x.1.pram = x.2.served.1.mem
  wprot : x.1.wprot = x.2.served.1.wprot
  short : x.2.bits.length < 8
  agrees : Agrees x.1 x.2 x.2.served.2

/- A refining chip is a byte store. -/
theorem isByteStore_of_refines
    {x : Chip × Log} (hRef : Refines x) : IsByteStore x := by
  have hAgrees := hRef.agrees
  refine ⟨hRef.pram, hRef.wprot, ?_, ?_⟩
  · intro i
    unfold Log.sending dataOe
    cases hWants : x.2.served.2 with
    | clocks b =>
        rw [hWants] at hAgrees
        rw [hAgrees.2.dirOut]
    | command =>
        rw [hWants] at hAgrees
        simp [hAgrees.2.dirOut]
    | data r =>
        rw [hWants] at hAgrees
        simp [hAgrees.2.2.dirOut]
    | address c =>
        rw [hWants] at hAgrees
        simp [hAgrees.2.2.dirOut]
    | extData a =>
        rw [hWants] at hAgrees
        simp [hAgrees.2.2.dirOut]
  · intro b hWants
    rw [hWants] at hAgrees
    exact hAgrees.2.shown b rfl

/- While it receives, the chip is not sending. -/
theorem receiving_of_agrees
    {s : Chip} {g : Log} {w : Wants}
    (hAgrees : Agrees s g w)
    (hNot : ∀ b, w ≠ .clocks b) :
    Receiving s g := by
  cases w with
  | command => exact hAgrees.2
  | data r => exact hAgrees.2.2
  | address c => exact hAgrees.2.2
  | extData a => exact hAgrees.2.2
  | clocks b => exact absurd rfl (hNot b)

/- Agreement moves with the two ways to agree. -/
theorem agrees_of_agrees
    {s s' : Chip} {g g' : Log} {w : Wants}
    (hState : s'.state = s.state)
    (hCmd : s'.cmd = s.cmd)
    (hAddr : s'.xpaddr = s.xpaddr)
    (hReceive : (∀ b, w ≠ .clocks b) → Receiving s g →
      Receiving s' g')
    (hSend : ∀ b, w = .clocks b → Sending s g b →
      Sending s' g' b)
    (hAgrees : Agrees s g w) :
    Agrees s' g' w := by
  cases w with
  | command =>
      exact ⟨hState.trans hAgrees.1,
        hReceive (by simp) hAgrees.2⟩
  | data r =>
      exact ⟨hState.trans hAgrees.1, hCmd ▸ hAgrees.2.1,
        hReceive (by simp) hAgrees.2.2⟩
  | address c =>
      exact ⟨hState.trans hAgrees.1, hCmd.trans hAgrees.2.1,
        hReceive (by simp) hAgrees.2.2⟩
  | extData a =>
      exact ⟨hState.trans hAgrees.1, hAddr.trans hAgrees.2.1,
        hReceive (by simp) hAgrees.2.2⟩
  | clocks b =>
      exact ⟨hState.trans hAgrees.1, hSend b rfl hAgrees.2⟩

end Rtc

------------------------------------------------------------
-- Received Bytes
------------------------------------------------------------

namespace Rtc

variable (cfg : Config) {s : Chip} {g : Log} {i : In}

theorem byteOf_snoc (bits : List Bool) (d : Bool) :
    byteOf (bits ++ [d]) = shiftIn (byteOf bits) d := by
  simp [byteOf, List.foldl_append]

/- The eighth bit makes a byte, and the store is fed it. -/
theorem served_of_byte
    (b : Byte) (g' : Log)
    (hStore : g'.store = g.store)
    (hBytes : g'.bytes = g.bytes ++ [b]) :
    g'.served = feed g.served b := by
  rw [Log.served, hStore, hBytes, serve_snoc]
  rfl

/-
  The clock on which byte `b` completes, out of reset: the
  byte is executed, and the RAM's write port sees it.
-/
structure Completes (s : Chip) (i : In) : Prop where
  reset : i.nreset = true
  ceN : i.ceN = false
  ceD : s.ceD = false
  clkD : s.clkD = true
  clkIn : i.clkIn = false
  dirOut : s.dirOut = false
  rdPend : s.rdPend = false
  bitCount : s.bitCount = 7#4

theorem step_completes (hDone : Completes s i) :
    ∃ sec init div, step cfg s i =
      pramPorts s i (execCmd s (bnow s i)
        { s with
          ceD := false, clkD := false
          seconds := sec, rtcInit := init, secdiv := div }) := by
  rcases step_clocked cfg (s := s) hDone.reset with
    ⟨sec, init, div, hStep⟩
  refine ⟨sec, init, div, ?_⟩
  rw [hStep, landRead_of_not hDone.rdPend]
  simp [bitEngine, hDone.ceN, hDone.ceD, hDone.clkD,
    hDone.clkIn, hDone.dirOut, hDone.bitCount]

theorem execNow_completes (hDone : Completes s i) :
    execNow s i = true := by
  simp [execNow, hDone.reset, hDone.ceN, hDone.ceD, hDone.clkD,
    hDone.clkIn, hDone.dirOut, hDone.bitCount]

/- The log after the byte. -/
def Log.withByte (g : Log) (b : Byte) : Log :=
  { g with
    ce := false, clk := false
    bytes := g.bytes ++ [b], bits := [] }

/- What refining takes after a byte has been executed. -/
theorem refines_withByte
    {s' : Chip} {b : Byte} {st : Store} {w : Wants}
    (hFed : feed g.served b = (st, w))
    (hCe : s'.ceD = false)
    (hClk : s'.clkD = false)
    (hPram : s'.pram = st.mem)
    (hWprot : s'.wprot = st.wprot)
    (hAgrees : Agrees s' (g.withByte b) w) :
    Refines (s', g.withByte b) := by
  have hServed : (g.withByte b).served = (st, w) := by
    rw [← hFed]
    exact served_of_byte b _ rfl rfl
  exact {
    ce := hCe
    clk := hClk
    pram := by rw [hServed]; exact hPram
    wprot := by rw [hServed]; exact hWprot
    short := by simp [Log.withByte]
    agrees := by rw [hServed]; exact hAgrees }

/- The write port is idle outside the two write states. -/
theorem pramWe_of_other
    (hWrite : s.state ≠ .write)
    (hXpwrite : s.state ≠ .xpwrite) :
    pramWe s i = false := by
  simp [pramWe, hWrite, hXpwrite]

/- The byte is fed to the store served so far. -/
theorem feed_served
    {w : Wants} (hWants : g.served.2 = w) (b : Byte) :
    feed g.served b = feed (g.served.1, w) b :=
  congrArg (fun x => feed (g.served.1, x) b) hWants

/- A read has been launched; its byte lands on the next clock. -/
theorem sending_launched
    {s' : Chip} {b : Byte} {v : Byte}
    (hSent : g.sent = 0)
    (hDir : s'.dirOut = true)
    (hCount : s'.bitCount = 8#4)
    (hPend : s'.rdPend = true)
    (hByte : s'.pramQ = v)
    (hClk : s'.clkD = false) :
    Sending s' (g.withByte b) (some v) where
  dirOut := hDir
  bitCount := by
    rw [hCount, show (g.withByte b).sent = 0 from hSent]
    rfl
  byte := by
    rintro _ ⟨⟩
    exact Or.inl ⟨hPend, hByte, hSent, hClk⟩
  shown := by
    intro v' _ k _ hOne
    rw [show (g.withByte b).sent = 0 from hSent] at hOne
    omega

/- A register outside the RAM is sent as it is. -/
theorem sending_other
    {s' : Chip} {b : Byte}
    (hSent : g.sent = 0)
    (hDir : s'.dirOut = true)
    (hCount : s'.bitCount = 8#4) :
    Sending s' (g.withByte b) none where
  dirOut := hDir
  bitCount := by
    rw [hCount, show (g.withByte b).sent = 0 from hSent]
    rfl
  byte := by simp
  shown := by simp

/- A read of a slot launches the RAM's read port. -/
theorem execCmd_readSlot
    {n : Chip} {b : Byte}
    (hState : s.state = .normal)
    (hExt : isExtended b = false)
    (hRead : isRead b = true)
    (hSlot : isSlot (register b) = true) :
    execCmd s b n =
      { n with
        cmd := b, dataByte := 0x00#8, bitCount := 8#4
        dirOut := true, rdPend := true } := by
  unfold isExtended at hExt
  unfold isRead at hRead
  rw [slot_dispatched] at hSlot
  unfold register at hSlot
  simp only [execCmd, hState, hExt, hRead]
  split_ifs <;> simp_all

/- A read of any other register sends what it holds. -/
theorem execCmd_readOther
    {n : Chip} {b : Byte}
    (hState : s.state = .normal)
    (hExt : isExtended b = false)
    (hRead : isRead b = true)
    (hSlot : isSlot (register b) = false) :
    ∃ v, execCmd s b n =
      { n with
        cmd := b, dataByte := v, bitCount := 8#4
        dirOut := true } := by
  unfold isExtended at hExt
  unfold isRead at hRead
  rw [slot_dispatched] at hSlot
  unfold register at hSlot
  simp only [execCmd, hState, hExt, hRead]
  split_ifs <;>
    first
    | exact ⟨_, rfl⟩
    | simp_all

/- A command byte. -/
theorem refines_command
    (hRef : Refines (s, g))
    (hDone : Completes s i)
    (hWants : g.served.2 = .command)
    (hState : s.state = .normal)
    (hReceive : Receiving s g) :
    Refines (step cfg s i, g.withByte (bnow s i)) := by
  have hFed := feed_served hWants (bnow s i)
  have hWe : pramWe s i = false :=
    pramWe_of_other (by simp [hState]) (by simp [hState])
  have hLaunch : s.pram (pramRaddr s i) =
      g.served.1.mem (slotAddr (register (bnow s i))) := by
    rw [show pramRaddr s i = slotAddr (register (bnow s i)) by
      simp [pramRaddr, hState, slotAddr_eq]]
    exact congrFun hRef.pram _
  rcases step_completes cfg hDone with ⟨sec, init, div, hStep⟩
  rw [hStep]
  simp only [pramPorts, hWe]
  cases hExt : isExtended (bnow s i) with
  | true =>
      have hOp : ((bnow s i).extractLsb' 3 4 == 0b0111#4) =
          true := hExt
      simp only [execCmd, hState, hOp, if_true]
      exact refines_withByte (hFed.trans (feed_extended hExt))
        rfl rfl hRef.pram hRef.wprot
        ⟨rfl, rfl, hReceive.dirOut, hReceive.rdPend, rfl, rfl,
          hReceive.sent⟩
  | false =>
      cases hRead : isRead (bnow s i) with
      | true =>
          cases hSlot : isSlot (register (bnow s i)) with
          | true =>
              rw [execCmd_readSlot hState hExt hRead hSlot]
              exact refines_withByte
                (hFed.trans (feed_readSlot hExt hRead hSlot))
                rfl rfl hRef.pram hRef.wprot
                ⟨hState, sending_launched hReceive.sent rfl rfl
                  rfl hLaunch rfl⟩
          | false =>
              rcases execCmd_readOther (n := { s with
                  ceD := false, clkD := false
                  seconds := sec, rtcInit := init
                  secdiv := div })
                hState hExt hRead hSlot with ⟨v, hExec⟩
              rw [hExec]
              exact refines_withByte
                (hFed.trans (feed_readOther hExt hRead hSlot))
                rfl rfl hRef.pram hRef.wprot
                ⟨hState, sending_other hReceive.sent rfl rfl⟩
      | false =>
          have hOp : ((bnow s i).extractLsb' 3 4 == 0b0111#4) =
              false := hExt
          have hBit : (bnow s i).getLsbD 7 = false := hRead
          simp only [execCmd, hState, hOp, hBit]
          exact refines_withByte
            (hFed.trans (feed_write hExt hRead))
            rfl rfl hRef.pram hRef.wprot
            ⟨rfl, rfl, hReceive.dirOut, hReceive.rdPend, rfl,
              rfl, hReceive.sent⟩

/- A classic data byte: nothing but the RAM or the bit moves. -/
theorem execCmd_write
    {n : Chip} {b : Byte}
    (hState : s.state = .write) :
    ∃ sec, execCmd s b n =
      { n with
        dataByte := 0x00#8, bitCount := 0#4, state := .normal
        seconds := sec
        wprot :=
          if register s.cmd == 13#5 then b.getLsbD 7
          else n.wprot } := by
  have hProtect := protect_dispatched (register s.cmd)
  unfold register at hProtect ⊢
  simp only [execCmd, hState]
  split_ifs with hMay hClock hLow hBit <;>
    first
    | exact ⟨_, rfl⟩
    | simp_all

theorem refines_data
    {r : BitVec 5}
    (hRef : Refines (s, g))
    (hDone : Completes s i)
    (hWants : g.served.2 = .data r)
    (hState : s.state = .write)
    (hCmd : register s.cmd = r)
    (hReceive : Receiving s g) :
    Refines (step cfg s i, g.withByte (bnow s i)) := by
  have hFed := feed_served hWants (bnow s i)
  have hPram : s.pram = g.served.1.mem := hRef.pram
  have hWprot : s.wprot = g.served.1.wprot := hRef.wprot
  have hWe : pramWe s i = (!s.wprot && isSlot r) := by
    rw [← hCmd, ← slot_decoded, pramWe,
      execNow_completes hDone, hState]
    rfl
  have hAddr : pramWaddr s = slotAddr r := by
    simp [pramWaddr, hState, ← hCmd, slotAddr_eq]
  rcases step_completes cfg hDone with ⟨sec, init, div, hStep⟩
  rcases execCmd_write (n := { s with
      ceD := false, clkD := false
      seconds := sec, rtcInit := init, secdiv := div })
    (b := bnow s i) hState with ⟨sec', hExec⟩
  rw [hStep, hExec]
  simp only [pramPorts, hWe, hAddr, hCmd]
  refine refines_withByte hFed rfl rfl ?_ ?_
    ⟨rfl, hReceive.dirOut, hReceive.rdPend, rfl, rfl,
      hReceive.sent⟩
  · rw [mem_writeRegister, ← hPram, ← hWprot]
  · rw [wprot_writeRegister, ← hWprot]

/- The second byte of an extended command. -/
theorem refines_address
    {c : Byte}
    (hRef : Refines (s, g))
    (hDone : Completes s i)
    (hWants : g.served.2 = .address c)
    (hState : s.state = .xpcmd)
    (hCmd : s.cmd = c)
    (hReceive : Receiving s g) :
    Refines (step cfg s i, g.withByte (bnow s i)) := by
  have hFed := feed_served hWants (bnow s i)
  have hWe : pramWe s i = false :=
    pramWe_of_other (by simp [hState]) (by simp [hState])
  have hLaunch : s.pram (pramRaddr s i) =
      g.served.1.mem (extAddr c (bnow s i)) := by
    rw [show pramRaddr s i = extAddr c (bnow s i) by
      simp [pramRaddr, hState, extAddr, hCmd]]
    exact congrFun hRef.pram _
  rcases step_completes cfg hDone with ⟨sec, init, div, hStep⟩
  rw [hStep]
  simp only [execCmd, hState, pramPorts, hWe]
  cases hRead : isRead c with
  | true =>
      have hBit : s.cmd.getLsbD 7 = true := by
        rw [hCmd]
        exact hRead
      simp only [hBit, if_true]
      exact refines_withByte
        (hFed.trans (feed_extRead hRead))
        rfl rfl hRef.pram hRef.wprot
        ⟨rfl, sending_launched hReceive.sent rfl rfl rfl
          hLaunch rfl⟩
  | false =>
      have hBit : s.cmd.getLsbD 7 = false := by
        rw [hCmd]
        exact hRead
      simp only [hBit]
      refine refines_withByte
        (hFed.trans (feed_extWrite hRead))
        rfl rfl hRef.pram hRef.wprot
        ⟨rfl, ?_, hReceive.dirOut, hReceive.rdPend, rfl, rfl,
          hReceive.sent⟩
      rw [← hCmd]
      rfl

/- The data byte of an extended write. -/
theorem refines_extData
    {a : Byte}
    (hRef : Refines (s, g))
    (hDone : Completes s i)
    (hWants : g.served.2 = .extData a)
    (hState : s.state = .xpwrite)
    (hAddr : s.xpaddr = a)
    (hReceive : Receiving s g) :
    Refines (step cfg s i, g.withByte (bnow s i)) := by
  have hFed := feed_served hWants (bnow s i)
  have hPram : s.pram = g.served.1.mem := hRef.pram
  have hWprot : s.wprot = g.served.1.wprot := hRef.wprot
  have hWe : pramWe s i = !s.wprot := by
    simp [pramWe, execNow_completes hDone, hState]
  have hWaddr : pramWaddr s = a := by
    simp [pramWaddr, hState, hAddr]
  rcases step_completes cfg hDone with ⟨sec, init, div, hStep⟩
  rw [hStep]
  simp only [execCmd, hState, pramPorts, hWe, hWaddr]
  refine refines_withByte hFed rfl rfl ?_ ?_
    ⟨rfl, hReceive.dirOut, hReceive.rdPend, rfl, rfl,
      hReceive.sent⟩
  · rw [mem_put, hPram, hWprot]
  · rw [wprot_put]
    exact hWprot

end Rtc

------------------------------------------------------------
-- Every Clock
------------------------------------------------------------

namespace Rtc

open Clocked

variable {cfg : Config} {s : Chip} {g : Log} {i : In}

/- A reset. -/
theorem refines_reset
    (hRef : Refines (s, g))
    (hReset : i.nreset = false) :
    Refines (step cfg s i, noteLines g i) := by
  have hWe : pramWe s i = false := by
    simp [pramWe, execNow, hReset]
  have hPram : s.pram = g.served.1.mem := hRef.pram
  simp only [noteLines, step, hReset, pramPorts, resetRegs, hWe]
  exact {
    ce := rfl
    clk := rfl
    pram := hPram
    wprot := rfl
    short := by simp [Log.closed]
    agrees := ⟨rfl, rfl, rfl, rfl, rfl, rfl⟩ }

/- Only the last bit of a byte reaches the write port. -/
theorem pramWe_of_not_exec (hExec : execNow s i = false) :
    pramWe s i = false := by
  simp [pramWe, hExec]

/- A change of the enable line. -/
theorem refines_abort
    (hRef : Refines (s, g))
    (hReset : i.nreset = true)
    (hChange : (i.ceN != g.ce) = true) :
    Refines (step cfg s i, noteLines g i) := by
  have hCe : s.ceD = g.ce := hRef.ce
  have hDiffer : (i.ceN == g.ce) = false := by
    simpa [bne] using hChange
  have hWe : pramWe s i = false :=
    pramWe_of_not_exec (by simp [execNow, hReset, hCe, hDiffer])
  rcases step_clocked cfg (s := s) hReset with
    ⟨sec, init, div, hStep⟩
  rw [hStep, landRead_eq]
  simp only [noteLines, hReset, hChange, bitEngine, hCe,
    pramPorts, hWe]
  exact {
    ce := rfl
    clk := rfl
    pram := hRef.pram
    wprot := hRef.wprot
    short := by simp [Log.closed]
    agrees := ⟨rfl, rfl, rfl, rfl, rfl, rfl⟩ }

theorem execNow_eq (hReset : i.nreset = true) :
    execNow s i =
      ((i.ceN == s.ceD) && (!i.ceN && s.clkD && !i.clkIn) &&
        !s.dirOut && s.bitCount == 7#4) := by
  simp [execNow, hReset, Bool.and_assoc]

/- A clock without an edge. -/
theorem refines_still
    (hRef : Refines (s, g))
    (hReset : i.nreset = true)
    (hSame : (i.ceN != g.ce) = false)
    (hStill : g.falls i = false) :
    Refines (step cfg s i, noteLines g i) := by
  have hCe : s.ceD = g.ce := hRef.ce
  have hClk : s.clkD = g.clk := hRef.clk
  have hStay : (!i.ceN && s.clkD && !i.clkIn) = false := by
    rw [hClk]
    exact hStill
  have hWe : pramWe s i = false := by
    apply pramWe_of_not_exec
    rw [execNow_eq hReset, hStay]
    simp
  rcases step_clocked cfg (s := s) hReset with
    ⟨sec, init, div, hStep⟩
  rw [hStep, landRead_eq]
  simp only [noteLines, hReset, hSame, hStill, bitEngine, hCe,
    hStay, pramPorts, hWe, Bool.not_true, Bool.false_eq_true,
    if_false]
  refine {
    ce := rfl
    clk := rfl
    pram := hRef.pram
    wprot := hRef.wprot
    short := hRef.short
    agrees := agrees_of_agrees (s := s) (g := g) rfl rfl rfl
      ?_ ?_ hRef.agrees }
  · intro _ hReceive
    have hPend : s.rdPend = false := hReceive.rdPend
    exact {
      dirOut := hReceive.dirOut
      rdPend := rfl
      dataByte := by
        simp only [hPend]
        exact hReceive.dataByte
      bitCount := hReceive.bitCount
      sent := hReceive.sent }
  · intro b _ hSend
    exact {
      dirOut := hSend.dirOut
      bitCount := hSend.bitCount
      byte := by
        intro v hv
        refine Or.inr ⟨rfl, ?_⟩
        rcases hSend.byte v hv with ⟨hPend, hByte, -⟩ |
          ⟨hPend, hByte⟩
        · simp only [show s.rdPend = true from hPend, if_true]
          exact hByte
        · simp only [show s.rdPend = false from hPend]
          exact hByte
      shown := hSend.shown }

/- A clock that shows one more bit. -/
theorem sending_clocked
    {s' : Chip} {g' : Log} {b : Option Byte}
    (hSend : Sending s g b)
    (hClk : s.clkD = true)
    (hSent : g'.sent = g.sent + 1)
    (hDir : s'.dirOut = s.dirOut)
    (hPend : s'.rdPend = false)
    (hByte : s.rdPend = false → s'.dataByte = s.dataByte)
    (hCount : s'.bitCount = s.bitCount - 1#4)
    (hOut : s'.outBit =
      s.dataByte.getLsbD (s.bitCount - 1#4).toNat) :
    Sending s' g' b := by
  have hLanded : ∀ v, b = some v →
      s.rdPend = false ∧ s.dataByte = v := by
    intro v hv
    rcases hSend.byte v hv with ⟨-, -, -, hLow⟩ | hLanded
    · rw [hClk] at hLow
      simp at hLow
    · exact hLanded
  refine {
    dirOut := hDir.trans hSend.dirOut
    bitCount := ?_
    byte := ?_
    shown := ?_ }
  · rw [hCount, hSend.bitCount, hSent]
    apply BitVec.eq_of_toNat_eq
    simp only [BitVec.toNat_sub, BitVec.toNat_ofNat]
    omega
  · intro v hv
    rcases hLanded v hv with ⟨hIdle, hIs⟩
    exact Or.inr ⟨hPend, (hByte hIdle).trans hIs⟩
  · intro v hv k hk hThis
    have hIndex : (s.bitCount - 1#4).toNat = 7 - k := by
      rw [hSend.bitCount]
      simp only [BitVec.toNat_sub, BitVec.toNat_ofNat]
      omega
    rw [hOut, hIndex, (hLanded v hv).2]

/- A falling clock while the chip sends. -/
theorem refines_give
    {b : Option Byte}
    (hRef : Refines (s, g))
    (hReset : i.nreset = true)
    (hSame : (i.ceN != g.ce) = false)
    (hFalls : g.falls i = true)
    (hWants : g.served.2 = .clocks b) :
    Refines (step cfg s i, noteLines g i) := by
  have hCe : s.ceD = g.ce := hRef.ce
  have hClk : s.clkD = g.clk := hRef.clk
  have hEdge : (!i.ceN && s.clkD && !i.clkIn) = true := by
    rw [hClk]
    exact hFalls
  have hAgrees := hRef.agrees
  rw [hWants] at hAgrees
  have hDir : s.dirOut = true := hAgrees.2.dirOut
  have hWe : pramWe s i = false := by
    apply pramWe_of_not_exec
    rw [execNow_eq hReset, hDir]
    simp
  have hClocked : g.clocked i.dataIn =
      { g with sent := g.sent + 1 } := by
    unfold Log.clocked
    rw [hWants]
  rcases step_clocked cfg (s := s) hReset with
    ⟨sec, init, div, hStep⟩
  rw [hStep, landRead_eq]
  simp only [noteLines, hReset, hSame, hFalls, hClocked,
    bitEngine, hCe, hEdge, hDir, pramPorts, hWe, Bool.not_true,
    Bool.false_eq_true, if_false, if_true]
  refine {
    ce := rfl
    clk := rfl
    pram := hRef.pram
    wprot := hRef.wprot
    short := hRef.short
    agrees := agrees_of_agrees (s := s) (g := g) rfl rfl rfl
      ?_ ?_ hRef.agrees }
  · intro hNot
    exact absurd hWants (hNot b)
  · intro b' _ hSend
    have hHigh : s.clkD = true := by
      simp only [Bool.and_eq_true] at hEdge
      exact hEdge.1.2
    refine sending_clocked hSend hHigh rfl hDir.symm rfl ?_ rfl
      rfl
    intro hIdle
    simp [hIdle]

/- A falling clock that brings one of the first seven bits. -/
theorem refines_bit
    (hRef : Refines (s, g))
    (hReset : i.nreset = true)
    (hSame : (i.ceN != g.ce) = false)
    (hFalls : g.falls i = true)
    (hNot : ∀ b, g.served.2 ≠ .clocks b)
    (hMore : (g.bits.length == 7) = false) :
    Refines (step cfg s i, noteLines g i) := by
  have hCe : s.ceD = g.ce := hRef.ce
  have hClk : s.clkD = g.clk := hRef.clk
  have hEdge : (!i.ceN && s.clkD && !i.clkIn) = true := by
    rw [hClk]
    exact hFalls
  have hReceive : Receiving s g :=
    receiving_of_agrees hRef.agrees hNot
  have hShort : g.bits.length < 7 := by
    have hLe : g.bits.length < 8 := hRef.short
    have hNe : g.bits.length ≠ 7 := by simpa using hMore
    omega
  have hCount : (s.bitCount == 7#4) = false := by
    rw [hReceive.bitCount]
    simp only [beq_eq_false_iff_ne, ne_eq]
    intro hEq
    have hNat := congrArg BitVec.toNat hEq
    simp only [BitVec.toNat_ofNat] at hNat
    omega
  have hWe : pramWe s i = false := by
    apply pramWe_of_not_exec
    rw [execNow_eq hReset, hCount]
    simp
  have hClocked : g.clocked i.dataIn =
      { g with bits := g.bits ++ [i.dataIn] } := by
    unfold Log.clocked
    split
    · next b hWants => exact absurd hWants (hNot b)
    · simp [hMore]
  rcases step_clocked cfg (s := s) hReset with
    ⟨sec, init, div, hStep⟩
  rw [hStep, landRead_of_not hReceive.rdPend]
  simp only [noteLines, hReset, hSame, hFalls, hClocked,
    bitEngine, hCe, hEdge, hReceive.dirOut, hCount, pramPorts,
    hWe, Bool.not_true, Bool.false_eq_true, if_false, if_true]
  refine {
    ce := rfl
    clk := rfl
    pram := hRef.pram
    wprot := hRef.wprot
    short := by simpa using Nat.succ_lt_succ hShort
    agrees := agrees_of_agrees (s := s) (g := g) rfl rfl rfl
      ?_ ?_ hRef.agrees }
  · intro _ _
    exact {
      dirOut := rfl
      rdPend := hReceive.rdPend
      dataByte := by
        rw [byteOf_snoc, ← hReceive.dataByte]
        rfl
      bitCount := by
        rw [List.length_append, BitVec.ofNat_add,
          ← hReceive.bitCount]
        rfl
      sent := hReceive.sent }
  · intro b hWants
    exact absurd hWants (hNot b)

/- A falling clock that completes a byte. -/
theorem refines_byte
    (hRef : Refines (s, g))
    (hReset : i.nreset = true)
    (hSame : (i.ceN != g.ce) = false)
    (hFalls : g.falls i = true)
    (hNot : ∀ b, g.served.2 ≠ .clocks b)
    (hLast : (g.bits.length == 7) = true) :
    Refines (step cfg s i, noteLines g i) := by
  have hReceive : Receiving s g :=
    receiving_of_agrees hRef.agrees hNot
  have hCe : s.ceD = g.ce := hRef.ce
  have hClk : s.clkD = g.clk := hRef.clk
  have hLevels : (i.ceN = false ∧ g.clk = true) ∧
      i.clkIn = false := by
    simpa [Log.falls] using hFalls
  have hDone : Completes s i := {
    reset := hReset
    ceN := hLevels.1.1
    ceD := by
      rw [hCe]
      simpa [hLevels.1.1] using hSame
    clkD := hClk.trans hLevels.1.2
    clkIn := hLevels.2
    dirOut := hReceive.dirOut
    rdPend := hReceive.rdPend
    bitCount := by
      rw [hReceive.bitCount, beq_iff_eq.mp hLast] }
  have hNote : noteLines g i = g.withByte (bnow s i) := by
    have hByte : byteOf (g.bits ++ [i.dataIn]) = bnow s i := by
      rw [byteOf_snoc, ← hReceive.dataByte]
      rfl
    have hClocked : g.clocked i.dataIn =
        { g with
          bytes := g.bytes ++ [bnow s i], bits := [] } := by
      unfold Log.clocked
      split
      · next b hWants => exact absurd hWants (hNot b)
      · rw [hLast, hByte]
        rfl
    simp only [noteLines, hReset, hSame, hFalls, hClocked,
      Bool.not_true, Bool.false_eq_true, if_false, if_true]
    rw [hLevels.1.1, hLevels.2]
    rfl
  rw [hNote]
  have hAgrees := hRef.agrees
  cases hWants : g.served.2 with
  | command =>
      rw [hWants] at hAgrees
      exact refines_command cfg hRef hDone hWants hAgrees.1
        hReceive
  | data r =>
      rw [hWants] at hAgrees
      exact refines_data cfg hRef hDone hWants hAgrees.1
        hAgrees.2.1 hReceive
  | address c =>
      rw [hWants] at hAgrees
      exact refines_address cfg hRef hDone hWants hAgrees.1
        hAgrees.2.1 hReceive
  | extData a =>
      rw [hWants] at hAgrees
      exact refines_extData cfg hRef hDone hWants hAgrees.1
        hAgrees.2.1 hReceive
  | clocks b => exact absurd hWants (hNot b)

/- Every clock, on any levels of the host's lines. -/
theorem refines_step
    (x : Chip × Log)
    (i : In)
    (hRef : Refines x) :
    Refines (watch (step cfg) (fun g _ i => noteLines g i) x i) := by
  rcases x with ⟨s, g⟩
  show Refines (step cfg s i, noteLines g i)
  cases hReset : i.nreset with
  | false => exact refines_reset hRef hReset
  | true =>
      cases hChange : (i.ceN != g.ce) with
      | true => exact refines_abort hRef hReset hChange
      | false =>
          cases hFalls : g.falls i with
          | false =>
              exact refines_still hRef hReset hChange hFalls
          | true =>
              by_cases hSends : ∃ b, g.served.2 = .clocks b
              · rcases hSends with ⟨b, hWants⟩
                exact refines_give hRef hReset hChange hFalls
                  hWants
              · have hNot := not_exists.mp hSends
                cases hLast : (g.bits.length == 7) with
                | false =>
                    exact refines_bit hRef hReset hChange hFalls
                      hNot hLast
                | true =>
                    exact refines_byte hRef hReset hChange
                      hFalls hNot hLast

theorem refines_start (s : Chip) :
    Refines (logStart cfg s) := by
  have hWe : pramWe s { nreset := false } = false :=
    pramWe_of_not_exec rfl
  simp only [logStart, step, pramPorts, resetRegs, hWe,
    Bool.not_false, Bool.false_eq_true, if_false, if_true]
  exact {
    ce := rfl
    clk := rfl
    pram := rfl
    wprot := rfl
    short := Nat.zero_lt_succ 7
    agrees := ⟨rfl, rfl, rfl, rfl, rfl, rfl⟩ }

/-
  From reset on, the chip is the byte store after every
  clock, whatever the host does to its lines.  The contract
  of two core clocks for each level is not even needed: a
  falling edge cannot follow another at once, and one clock
  is all that a late read takes.
-/
theorem pram_is_byte_store
    (cfg : Config)
    (s : Chip)
    (is : List In) :
    Always (watch (step cfg) (fun g _ i => noteLines g i))
      IsByteStore (logStart cfg s) is :=
  always_mono (fun _ hRef => isByteStore_of_refines hRef)
    (always_of_along (fun x i hRef _ => refines_step x i hRef)
      (along_of_mem (p := fun _ => True) (fun _ _ => trivial))
      (refines_start s))

end Rtc
