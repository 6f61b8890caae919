import Wombat33.MacQuadra800.Phases

/-
  What the memories hold in a step, and what they answer.

  A beat changes the contents at one of the edges it is on
  the port, and maybe again at a later one, to no effect.
  The contents are so those of a device that takes each beat
  at once, with the beat on the port done or not yet.

  Key definitions include:
    * `Emu.touched`, `Emu.done`
    * `Books.current`
    * `Held`

  Key theorems include:
    * `contents_step`
    * `agrees_of_held`
-/

------------------------------------------------------------
-- Beats Twice Done
------------------------------------------------------------

namespace MacQuadra800

open Lanes (storeLanes_storeLanes)
open Quadra800 (Wire mselRam mselRom)

variable {p : Phys} {w : Wire}

theorem merge_merge (be : BitVec 4) (d w : BitVec 32) :
    Vram.merge be d (Vram.merge be d w) = Vram.merge be d w := by
  rcases Lanes.byte_append
    (if be.getLsbD 3 then Lanes.byte 3 d else Lanes.byte 3 w)
    (if be.getLsbD 2 then Lanes.byte 2 d else Lanes.byte 2 w)
    (if be.getLsbD 1 then Lanes.byte 1 d else Lanes.byte 1 w)
    (if be.getLsbD 0 then Lanes.byte 0 d else Lanes.byte 0 w)
    with ⟨h3, h2, h1, h0⟩
  have hFour (v : BitVec 32) : Vram.merge be d v =
      (if be.getLsbD 3 then Lanes.byte 3 d
          else Lanes.byte 3 v) ++
        (if be.getLsbD 2 then Lanes.byte 2 d
          else Lanes.byte 2 v) ++
        (if be.getLsbD 1 then Lanes.byte 1 d
          else Lanes.byte 1 v) ++
        (if be.getLsbD 0 then Lanes.byte 0 d
          else Lanes.byte 0 v) := rfl
  rw [hFour (Vram.merge be d w), hFour w, h3, h2, h1, h0]
  split_ifs <;> rfl

/- A beat done again changes nothing. -/
theorem exec_exec (p : Phys) (w : Wire) :
    (p.exec w).exec w = p.exec w := by
  cases w with
  | mem memsel b =>
      simp only [Phys.exec]
      cases b.write with
      | false => rfl
      | true =>
          simp only [if_true, Phys.store]
          by_cases hRam : (memsel == mselRam) = true
          · simp only [hRam, if_true, storeLanes_storeLanes,
              BitVec.or_self]
          · by_cases hRom : (memsel == mselRom) = true
            · simp only [hRam, hRom, if_true, if_false,
                Bool.false_eq_true]
            · simp only [hRam, hRom, if_false,
                Bool.false_eq_true, Phys.place, Mapped.modify,
                Function.update_self, Function.update_idem,
                merge_merge]
  | iosb write addr be wdata => rfl
  | dafb write addr wdata =>
      simp only [Phys.exec]
      split <;> rfl

theorem ahead_ahead (p : Phys) (w : Option Wire) (a b : Bool) :
    memories.ahead (memories.ahead p w a) w b =
      memories.ahead p w (a || b) := by
  cases w with
  | none => rfl
  | some w =>
      cases a <;> cases b <;>
        simp [Clocked.Device.ahead, memories, exec_exec]

/- A beat that changes nothing. -/
def passive : Wire → Bool
  | .mem memsel b => !b.write || memsel == mselRom
  | .dafb write _ _ => !write
  | .iosb _ _ _ _ => true

theorem ahead_passive
    (hPassive : passive w = true)
    (p : Phys)
    (a : Bool) :
    memories.ahead p (some w) a = p := by
  have hSame : p.exec w = p := by
    cases w with
    | mem memsel b =>
        simp only [passive, Bool.or_eq_true,
          Bool.not_eq_true'] at hPassive
        rcases hPassive with hRead | hRom
        · simp [Phys.exec, hRead]
        · have hRam : (memsel == mselRam) = false := by
            rw [beq_iff_eq.mp hRom]
            rfl
          simp [Phys.exec, Phys.store, hRom, hRam]
    | iosb write addr be wdata => rfl
    | dafb write addr wdata =>
        have hRead : write = false := by
          simpa [passive] using hPassive
        simp [Phys.exec, hRead]
  cases a <;> simp [Clocked.Device.ahead, memories, hSame]

end MacQuadra800

------------------------------------------------------------
-- The Contents in a Step
------------------------------------------------------------

namespace MacQuadra800

open Lanes (loadWord storeLanes)
open Quadra800 (Wire onWire mselRam mselRom)

variable {cells₀ : Cells} {m : Emu} {d : EmuIn}
variable {log : Sdram.Log} {upload : Upload}

/- The beat on the memory port. -/
def portBeat (m : Emu) : Quadra800.Beat :=
  ⟨m.board.service.memWrite, m.board.service.memAddr,
    m.board.service.memBe, m.board.service.memWdata⟩

/- The beat on the port changes the contents in this step. -/
def Emu.touched (m : Emu) : Bool :=
  if m.beat.req then
    (if m.beat.isRam then m.captures else !m.ddr.vramPh)
  else m.board.service.dafbSel && !m.dafb.ack

theorem mem_step (m : Emu) (d : EmuIn) (log : Sdram.Log) :
    (logEdges m d log).mem =
      if m.captures && m.beat.write then
        storeLanes log.mem (m.beat.addr.extractLsb' 0 25)
          m.board.service.memBe m.board.service.memWdata
      else log.mem := by
  rw [(log_edges m d log).1]
  simp only [Sdram.noteBeat, captures_sdram]
  rfl

theorem want_step (m : Emu) (d : EmuIn) (log : Sdram.Log) :
    (logEdges m d log).want =
      if m.captures && !m.beat.write then
        loadWord log.mem (m.beat.addr.extractLsb' 0 25)
      else log.want := by
  rw [(log_edges m d log).2]
  simp only [Sdram.noteBeat, captures_sdram]
  rfl

/- Where the video memory keeps the longword on the port. -/
theorem place_eq :
    Vram.State.vaAddr (m.vramIn d) =
      (contents cells₀ m log upload).place
        m.board.service.memAddr := rfl

theorem word_step (m : Emu) (d : EmuIn) :
    (m.step d).vramState.word =
      if m.beat.req && m.beat.isVram && m.beat.write &&
          !m.ddr.vramPh then
        Mapped.modify m.vramState.word
          (Vram.State.vaAddr (m.vramIn d))
          (Vram.merge m.board.service.memBe
            m.board.service.memWdata)
      else m.vramState.word :=
  @Vram.word_step m.vramState (m.vramIn d)

theorem strideWords_step (hReset : m.reset d = false) :
    (m.step d).dafb.strideWords =
      if m.board.service.dafbSel && !m.dafb.ack &&
          (m.board.service.dafbWrite &&
            Phys.isStride m.board.service.dafbAddr) then
        m.board.service.dafbWdata.extractLsb' 0 12
      else m.dafb.strideWords :=
  @Dafb.step_strideWords m.dafb (m.dafbBus d) d.vblStart
    (by simp [Emu.dafbBus, hReset]) rfl

/- Downloads come in reset only. -/
theorem rom_kept (hReset : m.reset d = false) :
    (noteUpload upload m.rom (m.romIn d)).rom cells₀ =
      upload.rom cells₀ := by
  have hNone := @no_capture m.rom (m.romIn d) hReset
  simp [Upload.rom, noteUpload, hNone]

/- With no beat on the port no memory takes one. -/
theorem captures_idle (hReq : m.beat.req = false) :
    m.captures = false := by
  rw [← Bool.not_eq_true, captures_iff, hReq]
  exact fun h => Bool.noConfusion h.1

theorem captures_other (hRam : m.beat.isRam = false) :
    m.captures = false := by
  rw [← Bool.not_eq_true, captures_iff, hRam]
  exact fun h => Bool.noConfusion h.2.1

/- The contents an edge leaves, memory by memory. -/
theorem contents_next (hReset : m.reset d = false) :
    contents cells₀ (m.step d) (logEdges m d log)
        (noteUpload upload m.rom (m.romIn d)) =
      { ram := (logEdges m d log).mem
        rom := upload.rom cells₀
        vram := (m.step d).vramState.word
        strideWords := (m.step d).dafb.strideWords } := by
  unfold contents
  rw [rom_kept hReset]

/- A beat of the memory port, as the device takes it. -/
theorem contents_beat (hReq : m.beat.req = true) :
    ({ ram :=
        if m.captures && m.beat.write then
          storeLanes log.mem (m.beat.addr.extractLsb' 0 25)
            m.board.service.memBe m.board.service.memWdata
        else log.mem
       rom := upload.rom cells₀
       vram :=
        if m.beat.isVram && m.beat.write && !m.ddr.vramPh then
          Mapped.modify m.vramState.word
            (Vram.State.vaAddr (m.vramIn d))
            (Vram.merge m.board.service.memBe
              m.board.service.memWdata)
        else m.vramState.word
       strideWords := m.dafb.strideWords } : Phys) =
      memories.ahead (contents cells₀ m log upload)
        (some (.mem m.beat.memsel (portBeat m))) m.touched := by
  cases hWrite : m.beat.write with
  | false =>
      have hPassive : passive
          (.mem m.beat.memsel (portBeat m)) = true := by
        have hRead : (portBeat m).write = false := hWrite
        simp [passive, hRead]
      rw [ahead_passive hPassive]
      simp only [Bool.and_false, Bool.false_and,
        Bool.false_eq_true, if_false]
      rfl
  | true =>
      have hStore : (portBeat m).write = true := hWrite
      simp only [Bool.and_true, Clocked.Device.ahead, memories,
        Phys.exec, hStore, if_true, Phys.store, Emu.touched,
        hReq]
      cases hRam : m.beat.isRam with
      | true =>
          have hSel : (m.beat.memsel == mselRam) = true := hRam
          simp only [hSel, if_true, Beat.isVram, hRam,
            Bool.not_true, Bool.false_and, Bool.false_eq_true,
            if_false]
          split <;> rfl
      | false =>
          have hSel : (m.beat.memsel == mselRam) = false := hRam
          simp only [hSel, captures_other hRam,
            Bool.false_eq_true, if_false, Beat.isVram, hRam,
            Bool.not_false, Bool.true_and]
          cases hRom : m.beat.isRom with
          | true =>
              have hSel' : (m.beat.memsel == mselRom) = true :=
                hRom
              simp only [hSel', if_true, Bool.not_true,
                Bool.false_and, Bool.false_eq_true, if_false,
                ite_self]
              rfl
          | false =>
              have hSel' : (m.beat.memsel == mselRom) = false :=
                hRom
              simp only [hSel', Bool.false_eq_true, if_false,
                Bool.not_false, Bool.true_and]
              split <;> rfl

theorem contents_step
    {t : Quadra800.Traffic}
    (hTraffic : Quadra800.TrafficInv m.board.service t)
    (hReset : m.reset d = false) :
    contents cells₀ (m.step d) (logEdges m d log)
        (noteUpload upload m.rom (m.romIn d)) =
      memories.ahead (contents cells₀ m log upload)
        (onWire m.board.service) m.touched := by
  rw [contents_next hReset, mem_step, word_step,
    strideWords_step hReset]
  have hPort := Quadra800.requested_onWire hTraffic
  rcases hWire : onWire m.board.service with _ | w
  · rw [hWire] at hPort
    rcases hPort with ⟨hMem, -, hDafb⟩
    have hReq : m.beat.req = false := hMem
    simp only [captures_idle hReq, hReq, hDafb, Bool.false_and,
      Bool.false_eq_true, if_false]
    rfl
  cases w with
  | mem memsel b =>
      rw [hWire] at hPort
      rcases hPort with ⟨hMem, -, hDafb, rfl, rfl⟩
      have hReq : m.beat.req = true := hMem
      simp only [hDafb, Bool.false_and, Bool.false_eq_true,
        if_false, hReq, Bool.true_and]
      exact contents_beat hReq
  | iosb write addr be wdata =>
      rw [hWire] at hPort
      rcases hPort with ⟨hMem, -, hDafb, -⟩
      have hReq : m.beat.req = false := hMem
      simp only [captures_idle hReq, hReq, hDafb, Bool.false_and,
        Bool.false_eq_true, if_false]
      exact (ahead_passive rfl _ _).symm
  | dafb write addr wdata =>
      rw [hWire] at hPort
      rcases hPort with ⟨hMem, -, hDafb, rfl, rfl, rfl⟩
      have hReq : m.beat.req = false := hMem
      simp only [captures_idle hReq, hReq, hDafb, Bool.false_and,
        Bool.false_eq_true, if_false, Emu.touched, Bool.true_and,
        Clocked.Device.ahead, memories, Phys.exec]
      cases m.dafb.ack with
      | true => rfl
      | false =>
          simp only [Bool.not_false, Bool.true_and, if_true]
          split <;> rfl

end MacQuadra800
