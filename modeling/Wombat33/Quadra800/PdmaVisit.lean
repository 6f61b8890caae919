import Wombat33.Quadra800.Joined

/-
  The bytes of a CPU transaction in the pseudo-DMA window.

  Beside the machine goes the board's ledger, the beat slave's
  present beat and the bytes that moved for the transaction in
  progress.  These are, beat by beat, the bytes of the beats
  already answered and then those of the beat in service.

  Key definitions include:
    * `Book`, `Book.note`
    * `Inside`, `Carried`, `Chunks`
    * `MachineInv`

  Key theorems include:
    * `serving_beat`, `serving_port`
    * `machineInv_step`
-/

------------------------------------------------------------
-- The Book
------------------------------------------------------------

namespace Quadra800

open Bus32

structure Book where
  ledger : Ledger := {}
  present : Iosb.Present := ⟨false, 0#4, 0#32, []⟩
  moved : List Iosb.Byte := []

/- What moves in this cycle, if not for the walker. -/
def cpuMoves (m : Machine) (d : Drive) : List Iosb.Byte :=
  if m.board.service.svcWalker then []
  else Iosb.poppedNow m.asic (asicIn m d) ++
    Iosb.takenNow m.asic (asicIn m d)

def Book.note (g : Book) (m : Machine) (d : Drive) : Book where
  ledger := g.ledger.note m.board (boardIn m d)
  present := g.present.note m.asic (asicIn m d)
  moved :=
    if !d.env.nreset || g.ledger.cpu.now.isNone then []
    else g.moved ++ cpuMoves m d

/- A beat in the pseudo-DMA window. -/
def Beat.InWindow (b : Beat) : Prop :=
  b.addr.extractLsb' 26 4 = 5#4 ∧
    Iosb.device { addr := b.addr.extractLsb' 0 26 } = .sdma

/- All beats of the transaction are. -/
def Inside (t : Txn) : Prop :=
  (firstBeat t).InWindow ∧
    (isSplit t = true → (tailBeat t).InWindow)

/- The bytes that moved for a beat answered with this data. -/
def Carried
    (b : Beat)
    (w : BitVec 32)
    (bytes : List Iosb.Byte) : Prop :=
  Iosb.BeatDone w ⟨b.write, b.be, b.wdata, bytes⟩

def beatAt (t : Txn) (k : Nat) : Beat :=
  if k = 0 then firstBeat t else tailBeat t

/- The bytes of each answered beat of a visit. -/
structure Chunks
    (v : Visit) (chunks : List (List Iosb.Byte)) : Prop where
  count : chunks.length = v.replies.length
  carried : ∀ k w c, v.replies[k]? = some (.data w) →
    chunks[k]? = some c → Carried (beatAt v.txn k) w c

/- The bytes of the beat asked for and not heard of. -/
structure Current
    (m : Machine) (g : Book) (c : List Iosb.Byte) : Prop where
  answered : m.board.service.bAck = true →
    Carried (busBeat m.board.bus) m.board.service.bRdata c
  waiting : m.board.service.bAck = false →
    inService .cpu g.ledger.traffic = false → c = []
  pending : inService .cpu g.ledger.traffic = true →
    Iosb.AtRest m.asic → c = []
  working : inService .cpu g.ledger.traffic = true →
    ¬ Iosb.AtRest m.asic → c = g.present.moved

/- What moved for the visit: answered beats, then the open. -/
def Accounted (m : Machine) (g : Book) (v : Visit) : Prop :=
  ∃ chunks c, g.moved = chunks.flatten ++ c ∧
    Chunks v chunks ∧ Current m g c

structure MachineInv (x : Machine × Book) : Prop where
  board : BoardInv (x.1.board, x.2.ledger)
  link : Linked x.1.board.service x.1.asic x.2.present
  visit : ∀ v, x.2.ledger.cpu.now = some v → Inside v.txn →
    x.1.board.service.cpuBerr = false → Accounted x.1 x.2 v

end Quadra800

------------------------------------------------------------
-- The Beat in Service
------------------------------------------------------------

namespace Quadra800

open Bus32

variable {m : Machine} {d : Drive} {g : Book} {j : Job}
variable {v : Visit}

theorem decode_window
    {overlay : Bool}
    {ramCfg : BitVec 2}
    {a : BitVec 30}
    (hTop : a.extractLsb' 26 4 = 5#4) :
    decode overlay ramCfg a = .iosb := by
  have hRom : a.extractLsb' 26 4 ≠ 4#4 := by
    rw [hTop]
    decide
  have hBit : a[28] = true := by
    have h := congrArg (fun x => x.getLsbD 2) hTop
    simpa using h
  have hBit' : a[29] = false := by
    have h := congrArg (fun x => x.getLsbD 3) hTop
    simpa using h
  have hLow : a.extractLsb' 20 10 ≠ 0#10 := by
    intro h
    have hZero := congrArg (fun x => x.getLsbD 8) h
    simp [hBit] at hZero
  have hRam : a.extractLsb' 28 2 ≠ 0#2 := by
    intro h
    have hZero := congrArg (fun x => x.getLsbD 0) h
    simp [hBit] at hZero
  have hVram : a.extractLsb' 19 11 ≠ 0b11111001000#11 := by
    intro h
    have hOne := congrArg (fun x => x.getLsbD 10) h
    simp [hBit'] at hOne
  have hDafb :
      a.extractLsb' 8 22 ≠ 0b1111100110000000000000#22 := by
    intro h
    have hOne := congrArg (fun x => x.getLsbD 21) h
    simp [hBit'] at hOne
  simp [decode, hTop, hLow, hRam, hVram, hDafb]

/- The CPU's beat in service is the one on its pins. -/
theorem serving_beat
    (hInv : BoardInv (m.board, g.ledger))
    (hServing : g.ledger.traffic.serving = some j)
    (hOwner : j.owner = .cpu) :
    j.beat = busBeat m.board.bus := by
  have hIn : inService .cpu g.ledger.traffic = true := by
    simp [inService, hServing, owns, hOwner]
  have hEngaged :
      engaged .cpu m.board.service g.ledger.traffic = true := by
    simp [engaged, hIn]
  have hActive : m.board.bus.active = true :=
    hInv.cpu.busy hEngaged
  have hJobs : g.ledger.traffic.jobs =
      g.ledger.traffic.served.map Prod.fst ++ [j] := by
    have hAll := hInv.traffic.jobs
    rw [hServing] at hAll
    exact hAll
  have hTaken : g.ledger.cpu.beats =
      beatsOf .cpu
          (g.ledger.traffic.served.map Prod.fst) ++
        [j.beat] := by
    have hAll := hInv.cpu.taken
    rw [hEngaged, hJobs] at hAll
    simpa [waiting, beatsOf, hOwner] using hAll
  have hBeats := hInv.cpu.beats
  rcases active_cases hInv.cpu hActive with ⟨v, hNow, hOut⟩
  rw [visits_some hNow, List.flatMap_append, List.flatMap_cons,
    List.flatMap_nil, List.append_nil, hTaken] at hBeats
  rcases hOut with hFirst | hTail
  · have hPresented : v.presented = [busBeat m.board.bus] := by
      simp [Visit.presented, hFirst.replies, hFirst.beat]
    rw [hPresented] at hBeats
    exact List.singleton_inj.mp (List.append_inj' hBeats rfl).2
  · rcases hTail.replies with ⟨w, hReplies, -⟩
    have hPresented : v.presented =
        [firstBeat v.txn] ++ [busBeat m.board.bus] := by
      simp [Visit.presented, hReplies, hTail.split, hTail.beat]
    rw [hPresented, ← List.append_assoc] at hBeats
    exact List.singleton_inj.mp (List.append_inj' hBeats rfl).2

/- Its place among the beats of the visit. -/
theorem beat_place
    (hOut : FirstOut m.board.bus v ∨ TailOut m.board.bus v) :
    busBeat m.board.bus = beatAt v.txn v.replies.length := by
  rcases hOut with hFirst | hTail
  · rw [hFirst.beat, hFirst.replies]
    rfl
  · rcases hTail.replies with ⟨w, hReplies, -⟩
    rw [hTail.beat, hReplies]
    rfl

theorem beat_inside
    (hOut : FirstOut m.board.bus v ∨ TailOut m.board.bus v)
    (hInside : Inside v.txn) :
    (busBeat m.board.bus).InWindow := by
  rcases hOut with hFirst | hTail
  · rw [hFirst.beat]
    exact hInside.1
  · rw [hTail.beat]
    exact hInside.2 hTail.split

/- The port while a beat of the window is in service. -/
theorem serving_port
    (hInv : BoardInv (m.board, g.ledger))
    (hServing : g.ledger.traffic.serving = some j)
    (hWindow : j.beat.InWindow) :
    m.board.service.svc = .iosb ∧
      sdmaPort m.board.service ∧
      m.board.service.iosbWrite = j.beat.write ∧
      m.board.service.iosbBe = j.beat.be ∧
      m.board.service.iosbWdata = j.beat.wdata := by
  have hJobs : g.ledger.traffic.jobs =
      g.ledger.traffic.served.map Prod.fst ++ [j] := by
    have hAll := hInv.traffic.jobs
    rw [hServing] at hAll
    exact hAll
  have hPrefix :
      g.ledger.traffic.served.map Prod.fst ++ [j] <+:
        g.ledger.traffic.jobs := by
    simp [hJobs]
  have hTarget : j.target = .iosb := by
    rw [hInv.traffic.routed _ j hPrefix]
    exact decode_window hWindow.1
  have hBusy := hInv.traffic.busy j hServing
  have hPort := hBusy.port
  simp only [Job.wire, hTarget, Requested] at hPort
  rcases hPort with ⟨-, -, -, hWrite, hAddr, hBe, hData⟩
  have hSvc : m.board.service.svc = .iosb := by
    rw [hBusy.svc, hTarget]
    rfl
  refine ⟨hSvc, ?_, hWrite, hBe, hData⟩
  rw [sdmaPort, hAddr]
  exact hWindow.2

/- With no beat in service the beat slave is at rest. -/
theorem atRest_of_idle
    {sv : Service}
    {s : Iosb.Asic}
    {p : Iosb.Present}
    (hLink : Linked sv s p)
    (hSvc : sv.svc = .idle) :
    Iosb.AtRest s := by
  cases hLink with
  | free _ hRest => exact hRest
  | pending hOn => simp [hOn] at hSvc
  | working hOn => simp [hOn] at hSvc
  | answered hOn => simp [hOn] at hSvc

/- The beat slave at rest moves nothing. -/
theorem cpuMoves_rest
    (hRest : Iosb.Resting m.asic) :
    cpuMoves m d = [] := by
  rcases @Iosb.moves_of_resting m.asic (asicIn m d) hRest with
    ⟨hPops, hTakes⟩
  simp [cpuMoves, Iosb.poppedNow, Iosb.takenNow, hPops, hTakes]

/- Nothing moves for the CPU while none of its beats is on. -/
theorem cpuMoves_off
    (hInv : BoardInv (m.board, g.ledger))
    (hLink : Linked m.board.service m.asic g.present)
    (hOff : inService .cpu g.ledger.traffic = false) :
    cpuMoves m d = [] := by
  cases hServing : g.ledger.traffic.serving with
  | none =>
      have hSvc := (hInv.traffic.free hServing).svc
      exact cpuMoves_rest (atRest_of_idle hLink hSvc).rest
  | some j =>
      have hOwner := (hInv.traffic.busy j hServing).owner
      have hWalker : j.owner = .walker := by
        cases hWho : j.owner with
        | walker => rfl
        | cpu =>
            simp [inService, hServing, owns, hWho] at hOff
      have hOn : m.board.service.svcWalker = true := by
        simpa [hWalker] using hOwner
      simp [cpuMoves, hOn]

end Quadra800

------------------------------------------------------------
-- One Cycle of a Visit
------------------------------------------------------------

namespace Quadra800

open Bus32

variable {cfg : Iosb.Config} {m : Machine} {d : Drive}
variable {g : Book} {j : Job} {v : Visit}
variable {chunks : List (List Iosb.Byte)} {c : List Iosb.Byte}

/- One more beat is answered with data. -/
theorem chunks_reply
    (hChunks : Chunks v chunks)
    {w : BitVec 32}
    (hCarried : Carried (beatAt v.txn v.replies.length) w c) :
    Chunks (v.reply (.data w)) (chunks ++ [c]) where
  count := by
    simp [Visit.reply, hChunks.count]
  carried := by
    intro k w' c' hReply hChunk
    have hLength := hChunks.count
    by_cases hOld : k < v.replies.length
    · rw [Visit.reply, List.getElem?_append_left hOld] at hReply
      rw [List.getElem?_append_left (by omega)] at hChunk
      exact hChunks.carried k w' c' hReply hChunk
    · rw [Visit.reply, List.getElem?_append_right (by omega)]
        at hReply
      rw [List.getElem?_append_right (by omega)] at hChunk
      have hLast : k = v.replies.length := by
        have hIn := (List.getElem?_eq_some_iff.mp hReply).1
        simp at hIn
        omega
      rw [hLast, Nat.sub_self] at hReply
      rw [hLast, hLength, Nat.sub_self] at hChunk
      have hData : w = w' := by simpa using hReply
      have hBytes : c = c' := by simpa using hChunk
      rw [hLast, ← hData, ← hBytes]
      exact hCarried

/- With nothing answered and nothing in service. -/
theorem current_nil
    (hAck : m.board.service.bAck = false)
    (hRest : inService .cpu g.ledger.traffic = true →
      Iosb.AtRest m.asic) :
    Current m g [] where
  answered := by
    intro hOn
    rw [hAck] at hOn
    exact Bool.noConfusion hOn
  waiting := fun _ _ => rfl
  pending := fun _ _ => rfl
  working := fun hIn hNot => absurd (hRest hIn) hNot

/- The machine and its book a cycle on, out of reset. -/
theorem board_step (hReset : d.env.nreset = true) :
    (m.step cfg d).board =
      ⟨Bus32.clock m.board.bus (busIn m.board (boardIn m d)),
        clock m.board.service (pins m.board (boardIn m d))⟩ := by
  have hBus := @bus_enabled m.board (boardIn m d) hReset rfl
  have hService := @service_enabled m.board (boardIn m d) hReset
    rfl
  simp only [Machine.step, Board.step, hBus, hService]

theorem ledger_note (hReset : d.env.nreset = true) :
    (g.note m d).ledger =
      { traffic := g.ledger.traffic.note m.board.service
          (pins m.board (boardIn m d))
        cpu := g.ledger.cpu.note m.board (boardIn m d)
        walker := g.ledger.walker.note m.board (boardIn m d) } := by
  have hLive : (boardIn m d).nreset = true := hReset
  have hCe : (boardIn m d).ce = true := rfl
  simp [Book.note, Ledger.note, hLive, hCe]

/- Neither told nor in service after this cycle. -/
theorem flags_off
    (hTraffic : TrafficInv m.board.service g.ledger.traffic)
    (hTakes : takes .cpu m.board.service
      (pins m.board (boardIn m d)) = false)
    (hIn : inService .cpu g.ledger.traffic = false) :
    (clock m.board.service
        (pins m.board (boardIn m d))).bAck = false ∧
      inService .cpu (g.ledger.traffic.note m.board.service
        (pins m.board (boardIn m d))) = false := by
  have hEngaged := @engaged_note m.board.service
    (pins m.board (boardIn m d)) g.ledger.traffic hTraffic .cpu
  rw [hTakes, hIn, engaged, answers_cpu] at hEngaged
  simp only [Bool.or_false, Bool.or_eq_false_iff] at hEngaged
  exact ⟨hEngaged.2.1, hEngaged.1⟩

/- The service takes a beat when it has none, and is quiet. -/
theorem idle_of_takes
    (hTakes : takes .cpu m.board.service
      (pins m.board (boardIn m d)) = true) :
    m.board.service.svc = .idle := by
  rw [takes_cpu_pins] at hTakes
  simp only [Bool.and_eq_true, decide_eq_true_eq] at hTakes
  exact hTakes.1.1

theorem dispatch_bAck (s : Service) (t : Target) (b : Beat) :
    (dispatch s t b).bAck = s.bAck := by
  cases t <;> rfl

theorem bAck_of_idle
    {s : Service}
    {i : Pins}
    (hSvc : s.svc = .idle) :
    (clock s i).bAck = false := by
  simp only [clock, hSvc, idle]
  split
  · rw [take, dispatch_bAck]
    rfl
  · rfl

/- The bytes of a visit in progress, a cycle on. -/
theorem moved_note
    (hReset : d.env.nreset = true)
    (hNow : g.ledger.cpu.now = some v) :
    (g.note m d).moved = g.moved ++ cpuMoves m d := by
  simp [Book.note, hReset, hNow]

/- Its beat's answer is heard. -/
theorem visit_heard
    (hReset : d.env.nreset = true)
    (hInv : MachineInv (m, g))
    (hNow : g.ledger.cpu.now = some v)
    (hOut : FirstOut m.board.bus v ∨ TailOut m.board.bus v)
    (hAck : m.board.service.bAck = true)
    (hOld : Accounted m g v) :
    Accounted (m.step cfg d) (g.note m d)
      (v.reply (.data m.board.service.bRdata)) := by
  rcases hOld with ⟨chunks, c, hMoved, hChunks, hCurrent⟩
  have hTraffic : TrafficInv m.board.service g.ledger.traffic :=
    hInv.board.traffic
  rcases @cpu_answered m.board (boardIn m d) g.ledger.traffic
    g.ledger.cpu hTraffic hInv.board.cpu (by simp [hAck]) with
    ⟨hIn, hTakes, -, -⟩
  rcases @flags_off m d g hTraffic hTakes hIn with
    ⟨hNextAck, hNextIn⟩
  have hCarried := hCurrent.answered hAck
  rw [beat_place hOut] at hCarried
  refine ⟨chunks ++ [c], [], ?_, chunks_reply hChunks hCarried,
    current_nil ?_ ?_⟩
  · rw [moved_note hReset hNow,
      cpuMoves_off hInv.board hInv.link hIn, hMoved]
    simp
  · rw [board_step hReset]
    exact hNextAck
  · rw [ledger_note hReset]
    intro hOn
    rw [hNextIn] at hOn
    exact Bool.noConfusion hOn

/- Its beat waits to be taken, or is taken. -/
theorem visit_off
    (hReset : d.env.nreset = true)
    (hInv : MachineInv (m, g))
    (hNow : g.ledger.cpu.now = some v)
    (hAck : m.board.service.bAck = false)
    (hIn : inService .cpu g.ledger.traffic = false)
    (hOld : Accounted m g v) :
    Accounted (m.step cfg d) (g.note m d) v := by
  rcases hOld with ⟨chunks, c, hMoved, hChunks, hCurrent⟩
  have hTraffic : TrafficInv m.board.service g.ledger.traffic :=
    hInv.board.traffic
  have hNothing : c = [] := hCurrent.waiting hAck hIn
  refine ⟨chunks, [], ?_, hChunks, current_nil ?_ ?_⟩
  · rw [moved_note hReset hNow,
      cpuMoves_off hInv.board hInv.link hIn, hMoved, hNothing,
      List.append_nil]
  · rw [board_step hReset]
    cases hTakes : takes .cpu m.board.service
        (pins m.board (boardIn m d)) with
    | false => exact (flags_off hTraffic hTakes hIn).1
    | true => exact bAck_of_idle (idle_of_takes hTakes)
  · intro hOn
    rw [ledger_note hReset] at hOn
    have hTakes : takes .cpu m.board.service
        (pins m.board (boardIn m d)) = true := by
      cases hTakes : takes .cpu m.board.service
          (pins m.board (boardIn m d)) with
      | true => rfl
      | false =>
          rw [(flags_off hTraffic hTakes hIn).2] at hOn
          exact Bool.noConfusion hOn
    have hSvc := idle_of_takes hTakes
    have hQuiet : m.board.service.iosbSel ≠ true := by
      rw [ne_eq, iosbSel_iff hTraffic, hSvc]
      exact Svc.noConfusion
    have hRest : Iosb.AtRest m.asic :=
      atRest_of_idle hInv.link hSvc
    have hNone : Iosb.accept m.asic (asicIn m d) = false := by
      rw [Bool.eq_false_iff, ne_eq, accept_asicIn]
      exact fun h => hQuiet h.2.1
    exact Iosb.atRest_step hReset rfl hRest.idle hRest.rest hNone

/- The CPU's beat on the port, by the beat slave's account. -/
theorem carried_port
    {b : Beat}
    {w : BitVec 32}
    {p : Iosb.Present}
    (hPort : OnPort m.board.service p)
    (hWrite : m.board.service.iosbWrite = b.write)
    (hBe : m.board.service.iosbBe = b.be)
    (hWdata : m.board.service.iosbWdata = b.wdata)
    (hDone : Iosb.BeatDone w p) :
    Carried b w p.moved := by
  have hSame : (⟨b.write, b.be, b.wdata, p.moved⟩ :
      Iosb.Present) = p := by
    rw [← hWrite, ← hBe, ← hWdata, ← hPort.write, ← hPort.be,
      ← hPort.wdata]
  rw [Carried, hSame]
  exact hDone

/- A CPU's beat in service, not answered in this cycle. -/
theorem serving_note
    {t : Traffic}
    (hServing : t.serving = some j)
    (hSvc : m.board.service.svc = .iosb)
    (hAck : m.asic.beat.ack = false) :
    (t.note m.board.service
      (pins m.board (boardIn m d))).serving = some j := by
  have hNone : replied m.board.service
      (pins m.board (boardIn m d)) = none := by
    simp [replied, hSvc, pins, boardIn, hAck]
  simp [Traffic.note, hServing, hNone]

/- Its beat is accepted: nothing has moved for it. -/
theorem visit_pending
    (hReset : d.env.nreset = true)
    (hTraffic : TrafficInv m.board.service g.ledger.traffic)
    (hNow : g.ledger.cpu.now = some v)
    (hSvc : m.board.service.svc = .iosb)
    (hIn : inService .cpu g.ledger.traffic = true)
    (hRest : Iosb.AtRest m.asic)
    (hOld : Accounted m g v) :
    Accounted (m.step cfg d) (g.note m d) v := by
  rcases hOld with ⟨chunks, c, hMoved, hChunks, hCurrent⟩
  have hNothing := hCurrent.pending hIn hRest
  have hAccept : Iosb.accept m.asic (asicIn m d) = true :=
    accept_asicIn.mpr ⟨hRest.idle,
      (iosbSel_iff hTraffic).mpr hSvc, hRest.ack⟩
  have hPresent : (g.note m d).present.moved = [] := by
    show (g.present.note m.asic (asicIn m d)).moved = []
    simp only [Iosb.Present.note, hAccept]
    simp [asicIn, hReset]
  refine ⟨chunks, [], ?_, hChunks, ?_⟩
  · rw [moved_note hReset hNow, cpuMoves_rest hRest.rest,
      hMoved, hNothing, List.append_nil]
  · exact {
      answered := by
        rw [board_step hReset, service_waits hSvc hRest.ack]
        exact Bool.noConfusion
      waiting := fun _ _ => rfl
      pending := fun _ _ => rfl
      working := fun _ _ => hPresent.symm }

/- Its beat is in work: what moves is added to its bytes. -/
theorem visit_working
    (hReset : d.env.nreset = true)
    (hNow : g.ledger.cpu.now = some v)
    (hSvc : m.board.service.svc = .iosb)
    (hWalker : m.board.service.svcWalker = false)
    (hServing : g.ledger.traffic.serving = some j)
    (hOwner : j.owner = .cpu)
    (hWork : m.asic.beat.astate ≠ .idle)
    (hAck : m.asic.beat.ack = false)
    (hOld : Accounted m g v) :
    Accounted (m.step cfg d) (g.note m d) v := by
  rcases hOld with ⟨chunks, c, hMoved, hChunks, hCurrent⟩
  have hIn : inService .cpu g.ledger.traffic = true := by
    simp [inService, hServing, owns, hOwner]
  have hBytes := hCurrent.working hIn
    (fun hRest => hWork hRest.idle)
  have hNone : Iosb.accept m.asic (asicIn m d) = false := by
    simp [Iosb.accept, hWork]
  have hEnded := @Iosb.ended_iff cfg m.asic (asicIn m d)
    hReset rfl (Or.inl hWork)
  have hPresent : (g.note m d).present.moved =
      g.present.moved ++ cpuMoves m d := by
    show (g.present.note m.asic (asicIn m d)).moved = _
    simp only [Iosb.Present.note, hNone, cpuMoves, hWalker]
    simp [asicIn, hReset]
  refine ⟨chunks, g.present.moved ++ cpuMoves m d, ?_, hChunks,
    ?_⟩
  · rw [moved_note hReset hNow, hMoved, hBytes,
      List.append_assoc]
  · exact {
      answered := by
        rw [board_step hReset, service_waits hSvc hAck]
        exact Bool.noConfusion
      waiting := by
        intro _ hOff
        rw [ledger_note hReset] at hOff
        simp [inService, serving_note hServing hSvc hAck,
          owns, hOwner] at hOff
      pending := by
        intro _ hRest
        have hOver := hEnded.mpr hRest.idle
        have hNotOver : (Iosb.step cfg m.asic
            (asicIn m d)).beat.ack = false := hRest.ack
        rw [hOver] at hNotOver
        exact Bool.noConfusion hNotOver
      working := fun _ _ => hPresent.symm }

/- The service's answer to a beat acknowledged by the IOSB. -/
theorem replied_iosb
    (hSvc : m.board.service.svc = .iosb)
    (hAck : m.asic.beat.ack = true) :
    replied m.board.service (pins m.board (boardIn m d)) =
      some (if m.asic.beat.sdmaFault then .fault
        else .data m.asic.beat.rdata) := by
  simp [replied, hSvc, pins, boardIn, hAck]

/- Its beat is acknowledged with data: the answer goes up. -/
theorem visit_answered
    (hReset : d.env.nreset = true)
    (hNow : g.ledger.cpu.now = some v)
    (hActive : m.board.bus.active = true)
    (hNoAck : m.board.service.bAck = false)
    (hNoBerr : m.board.service.cpuBerr = false)
    (hSvc : m.board.service.svc = .iosb)
    (hWalker : m.board.service.svcWalker = false)
    (hServing : g.ledger.traffic.serving = some j)
    (hOwner : j.owner = .cpu)
    (hAck : m.asic.beat.ack = true)
    (hRest : Iosb.Resting m.asic)
    (hFault : m.asic.beat.sdmaFault = false)
    (hCarried : Carried (busBeat m.board.bus)
      m.asic.beat.rdata g.present.moved)
    (hOld : Accounted m g v) :
    Accounted (m.step cfg d) (g.note m d) v := by
  rcases hOld with ⟨chunks, c, hMoved, hChunks, hCurrent⟩
  have hIn : inService .cpu g.ledger.traffic = true := by
    simp [inService, hServing, owns, hOwner]
  have hBytes := hCurrent.working hIn (by
    intro hAtRest
    rw [hAtRest.ack] at hAck
    exact Bool.noConfusion hAck)
  have hReply := @replied_iosb m d hSvc hAck
  rw [hFault] at hReply
  have hBus : Bus32.clock m.board.bus
      (busIn m.board (boardIn m d)) = wait m.board.bus := by
    simp [Bus32.clock, busIn, hActive, hNoBerr, hNoAck]
  have hService : clock m.board.service
      (pins m.board (boardIn m d)) =
      { respond (settle m.board.service
          (pins m.board (boardIn m d)))
          (.data m.asic.beat.rdata) with
        memReq := m.board.service.memReq
        iosbSel := false
        dafbSel := m.board.service.dafbSel } := by
    rw [clock_respond hReply, hSvc]
    rfl
  have hOff : inService .cpu (g.note m d).ledger.traffic =
      false := by
    rw [ledger_note hReset]
    simp [inService, Traffic.note, hServing, hReply]
  refine ⟨chunks, g.present.moved, ?_, hChunks, ?_⟩
  · rw [moved_note hReset hNow, cpuMoves_rest hRest, hMoved,
      hBytes, List.append_nil]
  · exact {
      answered := by
        intro _
        rw [board_step hReset, hBus, hService]
        simp only [respond, answer, settle, hWalker]
        exact hCarried
      waiting := by
        intro hNotTold
        rw [board_step hReset, hService] at hNotTold
        simp [respond, answer, settle, hWalker] at hNotTold
      pending := by
        intro hOn
        rw [hOff] at hOn
        exact Bool.noConfusion hOn
      working := by
        intro hOn
        rw [hOff] at hOn
        exact Bool.noConfusion hOn }

/- Its beat is in service: pending, in work or acknowledged. -/
theorem visit_on
    (hReset : d.env.nreset = true)
    (hInv : MachineInv (m, g))
    (hNow : g.ledger.cpu.now = some v)
    (hOut : FirstOut m.board.bus v ∨ TailOut m.board.bus v)
    (hInside : Inside v.txn)
    (hNoAck : m.board.service.bAck = false)
    (hNoBerr : m.board.service.cpuBerr = false)
    (hServing : g.ledger.traffic.serving = some j)
    (hOwner : j.owner = .cpu)
    (hGood : (m.step cfg d).board.service.cpuBerr = false)
    (hOld : Accounted m g v) :
    Accounted (m.step cfg d) (g.note m d) v := by
  have hTraffic : TrafficInv m.board.service g.ledger.traffic :=
    hInv.board.traffic
  have hLink : Linked m.board.service m.asic g.present :=
    hInv.link
  have hBeat : j.beat = busBeat m.board.bus :=
    serving_beat hInv.board hServing hOwner
  have hWindow : j.beat.InWindow := by
    rw [hBeat]
    exact beat_inside hOut hInside
  have hPins := serving_port hInv.board hServing hWindow
  have hSvc : m.board.service.svc = .iosb := hPins.1
  rcases hPins.2 with ⟨hSdma, hWrite, hBe, hWdata⟩
  have hIn : inService .cpu g.ledger.traffic = true := by
    simp [inService, hServing, owns, hOwner]
  have hWalker : m.board.service.svcWalker = false := by
    rw [(hTraffic.busy j hServing).owner, hOwner]
    rfl
  cases hLink with
  | free hOff => exact absurd hSvc hOff
  | pending _ hRest =>
      exact visit_pending hReset hTraffic hNow hSvc hIn hRest hOld
  | working _ hWork hAck hPort hOpen hOther =>
      exact visit_working hReset hNow hSvc hWalker hServing hOwner
        hWork hAck hOld
  | answered _ hIdle hAck hRest hPort hDone =>
      have hActive : m.board.bus.active = true := by
        rcases hOut with hFirst | hTail
        · exact hFirst.active
        · exact hTail.active
      have hFault : m.asic.beat.sdmaFault = false := by
        rw [board_step hReset] at hGood
        cases hFault : m.asic.beat.sdmaFault with
        | false => rfl
        | true =>
            have hReply := @replied_iosb m d hSvc hAck
            rw [hFault] at hReply
            rw [clock_respond hReply] at hGood
            simp [respond, fault, settle, hWalker] at hGood
      have hCarried : Carried (busBeat m.board.bus)
          m.asic.beat.rdata g.present.moved := by
        rw [← hBeat]
        exact carried_port hPort hWrite hBe hWdata
          (hDone hSdma hFault)
      exact visit_answered hReset hNow hActive hNoAck hNoBerr hSvc
        hWalker hServing hOwner hAck hRest hFault hCarried hOld

end Quadra800

------------------------------------------------------------
-- One Cycle of the Machine
------------------------------------------------------------

namespace Quadra800

open Bus32 Clocked

variable {cfg : Iosb.Config} {m : Machine} {d : Drive}
variable {g : Book} {v : Visit}

/- The machine with its book, one clock edge on. -/
abbrev machineEdge (cfg : Iosb.Config) :
    Machine × Book → Drive → Machine × Book :=
  watch (Machine.step cfg) (fun g m d => g.note m d)

/- What the books say a cycle on, out of reset. -/
theorem now_note (hReset : d.env.nreset = true) :
    (g.note m d).ledger.cpu.now =
      (g.ledger.cpu.note m.board (boardIn m d)).now := by
  rw [ledger_note hReset]

/- A transaction begins: nothing has moved for it. -/
theorem visit_begins
    (hReset : d.env.nreset = true)
    (hInv : MachineInv (m, g))
    (hNow : g.ledger.cpu.now = none)
    (hNext : (g.note m d).ledger.cpu.now = some v) :
    Accounted (m.step cfg d) (g.note m d) v := by
  have hResting : Resting m.board.bus := by
    have hPhase := hInv.board.cpu.phase
    rw [hNow] at hPhase
    exact hPhase
  rcases @cpu_idle m.board (boardIn m d) g.ledger.traffic
    g.ledger.cpu hInv.board.cpu hResting.active with
    ⟨hIn, -, -, hTakes, -⟩
  rcases @flags_off m d g hInv.board.traffic hTakes hIn with
    ⟨hNextAck, hNextIn⟩
  have hNew : v = ⟨busTxn (boardIn m d), []⟩ := by
    rw [now_note hReset] at hNext
    simp only [CpuBook.note, hNow] at hNext
    split at hNext
    · exact (Option.some.inj hNext).symm
    · cases hNext
  have hMoved : (g.note m d).moved = [] := by
    simp [Book.note, hNow]
  refine ⟨[], [], hMoved, ?_, current_nil ?_ ?_⟩
  · rw [hNew]
    exact ⟨rfl, by simp⟩
  · rw [board_step hReset]
    exact hNextAck
  · rw [ledger_note hReset]
    intro hOn
    rw [hNextIn] at hOn
    exact Bool.noConfusion hOn

/- A transaction goes on: it is not told in this cycle. -/
theorem visit_goes_on
    {v' : Visit}
    (hReset : d.env.nreset = true)
    (hNow : g.ledger.cpu.now = some v)
    (hNext : (g.note m d).ledger.cpu.now = some v') :
    m.board.bus.tAck = false ∧
      m.board.service.cpuBerr = false ∧
      v' = if m.board.service.bAck then
        v.reply (.data m.board.service.bRdata) else v := by
  rw [now_note hReset] at hNext
  simp only [CpuBook.note, hNow] at hNext
  split at hNext
  next hEmpty =>
      have hQuiet : m.board.bus.tAck = false ∧
          m.board.service.cpuBerr = false := by
        simpa [tells] using hEmpty
      refine ⟨hQuiet.1, hQuiet.2, ?_⟩
      have hHear := (Option.some.inj hNext).symm
      rw [hHear]
      cases hAck : m.board.service.bAck with
      | true => simp [Visit.hear, Visit.reply, hAck, hQuiet.2]
      | false => simp [Visit.hear, hAck, hQuiet.2]
  next => cases hNext

theorem visit_step
    {v' : Visit}
    (hReset : d.env.nreset = true)
    (hInv : MachineInv (m, g))
    (hNow : g.ledger.cpu.now = some v)
    (hNext : (g.note m d).ledger.cpu.now = some v')
    (hInside : Inside v'.txn)
    (hGood : (m.step cfg d).board.service.cpuBerr = false) :
    Accounted (m.step cfg d) (g.note m d) v' := by
  rcases visit_goes_on hReset hNow hNext with
    ⟨hUntold, hNoBerr, hSame⟩
  have hTxn : v'.txn = v.txn := by
    rw [hSame]
    split <;> rfl
  rw [hTxn] at hInside
  have hOld : Accounted m g v :=
    hInv.visit v hNow hInside hNoBerr
  have hOut :
      FirstOut m.board.bus v ∨ TailOut m.board.bus v := by
    have hPhase := hInv.board.cpu.phase
    rw [hNow] at hPhase
    rcases hPhase with hFirst | hTail | hTelling
    · exact Or.inl hFirst
    · exact Or.inr hTail
    · exact absurd hTelling.ack (by simp [hUntold])
  cases hAck : m.board.service.bAck with
  | true =>
      rw [hSame, if_pos hAck]
      exact visit_heard hReset hInv hNow hOut hAck hOld
  | false =>
      rw [hSame, if_neg (by simp [hAck])]
      cases hIn : inService .cpu g.ledger.traffic with
      | false => exact visit_off hReset hInv hNow hAck hIn hOld
      | true =>
          cases hServing : g.ledger.traffic.serving with
          | none => simp [inService, hServing] at hIn
          | some j =>
              have hOwner : j.owner = .cpu := by
                simpa [inService, hServing, owns] using hIn
              exact visit_on hReset hInv hNow hOut hInside hAck
                hNoBerr hServing hOwner hGood hOld

/- A reset starts over, whatever came before. -/
theorem machineInv_reset (hReset : d.env.nreset = false) :
    MachineInv (machineEdge cfg (m, g) d) := by
  have hBoard : (m.step cfg d).board = Board.reset := by
    simp [Machine.step, Board.step, Bus32.step, busIn, step,
      pins, boardIn, hReset, Board.reset]
  have hLedger : (g.note m d).ledger = {} := by
    simp [Book.note, Ledger.note, boardIn, hReset]
  exact {
    board := by
      show BoardInv ((m.step cfg d).board, (g.note m d).ledger)
      rw [hBoard, hLedger]
      exact boardInv_reset
    link := linked_rest (Iosb.atRest_reset hReset)
    visit := by
      intro v hNow
      have hSome : (g.note m d).ledger.cpu.now = some v := hNow
      rw [hLedger] at hSome
      cases hSome }

/- One cycle keeps the machine's invariant. -/
theorem machineInv_step
    (x : Machine × Book) (d : Drive)
    (hInv : MachineInv x)
    (hHeld : Contract (x.1.board, x.2.ledger)
      (boardIn x.1 d)) :
    MachineInv (machineEdge cfg x d) := by
  rcases x with ⟨m, g⟩
  cases hReset : d.env.nreset with
  | false => exact machineInv_reset hReset
  | true =>
      have hBoard := boardInv_step (m.board, g.ledger)
        (boardIn m d) hInv.board hHeld
      have hLink := @linked_step cfg m d g.ledger.traffic
        g.present hReset hInv.board.traffic hInv.link
      rw [← @service_step m d hReset] at hLink
      exact {
        board := hBoard
        link := hLink
        visit := by
          intro v' hNext hInside hGood
          cases hNow : g.ledger.cpu.now with
          | none => exact visit_begins hReset hInv hNow hNext
          | some v =>
              exact visit_step hReset hInv hNow hNext hInside
                hGood }

end Quadra800
