import Wombat33.Adb.Command
import Wombat33.Clocked.Ring

/-
  The keyboard's queue of key events.

  A log beside the transceiver keeps, since the last flush,
  the key events in their order, each with whether the queue
  was full when it came, and the keys that Talk register 0
  returned.  The queue has no flag for being full: the event
  that fills its last cell makes the pointers meet, and eight
  keys are gone at once.  An event in the cycle of a flush
  leaves the read pointer behind.

  Key definitions include:
    * `unread`
    * `KeyLog`, `noteKeys`
    * `KeysKept`
    * `keyFits`

  Key theorems include:
    * `keys_kept_step`
    * `keys_kept_iff`
    * `eighth_key_vanishes`
-/

------------------------------------------------------------
-- The Log
------------------------------------------------------------

namespace Adb

open Clocked

variable (s : Transceiver) (i : In)

/- The keys in the queue, the oldest first. -/
def unread (k : Keyboard) : List Byte :=
  between k.kbdFifo k.kbdFifoRd k.kbdFifoWr

/- Seven of the eight cells are in use. -/
def kbdFull (k : Keyboard) : Bool :=
  k.kbdFifoWr + 1#3 == k.kbdFifoRd

/- The keyboard's queue is cleared: a Flush, or a Reset. -/
def clearsKeys : Bool :=
  executes s i &&
    (cmdType s.host.cmdByte == .reset ||
      cmdAddr s.host.cmdByte == s.kbd.kbdAddr &&
        cmdType s.host.cmdByte == .flush)

/- The keyboard is asked for its keys. -/
def talksKeys : Bool :=
  executes s i &&
    (cmdAddr s.host.cmdByte == s.kbd.kbdAddr &&
      cmdType s.host.cmdByte == .talk &&
      cmdReg s.host.cmdByte == 0#2)

/- A response without its padding. -/
def responseKeys (h : Host) : List Byte :=
  (responseBytes h).filter (· != 0xFF#8)

structure KeyLog where
  events : List (Byte × Bool)
  returned : List Byte

def noKeys : KeyLog := ⟨[], []⟩

/- The key event of this edge; a Talk makes room first. -/
def arrival : List (Byte × Bool) :=
  if keyEvent s then
    [(s.keySync.keyData,
      kbdFull s.kbd && !talksKeys s i && !clearsKeys s i)]
  else []

def noteKeys (g : KeyLog) : KeyLog :=
  if i.reset then noKeys
  else if !i.clkEn then g
  else if clearsKeys s i then ⟨arrival s i, []⟩
  else
    { events := g.events ++ arrival s i
      returned := g.returned ++
        (if talksKeys s i then responseKeys (step s i).host
          else []) }

/-
  The keys returned and then those still in the queue are the
  key events since the last flush, in order; only an event
  that met a full queue may be missing.  Service is requested
  exactly while there is a key to read.
-/
structure KeysKept (x : Transceiver × KeyLog) : Prop where
  kept : Sifted x.2.events (x.2.returned ++ unread x.1.kbd)
  srq : kbdSrq x.1.kbd = true ↔ unread x.1.kbd ≠ []

/-
  A key event finds room, after what a Talk takes; with a
  flush it comes only where the write pointer is at 0.
-/
def keyFits : Bool :=
  i.reset || !i.clkEn || !keyEvent s ||
    (if clearsKeys s i then s.kbd.kbdFifoWr == 0#3
    else talksKeys s i || !kbdFull s.kbd)

end Adb

------------------------------------------------------------
-- The Queue After a Command
------------------------------------------------------------

namespace Adb

open Clocked

variable {s : Transceiver} {i : In}

theorem kbdSrq_iff (k : Keyboard) :
    kbdSrq k = true ↔ unread k ≠ [] := by
  rw [unread, ne_eq, between_eq_nil_iff]
  simp [kbdSrq, kbdFifoEmpty]

theorem kbdFull_iff (k : Keyboard) :
    kbdFull k = true ↔ (unread k).length = 7 := by
  rw [unread, length_between, kbdFull, beq_iff_eq]
  generalize k.kbdFifoWr = wr
  generalize k.kbdFifoRd = rd
  revert wr rd
  decide

/- The queue itself: its cells and its pointers. -/
def kbdQueue (k : Keyboard) :
    (BitVec 3 → Byte) × BitVec 3 × BitVec 3 :=
  (k.kbdFifo, k.kbdFifoRd, k.kbdFifoWr)

theorem kbdListen_queue (h : Host) (k : Keyboard) :
    kbdQueue (kbdListen h k) = kbdQueue k := by
  unfold kbdListen
  split_ifs <;> rfl

theorem kbdTalk_queue
    (hReg : (cmdReg s.host.cmdByte == 0#2) = false) :
    kbdQueue (kbdTalk s s).kbd = kbdQueue s.kbd := by
  unfold kbdTalk
  simp only [hReg, Bool.false_eq_true, if_false]
  split_ifs <;> rfl

/- A command clears the queue, reads it, or leaves it. -/
theorem kbdAfter_queue :
    kbdQueue (kbdAfter s i) =
      if clearsKeys s i then (s.kbd.kbdFifo, 0#3, 0#3)
      else if talksKeys s i then kbdQueue (kbdTalk s s).kbd
      else kbdQueue s.kbd := by
  cases hFinishes : finishes s i with
  | true =>
      have hExecutes := not_executes_of_finishes hFinishes
      have hListen :
          cmdType s.host.cmdByte = .listen := by
        simp only [finishes, Bool.and_eq_true, beq_iff_eq]
          at hFinishes
        exact hFinishes.2.1.2
      simp only [kbdAfter, hFinishes, clearsKeys, talksKeys,
        hExecutes, kbdCommanded, hListen]
      split_ifs <;> simp_all [kbdListen_queue]
  | false =>
      cases hExecutes : executes s i with
      | false =>
          simp [kbdAfter, hFinishes, hExecutes, clearsKeys,
            talksKeys]
      | true =>
          simp only [kbdAfter, hFinishes, hExecutes,
            clearsKeys, talksKeys, kbdCommanded]
          cases hType : cmdType s.host.cmdByte with
          | reset => rfl
          | flush => split_ifs <;> simp_all [kbdQueue]
          | listen => split_ifs <;> simp_all
          | talk =>
              split_ifs <;> simp_all [kbdTalk_queue]

theorem unread_one
    {k : Keyboard}
    (hSome : kbdFifoEmpty k = false)
    (hOne : k.kbdFifoRd + 1#3 = k.kbdFifoWr) :
    unread k = [k.kbdFifo k.kbdFifoRd] := by
  unfold unread
  rw [between_pop k.kbdFifo (beq_eq_false_iff_ne.mp hSome),
    hOne, between_self]

theorem unread_two
    {k : Keyboard}
    (hSome : kbdFifoEmpty k = false)
    (hTwo : k.kbdFifoRd + 1#3 ≠ k.kbdFifoWr) :
    unread k =
      k.kbdFifo k.kbdFifoRd ::
        k.kbdFifo (k.kbdFifoRd + 1#3) ::
          between k.kbdFifo (k.kbdFifoRd + 2#3)
            k.kbdFifoWr := by
  unfold unread
  rw [between_pop k.kbdFifo (beq_eq_false_iff_ne.mp hSome),
    between_pop k.kbdFifo hTwo, BitVec.add_assoc]
  rfl

/- A Talk takes up to two keys off the queue. -/
theorem kbdTalk_unread
    (hReg : cmdReg s.host.cmdByte = 0#2) :
    unread (kbdTalk s s).kbd = (unread s.kbd).drop 2 := by
  unfold kbdTalk
  simp only [hReg, beq_self_eq_true, if_true]
  split_ifs with hEmpty hTwo
  · have hNil : unread s.kbd = [] :=
      between_eq_nil_iff.mpr (beq_iff_eq.mp hEmpty)
    rw [hNil]
    exact hNil
  · rw [Bool.not_eq_true] at hEmpty
    rw [unread_two hEmpty (bne_iff_ne.mp hTwo)]
    rfl
  · rw [Bool.not_eq_true] at hEmpty
    have hOne : s.kbd.kbdFifoRd + 1#3 = s.kbd.kbdFifoWr := by
      simpa using hTwo
    rw [unread_one hEmpty hOne]
    show between s.kbd.kbdFifo (s.kbd.kbdFifoRd + 1#3)
      s.kbd.kbdFifoWr = []
    rw [hOne, between_self]

/- It returns them, padded to two bytes. -/
theorem kbdTalk_responseKeys
    {n : Transceiver}
    (hReg : cmdReg s.host.cmdByte = 0#2)
    (hKeys : 0xFF#8 ∉ unread s.kbd)
    (hNone : n.host.respLen = 0#4) :
    responseKeys (kbdTalk s n).host =
      (unread s.kbd).take 2 := by
  have hFilter (keys : List Byte) (hNot : 0xFF#8 ∉ keys) :
      keys.filter (· != 0xFF#8) = keys := by
    apply List.filter_eq_self.mpr
    intro key hKey
    rw [bne_iff_ne]
    rintro rfl
    exact hNot hKey
  unfold kbdTalk responseKeys
  simp only [hReg, beq_self_eq_true, if_true]
  split_ifs with hEmpty hTwo
  · have hNil : unread s.kbd = [] :=
      between_eq_nil_iff.mpr (beq_iff_eq.mp hEmpty)
    rw [hNil]
    simp [responseBytes, hNone]
  · rw [Bool.not_eq_true] at hEmpty
    rw [unread_two hEmpty (bne_iff_ne.mp hTwo)] at hKeys ⊢
    rw [show responseBytes (respond
      (s.kbd.kbdFifo s.kbd.kbdFifoRd)
      (s.kbd.kbdFifo (s.kbd.kbdFifoRd + 1#3)) n.host) =
        [s.kbd.kbdFifo s.kbd.kbdFifoRd,
          s.kbd.kbdFifo (s.kbd.kbdFifoRd + 1#3)] from rfl]
    apply hFilter
    intro hMem
    apply hKeys
    simp only [List.mem_cons, List.not_mem_nil, or_false]
      at hMem ⊢
    tauto
  · rw [Bool.not_eq_true] at hEmpty
    have hOne : s.kbd.kbdFifoRd + 1#3 = s.kbd.kbdFifoWr := by
      simpa using hTwo
    rw [unread_one hEmpty hOne] at hKeys ⊢
    rw [show responseBytes (respond
      (s.kbd.kbdFifo s.kbd.kbdFifoRd) 0xFF#8 n.host) =
        [s.kbd.kbdFifo s.kbd.kbdFifoRd] ++ [0xFF#8] from rfl,
      List.filter_append, hFilter _ hKeys]
    rfl

end Adb

------------------------------------------------------------
-- The Queue After an Edge
------------------------------------------------------------

namespace Adb

open Clocked

variable {s : Transceiver} {i : In}

theorem unread_of_queue
    {k : Keyboard}
    {cells : BitVec 3 → Byte}
    {rd wr : BitVec 3}
    (hQueue : kbdQueue k = (cells, rd, wr)) :
    unread k = between cells rd wr := by
  simp only [kbdQueue, Prod.mk.injEq] at hQueue
  rw [unread, hQueue.1, hQueue.2.1, hQueue.2.2]

theorem kbdTalk_kbdFifoWr :
    (kbdTalk s s).kbd.kbdFifoWr = s.kbd.kbdFifoWr := by
  unfold kbdTalk
  simp only []
  split_ifs <;> rfl

theorem kbdAfter_unread_of_clears
    (hClears : clearsKeys s i = true) :
    unread (kbdAfter s i) = [] := by
  have hQueue := @kbdAfter_queue s i
  rw [hClears, if_pos rfl] at hQueue
  rw [unread_of_queue hQueue, between_self]

/- Short of a flush, a command takes what a Talk returns. -/
theorem kbdAfter_unread
    (hKept : clearsKeys s i = false) :
    unread (kbdAfter s i) =
        (if talksKeys s i then (unread s.kbd).drop 2
          else unread s.kbd) ∧
      (kbdAfter s i).kbdFifoWr = s.kbd.kbdFifoWr := by
  have hQueue := @kbdAfter_queue s i
  rw [hKept, if_neg Bool.false_ne_true] at hQueue
  cases hTalks : talksKeys s i with
  | false =>
      rw [hTalks, if_neg Bool.false_ne_true] at hQueue
      rw [if_neg Bool.false_ne_true]
      exact ⟨unread_of_queue hQueue,
        congrArg (fun q => q.2.2) hQueue⟩
  | true =>
      have hReg : cmdReg s.host.cmdByte = 0#2 := by
        simp only [talksKeys, Bool.and_eq_true, beq_iff_eq]
          at hTalks
        exact hTalks.2.2
      rw [hTalks, if_pos rfl] at hQueue
      rw [if_pos rfl, ← kbdTalk_unread hReg,
        ← @kbdTalk_kbdFifoWr s]
      exact ⟨unread_of_queue hQueue,
        congrArg (fun q => q.2.2) hQueue⟩

/- A key goes behind the others, or the pointers meet. -/
theorem keyed_unread
    {k : Keyboard}
    (hWr : k.kbdFifoWr = s.kbd.kbdFifoWr) :
    unread (keyed s k) =
      if keyEvent s then
        (if kbdFull k then []
          else unread k ++ [s.keySync.keyData])
      else unread k := by
  unfold keyed
  split_ifs with hEvent hFull
  · have hMeet : k.kbdFifoWr + 1#3 = k.kbdFifoRd :=
      beq_iff_eq.mp hFull
    show between _ k.kbdFifoRd (s.kbd.kbdFifoWr + 1#3) = []
    rw [← hWr, hMeet, between_self]
  · have hRoom :
        (k.kbdFifoWr - k.kbdFifoRd).toNat + 1 < 2 ^ 3 := by
      have hNot : (unread k).length ≠ 7 :=
        fun hSeven => hFull ((kbdFull_iff k).mpr hSeven)
      rw [unread, length_between] at hNot
      have hLt := (k.kbdFifoWr - k.kbdFifoRd).isLt
      omega
    have hPush := @between_push Byte 3 k.kbdFifo
      k.kbdFifoRd k.kbdFifoWr s.keySync.keyData hRoom
    rw [hWr] at hPush
    rw [unread, unread, hWr]
    exact hPush
  · rfl

theorem processCommand_talk_kbd
    {n : Transceiver}
    {finish : Bool}
    (hType : cmdType s.host.cmdByte = .talk)
    (hAddr : cmdAddr s.host.cmdByte = s.kbd.kbdAddr) :
    (processCommand s n finish).host =
      processed (kbdTalk s
        { n with
          host := { n.host with
            respLen := 0#4, respIdx := 0#4 } }).host := by
  simp [processCommand, hType, hAddr, kbdCommand]

/- The response of a Talk is what the edge leaves behind. -/
theorem step_responseKeys
    (hReset : i.reset = false)
    (hEn : i.clkEn = true)
    (hTalks : talksKeys s i = true)
    (hKeys : 0xFF#8 ∉ unread s.kbd) :
    responseKeys (step s i).host = (unread s.kbd).take 2 := by
  simp only [talksKeys, Bool.and_eq_true, beq_iff_eq]
    at hTalks
  rcases hTalks with ⟨hExecutes, ⟨hAddr, hType⟩, hReg⟩
  have hTick := tick_host_of_executes hExecutes
  rw [processCommand_talk_kbd hType hAddr] at hTick
  have hStep : (step s i).host = (tick s i).host := by
    simp [step, hReset, hEn]
  rw [hStep, hTick]
  exact kbdTalk_responseKeys (n := { received s i with
    host := { (received s i).host with
      respLen := 0#4, respIdx := 0#4 } }) hReg hKeys rfl

end Adb

------------------------------------------------------------
-- Runs Without an Overflow
------------------------------------------------------------

namespace Adb

open Clocked

/- The transceiver beside its log. -/
abbrev keyWatch :
    Transceiver × KeyLog → In → Transceiver × KeyLog :=
  watch step (fun g s i => noteKeys s i g)

/- So far no event met a full queue. -/
structure KeysExact (x : Transceiver × KeyLog) : Prop where
  all : x.2.events.map Prod.fst =
    x.2.returned ++ unread x.1.kbd
  none : x.2.events.filter Prod.snd = []
  keys : 0xFF#8 ∉ unread x.1.kbd

variable {x : Transceiver × KeyLog} {i : In}

theorem keysKept_of_exact (hExact : KeysExact x) :
    KeysKept x where
  kept :=
    (sifted_iff_of_none hExact.none).mpr hExact.all.symm
  srq := kbdSrq_iff x.1.kbd

theorem keyEvent_ne
    {s : Transceiver}
    (hEvent : keyEvent s = true) :
    s.keySync.keyData ≠ 0xFF#8 := by
  intro hData
  simp [keyEvent, hData] at hEvent

/- An edge without a clock or with a reset starts anew. -/
theorem keysExact_reset (hReset : i.reset = true) :
    KeysExact (keyWatch x i) := by
  have hUnread : unread (step x.1 i).kbd = [] := by
    simp only [step, hReset, if_true]
    exact between_self
  constructor
  case all => simp [noteKeys, hReset, hUnread, noKeys]
  case none => simp [noteKeys, hReset, noKeys]
  case keys => simp [hUnread]

/- The keys of an edge without a command for them. -/
theorem keysExact_push
    {s s' : Transceiver}
    {events : List (Byte × Bool)}
    {returned pending : List Byte}
    (hAll : events.map Prod.fst = returned ++ pending)
    (hNone : events.filter Prod.snd = [])
    (hKeys : 0xFF#8 ∉ pending)
    (hArrival : arrival s i =
      if keyEvent s then [(s.keySync.keyData, false)] else [])
    (hUnread : unread s'.kbd =
      if keyEvent s then pending ++ [s.keySync.keyData]
      else pending) :
    KeysExact (s', ⟨events ++ arrival s i, returned⟩) := by
  cases hEvent : keyEvent s with
  | false =>
      simp only [hEvent, Bool.false_eq_true, if_false]
        at hArrival hUnread
      constructor
      case all => simp [hArrival, hAll, hUnread]
      case none => simp [hArrival, hNone]
      case keys => simpa [hUnread] using hKeys
  | true =>
      have hKey := keyEvent_ne hEvent
      simp only [hEvent, if_true] at hArrival hUnread
      constructor
      case all => simp [hArrival, hAll, hUnread]
      case none => simp [hArrival, hNone]
      case keys => simp [hUnread, hKeys, Ne.symm hKey]

/- What a Talk returns is what it takes off the queue. -/
theorem taken_unread
    {s : Transceiver}
    (hReset : i.reset = false)
    (hEn : i.clkEn = true)
    (hKept : clearsKeys s i = false)
    (hKeys : 0xFF#8 ∉ unread s.kbd) :
    unread s.kbd =
      (if talksKeys s i then responseKeys (step s i).host
        else []) ++ unread (kbdAfter s i) := by
  rw [(kbdAfter_unread hKept).1]
  cases hTalks : talksKeys s i with
  | false => simp
  | true =>
      rw [step_responseKeys hReset hEn hTalks hKeys]
      simp only [if_true, List.take_append_drop]

/- After a Talk there is room. -/
theorem kbdFull_kbdAfter
    {s : Transceiver}
    (hKept : clearsKeys s i = false) :
    kbdFull (kbdAfter s i) =
      (kbdFull s.kbd && !talksKeys s i) := by
  have hUnread := (@kbdAfter_unread s i hKept).1
  cases hTalks : talksKeys s i with
  | false =>
      rw [hTalks, if_neg Bool.false_ne_true] at hUnread
      rw [Bool.eq_iff_iff, kbdFull_iff, hUnread, ← kbdFull_iff]
      simp
  | true =>
      rw [hTalks, if_pos rfl] at hUnread
      have hLength : (unread s.kbd).length < 8 := by
        rw [unread, length_between]
        exact (s.kbd.kbdFifoWr - s.kbd.kbdFifoRd).isLt
      rw [Bool.eq_iff_iff, kbdFull_iff, hUnread,
        List.length_drop]
      simp only [Bool.not_true, Bool.and_false,
        Bool.false_eq_true, iff_false]
      omega

/- The queue after a flush, with a key in the same cycle. -/
theorem keyed_unread_of_clears
    {s : Transceiver}
    (hClears : clearsKeys s i = true) :
    unread (keyed s (kbdAfter s i)) =
      if keyEvent s then
        between
          (Function.update (kbdAfter s i).kbdFifo
            s.kbd.kbdFifoWr s.keySync.keyData) 0#3
          (s.kbd.kbdFifoWr + 1#3)
      else [] := by
  have hQueue := @kbdAfter_queue s i
  rw [hClears, if_pos rfl, kbdQueue] at hQueue
  simp only [Prod.mk.injEq] at hQueue
  unfold keyed
  split_ifs
  · simp only [unread, hQueue]
  · exact kbdAfter_unread_of_clears hClears

/- The contract keeps the queue exact. -/
theorem keysExact_step
    (hExact : KeysExact x)
    (hFits : keyFits x.1 i = true) :
    KeysExact (keyWatch x i) := by
  rcases x with ⟨s, g⟩
  cases hReset : i.reset with
  | true => exact keysExact_reset hReset
  | false =>
  cases hEn : i.clkEn with
  | false =>
      have hKbd : (step s i).kbd = s.kbd := by
        simp [step_kbd hReset, hEn]
      rcases hExact with ⟨hAll, hNone, hKeys⟩
      constructor
      case all => simpa [noteKeys, hReset, hEn, hKbd] using hAll
      case none => simpa [noteKeys, hReset, hEn] using hNone
      case keys => simpa [hKbd] using hKeys
  | true =>
  have hKbd : (step s i).kbd = keyed s (kbdAfter s i) := by
    simp [step_kbd hReset, hEn]
  simp only [keyFits, hReset, hEn, Bool.not_true,
    Bool.false_or] at hFits
  cases hClears : clearsKeys s i with
  | true =>
      have hNote : noteKeys s i g = ⟨[] ++ arrival s i, []⟩ := by
        simp [noteKeys, hReset, hEn, hClears]
      show KeysExact (step s i, noteKeys s i g)
      rw [hNote]
      apply keysExact_push (s := s) rfl rfl List.not_mem_nil
      · simp [arrival, hClears]
      · rw [hKbd, keyed_unread_of_clears hClears]
        split_ifs with hEvent
        · simp only [hEvent, hClears, Bool.not_true,
            Bool.false_or, if_true, beq_iff_eq] at hFits
          rw [hFits]
          rfl
        · rfl
  | false =>
      have hNote : noteKeys s i g =
          ⟨g.events ++ arrival s i, g.returned ++
            if talksKeys s i then responseKeys (step s i).host
            else []⟩ := by
        simp [noteKeys, hReset, hEn, hClears]
      have hTaken :=
        taken_unread hReset hEn hClears hExact.keys
      have hRoom (hEvent : keyEvent s = true) :
          (kbdFull s.kbd && !talksKeys s i) = false := by
        simp only [hEvent, hClears, Bool.not_true,
          Bool.false_or] at hFits
        cases hTalks : talksKeys s i with
        | true => simp
        | false => simpa [hTalks] using hFits
      show KeysExact (step s i, noteKeys s i g)
      rw [hNote]
      apply @keysExact_push i s (step s i) g.events _
        (unread (kbdAfter s i))
      · rw [hExact.all, List.append_assoc, ← hTaken]
      · exact hExact.none
      · intro hMem
        apply hExact.keys
        rw [hTaken]
        exact List.mem_append_right _ hMem
      · unfold arrival
        split_ifs with hEvent
        · rw [hRoom hEvent, Bool.false_and]
        · rfl
      · rw [hKbd, keyed_unread (kbdAfter_unread hClears).2]
        split_ifs with hEvent hFull
        · rw [kbdFull_kbdAfter hClears, hRoom hEvent] at hFull
          exact (Bool.false_ne_true hFull).elim
        · rfl
        · rfl

/- The first event that finds no room loses keys. -/
theorem not_keysKept_of_not_fits
    (hExact : KeysExact x)
    (hFits : ¬ keyFits x.1 i = true) :
    ¬ KeysKept (keyWatch x i) := by
  rcases x with ⟨s, g⟩
  simp only [keyFits, Bool.not_eq_true, Bool.or_eq_false_iff,
    Bool.not_eq_false'] at hFits
  rcases hFits with ⟨⟨⟨hReset, hEn⟩, hEvent⟩, hNoRoom⟩
  have hKbd : (step s i).kbd = keyed s (kbdAfter s i) := by
    simp [step_kbd hReset, hEn]
  intro hKept
  have hSifted : Sifted (noteKeys s i g).events
      ((noteKeys s i g).returned ++
        unread (keyed s (kbdAfter s i))) := by
    rw [← hKbd]
    exact hKept.kept
  cases hClears : clearsKeys s i with
  | true =>
      have hNote : noteKeys s i g =
          ⟨[(s.keySync.keyData, false)], []⟩ := by
        simp [noteKeys, hReset, hEn, hClears, arrival, hEvent]
      rw [hNote, sifted_iff_of_none rfl,
        keyed_unread_of_clears hClears, if_pos hEvent]
        at hSifted
      have hLength := congrArg List.length hSifted
      simp only [List.nil_append, length_between,
        List.map_cons, List.map_nil, List.length_singleton]
        at hLength
      rw [hClears, if_pos rfl, beq_eq_false_iff_ne] at hNoRoom
      generalize s.kbd.kbdFifoWr = wr at hLength hNoRoom
      revert wr
      decide
  | false =>
      rw [hClears, if_neg Bool.false_ne_true,
        Bool.or_eq_false_iff, Bool.not_eq_false'] at hNoRoom
      rcases hNoRoom with ⟨hTalks, hFull⟩
      have hNote : noteKeys s i g =
          ⟨g.events ++ [(s.keySync.keyData, true)],
            g.returned⟩ := by
        simp [noteKeys, hReset, hEn, hClears, arrival, hEvent,
          hTalks, hFull]
      have hMeet : unread (keyed s (kbdAfter s i)) = [] := by
        rw [keyed_unread (kbdAfter_unread hClears).2,
          if_pos hEvent, if_pos]
        simp [kbdFull_kbdAfter hClears, hFull, hTalks]
      rw [hNote, hMeet] at hSifted
      have hKeptLength := sifted_length hSifted
      have hAllLength := congrArg List.length hExact.all
      have hSeven := (kbdFull_iff s.kbd).mp hFull
      simp only [List.length_append, List.length_map,
        List.filter_append, hExact.none, List.length_nil,
        List.length_singleton, List.filter_cons_of_pos]
        at hKeptLength hAllLength
      simp at hKeptLength
      omega

/-
  The queue keeps all the keys it has room for, in every state
  of a run, exactly if every key event of the run finds room.
-/
theorem keys_kept_iff
    (s₀ : Transceiver)
    (i₀ : In)
    (is : List In) :
    Always keyWatch KeysKept (resetState s₀ i₀, noKeys) is ↔
      Along step (fun s i => keyFits s i = true)
        (resetState s₀ i₀) is := by
  have hUnread : unread (resetState s₀ i₀).kbd = [] :=
    between_self
  have hStart : KeysExact (resetState s₀ i₀, noKeys) := by
    constructor
    case all => simp [noKeys, hUnread]
    case none => rfl
    case keys => simp [hUnread]
  have hRuns := @always_iff_along_within
    (Transceiver × KeyLog) In keyWatch
    (fun x i => keyFits x.1 i = true) KeysExact KeysKept
    (fun _ h => keysKept_of_exact h)
    (fun _ _ h hFits => keysExact_step h hFits)
    (fun _ _ h hFits => not_keysKept_of_not_fits h hFits)
    (resetState s₀ i₀, noKeys) is hStart
  exact hRuns.trans (along_watch step
    (fun g s i => noteKeys s i g)
    (fun s i => keyFits s i = true)
    (resetState s₀ i₀, noKeys) is)

/- A key goes down; it is held for two cycles. -/
def press (toggle : Bool) (scan : BitVec 9) : List In :=
  List.replicate 2
    { ps2Key := BitVec.ofBool toggle ++ 1#1 ++ scan }

/- Eight keys, and no poll. -/
def burst : List In :=
  press true 0x01C#9 ++ press false 0x032#9 ++
    press true 0x021#9 ++ press false 0x023#9 ++
    press true 0x024#9 ++ press false 0x02B#9 ++
    press true 0x034#9 ++ press false 0x033#9 ++
    press false 0x033#9 ++ press false 0x033#9

/- The eighth key empties the queue. -/
theorem eighth_key_vanishes :
    let x := run keyWatch (resetState default {}, noKeys) burst
    x.2.events.map Prod.fst =
        [0x00#8, 0x0B#8, 0x08#8, 0x02#8, 0x0E#8, 0x03#8,
          0x05#8, 0x04#8] ∧
      x.2.returned = [] ∧ unread x.1.kbd = [] ∧
      kbdSrq x.1.kbd = false ∧ ¬ KeysKept x := by
  intro x
  have hNone : unread x.1.kbd = [] := by decide +kernel
  have hReturned : x.2.returned = [] := by decide +kernel
  refine ⟨by decide +kernel, hReturned, hNone, by decide +kernel, ?_⟩
  intro hKept
  have hLength := sifted_length hKept.kept
  rw [hNone, hReturned] at hLength
  revert hLength
  decide +kernel

end Adb
