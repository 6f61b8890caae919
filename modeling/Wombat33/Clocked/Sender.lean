import Wombat33.Clocked.Run

/-
  Items on a serial line.

  A sender holds each level for a fixed number of clocks.  At
  rest the line is at its mark.  An item is put on the line as
  a start level and the levels of its payload, and only when
  nothing is left to send.  An observer may see the line some
  clocks late.

  Key definitions include:
    * `LineCode`, `Sender`, `Sender.next`
    * `Sender.total`
    * `Echo`

  Key rules include:
    * `Sender.next_hold`, `Sender.next_symbol`,
      `Sender.next_start`
    * `Sender.done_run`
    * `Echo.follows_next`
-/

------------------------------------------------------------
-- The Sender
------------------------------------------------------------

namespace Clocked

/- How items are put on a line: clocks of a level, levels. -/
structure LineCode (Level Item : Type) where
  symbol : Nat
  mark : Level
  start : Level
  payload : Item → List Level

/- The level of now, how long it lasts, and what follows. -/
structure Sender (Level Item : Type) where
  level : Level
  left : Nat
  rest : List Level
  sent : List Item

namespace Sender

variable {Level Item : Type}

/- One clock, with an item offered or none. -/
def next
    (c : LineCode Level Item)
    (s : Sender Level Item)
    (offer : Option Item) : Sender Level Item :=
  match s.left, s.rest, offer with
  | k + 1, _, _ => { s with left := k }
  | 0, b :: bs, _ =>
      { s with level := b, left := c.symbol - 1, rest := bs }
  | 0, [], none => { s with level := c.mark }
  | 0, [], some x =>
      { level := c.start
        left := c.symbol - 1
        rest := c.payload x
        sent := s.sent ++ [x] }

/- The clocks until the sender has nothing left to send. -/
def total
    (c : LineCode Level Item)
    (s : Sender Level Item) : Nat :=
  c.symbol * s.rest.length + s.left

variable {c : LineCode Level Item} {s : Sender Level Item}
variable {offer : Option Item}

theorem next_hold {k : Nat} (hLeft : s.left = k + 1) :
    s.next c offer = { s with left := k } := by
  simp [next, hLeft]

theorem next_symbol
    {b : Level}
    {bs : List Level}
    (hLeft : s.left = 0)
    (hRest : s.rest = b :: bs) :
    s.next c offer =
      { s with level := b, left := c.symbol - 1, rest := bs } := by
  simp [next, hLeft, hRest]

theorem next_mark
    (hLeft : s.left = 0)
    (hRest : s.rest = []) :
    s.next c none = { s with level := c.mark } := by
  simp [next, hLeft, hRest]

theorem next_start
    (x : Item)
    (hLeft : s.left = 0)
    (hRest : s.rest = []) :
    s.next c (some x) =
      { level := c.start
        left := c.symbol - 1
        rest := c.payload x
        sent := s.sent ++ [x] } := by
  simp [next, hLeft, hRest]

/- Items are only ever added to those sent. -/
theorem sent_next (offer : Option Item) :
    (s.next c offer).sent = s.sent ∨
      s.left = 0 ∧ s.rest = [] ∧
        ∃ x, offer = some x ∧
          (s.next c offer).sent = s.sent ++ [x] := by
  rcases hLeft : s.left with _ | k
  · rcases hRest : s.rest with _ | ⟨b, bs⟩
    · cases offer with
      | none =>
          rw [next_mark hLeft hRest]
          exact .inl rfl
      | some x =>
          rw [next_start x hLeft hRest]
          exact .inr ⟨rfl, rfl, x, rfl, rfl⟩
    · rw [next_symbol hLeft hRest]
      exact .inl rfl
  · rw [next_hold hLeft]
    exact .inl rfl

theorem sent_quiet : (s.next c none).sent = s.sent := by
  rcases sent_next (c := c) none with
    hSame | ⟨-, -, x, hNone, -⟩
  · exact hSame
  · cases hNone

theorem sent_grows (offer : Option Item) :
    s.sent <+: (s.next c offer).sent := by
  rcases sent_next (c := c) (s := s) offer with
    hSame | ⟨-, -, x, -, hMore⟩
  · simp [hSame]
  · simp [hMore]

theorem sent_run (offers : List (Option Item)) :
    s.sent <+: (run (next c) s offers).sent := by
  induction offers generalizing s with
  | nil => exact List.prefix_rfl
  | cons offer offers ih =>
      exact (sent_grows offer).trans ih

/- While no item is added a clock less remains. -/
theorem total_next
    (hSymbol : 0 < c.symbol)
    (hSame : (s.next c offer).sent = s.sent) :
    (s.next c offer).total c = s.total c - 1 := by
  rcases hLeft : s.left with _ | k
  · rcases hRest : s.rest with _ | ⟨b, bs⟩
    · cases offer with
      | none =>
          rw [next_mark hLeft hRest]
          simp [total, hLeft, hRest]
      | some x =>
          rw [next_start x hLeft hRest] at hSame
          simp at hSame
    · rw [next_symbol hLeft hRest]
      simp only [total, hLeft, hRest, List.length_cons,
        Nat.mul_add, Nat.mul_one]
      omega
  · rw [next_hold hLeft]
    simp only [total, hLeft]
    omega

theorem total_eq_zero (hSymbol : 0 < c.symbol) :
    s.total c = 0 ↔ s.rest = [] ∧ s.left = 0 := by
  rw [total, Nat.add_eq_zero_iff, Nat.mul_eq_zero,
    List.length_eq_zero_iff]
  constructor
  · rintro ⟨hZero | hRest, hLeft⟩
    · omega
    · exact ⟨hRest, hLeft⟩
  · rintro ⟨hRest, hLeft⟩
    exact ⟨.inr hRest, hLeft⟩

/- What was begun is sent in its time, whatever is offered. -/
theorem done_run
    (hSymbol : 0 < c.symbol)
    (offers : List (Option Item))
    (hTime : s.total c ≤ offers.length) :
    s.sent.length < (run (next c) s offers).sent.length ∨
      (run (next c) s offers).sent = s.sent ∧
        (run (next c) s offers).total c = 0 := by
  induction offers generalizing s with
  | nil => exact .inr ⟨rfl, Nat.le_zero.mp hTime⟩
  | cons offer offers ih =>
      rw [run_cons]
      rcases sent_next (c := c) (s := s) offer with
        hSame | ⟨-, -, x, -, hMore⟩
      · have hTotal := total_next hSymbol hSame
        have hLater : (s.next c offer).total c ≤
            offers.length := by
          rw [List.length_cons] at hTime
          omega
        rw [← hSame]
        exact ih hLater
      · have hGrown : (s.next c offer).sent <+:
            (run (next c) (s.next c offer) offers).sent :=
          sent_run offers
        have hLength := hGrown.length_le
        rw [hMore, List.length_append] at hLength
        rw [List.length_singleton] at hLength
        exact .inl hLength

end Sender

end Clocked

------------------------------------------------------------
-- Seen Three Clocks Late
------------------------------------------------------------

namespace Clocked

/- A sender and what it was one, two and three clocks ago. -/
structure Echo (Level Item : Type) where
  now : Sender Level Item
  one : Sender Level Item
  two : Sender Level Item
  three : Sender Level Item

namespace Echo

variable {Level Item : Type}

def next
    (c : LineCode Level Item)
    (e : Echo Level Item)
    (offer : Option Item) : Echo Level Item where
  now := e.now.next c offer
  one := e.now
  two := e.one
  three := e.two

/- Each is what the sender made of the one before it. -/
structure Follows
    (c : LineCode Level Item)
    (e : Echo Level Item) : Prop where
  now : ∃ offer, e.now = e.one.next c offer
  one : ∃ offer, e.one = e.two.next c offer
  two : ∃ offer, e.two = e.three.next c offer

variable {c : LineCode Level Item} {e : Echo Level Item}

theorem follows_next
    (hFollows : e.Follows c)
    (offer : Option Item) :
    (e.next c offer).Follows c where
  now := ⟨offer, rfl⟩
  one := hFollows.now
  two := hFollows.one

theorem Follows.grows (hFollows : e.Follows c) :
    e.three.sent <+: e.now.sent := by
  rcases hFollows with ⟨⟨x, hNow⟩, ⟨y, hOne⟩, ⟨z, hTwo⟩⟩
  have hFirst : e.three.sent <+: e.two.sent :=
    hTwo ▸ Sender.sent_grows z
  have hSecond : e.two.sent <+: e.one.sent :=
    hOne ▸ Sender.sent_grows y
  have hThird : e.one.sent <+: e.now.sent :=
    hNow ▸ Sender.sent_grows x
  exact (hFirst.trans hSecond).trans hThird

theorem now_run (offers : List (Option Item)) :
    (run (next c) e offers).now =
      run (Sender.next c) e.now offers := by
  induction offers generalizing e with
  | nil => rfl
  | cons offer offers ih => exact ih

end Echo

end Clocked
