/-
  An event crossing between two clocks as a toggle.

  The sender flips a bit at each event.  The receiver passes
  the bit through two registers and compares the second with
  a third, one clock behind it.  The crossing is tracked by
  the number of receiver clocks since the last event.

  Key definitions include:
    * `Toggle`, `Toggle.step`, `Toggle.pulse`
    * `Toggle.since`
    * `Toggle.Tracks`

  Key rules include:
    * `Toggle.tracks_step`
    * `Toggle.pulse_iff`
    * `Toggle.counted_step`
-/

------------------------------------------------------------
-- The Crossing
------------------------------------------------------------

namespace Clocked

/- The sender's bit and the receiver's three registers. -/
structure Toggle where
  tog : Bool
  first : Bool
  second : Bool
  last : Bool
  deriving DecidableEq, Inhabited

namespace Toggle

variable (t : Toggle) (event clk : Bool)

/- One edge of either clock, or of both at once. -/
def step : Toggle where
  tog := if event then !t.tog else t.tog
  first := if clk then t.tog else t.first
  second := if clk then t.first else t.second
  last := if clk then t.second else t.last

/- The receiver sees an edge. -/
def pulse : Bool := t.second ^^ t.last

/- Receiver clocks since the last event. -/
def since (k : Nat) : Nat :=
  if event then 0 else if clk then k + 1 else k

/- The registers that have not yet seen the last event. -/
structure Tracks (k : Nat) : Prop where
  first : t.first = (t.tog ^^ decide (k < 1))
  second : t.second = (t.tog ^^ decide (k < 2))
  last : t.last = (t.tog ^^ decide (k < 3))

end Toggle

end Clocked

------------------------------------------------------------
-- One Pulse per Event
------------------------------------------------------------

namespace Clocked

namespace Toggle

variable {t : Toggle} {event clk : Bool} {k : Nat}

/-
  Events with three receiver clocks from one to the next are
  tracked: an event finds every register caught up.
-/
theorem tracks_step
    (hTracks : t.Tracks k)
    (hSpaced : event = true →
      3 ≤ if clk then k + 1 else k) :
    (t.step event clk).Tracks (since event clk k) := by
  rcases hTracks with ⟨hFirst, hSecond, hLast⟩
  cases event with
  | true =>
      have hGap := hSpaced rfl
      cases clk with
      | true =>
          have hOne : ¬ k < 1 := by
            intro hLess
            simp at hGap
            omega
          have hTwo : ¬ k < 2 := by
            intro hLess
            simp at hGap
            omega
          constructor
          · simp [step, since]
          · simp [step, since, hFirst, hOne]
          · simp [step, since, hSecond, hTwo]
      | false =>
          have hThree : 3 ≤ k := by simpa using hGap
          constructor
          · simp [step, since, hFirst, show ¬ k < 1 by omega]
          · simp [step, since, hSecond, show ¬ k < 2 by omega]
          · simp [step, since, hLast, show ¬ k < 3 by omega]
  | false =>
      cases clk with
      | true =>
          constructor
          · simp [step, since]
          · simp only [step, since, hFirst, if_true]
            simp [show k + 1 < 2 ↔ k < 1 by omega]
          · simp only [step, since, hSecond, if_true]
            simp [show k + 1 < 3 ↔ k < 2 by omega]
      | false => exact ⟨hFirst, hSecond, hLast⟩

/- The pulse comes in the third receiver clock, and only then. -/
theorem pulse_iff (hTracks : t.Tracks k) :
    t.pulse = true ↔ k = 2 := by
  unfold pulse
  rw [hTracks.second, hTracks.last]
  cases t.tog <;> by_cases hTwo : k < 2 <;>
    by_cases hThree : k < 3 <;> simp [hTwo, hThree] <;> omega

/-
  Of the events so far all have had their pulse, but for the
  last while it is still in the crossing.
-/
theorem counted_step
    {events pulses : Nat}
    (hTracks : t.Tracks k)
    (hSpaced : event = true →
      3 ≤ if clk then k + 1 else k)
    (hCounted : pulses + (if k < 3 then 1 else 0) = events) :
    (if clk && t.pulse then pulses + 1 else pulses) +
        (if since event clk k < 3 then 1 else 0) =
      if event then events + 1 else events := by
  have hPulse := pulse_iff hTracks
  cases event with
  | true =>
      have hGap := hSpaced rfl
      cases clk with
      | true =>
          by_cases hTwo : k = 2
          · simp [since, hPulse, hTwo] at hCounted ⊢
            omega
          · have hThree : ¬ k < 3 := by
              simp at hGap
              omega
            simp [since, hPulse, hTwo, hThree] at hCounted ⊢
            omega
      | false =>
          have hThree : ¬ k < 3 := by simpa using hGap
          simp [since, hThree] at hCounted ⊢
          omega
  | false =>
      cases clk with
      | true =>
          by_cases hTwo : k = 2
          · simp [since, hPulse, hTwo] at hCounted ⊢
            omega
          · have hSame : k + 1 < 3 ↔ k < 3 := by omega
            simpa [since, hPulse, hTwo, hSame] using hCounted
      | false => simpa [since] using hCounted

end Toggle

end Clocked
