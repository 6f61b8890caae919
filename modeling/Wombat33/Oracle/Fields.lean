import Wombat33.Oracle.Agreement

/-
  What the shared comparisons prove of the fields.

  A comparison that leaves the tally clean has found the two
  values alike; over two lists it has found that only as far
  as the shorter one goes, and of memory only its words.

  Key theorems include:
    * `Oracle.scalar_clean`, `Oracle.regs_clean`
    * `Oracle.ramBytes_proves`
    * `Oracle.ccrCheck_proves`
    * `Oracle.windowsCheck_proves`
-/

------------------------------------------------------------
-- The Tally
------------------------------------------------------------

namespace Oracle

open Checks (Proves proves_error proves_ok proves_ite)

variable {P : Prop}

theorem proves_match (hP : P) :
    Proves Tally.Clean (fun t => (.ok t.ok : Except Crash Tally))
      P := by
  apply proves_ok
  intro t hClean
  exact ⟨hClean, hP⟩

theorem proves_cls (kind : Kind) (hP : P) :
    Proves Tally.Clean
      (fun t => (.ok (t.cls kind) : Except Crash Tally)) P := by
  apply proves_ok
  intro t hClean
  exact ⟨hClean, hP⟩

/- After a failure no tally is clean. -/
theorem proves_fail (row : Text) (field : Field) :
    Proves Tally.Clean
      (fun t => (.ok (t.fail row field) : Except Crash Tally))
      P := by
  apply proves_ok
  intro t hClean
  exact absurd hClean (Tally.not_clean_fail row field t)

end Oracle

------------------------------------------------------------
-- Values and Registers
------------------------------------------------------------

namespace Oracle

open Checks (Proves proves_error proves_ok proves_ite)

variable {deltas : List Int} {row : Text}

theorem Kept.refl
    {α : Type}
    {R : α → α → Prop}
    (hRefl : ∀ x, R x x)
    (v : Option α) :
    Kept R v v := by
  intro x hx
  exact ⟨x, hx, hRefl x⟩

theorem Kept.mono
    {α : Type}
    {R S : α → α → Prop}
    {vo vc : Option α}
    (hKept : Kept R vo vc)
    (hWeaker : ∀ x y, R x y → S x y) :
    Kept S vo vc := by
  intro x hx
  rcases hKept x hx with ⟨y, hy, hAlike⟩
  exact ⟨y, hy, hWeaker x y hAlike⟩

theorem scalar_clean
    {field : Field}
    {vo vc : Option Int}
    {t : Tally}
    (hClean : (scalar deltas row field vo vc t).Clean) :
    t.Clean ∧ Kept (Alike deltas) vo vc := by
  unfold scalar at hClean
  split at hClean
  next hEqual =>
    have hSame : vo = vc := by simpa using hEqual
    subst hSame
    exact ⟨hClean, Kept.refl (fun x => .inl rfl) vo⟩
  next =>
    split at hClean
    next x y _ =>
      split at hClean
      next hMoved =>
        refine ⟨hClean, ?_⟩
        intro z hz
        cases hz
        exact ⟨y, rfl, .inr hMoved⟩
      next =>
        exact absurd hClean (Tally.not_clean_fail row field t)
    next =>
      exact absurd hClean (Tally.not_clean_fail row field t)

/- Place by place, as far as the shorter list goes. -/
theorem regs_clean
    {field : Nat → Field}
    {stack : Bool}
    {i : Nat}
    {xs ys : List Int}
    {t : Tally}
    (hClean :
      (regs deltas row field stack i xs ys t).Clean) :
    t.Clean ∧ ∀ (k : Nat) (x y : Int),
      xs[k]? = some x → ys[k]? = some y →
        (stack = true ∧ i + k = 7) ∨ Alike deltas x y := by
  induction xs generalizing i ys t with
  | nil => exact ⟨hClean, by simp⟩
  | cons x xs ih =>
      cases ys with
      | nil => exact ⟨hClean, by simp⟩
      | cons y ys =>
          rcases ih hClean with ⟨hHead, hTail⟩
          have hFirst : t.Clean ∧
              ((stack = true ∧ i = 7) ∨ Alike deltas x y) := by
            split at hHead
            next hStack =>
              simp only [Bool.and_eq_true, beq_iff_eq]
                at hStack
              exact ⟨hHead, .inl hStack.1⟩
            next =>
              rcases scalar_clean hHead with ⟨hBefore, hKept⟩
              rcases hKept x rfl with ⟨z, hz, hAlike⟩
              cases hz
              exact ⟨hBefore, .inr hAlike⟩
          refine ⟨hFirst.1, ?_⟩
          intro k u v hu hv
          cases k with
          | zero =>
              cases hu
              cases hv
              exact hFirst.2
          | succ k =>
              have hLater := hTail k u v hu hv
              rwa [Nat.add_assoc, Nat.add_comm 1 k] at hLater

/- A missing list is empty, so the lengths are needed. -/
theorem regsOf_proves
    {field : Nat → Field}
    {stack : Bool}
    {vo vc : Option (List Int)}
    (hLength : SameLength vo vc) :
    Proves Tally.Clean (regsOf deltas row field stack vo vc)
      (Kept (RegsAlike stack (Alike deltas)) vo vc) := by
  apply proves_ok
  intro t hClean
  rcases regs_clean hClean with ⟨hBefore, hPlaces⟩
  refine ⟨hBefore, ?_⟩
  intro xs hxs
  rcases hLength xs hxs with ⟨ys, hys, hSame⟩
  subst hxs hys
  refine ⟨ys, rfl, hSame, ?_⟩
  intro k x y hx hy
  have hPlace := hPlaces k x y hx hy
  rwa [Nat.zero_add] at hPlace

/- The MMU rows' registers have no stack and no shift. -/
theorem mmuRegs_clean
    {ro rc : Reloc}
    {field : Nat → Field}
    {i : Nat}
    {xs ys : List Int}
    {t : Tally}
    (hClean : (mmuRegs ro rc row field i xs ys t).Clean) :
    t.Clean ∧ ∀ (k : Nat) (x y : Int),
      xs[k]? = some x → ys[k]? = some y →
        Translated ro rc x y := by
  induction xs generalizing i ys t with
  | nil => exact ⟨hClean, by simp⟩
  | cons x xs ih =>
      cases ys with
      | nil => exact ⟨hClean, by simp⟩
      | cons y ys =>
          rcases ih hClean with ⟨hHead, hTail⟩
          have hFirst : t.Clean ∧ Translated ro rc x y := by
            split at hHead
            next hAlike =>
              simp only [Bool.or_eq_true, beq_iff_eq]
                at hAlike
              exact ⟨hHead, hAlike⟩
            next =>
              exact absurd hHead
                (Tally.not_clean_fail row (field i) t)
          refine ⟨hFirst.1, ?_⟩
          intro k u v hu hv
          cases k with
          | zero =>
              cases hu
              cases hv
              exact hFirst.2
          | succ k => exact hTail k u v hu hv

theorem regsAlike_of_places
    {R : Int → Int → Prop}
    {vo vc : Option (List Int)}
    (hLength : SameLength vo vc)
    (hPlaces : ∀ (k : Nat) (x y : Int),
      (vo.getD [])[k]? = some x →
        (vc.getD [])[k]? = some y → R x y) :
    Kept (RegsAlike false R) vo vc := by
  intro xs hxs
  rcases hLength xs hxs with ⟨ys, hys, hSame⟩
  subst hxs hys
  refine ⟨ys, rfl, hSame, ?_⟩
  intro k x y hx hy
  exact .inr (hPlaces k x y hx hy)

/- A field is only looked at if the oracle has it. -/
theorem ifHas_proves
    {α : Type}
    {R : α → α → Prop}
    {vo vc : Option α}
    {check : α → Check}
    (hCheck : ∀ x, vo = some x →
      Proves Tally.Clean (check x) (∃ y, vc = some y ∧ R x y)) :
    Proves Tally.Clean (ifHas vo check) (Kept R vo vc) := by
  cases vo with
  | none =>
      apply proves_ok
      intro t hClean
      refine ⟨hClean, ?_⟩
      intro x hx
      cases hx
  | some x =>
      apply (hCheck x rfl).mono
      intro hFound z hz
      cases hz
      exact hFound

theorem ccrCheck_proves
    {py : Python}
    {policy : Policy}
    {x : Int}
    {vc : Option Int} :
    Proves Tally.Clean (ccrCheck py policy row x vc)
      (∃ y, vc = some y ∧
        (x = y ∨ ccrAlike py policy row x y = true)) := by
  cases vc with
  | none => exact proves_error _
  | some y =>
      apply proves_ite
      · intro hEqual
        exact proves_match
          ⟨y, rfl, .inl (by simpa using hEqual)⟩
      · intro _
        apply proves_ite
        · intro hAlike
          exact proves_cls _ ⟨y, rfl, .inr hAlike⟩
        · intro _
          exact proves_fail _ _

end Oracle

------------------------------------------------------------
-- Memory
------------------------------------------------------------

namespace Oracle

open Checks (Proves proves_error proves_ok proves_ite)

variable {deltas : List Int}

theorem RamAlike.of_eq
    {xs ys : List Int}
    (hEqual : xs = ys) :
    RamAlike deltas xs ys := by
  induction xs, ys using RamAlike.induct with
  | case1 x₀ x₁ x₂ x₃ xs y₀ y₁ y₂ y₃ ys ih =>
      cases hEqual
      exact ⟨.inl rfl, ih rfl⟩
  | case2 xs ys hShort =>
      rw [RamAlike]
      · exact hEqual
      · exact hShort

/- The words of memory, then what is left over. -/
theorem ramTail_words (x₀ x₁ x₂ x₃ : Int) (xs : List Int) :
    ramTail (x₀ :: x₁ :: x₂ :: x₃ :: xs) = ramTail xs := by
  have hWords : (xs.length + 1 + 1 + 1 + 1) / 4 * 4 =
      xs.length / 4 * 4 + 1 + 1 + 1 + 1 := by
    omega
  simp only [ramTail, List.length_cons, hWords,
    List.drop_succ_cons]

theorem RamAlike.tail_eq
    {xs ys : List Int}
    (hAlike : RamAlike deltas xs ys) :
    ramTail xs = ramTail ys := by
  induction xs, ys using RamAlike.induct with
  | case1 x₀ x₁ x₂ x₃ xs y₀ y₁ y₂ y₃ ys ih =>
      rw [ramTail_words, ramTail_words]
      exact ih hAlike.2
  | case2 xs ys hShort =>
      rw [RamAlike] at hAlike
      · rw [hAlike]
      · exact hShort

theorem exists_word
    {xs : List Int}
    (hLong : 4 ≤ xs.length) :
    ∃ x₀ x₁ x₂ x₃ rest, xs = x₀ :: x₁ :: x₂ :: x₃ :: rest := by
  rcases xs with _ | ⟨x₀, _ | ⟨x₁, _ | ⟨x₂, _ | ⟨x₃, rest⟩⟩⟩⟩
  · simp at hLong
  · simp at hLong
  · simp at hLong
  · simp at hLong
  · exact ⟨x₀, x₁, x₂, x₃, rest, rfl⟩

theorem ramTail_short
    {xs : List Int}
    (hShort : xs.length < 4) :
    ramTail xs = xs := by
  have hNoWord : xs.length / 4 = 0 := Nat.div_eq_of_lt hShort
  rw [ramTail, hNoWord, Nat.zero_mul, List.drop_zero]

/-
  Memory of one length in which no word differs is alike if
  its ends are.
-/
theorem ramWords_clean
    {bo bc : List Int}
    {t t' : Tally}
    (hRun : ramWords deltas bo bc t = .ok (false, t'))
    (hClean : t'.Clean)
    (hLength : bo.length = bc.length)
    (hTail : ramTail bo = ramTail bc) :
    t.Clean ∧ RamAlike deltas bo bc := by
  induction bo, bc, t using ramWords.induct with
  | case1 x₀ x₁ x₂ x₃ xs y₀ y₁ y₂ y₃ ys t hSame ih =>
      rw [ramWords, if_pos hSame] at hRun
      rw [ramTail_words, ramTail_words] at hTail
      simp only [List.length_cons, Nat.add_right_cancel_iff]
        at hLength
      rcases ih hRun hLength hTail with ⟨hBefore, hRest⟩
      exact ⟨hBefore, .inl (by simpa using hSame), hRest⟩
  | case2 x₀ x₁ x₂ x₃ xs y₀ y₁ y₂ y₃ ys t hDiffer ih _ =>
      rw [ramTail_words, ramTail_words] at hTail
      simp only [List.length_cons, Nat.add_right_cancel_iff]
        at hLength
      rw [ramWords, if_neg hDiffer] at hRun
      cases hIo : word [x₀, x₁, x₂, x₃] with
      | error e =>
          rw [hIo] at hRun
          cases hRun
      | ok io =>
          cases hIc : word [y₀, y₁, y₂, y₃] with
          | error e =>
              rw [hIo, hIc] at hRun
              cases hRun
          | ok ic =>
              rw [hIo, hIc] at hRun
              simp only [bind, Except.bind] at hRun
              split at hRun
              next hMoved =>
                rcases ih hRun hLength hTail with
                  ⟨hBefore, hRest⟩
                exact ⟨hBefore,
                  .inr ⟨io, ic, hIo, hIc, hMoved⟩, hRest⟩
              next =>
                -- a word that differs is reported at the end
                split at hRun
                next => cases hRun
                next => cases hRun
  | case3 xs ys t hShort =>
      rw [ramWords] at hRun
      · cases hRun
        refine ⟨hClean, ?_⟩
        have hLess : xs.length < 4 := by
          by_contra hLong
          have hLongX : 4 ≤ xs.length := Nat.le_of_not_lt hLong
          have hLongY : 4 ≤ ys.length := hLength ▸ hLongX
          rcases exists_word hLongX with
            ⟨x₀, x₁, x₂, x₃, xs', hXs⟩
          rcases exists_word hLongY with
            ⟨y₀, y₁, y₂, y₃, ys', hYs⟩
          exact hShort x₀ x₁ x₂ x₃ xs' y₀ y₁ y₂ y₃ ys' hXs hYs
        rw [ramTail_short hLess, ramTail_short (hLength ▸ hLess)]
          at hTail
        exact RamAlike.of_eq hTail
      · exact hShort

theorem ramBytes_proves
    {row : Text}
    {bo bc : List Int}
    (hTail : ramTail bo = ramTail bc) :
    Proves Tally.Clean (ramBytes deltas row bo bc)
      (RamAlike deltas bo bc) := by
  apply proves_ite
  · intro hEqual
    exact proves_match (RamAlike.of_eq (by simpa using hEqual))
  · intro _ t t' hRun hClean
    beta_reduce at hRun
    cases hWords : ramWords deltas bo bc t with
    | error e =>
        rw [hWords] at hRun
        cases hRun
    | ok result =>
        rcases result with ⟨bad, after⟩
        simp only [hWords, bind, Except.bind] at hRun
        split at hRun
        next =>
          cases hRun
          exact absurd hClean
            (Tally.not_clean_fail row .ram after)
        next hGood =>
          cases hRun
          simp only [Bool.or_eq_true, not_or, bne_iff_ne,
            ne_eq, not_not, Bool.not_eq_true] at hGood
          rw [hGood.1] at hWords
          exact ramWords_clean hWords hClean hGood.2 hTail

end Oracle

------------------------------------------------------------
-- MMU Registers and Windows
------------------------------------------------------------

namespace Oracle

open Checks (Proves proves_error proves_ok proves_ite)

section Keys

variable {α β : Type} [BEq α] [LawfulBEq α]
variable {xs ys : List (α × β)} {key : α}

theorem mem_keysOf
    {v : β}
    (hFound : xs.lookup key = some v) :
    key ∈ keysOf xs ys := by
  rw [List.lookup_eq_some_iff] at hFound
  rcases hFound with ⟨before, after, hSplit, _⟩
  rw [keysOf, List.mem_eraseDups, hSplit]
  simp

/- A check of every key looks at all the oracle has. -/
theorem kept_of_keys
    {R : α → β → β → Prop}
    (hKeys : ∀ key ∈ keysOf xs ys,
      Kept (R key) (xs.lookup key) (ys.lookup key))
    (key : α) :
    Kept (R key) (xs.lookup key) (ys.lookup key) := by
  intro v hFound
  exact hKeys key (mem_keysOf hFound) v hFound

end Keys

variable {ro rc : Reloc} {row : Text}

/- A register that one side lacks raises. -/
theorem mmuReg_proves
    {py : Python}
    {mo mc : List (Text × Int)}
    {key : Text} :
    Proves Tally.Clean
      (mmuReg ro rc row (mmuTarget py.isWord row) mo mc key)
      (Kept (RegisterAlike ro rc py row key)
        (mo.lookup key) (mc.lookup key)) := by
  unfold mmuReg
  cases hOracle : mo.lookup key with
  | none => exact proves_error _
  | some x =>
      cases hCand : mc.lookup key with
      | none => exact proves_error _
      | some y =>
          have hKept : RegisterAlike ro rc py row key x y →
              Kept (RegisterAlike ro rc py row key)
                (some x) (some y) := by
            intro hAlike z hz
            cases hz
            exact ⟨y, rfl, hAlike⟩
          apply proves_ite
          · intro hSame
            simp only [Bool.or_eq_true, beq_iff_eq] at hSame
            apply proves_match
            apply hKept
            rcases hSame with hEqual | hRoot
            · exact .inl hEqual
            · exact .inr (.inl hRoot)
          · intro _
            apply proves_ite
            · intro hLayout
              apply proves_cls
              exact hKept (.inr (.inr (.inl hLayout)))
            · intro _
              apply proves_ite
              · intro hOther
                apply proves_cls
                exact hKept (.inr (.inr (.inr hOther)))
              · intro _
                exact proves_fail _ _

/- A missing window is empty, so the lengths are needed. -/
theorem windowCheck_proves
    {wo wc : List (Int × List Int)}
    {base : Int}
    (hLength : SameLength (wo.lookup base) (wc.lookup base)) :
    Proves Tally.Clean
      (fun t => windowCheck row wo wc t base)
      (Kept (WindowAlike base)
        (wo.lookup base) (wc.lookup base)) := by
  have hKept :
      (inFrame base = true ∨
        (inTables base = true ∧
          flagsDiffer base ((wo.lookup base).getD [])
            ((wc.lookup base).getD []) = false) ∨
        (wo.lookup base).getD [] = (wc.lookup base).getD []) →
      Kept (WindowAlike base)
        (wo.lookup base) (wc.lookup base) := by
    intro hAlike bo hbo
    rcases hLength bo hbo with ⟨bc, hbc, hSame⟩
    rw [hbo, hbc] at hAlike
    exact ⟨bc, hbc, hSame, hAlike⟩
  unfold windowCheck
  apply proves_ite
  · intro hFrame
    apply proves_ok
    intro t hClean
    refine ⟨?_, hKept (.inl hFrame)⟩
    split at hClean
    next => exact hClean
    next => exact hClean
  · intro _
    apply proves_ite
    · intro hTables
      apply proves_ite
      · intro _
        exact proves_fail _ _
      · intro hFlags
        apply proves_ok
        intro t hClean
        refine ⟨?_, hKept (.inr (.inl ⟨hTables,
          Bool.eq_false_iff.mpr hFlags⟩))⟩
        split at hClean
        next => exact hClean
        next => exact hClean
    · intro _
      apply proves_ite
      · intro _
        exact proves_fail _ _
      · intro hEqual
        apply proves_match
        exact hKept (.inr (.inr (by simpa using hEqual)))

theorem windowsCheck_proves
    {o c : Row}
    (hComplete : WindowsComplete o c) :
    Proves Tally.Clean (windowsCheck row o c)
      (WindowsAgree o c) := by
  unfold windowsCheck
  cases hOracle : windowMap (o.windows.getD []) with
  | error e => exact proves_error e
  | ok wo =>
      cases hCand : windowMap (c.windows.getD []) with
      | error e => exact proves_error e
      | ok wc =>
          have hLength := hComplete wo wc hOracle hCand
          have hEach : Proves Tally.Clean
              (fun t => (keysOf wo wc).foldlM
                (windowCheck row wo wc) t)
              (∀ base ∈ keysOf wo wc, Kept (WindowAlike base)
                (wo.lookup base) (wc.lookup base)) := by
            apply Proves.each
            intro base _
            exact windowCheck_proves (hLength base)
          apply hEach.mono
          intro hKeys
          exact ⟨wo, wc, hOracle, hCand, kept_of_keys hKeys⟩

end Oracle
