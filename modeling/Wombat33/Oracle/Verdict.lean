import Wombat33.Oracle.Fields

/-
  What exit code 0 proves.

  Each suite's row comparison proves that the rows agree if
  the candidate's row is complete, the pairing proves the
  names, and the tally's exit code carries both to the files.
  Where the files are not complete the exit code says nothing
  of it: it is 0 for a candidate without any rows.

  Key theorems include:
    * `Oracle.pairRows_clean`
    * `Oracle.cpuRow_proves`, `Oracle.fpuRow_proves`,
      `Oracle.selfscoredRow_proves`, `Oracle.mmuRow_proves`
    * `Oracle.comparison_exact`
-/

------------------------------------------------------------
-- Pairing
------------------------------------------------------------

namespace Oracle

open Checks (Proves proves_error proves_ok proves_ite)

/- The names of a pair, a missing one being empty. -/
def PairedName (o c : Row) : Prop :=
  baseName (o.name.getD []) = baseName (c.name.getD [])

theorem PairedName.sameName
    {o c : Row}
    {n : Text}
    (hNames : PairedName o c)
    (hOracle : o.name = some n)
    (hCand : c.name.isSome = true) :
    SameName o c := by
  rcases Option.isSome_iff_exists.mp hCand with ⟨n', hName⟩
  refine ⟨n, n', hOracle, hName, ?_⟩
  simpa [PairedName, hOracle, hName] using hNames

/-
  The pairs are the first places of both files, and if the
  tally stays clean all places of the shorter one.
-/
theorem pairRows_spec
    {os cs : List Row}
    {t t' : Tally}
    {pairs : List (Row × Row)}
    (hRun : pairRows os cs t = .ok (pairs, t')) :
    pairs <+: os.zip cs ∧
      (∀ p ∈ pairs, PairedName p.1 p.2) ∧
      (t'.Clean → pairs = os.zip cs) := by
  induction os generalizing cs t pairs with
  | nil =>
      cases hRun
      exact ⟨List.nil_prefix, by simp, fun _ => rfl⟩
  | cons o os ih =>
      cases cs with
      | nil =>
          cases hRun
          exact ⟨List.nil_prefix, by simp, fun _ => rfl⟩
      | cons c cs =>
          have hCons : ∀ (start : Tally) rest,
              PairedName o c →
              pairRows os cs start = .ok (rest, t') →
              (o, c) :: rest <+: (o :: os).zip (c :: cs) ∧
                (∀ p ∈ (o, c) :: rest, PairedName p.1 p.2) ∧
                (t'.Clean → (o, c) :: rest =
                  (o :: os).zip (c :: cs)) := by
            intro start rest hNames hLater
            rcases ih hLater with ⟨hPrefix, hAll, hWhole⟩
            refine ⟨?_, ?_, ?_⟩
            · exact List.cons_prefix_cons.mpr ⟨rfl, hPrefix⟩
            · intro p hp
              rcases List.mem_cons.mp hp with rfl | hp
              · exact hNames
              · exact hAll p hp
            · intro hClean
              rw [hWhole hClean, List.zip_cons_cons]
          unfold pairRows at hRun
          split at hRun
          next =>
            cases hRun
            refine ⟨List.nil_prefix, by simp, ?_⟩
            intro hClean
            exact absurd hClean
              (Tally.not_clean_fail _ .order t)
          next hSame =>
            have hNames : PairedName o c := by
              simp only [bne_iff_ne, ne_eq, not_not] at hSame
              exact hSame
            split at hRun
            next =>
              cases hLater : pairRows os cs t with
              | error e =>
                  rw [hLater] at hRun
                  cases hRun
              | ok result =>
                  rw [hLater] at hRun
                  cases hRun
                  exact hCons t _ hNames hLater
            next =>
              split at hRun
              next => cases hRun
              next =>
                cases hLater :
                    pairRows os cs (t.cls .label) with
                | error e =>
                    rw [hLater] at hRun
                    cases hRun
                | ok result =>
                    rw [hLater] at hRun
                    cases hRun
                    exact hCons (t.cls .label) _ hNames hLater

section Places

variable {R S : Row → Row → Prop} {os cs : List Row}

theorem Paired.mono
    (hPaired : Paired R os cs)
    (hWeaker : ∀ o c, R o c → S o c) :
    Paired S os cs := by
  intro k o ho
  rcases hPaired k o ho with ⟨c, hc, hPlace⟩
  exact ⟨c, hc, hWeaker o c hPlace⟩

theorem Paired.of_zip
    (hPaired : Paired S os cs)
    {p : Row × Row}
    (hp : p ∈ os.zip cs) :
    S p.1 p.2 := by
  rcases List.mem_iff_getElem?.mp hp with ⟨k, hk⟩
  rw [List.getElem?_zip_eq_some] at hk
  rcases hPaired k p.1 hk.1 with ⟨c, hc, hPlace⟩
  have hCand : c = p.2 := Option.some.inj (hc.symm.trans hk.2)
  rw [← hCand]
  exact hPlace

/- Where every oracle row has a partner, the zip has it. -/
theorem Paired.of_pairs
    (hPaired : Paired S os cs)
    (hPairs : ∀ p ∈ os.zip cs, R p.1 p.2) :
    Paired R os cs := by
  intro k o ho
  rcases hPaired k o ho with ⟨c, hc, _⟩
  refine ⟨c, hc, hPairs (o, c) ?_⟩
  apply List.mem_iff_getElem?.mpr
  refine ⟨k, ?_⟩
  rw [List.getElem?_zip_eq_some]
  exact ⟨ho, hc⟩

/-
  A suite whose comparison of complete rows proves agreement
  proves it of complete files.
-/
theorem suite_agrees
    {row : Row → Row → Check}
    {pairs : List (Row × Row)}
    {t t' : Tally}
    (hRow : ∀ o c, PairedName o c → S o c →
      Proves Tally.Clean (row o c) (R o c))
    (hComplete : Paired S os cs)
    (hPairs : pairRows os cs {} = .ok (pairs, t))
    (hRun :
      pairs.foldlM (fun t p => row p.1 p.2 t) t = .ok t')
    (hClean : t'.Clean) :
    pairs = os.zip cs ∧ Paired R os cs := by
  rcases pairRows_spec hPairs with ⟨hPrefix, hNames, hWhole⟩
  have hEach : Proves Tally.Clean
      (fun t => pairs.foldlM (fun t p => row p.1 p.2 t) t)
      (∀ p ∈ pairs, R p.1 p.2) := by
    apply Proves.each
    intro p hp
    exact hRow p.1 p.2 (hNames p hp)
      (hComplete.of_zip (hPrefix.subset hp))
  rcases hEach t t' hRun hClean with ⟨hBefore, hAgree⟩
  have hZip := hWhole hBefore
  rw [hZip] at hAgree
  exact ⟨hZip, hComplete.of_pairs hAgree⟩

end Places

end Oracle

------------------------------------------------------------
-- Rows
------------------------------------------------------------

namespace Oracle

open Checks (Proves proves_error proves_ok proves_ite)

variable {py : Python} {args : Args} {deltas : List Int}
variable {o c : Row} {n : Text}

/- With a vector on both sides, equal counts as equal. -/
theorem kept_vector
    (hVec : Present o.vec c.vec)
    (hSame : ¬ (o.vector != c.vector) = true) :
    Kept Eq o.vec c.vec := by
  intro x hx
  rcases hVec x hx with ⟨y, hy, _⟩
  refine ⟨y, hy, ?_⟩
  simpa [Row.vector, hx, hy] using hSame

theorem cpuState_proves
    {so sc : State}
    (hComplete : CpuStateComplete so sc) :
    Proves Tally.Clean (cpuState py args deltas n so sc)
      (CpuStateAgrees py args deltas n so sc) := by
  have hCcr : Proves Tally.Clean
      (ifHas so.ccr
        (fun v => ccrCheck py args.ccrPolicy n v sc.ccr))
      (Kept (fun x y => x = y ∨
        ccrAlike py args.ccrPolicy n x y = true)
        so.ccr sc.ccr) := by
    apply ifHas_proves
    intro x _
    exact ccrCheck_proves
  have hPc : Proves Tally.Clean
      (ifHas so.pc (fun v t =>
        .ok (scalar deltas n .pc (some v) sc.pc t)))
      (Kept (Alike deltas) so.pc sc.pc) := by
    apply ifHas_proves
    intro x _
    apply proves_ok
    intro t hClean
    rcases scalar_clean hClean with ⟨hBefore, hKept⟩
    exact ⟨hBefore, hKept x rfl⟩
  have hRam : Proves Tally.Clean
      (ifHas so.ram
        (fun v => ramBytes deltas n v (sc.ram.getD [])))
      (Kept (RamAlike deltas) so.ram sc.ram) := by
    apply ifHas_proves
    intro bo hbo
    rcases hComplete.ram bo hbo with ⟨bc, hbc, hTail⟩
    rw [hbc]
    apply (ramBytes_proves hTail).mono
    intro hAlike
    exact ⟨bc, rfl, hAlike⟩
  have hD : Proves Tally.Clean
      (regsOf deltas n .d false so.d sc.d)
      (Kept (RegsAlike false (Alike deltas)) so.d sc.d) :=
    regsOf_proves hComplete.d
  have hA : Proves Tally.Clean
      (regsOf deltas n .a true so.a sc.a)
      (Kept (RegsAlike true (Alike deltas)) so.a sc.a) :=
    regsOf_proves hComplete.a
  have hAll :=
    hCcr.bind (hPc.bind (hD.bind (hA.bind hRam)))
  apply hAll.mono
  rintro ⟨hCcr, hPc, hD, hA, hRam⟩
  exact ⟨hCcr, hPc, hD, hA, hRam⟩

theorem cpuRow_proves
    (hNames : PairedName o c)
    (hComplete : CpuComplete args o c) :
    Proves Tally.Clean (cpuRow py args deltas o c)
      (CpuAgrees py args deltas o c) := by
  rcases hComplete with ⟨hName, hComplete⟩
  unfold cpuRow
  cases hOracle : o.name with
  | none => exact proves_error _
  | some n =>
      have hSameName := hNames.sameName hOracle hName
      apply proves_ite
      · intro hFlat
        simp only [Bool.and_eq_true] at hFlat
        apply proves_cls
        exact ⟨hSameName,
          .inl ⟨hFlat.1, n, hOracle, hFlat.2⟩⟩
      · intro hStrict
        have hRest : Present o.vec c.vec ∧
            ∀ so sc, o.state = some so → c.state = some sc →
              CpuStateComplete so sc := by
          rcases hComplete with hFlat | hRest
          · rcases hFlat with ⟨hArgs, n', hn', hRow⟩
            have hEqual : n = n' :=
              Option.some.inj (hOracle.symm.trans hn')
            subst hEqual
            exact absurd (by simp [hArgs, hRow]) hStrict
          · exact hRest
        apply proves_ite
        · intro _
          exact proves_fail _ _
        · intro hVec
          apply proves_ite
          · intro _
            exact proves_fail _ _
          · intro hKind
            simp only [bne_iff_ne, ne_eq, not_not] at hKind
            cases hSo : o.state with
            | none => exact proves_error _
            | some so =>
                cases hSc : c.state with
                | none => exact proves_error _
                | some sc =>
                    have hLists := hRest.2 so sc hSo hSc
                    apply (cpuState_proves hLists).mono
                    intro hAgree
                    refine ⟨hSameName, .inr
                      ⟨kept_vector hRest.1 hVec, so, sc,
                        hKind, hSo, hSc, ?_⟩⟩
                    rw [hOracle]
                    exact hAgree

theorem fpsrCheck_proves
    {vo vc : Option Int} :
    Proves Tally.Clean (fpsrCheck args n vo vc)
      (Kept (fun x y => x = y ∨ args.maskAexc = true ∧
        clear fpsrAexc x = clear fpsrAexc y) vo vc) := by
  apply proves_ite
  · intro hEqual
    have hSame : vo = vc := by simpa using hEqual
    subst hSame
    exact proves_match (Kept.refl (fun x => .inl rfl) vo)
  · intro _
    cases vo with
    | none => exact proves_error _
    | some x =>
        cases vc with
        | none => exact proves_error _
        | some y =>
            apply proves_ite
            · intro hMasked
              simp only [Bool.and_eq_true, beq_iff_eq]
                at hMasked
              apply proves_cls
              intro z hz
              cases hz
              exact ⟨y, rfl, .inr hMasked⟩
            · intro _
              exact proves_fail _ _

theorem fpuState_proves
    {so sc : State}
    (hD : SameLength so.d sc.d)
    (hA : SameLength so.a sc.a) :
    Proves Tally.Clean (fpuState args deltas n so sc)
      (FpuStateAgrees args deltas so sc) := by
  have hRegsD : Proves Tally.Clean
      (regsOf deltas n .d false so.d sc.d)
      (Kept (RegsAlike false (Alike deltas)) so.d sc.d) :=
    regsOf_proves hD
  have hRegsA : Proves Tally.Clean
      (regsOf deltas n .a true so.a sc.a)
      (Kept (RegsAlike true (Alike deltas)) so.a sc.a) :=
    regsOf_proves hA
  have hControl : Proves Tally.Clean
      (fun t =>
        let t := if so.fp == sc.fp then t.ok else t.fail n .fp
        let t := scalar [] n .fpcr so.fpcr sc.fpcr t
        let t := scalar deltas n .fpiar so.fpiar sc.fpiar t
        fpsrCheck args n so.fpsr sc.fpsr t)
      (Kept Eq so.fp sc.fp ∧ Kept Eq so.fpcr sc.fpcr ∧
        Kept (Alike deltas) so.fpiar sc.fpiar ∧
        Kept (fun x y => x = y ∨ args.maskAexc = true ∧
          clear fpsrAexc x = clear fpsrAexc y)
          so.fpsr sc.fpsr) := by
    intro t t' hRun hClean
    rcases fpsrCheck_proves _ t' hRun hClean with
      ⟨hClean, hFpsr⟩
    rcases scalar_clean hClean with ⟨hClean, hFpiar⟩
    rcases scalar_clean hClean with ⟨hClean, hFpcr⟩
    -- without a shift only equal values are alike
    have hExact : Kept Eq so.fpcr sc.fpcr := by
      apply hFpcr.mono
      rintro x y (hEqual | hMoved)
      · exact hEqual
      · simp [moved] at hMoved
    split at hClean
    next hEqual =>
      have hFp : so.fp = sc.fp := by simpa using hEqual
      refine ⟨hClean, ?_, hExact, hFpiar, hFpsr⟩
      rw [hFp]
      exact Kept.refl (fun _ => rfl) sc.fp
    next =>
      exact absurd hClean (Tally.not_clean_fail n .fp t)
  apply (hRegsD.bind (hRegsA.bind hControl)).mono
  rintro ⟨hD, hA, hFp, hFpcr, hFpiar, hFpsr⟩
  exact ⟨hD, hA, hFp, hFpcr, hFpiar, hFpsr⟩

/- The policy class speaks of vectors that differ. -/
theorem policyRow_of
    (hVec : Present o.vec c.vec)
    (hDiffer : (o.vector != c.vector) = true)
    (hPair : fpPolicyPair o.vector c.vector = true) :
    PolicyRow o c :=
  ⟨hVec, by simpa using hDiffer, hPair⟩

theorem fpuRow_proves
    (hNames : PairedName o c)
    (hComplete : FpuComplete o c) :
    Proves Tally.Clean (fpuRow args deltas o c)
      (FpuAgrees args deltas o c) := by
  rcases hComplete with ⟨hName, hVec, hComplete⟩
  unfold fpuRow
  cases hOracle : o.name with
  | none => exact proves_error _
  | some n =>
      have hSameName := hNames.sameName hOracle hName
      apply proves_ite
      · intro hDiffer
        apply proves_ite
        · intro hPair
          apply proves_cls
          exact ⟨hSameName,
            .inl (policyRow_of hVec hDiffer hPair)⟩
        · intro _
          exact proves_fail _ _
      · intro hSame
        rcases hComplete with hPolicy | hLists
        · exact absurd
            (bne_iff_ne.mpr hPolicy.2.1) hSame
        · apply (fpuState_proves hLists.1 hLists.2).mono
          intro hAgree
          exact ⟨hSameName,
            .inr ⟨kept_vector hVec hSame, hAgree⟩⟩

theorem selfscoredRow_proves
    (hNames : PairedName o c)
    (hComplete : SelfComplete o c) :
    Proves Tally.Clean (selfscoredRow o c)
      (SelfAgrees o c) := by
  rcases hComplete with ⟨hName, hVec, hComplete⟩
  unfold selfscoredRow
  cases hOracle : o.name with
  | none => exact proves_error _
  | some n =>
      have hSameName := hNames.sameName hOracle hName
      apply proves_ite
      · intro hDiffer
        apply proves_ite
        · intro hPair
          apply proves_cls
          exact ⟨hSameName,
            .inl (policyRow_of hVec hDiffer hPair)⟩
        · intro _
          exact proves_fail _ _
      · intro hSame
        have hActual : Present o.actual c.actual := by
          rcases hComplete with hPolicy | hActual
          · exact absurd
              (bne_iff_ne.mpr hPolicy.2.1) hSame
          · exact hActual
        have hAgrees :
            Kept (ActualAlike n) o.actual c.actual →
              SelfAgrees o c := by
          intro hKept
          refine ⟨hSameName,
            .inr ⟨kept_vector hVec hSame, ?_⟩⟩
          rw [hOracle]
          exact hKept
        apply proves_ite
        · intro _
          apply proves_ite
          · intro hAlike
            apply proves_cls
            apply hAgrees
            intro x hx
            rcases hActual x hx with ⟨y, hy, _⟩
            rw [hx, hy] at hAlike
            exact ⟨y, hy, .inr hAlike⟩
          · intro _
            exact proves_fail _ _
        · intro hEqual
          simp only [bne_iff_ne, ne_eq, not_not] at hEqual
          have hKept : Kept (ActualAlike n)
              o.actual c.actual := by
            rw [hEqual]
            exact Kept.refl (fun x => .inl rfl) c.actual
          apply proves_ite
          · intro _
            exact proves_cls _ (hAgrees hKept)
          · intro _
            exact proves_match (hAgrees hKept)

section Mmu

variable {ro rc : Reloc}

theorem mmuState_proves
    {so sc : State}
    (hD : SameLength so.d sc.d)
    (hA : SameLength so.a sc.a) :
    Proves Tally.Clean (mmuState ro rc py n so sc)
      (MmuStateAgrees ro rc py n so sc) := by
  have hRegisters : Proves Tally.Clean
      (fun t => (keysOf (so.mmu.getD []) (sc.mmu.getD [])).foldlM
        (fun t key => mmuReg ro rc n (mmuTarget py.isWord n)
          (so.mmu.getD []) (sc.mmu.getD []) key t) t)
      (∀ key ∈ keysOf (so.mmu.getD []) (sc.mmu.getD []),
        Kept (RegisterAlike ro rc py n key)
          ((so.mmu.getD []).lookup key)
          ((sc.mmu.getD []).lookup key)) := by
    apply Proves.each
    intro key _
    exact mmuReg_proves
  intro t t' hRun hClean
  rcases hRegisters _ t' hRun hClean with ⟨hClean, hKeys⟩
  rcases mmuRegs_clean hClean with ⟨hClean, hPlacesA⟩
  rcases mmuRegs_clean hClean with ⟨hClean, hPlacesD⟩
  exact ⟨hClean, regsAlike_of_places hD hPlacesD,
    regsAlike_of_places hA hPlacesA, kept_of_keys hKeys⟩

theorem mmuRow_proves
    (hNames : PairedName o c)
    (hComplete : MmuComplete o c) :
    Proves Tally.Clean (mmuRow ro rc py o c)
      (MmuAgrees ro rc py o c) := by
  rcases hComplete with ⟨hName, hComplete⟩
  unfold mmuRow
  cases hOracle : o.name with
  | none => exact proves_error _
  | some n =>
      have hSameName := hNames.sameName hOracle hName
      apply proves_ite
      · intro _
        exact proves_fail _ _
      · intro _
        apply proves_ite
        · intro hSkipped
          apply proves_match
          refine ⟨hSameName, .inl ?_⟩
          cases hValue : o.skipped with
          | none =>
              rw [hValue] at hSkipped
              cases hSkipped
          | some skipped =>
              rw [hValue] at hSkipped
              exact congrArg some hSkipped
        · intro hRan
          rcases hComplete with hSkipped | hComplete
          · exact absurd (by rw [hSkipped]; rfl) hRan
          · rcases hComplete with ⟨hVec, hD, hA, hWindows⟩
            apply proves_ite
            · intro _
              exact proves_fail _ _
            · intro hSame
              refine Proves.mono
                ((mmuState_proves hD hA).bind
                  (windowsCheck_proves hWindows)) ?_
              rintro ⟨hState, hWindows⟩
              refine ⟨hSameName, .inr
                ⟨kept_vector hVec hSame, ?_, hWindows⟩⟩
              rw [hOracle]
              exact hState

end Mmu

end Oracle

------------------------------------------------------------
-- Agreement Is Complete
------------------------------------------------------------

namespace Oracle

variable {py : Python} {args : Args} {deltas : List Int}
variable {o c : Row}

theorem SameName.isSome
    (hName : SameName o c) :
    c.name.isSome = true := by
  rcases hName with ⟨n, n', _, hCand, _⟩
  rw [hCand]
  rfl

theorem Kept.present
    {α : Type}
    {R : α → α → Prop}
    {vo vc : Option α}
    (hKept : Kept R vo vc) :
    Present vo vc :=
  hKept.mono (fun _ _ _ => trivial)

theorem Kept.sameLength
    {stack : Bool}
    {R : Int → Int → Prop}
    {vo vc : Option (List Int)}
    (hKept : Kept (RegsAlike stack R) vo vc) :
    SameLength vo vc :=
  hKept.mono (fun _ _ hAlike => hAlike.1)

theorem CpuAgrees.complete
    (hAgrees : CpuAgrees py args deltas o c) :
    CpuComplete args o c := by
  rcases hAgrees with ⟨hName, hFlat | hAgrees⟩
  · exact ⟨hName.isSome, .inl hFlat⟩
  · rcases hAgrees with ⟨hVec, so, sc, _, hSo, hSc, hState⟩
    refine ⟨hName.isSome, .inr ⟨hVec.present, ?_⟩⟩
    intro so' sc' hSo' hSc'
    have hO : so = so' := Option.some.inj (hSo.symm.trans hSo')
    have hC : sc = sc' := Option.some.inj (hSc.symm.trans hSc')
    subst hO hC
    exact ⟨hState.d.sameLength, hState.a.sameLength,
      hState.ram.mono (fun _ _ hAlike => hAlike.tail_eq)⟩

theorem FpuAgrees.complete
    (hAgrees : FpuAgrees args deltas o c) :
    FpuComplete o c := by
  rcases hAgrees with ⟨hName, hPolicy | ⟨hVec, hState⟩⟩
  · exact ⟨hName.isSome, hPolicy.1, .inl hPolicy⟩
  · exact ⟨hName.isSome, hVec.present,
      .inr ⟨hState.d.sameLength, hState.a.sameLength⟩⟩

theorem SelfAgrees.complete
    (hAgrees : SelfAgrees o c) :
    SelfComplete o c := by
  rcases hAgrees with ⟨hName, hPolicy | ⟨hVec, hActual⟩⟩
  · exact ⟨hName.isSome, hPolicy.1, .inl hPolicy⟩
  · exact ⟨hName.isSome, hVec.present, .inr hActual.present⟩

theorem WindowsAgree.complete
    (hAgree : WindowsAgree o c) :
    WindowsComplete o c := by
  rcases hAgree with ⟨wo, wc, hOracle, hCand, hWindows⟩
  intro wo' wc' hOracle' hCand' base
  have hO : wo = wo' :=
    Except.ok.inj (hOracle.symm.trans hOracle')
  have hC : wc = wc' :=
    Except.ok.inj (hCand.symm.trans hCand')
  subst hO hC
  exact (hWindows base).mono (fun _ _ hAlike => hAlike.1)

theorem MmuAgrees.complete
    {ro rc : Reloc}
    (hAgrees : MmuAgrees ro rc py o c) :
    MmuComplete o c := by
  rcases hAgrees with ⟨hName, hSkipped | hAgrees⟩
  · exact ⟨hName.isSome, .inl hSkipped⟩
  · rcases hAgrees with ⟨hVec, hState, hWindows⟩
    exact ⟨hName.isSome, .inr ⟨hVec.present,
      hState.d.sameLength, hState.a.sameLength,
      hWindows.complete⟩⟩

theorem RowsAgree.complete
    {os cs : List Row}
    {suite : Suite}
    (hAgree : RowsAgree py args os cs suite) :
    RowsComplete args os cs suite := by
  cases suite with
  | cpu =>
      rcases hAgree with ⟨deltas, _, hPlaces⟩
      exact hPlaces.mono (fun _ _ hRow => hRow.complete)
  | fpu =>
      rcases hAgree with ⟨deltas, _, hPlaces⟩
      exact hPlaces.mono (fun _ _ hRow => hRow.complete)
  | integration =>
      exact Paired.mono hAgree (fun _ _ hRow => hRow.complete)
  | saverestore =>
      exact Paired.mono hAgree (fun _ _ hRow => hRow.complete)
  | mmu =>
      refine ⟨?_, Paired.mono hAgree
        (fun _ _ hRow => hRow.complete)⟩
      intro o ho
      rcases List.mem_iff_getElem?.mp ho with ⟨k, hk⟩
      rcases hAgree k o hk with ⟨c, _, hRow⟩
      rcases hRow.1 with ⟨n, _, hOracle, _⟩
      rw [hOracle]
      rfl

end Oracle

------------------------------------------------------------
-- The Exit Code
------------------------------------------------------------

namespace Oracle

variable {py : Python} {args : Args} {suite : Suite}

theorem bind_eq_ok
    {α β : Type}
    {run : Except Crash α}
    {next : α → Except Crash β}
    {result : β}
    (hRun : run >>= next = .ok result) :
    ∃ value, run = .ok value ∧ next value = .ok result := by
  cases run with
  | error e => cases hRun
  | ok value => exact ⟨value, rfl, hRun⟩

/- Exit code 0 is a clean tally of files that were read. -/
theorem main_eq_zero
    {oracle cand : List UInt8}
    (hPass : main py suite args oracle cand = 0) :
    ∃ os cs t, load py oracle = .ok os ∧
      load py cand = .ok cs ∧
      score py args os cs suite = .ok t ∧ t.Clean := by
  simp only [main] at hPass
  split at hPass
  next t hRun =>
    rcases bind_eq_ok hRun with ⟨os, hOracle, hRun⟩
    rcases bind_eq_ok hRun with ⟨cs, hCand, hRun⟩
    exact ⟨os, cs, t, hOracle, hCand, hRun,
      t.report_iff.mp hPass⟩
  next => cases hPass

/- Every test row is kept where every one has a name. -/
theorem testRows_eq
    {os : List Row}
    (hNamed : ∀ o ∈ tests os, o.name.isSome = true) :
    tests os = testRows os := by
  apply List.filter_congr
  intro o ho
  cases hReloc : o.reloc.isNone with
  | false => rfl
  | true =>
      have hTest : o ∈ tests os :=
        List.mem_filter.mpr ⟨ho, hReloc⟩
      rw [hNamed o hTest]
      rfl

/- A clean score of complete rows is agreement. -/
theorem score_proves
    {os cs : List Row}
    {t : Tally}
    (hScore : score py args os cs suite = .ok t)
    (hClean : t.Clean)
    (hComplete : RowsComplete args os cs suite) :
    RowsAgree py args os cs suite := by
  cases suite with
  | cpu =>
      rcases bind_eq_ok hScore with
        ⟨⟨pairs, start⟩, hPairs, hScore⟩
      rcases bind_eq_ok hScore with ⟨deltas, hDeltas, hScore⟩
      have hRows : pairs = os.zip cs ∧
          Paired (CpuAgrees py args deltas) os cs :=
        suite_agrees (fun _ _ => cpuRow_proves)
          hComplete hPairs hScore hClean
      rw [hRows.1] at hDeltas
      exact ⟨deltas, hDeltas, hRows.2⟩
  | fpu =>
      rcases bind_eq_ok hScore with
        ⟨⟨pairs, start⟩, hPairs, hScore⟩
      rcases bind_eq_ok hScore with ⟨deltas, hDeltas, hScore⟩
      have hRows : pairs = os.zip cs ∧
          Paired (FpuAgrees args deltas) os cs :=
        suite_agrees (fun _ _ => fpuRow_proves)
          hComplete hPairs hScore hClean
      rw [hRows.1] at hDeltas
      exact ⟨deltas, hDeltas, hRows.2⟩
  | integration =>
      rcases bind_eq_ok hScore with
        ⟨⟨pairs, start⟩, hPairs, hScore⟩
      exact (suite_agrees (fun _ _ => selfscoredRow_proves)
        hComplete hPairs hScore hClean).2
  | saverestore =>
      rcases bind_eq_ok hScore with
        ⟨⟨pairs, start⟩, hPairs, hScore⟩
      exact (suite_agrees (fun _ _ => selfscoredRow_proves)
        hComplete hPairs hScore hClean).2
  | mmu =>
      rcases bind_eq_ok hScore with
        ⟨⟨pairs, start⟩, hPairs, hScore⟩
      rcases hComplete with ⟨hNamed, hComplete⟩
      rw [testRows_eq hNamed] at hComplete
      have hRows : pairs = (testRows os).zip (testRows cs) ∧
          Paired (MmuAgrees (relocOf os) (relocOf cs) py)
            (testRows os) (testRows cs) :=
        suite_agrees (fun _ _ => mmuRow_proves)
          hComplete hPairs hScore hClean
      rw [← testRows_eq hNamed] at hRows
      exact hRows.2

end Oracle

------------------------------------------------------------
-- What a Pass Means
------------------------------------------------------------

namespace Oracle

/-
  Of two files that pass, the candidate agrees with the
  oracle if and only if it is complete.
-/
theorem comparison_exact
    (py : Python)
    (suite : Suite)
    (args : Args)
    (oracle cand : List UInt8)
    (hPass : main py suite args oracle cand = 0) :
    Agrees py suite args oracle cand ↔
      Complete py suite args oracle cand := by
  rcases main_eq_zero hPass with
    ⟨os, cs, t, hOracle, hCand, hScore, hClean⟩
  constructor
  · intro hAgrees
    refine ⟨hAgrees.readable, ?_⟩
    intro os' cs' hOracle' hCand'
    rcases hAgrees.rows with ⟨rows, rows', hRows, hRows', hAll⟩
    have hO : os' = rows :=
      Except.ok.inj (hOracle'.symm.trans hRows)
    have hC : cs' = rows' :=
      Except.ok.inj (hCand'.symm.trans hRows')
    subst hO hC
    exact hAll.complete
  · intro hComplete
    exact ⟨hComplete.readable, os, cs, hOracle, hCand,
      score_proves hScore hClean
        (hComplete.rows os cs hOracle hCand)⟩

/- A self-scored row, as the bench writes it. -/
def nopLine : Text :=
  "\x7b\"name\":\"NOP\",\"vec\":0,\"actual\":7\x7d".toList

def nopRow : Row :=
  { name := some "NOP".toList, vec := some 0, actual := some 7 }

def nopFile : List UInt8 :=
  nopLine.map (fun c => UInt8.ofNat c.toNat)

/- The decoder on that line; any other is malformed. -/
def nopPython : Python where
  loads := fun line =>
    .ok (if line == nopLine then some nopRow else none)
  isWord := Char.isAlphanum

theorem comparison_exact_nop :
    main nopPython .integration {} nopFile nopFile = 0 ∧
      (Agrees nopPython .integration {} nopFile nopFile ↔
        Complete nopPython .integration {} nopFile nopFile) :=
  ⟨by decide, comparison_exact nopPython .integration {}
    nopFile nopFile (by decide)⟩

/-
  A candidate without any rows passes: the pairing ends with
  the shorter file.
-/
theorem empty_candidate_passes :
    ¬ ∀ (py : Python) (suite : Suite) (args : Args)
        (oracle cand : List UInt8),
        main py suite args oracle cand = 0 →
          Agrees py suite args oracle cand := by
  intro hAgrees
  have hPass : main nopPython .integration {} nopFile [] = 0 :=
    by decide
  rcases (hAgrees _ _ _ _ _ hPass).rows with
    ⟨os, cs, hOracle, hCand, hPlaces⟩
  have hRow : load nopPython nopFile = .ok [nopRow] := by rfl
  have hNone : load nopPython [] = .ok [] := by rfl
  rw [hRow] at hOracle
  rw [hNone] at hCand
  cases hOracle
  cases hCand
  rcases hPlaces 0 nopRow rfl with ⟨c, hc, _⟩
  cases hc

end Oracle
