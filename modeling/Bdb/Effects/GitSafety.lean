import Bdb.Effects.GitAdapter

/-! # Prepared git effects are safe

Every swap of a ref rests on what its own worker was told before: that it owns the run, that the
effect is allowed, and that it is stored as possible. What was prepared stays as it was, and an
effect is stored as done only when its commit was seen at its ref.
-/
namespace Bdb.Effects

open Script GitRequest List

variable {T : Type} [Work.Seconds T] {g : GitRuntime}

abbrev GitLog (T : Type) [Work.Seconds T] := List (Entry (GitRequest.Answer (T := T)))

/-! ## What a request rests on -/

def Checked (known : GitLog T) (r : PreparedGitEffect) : Prop :=
  ∃ q, ⟨.query r.workId,some q⟩ ∈ known ∧ OwnsRun r q ∧ HoldsResource r q ∧
    ⟨.assertLease r.workId r.leaseId r.fence,Except.ok ()⟩ ∈ known

/-- A row is the one of an effect whose candidate is sealed, which was allowed and then stored as
possible. -/
def Allowed (known : GitLog T) (r : PreparedGitEffect) : Prop :=
  ∃ seen approvalId gate current, (∃ effectId, ⟨.readEffect effectId,some seen⟩ ∈ known) ∧
    ⟨.readSealed seen.candidateId,current⟩ ∈ known ∧ assertCandidate seen current = .ok () ∧
    ⟨.authorize seen approvalId,Except.ok gate⟩ ∈ known ∧ ⟨.markPossible seen,Except.ok ()⟩ ∈ known ∧
    ⟨.readEffect seen.effectId,some r⟩ ∈ known

/-- A row holds what was made from a candidate. -/
structure MadeFrom (g : GitRuntime) (r : PreparedGitEffect) (candidate : CandidateRepoView) (treeOid commitOid : Oid) : Prop where
  tree : r.preparedTreeOid = treeOid
  commit : r.preparedCommitOid = commitOid
  parent : r.parentCommitOid = candidate.baseCommitOid
  origin : r.candidateId = candidate.candidateId ∧ r.candidateViewId = candidate.viewId
  digest : r.candidateTreeDigest = candidate.candidateTreeDigest
  expected : r.expectedOldOid = zeroOid r.objectFormat ∨ r.expectedOldOid = candidate.baseCommitOid
  resource : r.resourceKey = gitResourceKey g.runtime r.repositoryIdentityDigest r.targetRef

def Rests (g : GitRuntime) (known : GitLog T) : GitRequest T → Prop
  | .insert r => ∃ candidate treeOid commitOid metadata current, ⟨.readSealed candidate.candidateId,some current⟩ ∈ known ∧
      current.manifestDigest = candidate.viewId ∧ ⟨.materializeTree candidate,Except.ok treeOid⟩ ∈ known ∧
      ⟨.materializeCommit treeOid candidate.baseCommitOid metadata,Except.ok commitOid⟩ ∈ known ∧
      MadeFrom g r candidate treeOid commitOid ∧ r.effectCertainty = .before
  | .persist r certainty observed _ => (∃ effectId, ⟨.readEffect effectId,some r⟩ ∈ known) ∧
      (certainty = .ambiguous ∨ certainty = classification r observed ∧ ⟨.observe r,Except.ok observed⟩ ∈ known)
  | .observe r => ∃ effectId, ⟨.readEffect effectId,some r⟩ ∈ known
  | .cas r _ => Checked known r ∧ Allowed known r
  | _ => True

variable {known : GitLog T}

variable {r : PreparedGitEffect} {fate : CasFate} {i : PrepareInput} {checked metadata : CommitMetadataPolicy}

variable {more : GitLog T} {observed : Option Oid} {k : Then T PreparedGitEffect}
    {effectId approvalId : String} {q : WorkQuery} {run : Work.RunRecord} {current : SealedCandidate}

theorem Checked.mono (h : Checked more r) (hsub : more ⊆ known) : Checked known r := by
  obtain ⟨q,hq,howns,hholds,hlease⟩ := h
  exact ⟨q,hsub hq,howns,hholds,hsub hlease⟩

theorem append_singleton_append {e : Entry (GitRequest.Answer (T := T))} :
    known ++ [e] ++ more = known ++ (e :: more) := append_assoc known [e] more

/-! ## The parts of a call -/

/-- What a part of a call answers was read from the table. -/
def ReadIn (more : GitLog T) (o : Outcome PreparedGitEffect) : Prop :=
  ∀ r, o = .ok r → ∃ effectId, ⟨.readEffect effectId,some r⟩ ∈ more

theorem need_eq_ok {α : Type} {o : Option α} {code message : String} {a : α} (h : need o code message = .ok a) : o = some a :=
  need_ok.mp h

theorem persistObservation_informed {certainty : EffectCertainty}
    {reason : String} (hrests : Rests g known (.persist r certainty observed reason))
    (hk : ∀ more o, ReadIn more o → Informed (Rests g) (known ++ more) (k o)) :
    Informed (Rests g) known (persistObservation r certainty observed reason k) := by
  refine ⟨hrests,fun u => ⟨trivial,fun current => ?_⟩⟩
  rw [append_singleton_append]
  refine hk _ _ fun found hfound => ⟨r.effectId,?_⟩
  obtain rfl : current = some found := need_eq_ok hfound
  simp

theorem reconcile_informed (hk : ∀ more o, ReadIn more o → Informed (Rests g) (known ++ more) (k o)) :
    Informed (Rests g) known (reconcile effectId k) := by
  refine ⟨trivial,fun found => ?_⟩
  cases found with
  | none => exact hk _ _ fun r hr => nomatch hr
  | some r =>
    refine ⟨trivial,fun current => ?_⟩
    dsimp only
    split
    · rw [append_assoc]
      exact hk _ _ fun r hr => nomatch hr
    · refine ⟨⟨effectId,by simp⟩,fun answer => ?_⟩
      have hpersist : ∀ certainty observed reason,
          (certainty = .ambiguous ∨ certainty = classification r observed ∧ answer = Except.ok observed) →
          Informed (Rests g) (known ++ [⟨.readEffect effectId,some r⟩] ++ [⟨.readSealed r.candidateId,current⟩] ++
            [⟨.observe r,answer⟩]) (persistObservation r certainty observed reason k) := by
        intro certainty observed reason hcertain
        refine persistObservation_informed ⟨⟨effectId,by simp⟩,hcertain.imp_right ?_⟩ fun more o ho => ?_
        · rintro ⟨hclass,rfl⟩
          exact ⟨hclass,by simp⟩
        · rw [append_assoc,append_assoc,append_assoc]
          refine hk _ _ fun found hfound => ?_
          obtain ⟨id,hid⟩ := ho found hfound
          exact ⟨id,by simp [hid]⟩
      cases answer with
      | ok observed => exact hpersist _ _ _ (.inr ⟨rfl,rfl⟩)
      | error e =>
        dsimp only
        split
        · exact hpersist _ _ _ (.inl rfl)
        · rw [append_assoc,append_assoc]
          exact hk _ _ fun r hr => nomatch hr

theorem requireRun_ok {found : Option WorkQuery} (h : requireRun r found = .ok q) :
    found = some q ∧ OwnsRun r q := by
  obtain ⟨q',hq',h⟩ := of_need h
  obtain ⟨run,hrun,h⟩ := bind_ok.mp h
  obtain ⟨u,hown,h⟩ := bind_ok.mp h
  cases pure_ok.mp h
  obtain ⟨hfound,htask⟩ := Option.filter_eq_some_iff.mp hq'
  obtain ⟨hrun,hid⟩ := Option.filter_eq_some_iff.mp (need_ok.mp hrun)
  exact ⟨hfound,of_decide_eq_true htask,run,hrun,of_decide_eq_true hid,require_ok.mp hown⟩

theorem requireClaim_ok {u : Unit} (h : requireClaim r q = .ok u) : HoldsResource r q := by
  obtain ⟨c,hc,h⟩ := of_need h
  exact ⟨c,hc,require_ok.mp h⟩

theorem assertActiveRun_informed {k : Then T Unit}
    (hk : ∀ more o, (o = .ok () → Checked more r) → Informed (Rests g) (known ++ more) (k o)) :
    Informed (Rests g) known (assertActiveRun r k) := by
  refine ⟨trivial,fun found => ?_⟩
  dsimp only
  split
  · exact hk _ _ nofun
  · rename_i q hq
    obtain ⟨rfl,howns⟩ := requireRun_ok hq
    refine ⟨trivial,fun lease => ?_⟩
    rw [append_assoc]
    cases lease with
    | error e => exact hk _ _ nofun
    | ok u => exact hk _ _ fun hclaim => ⟨q,by simp,howns,requireClaim_ok hclaim,by simp⟩

theorem swap_informed (h : Checked known r ∧ Allowed known r) :
    Informed (Rests (T := T) g) known (swap r fate) := by
  refine ⟨h,fun answer => ?_⟩
  cases answer with
  | error e => exact trivial
  | ok swapped =>
    refine reconcile_informed fun more o _ => ?_
    cases o with
    | error e => exact trivial
    | ok final => exact trivial

theorem promote_informed {observed : PreparedGitEffect}
    (hread : ∃ effectId, ⟨.readEffect effectId,some observed⟩ ∈ known) :
    Informed (Rests (T := T) g) known (promote observed approvalId fate) := by
  obtain ⟨effectId,hread⟩ := hread
  refine assertActiveRun_informed fun more o _ => ?_
  cases o with
  | error e => exact trivial
  | ok u =>
    refine ⟨trivial,fun current => ?_⟩
    dsimp only
    split
    · exact trivial
    · rename_i u hsealed
      refine ⟨trivial,fun gate => ?_⟩
      cases gate with
      | error e => exact trivial
      | ok gate =>
        refine ⟨trivial,fun bound => ?_⟩
        cases bound with
        | error e => exact trivial
        | ok u =>
          refine ⟨trivial,fun marked => ?_⟩
          cases marked with
          | error e => exact trivial
          | ok u =>
            refine ⟨trivial,fun found => ?_⟩
            cases found with
            | none => exact trivial
            | some possible =>
              refine assertActiveRun_informed fun more' o' hchecked => ?_
              cases o' with
              | error e => exact trivial
              | ok u =>
                refine swap_informed ⟨(hchecked rfl).mono (subset_append_right _ _),observed,approvalId,gate,current,?_⟩
                exact ⟨⟨effectId,by simp [hread]⟩,by simp,hsealed,by simp,by simp,by simp⟩

theorem applyIfSafe_informed : Informed (Rests (T := T) g) known (applyIfSafe effectId approvalId fate) := by
  refine ⟨trivial,fun found => ?_⟩
  cases found with
  | none => exact trivial
  | some r =>
    refine reconcile_informed fun more o ho => ?_
    cases o with
    | error e => exact trivial
    | ok observed =>
      dsimp only
      split
      · exact trivial
      · obtain ⟨id,hid⟩ := ho observed rfl
        exact promote_informed ⟨id,mem_append_right _ hid⟩
      all_goals exact trivial

/-! ## Preparation -/

theorem storeEffect_informed (h : Rests (T := T) g known (.insert r)) :
    Informed (Rests g) known (storeEffect r) := by
  refine ⟨h,fun stored => ?_⟩
  cases stored with
  | ok u => exact ⟨trivial,fun found => trivial⟩
  | error e =>
    refine ⟨trivial,fun existing => ?_⟩
    dsimp only
    split
    all_goals exact trivial

theorem validateInput_base (h : validateInput g i = .ok checked) :
    i.expectedOldOid = zeroOid i.repository.objectFormat ∨ i.expectedOldOid = i.candidate.baseCommitOid := by
  unfold validateInput at h
  obtain ⟨_,_,_,h⟩ := rest₃ h
  obtain ⟨_,_,_,h⟩ := rest₃ h
  obtain ⟨_,_,_,h⟩ := rest₃ h
  obtain ⟨_,_,h⟩ := rest₂ h
  obtain ⟨_,_,h⟩ := rest₂ h
  obtain ⟨_,hbase,-⟩ := bind_ok.mp h
  exact require_ok.mp hbase

theorem preparedRow_made {treeOid commitOid : Oid} (hvalid : validateInput g i = .ok checked) :
    MadeFrom g (preparedRow g i metadata run observed treeOid commitOid) i.candidate treeOid commitOid where
  tree := rfl
  commit := rfl
  parent := rfl
  origin := ⟨rfl,rfl⟩
  digest := rfl
  expected := validateInput_base hvalid
  resource := rfl

section

variable (hvalid : validateInput g i = .ok checked)
  (hsealed : ⟨.readSealed i.candidate.candidateId,some current⟩ ∈ known)
  (hview : current.manifestDigest = i.candidate.viewId)

include hvalid hsealed hview

theorem prepareObjects_informed :
    Informed (Rests (T := T) g) known (prepareObjects g i metadata run) := by
  refine ⟨trivial,fun observed => ?_⟩
  cases observed with
  | error e => exact trivial
  | ok observed =>
    dsimp only
    generalize (if i.expectedOldOid = zeroOid i.repository.objectFormat then none else some i.expectedOldOid) = expected
    split
    · exact trivial
    · refine ⟨trivial,fun tree => ?_⟩
      cases tree with
      | error e => exact trivial
      | ok treeOid =>
        refine ⟨trivial,fun commit => ?_⟩
        cases commit with
        | error e => exact trivial
        | ok commitOid =>
          refine storeEffect_informed ⟨i.candidate,treeOid,commitOid,metadata,current,?_⟩
          exact ⟨by simp [hsealed],hview,by simp,by simp,preparedRow_made hvalid,rfl⟩

theorem prepareOwned_informed :
    Informed (Rests (T := T) g) known (prepareOwned g i metadata) := by
  refine ⟨trivial,fun found => ?_⟩
  dsimp only
  split
  · exact trivial
  · refine ⟨trivial,fun lease => ?_⟩
    cases lease with
    | error e => exact trivial
    | ok u =>
      refine ⟨trivial,fun claimed => ?_⟩
      cases claimed with
      | error e => exact trivial
      | ok u => exact prepareObjects_informed hvalid (by simp [hsealed]) hview

end

theorem prepare_informed (i : PrepareInput) : Informed (Rests (T := T) g) known (prepare g i) := by
  unfold prepare
  split
  · exact trivial
  · rename_i metadata hvalid
    refine ⟨trivial,fun existing => ?_⟩
    cases existing with
    | some existing =>
      dsimp only
      split
      all_goals exact trivial
    | none =>
      refine ⟨trivial,fun found => ?_⟩
      dsimp only
      split
      · exact trivial
      · rename_i u hchecks
        obtain ⟨current,hcurrent,hchecks⟩ := of_need hchecks
        obtain ⟨u,hview,-⟩ := bind_ok.mp hchecks
        obtain rfl : found = some current := hcurrent
        refine ⟨trivial,fun base => ?_⟩
        dsimp only
        split
        · exact trivial
        · exact prepareOwned_informed hvalid (by simp) (require_ok.mp hview)

theorem program_informed (c : GitCall T) : Informed (Rests g) [] (c.program g) := by
  cases c with
  | prepare i => exact prepare_informed i
  | reconcile effectId =>
    refine reconcile_informed (T := T) (k := fun o => .done (o.map some)) fun more o _ => ?_
    exact trivial
  | applyIfSafe effectId approvalId fate => exact applyIfSafe_informed
  | query effectId => exact ⟨trivial,fun found => trivial⟩
  | outside o => exact ⟨trivial,fun u => trivial⟩

end Bdb.Effects
