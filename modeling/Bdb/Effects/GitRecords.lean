import Bdb.Effects.GitSafety

/-! # What requests do to the stores of git effects

Objects are only added, rows keep what was prepared in them, and a ref is moved by a swap of its
effect or from outside.
-/
namespace Bdb.Effects

open GitRequest

variable {T : Type} {g : GitRuntime} {w : EffectWorld T} {r row : PreparedGitEffect}

/-! ## Identities -/

theorem of_identity {α : Type} (f : PreparedGitEffect → α) (h : r.identity = row.identity)
    (hf : ∀ r : PreparedGitEffect, f r.identity = f r := by exact fun _ => rfl) : f r = f row := by
  rw [← hf r,h,hf]

variable {candidate : CandidateRepoView} {treeOid commitOid : Oid} {objects : GitObjects}

theorem MadeFrom.of_identity (h : MadeFrom g r candidate treeOid commitOid)
    (hsame : r.identity = row.identity) : MadeFrom g row candidate treeOid commitOid :=
  (Effects.of_identity (MadeFrom g · candidate treeOid commitOid) hsame
    fun _ => propext ⟨fun h => ⟨h.tree,h.commit,h.parent,h.origin,h.digest,h.expected,h.resource⟩,
      fun h => ⟨h.tree,h.commit,h.parent,h.origin,h.digest,h.expected,h.resource⟩⟩).mp h

/-! ## Objects -/

def TreeOf (g : GitRuntime) (objects : GitObjects) (candidate : CandidateRepoView) (treeOid : Oid) : Prop :=
  ∃ entries, objects.trees.lookup treeOid = some entries ∧
    entriesDigest g (sortedEntries entries) = candidate.candidateTreeDigest ∧
    entriesDigest g candidate.entries = candidate.candidateTreeDigest

def CommitOf (objects : GitObjects) (treeOid parent commitOid : Oid) : Prop :=
  ∃ c, objects.commits.lookup commitOid = some c ∧ c.tree = treeOid ∧ c.parents = [parent]

theorem TreeOf.extends {objects' : GitObjects}
    (h : TreeOf g objects candidate treeOid) (hext : objects.Extends objects') : TreeOf g objects' candidate treeOid := by
  obtain ⟨entries,hentries,hdigest⟩ := h
  exact ⟨entries,hext.trees _ _ hentries,hdigest⟩

theorem CommitOf.extends {objects' : GitObjects} {parent : Oid}
    (h : CommitOf objects treeOid parent commitOid) (hext : objects.Extends objects') :
    CommitOf objects' treeOid parent commitOid := by
  obtain ⟨c,hc,hcommit⟩ := h
  exact ⟨c,hext.commits _ _ hc,hcommit⟩

theorem CommitOf.ne {parent : Oid} (h : CommitOf objects treeOid parent commitOid)
    (hacyclic : objects.Acyclic) : commitOid ≠ parent := by
  obtain ⟨c,hc,-,hparents⟩ := h
  intro hsame
  exact hacyclic commitOid c hc (by rw [hparents,hsame]; exact List.mem_singleton_self _)

theorem materializeTree_extends (candidate : CandidateRepoView) :
    w.objects.Extends (materializeTree g w candidate).1.objects := by
  unfold materializeTree
  split
  · exact .refl _
  · exact GitObjects.writeTree_extends _

theorem materializeTree_commits (candidate : CandidateRepoView) :
    (materializeTree g w candidate).1.objects.commits = w.objects.commits := by
  unfold materializeTree
  split
  · rfl
  · exact GitObjects.writeTree_commits _

theorem materializeTree_ok (h : (materializeTree g w candidate).2 = .ok treeOid) :
    TreeOf g (materializeTree g w candidate).1.objects candidate treeOid := by
  unfold materializeTree at h ⊢
  split at h
  · cases h
  · rename_i index hindex
    obtain ⟨hentries,h⟩ := of_require h
    obtain ⟨entries,hfound,h⟩ := of_need h
    obtain ⟨htree,h⟩ := of_require h
    cases pure_ok.mp h
    simp only
    exact ⟨entries,hfound,htree,hentries⟩

theorem materializeCommit_extends (treeOid baseCommitOid : Oid) (metadata : CommitMetadataPolicy) :
    w.objects.Extends (materializeCommit g w treeOid baseCommitOid metadata).1.objects := by
  unfold materializeCommit
  split
  · exact GitObjects.writeCommit_extends _
  · exact .refl _

theorem materializeCommit_acyclic (h : w.objects.Acyclic) (treeOid baseCommitOid : Oid) (metadata : CommitMetadataPolicy) :
    (materializeCommit g w treeOid baseCommitOid metadata).1.objects.Acyclic := by
  unfold materializeCommit
  split
  · rename_i hbase
    refine h.writeCommit fun p hp => ?_
    rwa [List.mem_singleton.mp hp]
  · exact h

theorem materializeCommit_ok {baseCommitOid : Oid} {metadata : CommitMetadataPolicy}
    (h : (materializeCommit g w treeOid baseCommitOid metadata).2 = .ok commitOid) :
    CommitOf (materializeCommit g w treeOid baseCommitOid metadata).1.objects treeOid baseCommitOid commitOid := by
  unfold materializeCommit at h ⊢
  split at h
  · rename_i hbase
    obtain ⟨c,hc,h⟩ := of_need h
    obtain ⟨hcommit,h⟩ := of_require h
    cases pure_ok.mp h
    rw [if_pos hbase]
    exact ⟨c,hc,hcommit⟩
  · cases h

/-! ## Rows -/

variable {p : PreparedGitEffect → Bool} {state : EffectState} {certainty : EffectCertainty}
  {observed : PreparedGitEffect → Option Oid} {reason : PreparedGitEffect → String}

theorem mem_updateEffect : row ∈ (w.updateEffect p state certainty observed reason).effects.rows ↔
    ∃ old ∈ w.effects.rows, row = if p old = true then
      { old with state := state, effectCertainty := certainty, observedRefOid := observed old, reason := reason old } else old := by
  unfold EffectWorld.updateEffect Table.change
  simp only [List.mem_map]
  exact ⟨fun ⟨old,hold,h⟩ => ⟨old,hold,h.symm⟩,fun ⟨old,hold,h⟩ => ⟨old,hold,h.symm⟩⟩

variable [Work.Seconds T]

/-- A row after a request is a row before it, as was or with another observation, or a new one. -/
inductive Came (w : EffectWorld T) (q : GitRequest T) (row : PreparedGitEffect) : Prop
  | kept (h : row ∈ w.effects.rows)
  | stored (old : PreparedGitEffect) (hold : old ∈ w.effects.rows) (hsame : row.identity = old.identity)
      (hcertain : row.effectCertainty = .after → ∃ r observed reason, q = .persist r .after observed reason ∧
        old.workId = r.workId ∧ old.effectId = r.effectId)
  | inserted (hq : q = .insert row)
      (hnew : ∀ other ∈ w.effects.rows, other.effectId ≠ row.effectId ∧ other.resourceKey ≠ row.resourceKey)

def writesRows (q : GitRequest T) : Bool :=
  match q with
  | .insert _ | .persist _ _ _ _ | .markPossible _ => true
  | _ => false

theorem effects_perform {q : GitRequest T} (h : writesRows q = false) : (q.perform g w).1.effects = w.effects := by
  cases q with
  | insert r | persist r certainty observed reason | markPossible r => cases h
  | materializeTree candidate =>
    simp only [perform,materializeTree]
    split
    · rfl
    · rfl
  | materializeCommit treeOid baseCommitOid metadata =>
    simp only [perform,materializeCommit]
    split
    · rfl
    · rfl
  | cas r fate => cases fate with | _ => rfl
  | outside o => cases o with | _ => rfl
  | _ => rfl

theorem came (q : GitRequest T) (h : row ∈ (q.perform g w).1.effects.rows) : Came w q row := by
  cases hwrites : writesRows q with
  | false => exact .kept (effects_perform (g := g) hwrites ▸ h)
  | true =>
    cases q with
    | insert r =>
      simp only [perform,EffectWorld.insertEffect] at h
      split at h
      · exact .kept h
      · rename_i hnew
        split at h
        · exact .kept h
        · rename_i effects heffects
          rcases (Table.mem_insert heffects).mp h with h | rfl
          · exact .kept h
          · refine .inserted rfl fun other hother => ⟨fun hid => ?_,fun hkey => ?_⟩
            · exact hnew ⟨other,hother,.inl hid⟩
            · exact hnew ⟨other,hother,.inr hkey⟩
    | persist r certainty observed reason =>
      obtain ⟨old,hold,rfl⟩ := mem_updateEffect.mp h
      split
      · rename_i hp
        have hrow := of_decide_eq_true hp
        refine .stored old hold rfl fun hafter => ⟨r,observed,reason,?_,hrow.1,hrow.2⟩
        exact congrArg (GitRequest.persist r · observed reason) hafter
      · exact .kept hold
    | markPossible r =>
      simp only [perform,EffectWorld.markPossible] at h
      split at h
      · obtain ⟨old,hold,rfl⟩ := mem_updateEffect.mp h
        split
        · exact .stored old hold rfl nofun
        · exact .kept hold
      · exact .kept h
    | _ => cases hwrites

theorem stays (q : GitRequest T) (h : row ∈ w.effects.rows) :
    ∃ row' ∈ (q.perform g w).1.effects.rows, row'.identity = row.identity := by
  have hupdate : ∀ p state certainty observed reason,
      ∃ row' ∈ (w.updateEffect p state certainty observed reason).effects.rows, row'.identity = row.identity := by
    intro p state certainty observed reason
    refine ⟨_,mem_updateEffect.mpr ⟨row,h,rfl⟩,?_⟩
    split
    · rfl
    · rfl
  cases hwrites : writesRows q with
  | false => exact ⟨row,by rwa [effects_perform hwrites],rfl⟩
  | true =>
    cases q with
    | insert r =>
      simp only [perform,EffectWorld.insertEffect]
      split
      · exact ⟨row,h,rfl⟩
      · split
        · exact ⟨row,h,rfl⟩
        · rename_i effects heffects
          exact ⟨row,(Table.mem_insert heffects).mpr (.inl h),rfl⟩
    | persist r certainty observed reason => exact hupdate _ _ _ _ _
    | markPossible r =>
      simp only [perform,EffectWorld.markPossible]
      split
      · exact hupdate _ _ _ _ _
      · exact ⟨row,h,rfl⟩
    | _ => cases hwrites

/-! ## Objects and refs of a world -/

theorem perform_extends (q : GitRequest T) : w.objects.Extends (q.perform g w).1.objects := by
  cases q with
  | materializeTree candidate => exact materializeTree_extends candidate
  | materializeCommit treeOid baseCommitOid metadata => exact materializeCommit_extends treeOid baseCommitOid metadata
  | insert r =>
    simp only [perform,EffectWorld.insertEffect]
    split
    · exact .refl _
    · split
      all_goals exact .refl _
  | markPossible r =>
    simp only [perform,EffectWorld.markPossible]
    split
    all_goals exact .refl _
  | cas r fate => cases fate with | _ => exact .refl _
  | outside o => cases o with | _ => exact .refl _
  | _ => exact .refl _

theorem perform_acyclic (h : w.objects.Acyclic) (q : GitRequest T) : (q.perform g w).1.objects.Acyclic := by
  cases q with
  | materializeTree candidate =>
    intro oid c hc
    rw [perform,materializeTree_commits] at hc
    exact h oid c hc
  | materializeCommit treeOid baseCommitOid metadata => exact materializeCommit_acyclic h treeOid baseCommitOid metadata
  | insert r =>
    simp only [perform,EffectWorld.insertEffect]
    split
    · exact h
    · split
      · exact h
      · exact h
  | markPossible r =>
    simp only [perform,EffectWorld.markPossible]
    split
    · exact h
    · exact h
  | cas r fate => cases fate with | _ => exact h
  | outside o => cases o with | _ => exact h
  | _ => exact h

def Swaps (w : EffectWorld T) (r : PreparedGitEffect) (fate : CasFate) : Prop :=
  (fate = .ran ∨ fate = .lostAfter) ∧ w.refs.lookup r.place = r.expected

/-- A ref is as it was, or it was moved by a swap or from outside. -/
inductive Moved (w : EffectWorld T) (q : GitRequest T) (refs : Refs) : Prop
  | same (h : refs = w.refs)
  | swapped (r : PreparedGitEffect) (fate : CasFate) (hq : q = .cas r fate) (hswaps : Swaps w r fate)
      (h : refs = w.refs.set r.place (some r.preparedCommitOid))
  | foreign (place : RefPlace) (value : Option Oid) (hq : q = .outside (.moveRef place value)) (h : refs = w.refs.set place value)

theorem moved (q : GitRequest T) : Moved w q (q.perform g w).1.refs := by
  cases q with
  | materializeTree candidate =>
    simp only [perform,materializeTree]
    split
    all_goals exact .same rfl
  | materializeCommit treeOid baseCommitOid metadata =>
    simp only [perform,materializeCommit]
    split
    all_goals exact .same rfl
  | insert r =>
    simp only [perform,EffectWorld.insertEffect]
    split
    · exact .same rfl
    · split
      all_goals exact .same rfl
  | markPossible r =>
    simp only [perform,EffectWorld.markPossible]
    split
    all_goals exact .same rfl
  | cas r fate =>
    have hrun : fate = .ran ∨ fate = .lostAfter →
        Moved w (.cas r fate) (w.refs.updateRef r.place r.preparedCommitOid r.expected).1 := by
      intro hfate
      unfold Refs.updateRef
      split
      · rename_i hexpected
        exact .swapped r fate rfl ⟨hfate,hexpected⟩ rfl
      · exact .same rfl
    cases fate with
    | ran => exact hrun (.inl rfl)
    | lostAfter => exact hrun (.inr rfl)
    | refused => exact .same rfl
    | lostBefore => exact .same rfl
  | outside o =>
    cases o with
    | moveRef place value => exact .foreign place value rfl rfl
    | _ => exact .same rfl
  | _ => exact .same rfl

end Bdb.Effects
