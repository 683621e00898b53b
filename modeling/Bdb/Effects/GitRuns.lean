import Bdb.Base.Histories
import Bdb.Effects.GitRecords

/-! # Runs of the git effect adapter

In every run the stored effects hold what was made for their sealed candidates, and a ref is
moved by the adapter only from the expected commit to the prepared one, for an effect that was
checked, allowed and stored as possible before.
-/
namespace Bdb.Effects

open GitRequest Shared List

variable {T : Type} [Work.Seconds T] {g : GitRuntime}

/-! ## What holds in every run -/

/-- An effect holds the tree of a candidate that was sealed when it was prepared, and a commit
of that tree on the candidate's base. -/
def Exact (g : GitRuntime) (objects : GitObjects) (log : GitLog T) (r : PreparedGitEffect) : Prop :=
  ∃ candidate treeOid commitOid current, ⟨.readSealed candidate.candidateId,some current⟩ ∈ log ∧
    current.manifestDigest = candidate.viewId ∧ TreeOf g objects candidate treeOid ∧
    CommitOf objects treeOid candidate.baseCommitOid commitOid ∧ MadeFrom g r candidate treeOid commitOid

def Seen (log : GitLog T) (r : PreparedGitEffect) : Prop :=
  ∃ seen, ⟨.observe seen,Except.ok (some r.preparedCommitOid)⟩ ∈ log ∧ seen.identity = r.identity

structure Sound (g : GitRuntime) (w : EffectWorld T) (log : GitLog T) : Prop where
  acyclic : w.objects.Acyclic
  made : ∀ candidate treeOid, ⟨.materializeTree candidate,Except.ok treeOid⟩ ∈ log → TreeOf g w.objects candidate treeOid
  committed : ∀ treeOid baseOid metadata commitOid, ⟨.materializeCommit treeOid baseOid metadata,Except.ok commitOid⟩ ∈ log →
    CommitOf w.objects treeOid baseOid commitOid
  allowed : ∀ r approvalId gate, ⟨.authorize r approvalId,Except.ok gate⟩ ∈ log → gate.allows
  rows : ∀ r ∈ w.effects.rows, Exact g w.objects log r
  apart : ∀ r ∈ w.effects.rows, ∀ r' ∈ w.effects.rows, r.effectId = r'.effectId ∨ r.resourceKey = r'.resourceKey →
    r.workId = r'.workId
  reads : ∀ effectId r, ⟨.readEffect effectId,some r⟩ ∈ log → r.effectId = effectId ∧
    ∃ row ∈ w.effects.rows, row.identity = r.identity
  seen : ∀ r ∈ w.effects.rows, r.effectCertainty = .after → Seen log r

variable {objects : GitObjects} {effectId : String} {m : Move (GitCall T)}

variable {log log' known : GitLog T} {r r' row : PreparedGitEffect} {observed : Option Oid}
  {q : GitRequest T} {world : EffectWorld T}

theorem Exact.mono {objects' : GitObjects} (h : Exact g objects log r)
    (hext : objects.Extends objects') (hlog : log ⊆ log') (hsame : r.identity = r'.identity) : Exact g objects' log' r' := by
  obtain ⟨candidate,treeOid,commitOid,current,hsealed,hview,htree,hcommit,hmade⟩ := h
  exact ⟨candidate,treeOid,commitOid,current,hlog hsealed,hview,htree.extends hext,hcommit.extends hext,hmade.of_identity hsame⟩

theorem Seen.mono (h : Seen log r) (hlog : log ⊆ log')
    (hsame : r.identity = r'.identity) : Seen log' r' := by
  obtain ⟨seen,hseen,hid⟩ := h
  refine ⟨seen,?_,hid.trans hsame⟩
  rw [← of_identity (·.preparedCommitOid) hsame]
  exact hlog hseen

theorem authorize_ok {a : Authority} {approvalId : String} {gate : Gate}
    (h : authorize a r approvalId = .ok gate) : gate.allows := by
  unfold authorize at h
  obtain ⟨cutover,-,h⟩ := bind_ok.mp h
  cases cutover with
  | none =>
    obtain ⟨hallows,h⟩ := of_require h
    cases pure_ok.mp h
    exact hallows
  | some cutover =>
    unfold authorizeCanonical at h
    obtain ⟨_,_,_,h⟩ := rest₃ h
    obtain ⟨_,_,h⟩ := rest₂ h
    obtain ⟨_,_,h⟩ := rest₂ h
    obtain ⟨hmatches,h⟩ := of_require h
    cases pure_ok.mp h
    exact hmatches.2.2.2.1

theorem classification_eq_after (h : classification r observed = .after) :
    observed = some r.preparedCommitOid := by
  unfold classification at h
  split at h
  · assumption
  · split at h
    · cases h
    · cases h

omit [Work.Seconds T] in
theorem effect_eq_some {w : EffectWorld T} (h : w.effect effectId = some r) :
    r ∈ w.effects.rows ∧ r.effectId = effectId :=
  ⟨Table.mem_of_find h,by simpa using Table.find_some h⟩

section Step

variable {w : EffectWorld T} {log known : GitLog T} {q : GitRequest T}

theorem Sound.read_eq (h : Sound g w log) {r old : PreparedGitEffect} {effectId : String} (hread : ⟨.readEffect effectId,some r⟩ ∈ log)
    (hold : old ∈ w.effects.rows) (hid : old.effectId = r.effectId) : old.identity = r.identity := by
  obtain ⟨row,hrow,hsame⟩ := (h.reads effectId r hread).2
  have hrowid : row.effectId = r.effectId := of_identity (·.effectId) hsame
  have hwork := h.apart old hold row hrow (.inl (hid.trans hrowid.symm))
  rw [Table.eq_of_key hold hrow hwork,hsame]

theorem Sound.step (h : Sound g w log) (hknown : known.Sublist log) (hrests : Rests g known q) :
    Sound g (q.perform g w).1 (log ++ [⟨q,(q.perform g w).2⟩]) := by
  have hext := perform_extends (g := g) (w := w) q
  have hlog : log ⊆ log ++ [⟨q,(q.perform g w).2⟩] := subset_append_left _ _
  refine ⟨perform_acyclic h.acyclic q,?_,?_,?_,?_,?_,?_,?_⟩
  · intro candidate treeOid hmem
    rcases mem_log_concat hmem with hmem | ⟨rfl,hanswer⟩
    · exact (h.made candidate treeOid hmem).extends hext
    · exact materializeTree_ok hanswer
  · intro treeOid baseOid metadata commitOid hmem
    rcases mem_log_concat hmem with hmem | ⟨rfl,hanswer⟩
    · exact (h.committed treeOid baseOid metadata commitOid hmem).extends hext
    · exact materializeCommit_ok hanswer
  · intro r approvalId gate hmem
    rcases mem_log_concat hmem with hmem | ⟨rfl,hanswer⟩
    · exact h.allowed r approvalId gate hmem
    · exact authorize_ok hanswer
  · intro r hr
    cases came q hr with
    | kept hold => exact (h.rows r hold).mono hext hlog rfl
    | stored old hold hsame hcertain => exact (h.rows old hold).mono hext hlog hsame.symm
    | inserted hq hnew =>
      subst hq
      obtain ⟨candidate,treeOid,commitOid,metadata,current,hsealed,hview,htree,hcommit,hmade,-⟩ := hrests
      exact ⟨candidate,treeOid,commitOid,current,hlog (hknown.subset hsealed),hview,
        (h.made _ _ (hknown.subset htree)).extends hext,(h.committed _ _ _ _ (hknown.subset hcommit)).extends hext,hmade⟩
  · have hold : ∀ r, Came w q r → (∃ old ∈ w.effects.rows, r.identity = old.identity) ∨ q = .insert r ∧
        ∀ other ∈ w.effects.rows, other.effectId ≠ r.effectId ∧ other.resourceKey ≠ r.resourceKey := by
      intro r hr
      cases hr with
      | kept hold => exact .inl ⟨r,hold,rfl⟩
      | stored old hold hsame hcertain => exact .inl ⟨old,hold,hsame⟩
      | inserted hq hnew => exact .inr ⟨hq,hnew⟩
    intro r hr r' hr' hsame
    rcases hold r (came q hr) with ⟨old,hrow,hid⟩ | ⟨hq,hnew⟩ <;>
      rcases hold r' (came q hr') with ⟨old',hrow',hid'⟩ | ⟨hq',hnew'⟩
    · rw [of_identity (·.effectId) hid,of_identity (·.effectId) hid',
        of_identity (·.resourceKey) hid,of_identity (·.resourceKey) hid'] at hsame
      rw [of_identity (·.workId) hid,of_identity (·.workId) hid']
      exact h.apart old hrow old' hrow' hsame
    · obtain ⟨heffect,hresource⟩ := hnew' old hrow
      rw [of_identity (·.effectId) hid,of_identity (·.resourceKey) hid] at hsame
      exact absurd hsame (not_or.mpr ⟨heffect,hresource⟩)
    · obtain ⟨heffect,hresource⟩ := hnew old' hrow'
      rw [of_identity (·.effectId) hid',of_identity (·.resourceKey) hid'] at hsame
      exact absurd hsame (not_or.mpr ⟨heffect.symm,hresource.symm⟩)
    · rw [hq] at hq'
      cases hq'
      rfl
  · intro effectId r hmem
    rcases mem_log_concat hmem with hmem | ⟨rfl,hanswer⟩
    · obtain ⟨hid,row,hrow,hsame⟩ := h.reads effectId r hmem
      obtain ⟨row',hrow',hsame'⟩ := stays (g := g) q hrow
      exact ⟨hid,row',hrow',hsame'.trans hsame⟩
    · obtain ⟨hrow,hid⟩ := effect_eq_some hanswer
      exact ⟨hid,r,hrow,rfl⟩
  · intro r hr hafter
    cases came q hr with
    | kept hold => exact (h.seen r hold hafter).mono hlog rfl
    | stored old hold hsame hcertain =>
      obtain ⟨seen,observed,reason,rfl,hwork,heffect⟩ := hcertain hafter
      obtain ⟨⟨effectId,hread⟩,hclass⟩ := hrests
      have hident := h.read_eq (hknown.subset hread) hold heffect
      rcases hclass with hclass | ⟨hclass,hobserve⟩
      · cases hclass
      · rw [classification_eq_after hclass.symm] at hobserve
        refine ⟨seen,?_,hident.symm.trans hsame.symm⟩
        rw [of_identity (·.preparedCommitOid) (hsame.trans hident)]
        exact hlog (hknown.subset hobserve)
    | inserted hq hnew =>
      subst hq
      obtain ⟨candidate,treeOid,commitOid,metadata,current,-,-,-,-,-,hbefore⟩ := hrests
      rw [hbefore] at hafter
      cases hafter

end Step

/-! ## Runs -/

/-- The stores before any effect was prepared. -/
structure Opening (T : Type) where
  world : EffectWorld T
  unused : world.effects.rows = []
  acyclic : world.objects.Acyclic

abbrev GitState (T : Type) [Work.Seconds T] := Shared (EffectWorld T) (GitRequest.Answer (T := T)) (Outcome (Option PreparedGitEffect))

variable (g) in
def gitRun (w : Opening T) (moves : List (Move (GitCall T))) : GitState T :=
  run (GitRequest.perform g) (GitCall.program g) (begin w.world) moves

variable {w : Opening T} {moves : List (Move (GitCall T))}

theorem gitRun_concat (w : Opening T) (moves : List (Move (GitCall T))) (m : Move (GitCall T)) :
    gitRun g w (moves ++ [m]) = next (GitRequest.perform g) (GitCall.program g) (gitRun g w moves) m := run_concat _ _ _

theorem gitRun_log (w : Opening T) (done later : List (Move (GitCall T))) :
    ∃ more, (gitRun g w (done ++ later)).log = (gitRun g w done).log ++ more := by
  unfold gitRun
  rw [run_append]
  exact log_grows _ _

theorem Opening.sound (w : Opening T) : Sound g w.world [] where
  acyclic := w.acyclic
  made _ _ h := absurd h not_mem_nil
  committed _ _ _ _ h := absurd h not_mem_nil
  allowed _ _ _ h := absurd h not_mem_nil
  rows := by simp [w.unused]
  apart := by simp [w.unused]
  reads _ _ h := absurd h not_mem_nil
  seen := by simp [w.unused]

theorem sound_gitRun (w : Opening T) (moves : List (Move (GitCall T))) : Sound g (gitRun g w moves).store (gitRun g w moves).log :=
  invariant_of_informed program_informed (fun _ _ _ _ h _ hknown hrests => h.step hknown hrests) along_true w.sound

theorem asked_rests (h : (gitRun g w moves).asked m = some q) :
    ∃ known, known.Sublist (gitRun g w moves).log ∧ Rests g known q := by
  have hlog : JustifiedLog (Rests g) (gitRun g w (moves ++ [m])).log :=
    log_informed (program_informed (g := g)) w.world (moves ++ [m])
  rw [gitRun_concat,log_next h] at hlog
  exact hlog.last

theorem Sound.stored (h : Sound g world log) (hknown : known.Sublist log)
    (hread : ∃ effectId, ⟨.readEffect effectId,some r⟩ ∈ known) :
    ∃ row ∈ world.effects.rows, row.identity = r.identity := by
  obtain ⟨effectId,hread⟩ := hread
  exact (h.reads effectId r (hknown.subset hread)).2

theorem Allowed.read (h : Allowed known r) :
    ∃ effectId, ⟨.readEffect effectId,some r⟩ ∈ known := by
  obtain ⟨seen,-,-,-,-,-,-,-,-,hread⟩ := h
  exact ⟨_,hread⟩

/-! ## Where the ref of an effect is -/

def Swapped (g : GitRuntime) (w : Opening T) (moves : List (Move (GitCall T))) (effectId : String) : Prop :=
  ∃ done m later r fate, moves = done ++ m :: later ∧ (gitRun g w done).asked m = some (.cas r fate) ∧
    Swaps (gitRun g w done).store r fate ∧ r.effectId = effectId

def Observed (log : GitLog T) (row : PreparedGitEffect) : Prop :=
  ∃ r, r.effectId = row.effectId ∧ ⟨.observe r,Except.ok (some row.preparedCommitOid)⟩ ∈ log

def Reached (log : GitLog T) (row : PreparedGitEffect) : Prop :=
  Observed log row ∨ ∃ r fate answer, r.effectId = row.effectId ∧ ⟨.cas r fate,answer⟩ ∈ log

def Undisturbed (w : EffectWorld T) (log : GitLog T) (q : GitRequest T) : Prop :=
  ∀ place value, q = .outside (.moveRef place value) → ∀ row ∈ w.effects.rows, row.place = place →
    w.refs.lookup place = some row.preparedCommitOid → Reached log row → value = some row.preparedCommitOid

theorem Swapped.concat (h : Swapped g w (moves ++ [m]) effectId) :
    Swapped g w moves effectId ∨ ∃ r fate, (gitRun g w moves).asked m = some (.cas r fate) ∧
      Swaps (gitRun g w moves).store r fate ∧ r.effectId = effectId := by
  obtain ⟨done,m',later,r,fate,hmoves,hasked,hswaps,hid⟩ := h
  rcases split_concat hmoves with ⟨rfl,rfl,-⟩ | ⟨rest,-,hrest⟩
  · exact .inr ⟨r,fate,hasked,hswaps,hid⟩
  · exact .inl ⟨done,m',rest,r,fate,hrest,hasked,hswaps,hid⟩

theorem Swapped.logged (h : Swapped g w moves effectId) :
    ∃ r fate answer, r.effectId = effectId ∧ ⟨.cas r fate,answer⟩ ∈ (gitRun g w moves).log := by
  obtain ⟨done,m,later,r,fate,rfl,hasked,-,hid⟩ := h
  obtain ⟨more,hmore⟩ := gitRun_log (g := g) w (done ++ [m]) later
  refine ⟨r,fate,(GitRequest.perform g (.cas r fate) (gitRun g w done).store).2,hid,?_⟩
  rw [append_cons,hmore,gitRun_concat,log_next hasked]
  simp

omit [Work.Seconds T] in
theorem observe_ok (h : world.observe r = .ok observed) : world.refs.lookup r.place = observed := by
  unfold EffectWorld.observe at h
  obtain ⟨_,_,h⟩ := rest₂ h
  split at h
  · cases h
  · exact pure_ok.mp h

theorem Exact.resource (h : Exact g objects log r) :
    r.resourceKey = gitResourceKey g.runtime r.place.repository r.place.ref := by
  obtain ⟨candidate,treeOid,commitOid,current,-,-,-,-,hmade⟩ := h
  exact hmade.resource

theorem Exact.leaves (h : Exact g objects log r)
    (hacyclic : objects.Acyclic) : r.expected ≠ some r.preparedCommitOid := by
  obtain ⟨candidate,treeOid,commitOid,current,-,-,-,hcommit,hmade⟩ := h
  unfold PreparedGitEffect.expected
  split
  · nofun
  · rename_i hzero
    rw [hmade.expected.resolve_left hzero,hmade.commit]
    exact fun hsame => hcommit.ne hacyclic (Option.some.inj hsame).symm

section Places

variable {world : EffectWorld T} {log : GitLog T} {r row : PreparedGitEffect}

theorem Sound.eq_of_place (h : Sound g world log) {row' : PreparedGitEffect} (hrow : row ∈ world.effects.rows)
    (hrow' : row' ∈ world.effects.rows) (hplace : row.place = row'.place) : row = row' := by
  have hresource : row.resourceKey = row'.resourceKey := by
    rw [(h.rows row hrow).resource,(h.rows row' hrow').resource,hplace]
  exact Table.eq_of_key hrow hrow' (h.apart row hrow row' hrow' (.inr hresource))

theorem Sound.swap_keeps (h : Sound g world log) (hrow : row ∈ world.effects.rows)
    (hread : ∃ row' ∈ world.effects.rows, row'.identity = r.identity)
    (hplace : world.refs.lookup row.place = some row.preparedCommitOid) :
    (world.refs.set r.place (some r.preparedCommitOid)).lookup row.place = some row.preparedCommitOid := by
  obtain ⟨row',hrow',hsame⟩ := hread
  rw [Refs.lookup_set]
  split
  · rename_i heq
    have hone := h.eq_of_place hrow hrow' (heq.trans (of_identity (·.place) hsame).symm)
    rw [hone,of_identity (·.preparedCommitOid) hsame]
  · exact hplace

end Places

def Settled (g : GitRuntime) (w : Opening T) (moves : List (Move (GitCall T))) : Prop :=
  ∀ row ∈ (gitRun g w moves).store.effects.rows, Swapped g w moves row.effectId ∨ Observed (gitRun g w moves).log row →
    (gitRun g w moves).store.refs.lookup row.place = some row.preparedCommitOid

theorem Observed.of_identity {row' : PreparedGitEffect} (h : Observed log row)
    (hsame : row.identity = row'.identity) : Observed log row' := by
  obtain ⟨r,hid,hmem⟩ := h
  rw [Effects.of_identity (·.preparedCommitOid) hsame] at hmem
  exact ⟨r,hid.trans (Effects.of_identity (·.effectId) hsame),hmem⟩

theorem stored_of_settled (h : Swapped g w moves row.effectId ∨ Observed (gitRun g w moves).log row) :
    ∃ old ∈ (gitRun g w moves).store.effects.rows, old.effectId = row.effectId := by
  have hsound := sound_gitRun (g := g) w moves
  have hjustified : JustifiedLog (Rests g) (gitRun g w moves).log := log_informed (program_informed (g := g)) w.world moves
  have hread : ∀ r : PreparedGitEffect, r.effectId = row.effectId → (∃ effectId, ⟨.readEffect effectId,some r⟩ ∈ (gitRun g w moves).log) →
      ∃ old ∈ (gitRun g w moves).store.effects.rows, old.effectId = row.effectId := by
    rintro r hid hread
    obtain ⟨old,hold,hsame⟩ := hsound.stored (List.Sublist.refl _) hread
    exact ⟨old,hold,(Effects.of_identity (·.effectId) hsame).trans hid⟩
  rcases h with hswapped | ⟨r,hid,hmem⟩
  · obtain ⟨r,fate,answer,hid,hmem⟩ := hswapped.logged
    obtain ⟨before,after,hsplit⟩ := append_of_mem hmem
    obtain ⟨known,hknown,-,hallowed⟩ := hjustified before _ after hsplit
    obtain ⟨effectId,hread'⟩ := hallowed.read
    exact hread r hid ⟨effectId,hsplit ▸ mem_append_left _ (hknown.subset hread')⟩
  · obtain ⟨before,after,hsplit⟩ := append_of_mem hmem
    obtain ⟨known,hknown,effectId,hread'⟩ := hjustified before _ after hsplit
    exact hread r hid ⟨effectId,hsplit ▸ mem_append_left _ (hknown.subset hread')⟩

theorem settled_kept (hsettled : Settled g w moves)
    (hq : (gitRun g w moves).asked m = some q) (hundisturbed : Undisturbed (gitRun g w moves).store (gitRun g w moves).log q)
    (hrow : row ∈ (q.perform g (gitRun g w moves).store).1.effects.rows)
    (hreached : Swapped g w moves row.effectId ∨ Observed (gitRun g w moves).log row) :
    (q.perform g (gitRun g w moves).store).1.refs.lookup row.place = some row.preparedCommitOid := by
  have hsound := sound_gitRun (g := g) w moves
  obtain ⟨known,hknown,hrests⟩ := asked_rests hq
  obtain ⟨other,hother,hotherid⟩ := stored_of_settled hreached
  have hold : ∃ old ∈ (gitRun g w moves).store.effects.rows, row.identity = old.identity := by
    cases came q hrow with
    | kept hold => exact ⟨row,hold,rfl⟩
    | stored old hold hsame hcertain => exact ⟨old,hold,hsame⟩
    | inserted hinsert hnew => exact absurd hotherid (hnew other hother).1
  obtain ⟨old,hold,hsame⟩ := hold
  have holdreached : Swapped g w moves old.effectId ∨ Observed (gitRun g w moves).log old := by
    refine hreached.imp (fun hswapped => ?_) fun hobserved => hobserved.of_identity hsame
    rwa [← of_identity (·.effectId) hsame]
  have hplace := hsettled old hold holdreached
  rw [of_identity (·.place) hsame,of_identity (·.preparedCommitOid) hsame]
  cases moved (g := g) (w := (gitRun g w moves).store) q with
  | same h => rwa [h]
  | swapped r fate hcas hswaps h =>
    subst hcas
    rw [h]
    exact hsound.swap_keeps hold (hsound.stored hknown hrests.2.read) hplace
  | foreign place value hforeign h =>
    rw [h,Refs.lookup_set]
    split
    · rename_i heq
      refine hundisturbed place value hforeign old hold heq (heq ▸ hplace) (holdreached.symm.imp_right ?_)
      exact fun hswapped => hswapped.logged
    · exact hplace

theorem settled_new (hknown : known.Sublist (gitRun g w moves).log)
    (hread : ∃ effectId, ⟨.readEffect effectId,some r⟩ ∈ known) (hrow : row ∈ (gitRun g w moves).store.effects.rows)
    (hid : r.effectId = row.effectId) : row.identity = r.identity := by
  obtain ⟨effectId,hread⟩ := hread
  exact (sound_gitRun (g := g) w moves).read_eq (hknown.subset hread) hrow hid.symm

theorem settled_step (hsettled : Settled g w moves)
    (hq : (gitRun g w moves).asked m = some q) (hundisturbed : Undisturbed (gitRun g w moves).store (gitRun g w moves).log q) :
    Settled g w (moves ++ [m]) := by
  obtain ⟨known,hknown,hrests⟩ := asked_rests hq
  intro row hrow hreached
  have hkept : row ∈ _ → _ → _ := settled_kept hsettled hq hundisturbed
  rw [gitRun_concat,store_next hq] at hrow ⊢
  rw [gitRun_concat,log_next hq] at hreached
  rcases hreached with hswapped | ⟨r,hid,hobserved⟩
  · rcases hswapped.concat with hswapped | ⟨r,fate,hasked,hswaps,hid⟩
    · exact hkept hrow (.inl hswapped)
    · obtain rfl := some_unique hq hasked
      rw [effects_perform (q := .cas r fate) rfl] at hrow
      have hsame := settled_new hknown hrests.2.read hrow hid
      have hrefs : ((GitRequest.cas r fate).perform g (gitRun g w moves).store).1.refs =
          (gitRun g w moves).store.refs.set r.place (some r.preparedCommitOid) := by
        obtain ⟨rfl | rfl,hexpected⟩ := hswaps
        all_goals exact congrArg Prod.fst (if_pos hexpected)
      rw [hrefs,Refs.lookup_set,if_pos (of_identity (·.place) hsame),
        of_identity (·.preparedCommitOid) hsame]
  · rcases mem_log_concat hobserved with hobserved | ⟨rfl,hanswer⟩
    · exact hkept hrow (.inr ⟨r,hid,hobserved⟩)
    · have hsame := settled_new hknown hrests hrow hid
      rw [of_identity (·.place) hsame]
      exact observe_ok hanswer

theorem settled_of_undisturbed
    (h : Along (next (GitRequest.perform g) (GitCall.program g)) (Admits Undisturbed) (begin w.world) moves) :
    Settled g w moves := by
  induction moves using List.reverseRecOn with
  | nil =>
    intro row hrow
    rw [gitRun,run,foldl_nil,begin,w.unused] at hrow
    cases hrow
  | append_singleton moves m ih =>
    obtain ⟨hmoves,hm,-⟩ := along_append.mp h
    have hsettled := ih hmoves
    cases hq : (gitRun g w moves).asked m with
    | none =>
      intro row hrow hreached
      obtain ⟨hstore,hlog⟩ := next_idle (GitRequest.perform g) (GitCall.program g) hq
      rw [gitRun_concat,hstore] at hrow ⊢
      refine hsettled row hrow (hreached.imp (fun hswapped => ?_) fun hobserved => ?_)
      · rcases hswapped.concat with hswapped | ⟨r,fate,hasked,-⟩
        · exact hswapped
        · rw [hq] at hasked
          cases hasked
      · rwa [gitRun_concat,hlog] at hobserved
    | some q => exact settled_step hsettled hq (hm q hq)

end Bdb.Effects
