import Bdb.Effects.GitRuns
import Bdb.Work.KernelText

/-! # An effect is swapped once

The adapter swaps a ref only for an effect that was checked, allowed and stored as possible. As
long as nobody else moves a ref off a prepared commit that it has reached, every effect is
swapped at most once, and an effect that is stored as done is never seen otherwise.
-/
namespace Bdb.Effects

open GitRequest Shared List

variable {T : Type} [Work.Seconds T] {g : GitRuntime}

/-! ## Trees and their digests -/

def entriesText (entries : List TreeEntry) : List Char :=
  Json.canonicalText (Evidence.semanticPayload (.obj [("schema",.str "bdb-vnext-candidate-repo-view-v2"),
    ("entries",.arr (entries.map fun e => .arr [.str e.path,.str e.objectOid,.str e.mode]))]))

/-- Two texts that the digest does not tell apart. -/
def Collide (rt : Runtime) (x y : List Char) : Prop := x ≠ y ∧ rt.sha256 x = rt.sha256 y

theorem entriesDigest_eq (g : GitRuntime) (entries : List TreeEntry) :
    entriesDigest g entries = "sha256:" ++ g.runtime.sha256 (entriesText entries) := rfl

def entryJson (e : TreeEntry) : Json := .arr [.str e.path,.str e.objectOid,.str e.mode]

theorem entryJson_injective : Function.Injective entryJson := by
  rintro ⟨path,oid,mode⟩ ⟨path',oid',mode'⟩ h
  simp only [entryJson,Json.arr.injEq,List.cons.injEq,Json.str.injEq,and_true] at h
  obtain ⟨rfl,rfl,rfl⟩ := h
  rfl

variable {a b : List TreeEntry} {r : PreparedGitEffect} {log : GitLog T}

theorem entriesText_injective (h : entriesText a = entriesText b) : a = b := by
  have hcanon := Json.lookup_of_canon_obj (Json.canon_eq_of_canonicalText h) "entries"
  rw [Evidence.lookup_payloadFields,Evidence.lookup_payloadFields] at hcanon
  have hlist : ∀ entries : List TreeEntry,
      Json.canon (Evidence.semanticPayload (.arr (entries.map entryJson))) = .arr (entries.map entryJson) := by
    intro entries
    simp only [Evidence.semanticPayload,Evidence.payloadList_eq_map,Json.canon,Json.canonList_eq_map,map_map]
    rfl
  have hfound : Json.canon (Evidence.semanticPayload (.arr (a.map entryJson))) =
      Json.canon (Evidence.semanticPayload (.arr (b.map entryJson))) := Option.some.inj hcanon
  rw [hlist,hlist] at hfound
  exact map_injective_iff.mpr entryJson_injective (Json.arr.inj hfound)

theorem entries_of_digest (h : entriesDigest g a = entriesDigest g b) :
    a = b ∨ Collide g.runtime (entriesText a) (entriesText b) := by
  by_cases hsame : a = b
  · exact .inl hsame
  · refine .inr ⟨fun htext => hsame (entriesText_injective htext),?_⟩
    rw [entriesDigest_eq,entriesDigest_eq] at h
    exact String.append_right_inj _ |>.mp h

/-! ## What every run does -/

/-- An effect is stored, its worker owns its run and holds its resource, its candidate is sealed,
and it was allowed and then stored as possible. -/
structure Justified (w : EffectWorld T) (log : GitLog T) (r : PreparedGitEffect) : Prop where
  stored : ∃ row ∈ w.effects.rows, row.identity = r.identity
  owned : ∃ q, ⟨.query r.workId,some q⟩ ∈ log ∧ OwnsRun r q ∧ HoldsResource r q ∧
    ⟨.assertLease r.workId r.leaseId r.fence,Except.ok ()⟩ ∈ log
  sealed : ∃ current, ⟨.readSealed r.candidateId,some current⟩ ∈ log ∧ current.sealed = true ∧
    current.manifestDigest = r.candidateViewId ∧ current.treeDigest = r.candidateTreeDigest
  allowed : ∃ seen approvalId gate, seen.identity = r.identity ∧ ⟨.authorize seen approvalId,Except.ok gate⟩ ∈ log ∧
    gate.allows ∧ ⟨.markPossible seen,Except.ok ()⟩ ∈ log

/-- The prepared commit has the tree of the candidate that was sealed, unless the digest of trees
collides, and the base of the candidate as its only parent. -/
def HoldsCandidate (g : GitRuntime) (w : EffectWorld T) (log : GitLog T) (r : PreparedGitEffect) : Prop :=
  ∃ (candidate : CandidateRepoView) (current : SealedCandidate) (entries : List TreeEntry) (commit : CommitObject),
    ⟨.readSealed candidate.candidateId,some current⟩ ∈ log ∧ current.manifestDigest = candidate.viewId ∧
    r.candidateId = candidate.candidateId ∧ r.candidateViewId = candidate.viewId ∧
    w.objects.commits.lookup r.preparedCommitOid = some commit ∧ commit.parents = [candidate.baseCommitOid] ∧
    commit.tree = r.preparedTreeOid ∧ w.objects.trees.lookup r.preparedTreeOid = some entries ∧
    (sortedEntries entries = candidate.entries ∨
      Collide g.runtime (entriesText (sortedEntries entries)) (entriesText candidate.entries))

structure SafeRun (g : GitRuntime) (w : Opening T) (moves : List (Move (GitCall T))) : Prop where
  /-- Git is run only for justified effects. -/
  justified : ∀ done m rest, moves = done ++ m :: rest → ∀ r fate, (gitRun g w done).asked m = some (.cas r fate) →
    Justified (gitRun g w done).store (gitRun g w done).log r
  /-- A ref is moved by a swap from the expected commit to the prepared one, or from outside. -/
  moved : ∀ done m rest, moves = done ++ m :: rest →
    (gitRun g w (done ++ [m])).store.refs = (gitRun g w done).store.refs ∨
    (∃ r fate, (gitRun g w done).asked m = some (.cas r fate) ∧ (gitRun g w done).store.refs.lookup r.place = r.expected ∧
      (gitRun g w (done ++ [m])).store.refs = (gitRun g w done).store.refs.set r.place (some r.preparedCommitOid)) ∨
    ∃ place value, (gitRun g w done).asked m = some (.outside (.moveRef place value))
  /-- An effect that is stored as done was at its ref. -/
  after : ∀ r ∈ (gitRun g w moves).store.effects.rows, r.effectCertainty = .after →
    ∃ done rest, moves = done ++ rest ∧ (gitRun g w done).store.refs.lookup r.place = some r.preparedCommitOid
  exact : ∀ r ∈ (gitRun g w moves).store.effects.rows, HoldsCandidate g (gitRun g w moves).store (gitRun g w moves).log r

structure OnceRun (g : GitRuntime) (w : Opening T) (moves : List (Move (GitCall T))) : Prop where
  /-- Two swaps that take place are of two effects. -/
  once : ∀ done m later m' rest, moves = done ++ m :: (later ++ m' :: rest) → ∀ r fate r' fate',
    (gitRun g w done).asked m = some (.cas r fate) → Swaps (gitRun g w done).store r fate →
    (gitRun g w (done ++ m :: later)).asked m' = some (.cas r' fate') → Swaps (gitRun g w (done ++ m :: later)).store r' fate' →
    r.effectId ≠ r'.effectId
  /-- An effect that was stored as done is observed as done. -/
  steady : ∀ done later m rest, moves = done ++ (later ++ m :: rest) → ∀ row ∈ (gitRun g w done).store.effects.rows,
    row.effectCertainty = .after → ∀ r, (gitRun g w (done ++ later)).asked m = some (.observe r) → r.effectId = row.effectId →
    ∀ observed, (gitRun g w (done ++ later)).store.observe r = .ok observed → classification r observed = .after

variable {w : Opening T} {moves : List (Move (GitCall T))}

theorem justified_of_rests {known : GitLog T} (hknown : known.Sublist (gitRun g w moves).log)
    (howned : Checked known r) (hallowed : Allowed known r) :
    Justified (gitRun g w moves).store (gitRun g w moves).log r := by
  have hsound := sound_gitRun (g := g) w moves
  obtain ⟨q,hq,hruns,hholds,hlease⟩ := howned
  have hstored := hsound.stored hknown hallowed.read
  obtain ⟨seen,approvalId,gate,current,⟨effectId,hseen⟩,hcurrent,hsealed,hgate,hmark,hread⟩ := hallowed
  obtain ⟨row,hrow,hsame⟩ := hstored
  have hid := (hsound.reads _ r (hknown.subset hread)).1
  have hrowid : row.effectId = seen.effectId := (of_identity (·.effectId) hsame).trans hid
  have hident : seen.identity = r.identity := (hsound.read_eq (hknown.subset hseen) hrow hrowid).symm.trans hsame
  obtain ⟨found,hfound,hbinding⟩ := of_need hsealed
  obtain rfl : current = some found := hfound
  obtain ⟨hsealed,hview,htree⟩ := require_ok.mp hbinding
  rw [of_identity (·.candidateId) hident] at hcurrent
  rw [of_identity (·.candidateViewId) hident] at hview
  rw [of_identity (·.candidateTreeDigest) hident] at htree
  exact {
    stored := ⟨row,hrow,hsame⟩
    owned := ⟨q,hknown.subset hq,hruns,hholds,hknown.subset hlease⟩
    sealed := ⟨found,hknown.subset hcurrent,hsealed,hview,htree⟩
    allowed := ⟨seen,approvalId,gate,hident,hknown.subset hgate,hsound.allowed _ _ _ (hknown.subset hgate),
      hknown.subset hmark⟩ }

theorem holdsCandidate_of_exact {world : EffectWorld T} (h : Exact g world.objects log r) : HoldsCandidate g world log r := by
  obtain ⟨candidate,treeOid,commitOid,current,hsealed,hview,⟨entries,hentries,htree,hdigest⟩,⟨commit,hcommit,htreeOid,hparents⟩,
    hmade⟩ := h
  refine ⟨candidate,current,entries,commit,hsealed,hview,hmade.origin.1,hmade.origin.2,?_,hparents,?_,?_,?_⟩
  · rwa [hmade.commit]
  · rw [htreeOid,hmade.tree]
  · rwa [hmade.tree]
  · exact entries_of_digest (htree.trans hdigest.symm)

theorem safeRun (g : GitRuntime) (w : Opening T) (moves : List (Move (GitCall T))) : SafeRun g w moves where
  justified := by
    rintro done m rest rfl r fate hasked
    obtain ⟨known,hknown,howned,hallowed⟩ := asked_rests hasked
    exact justified_of_rests hknown howned hallowed
  moved := by
    rintro done m rest rfl
    rw [gitRun_concat]
    cases hq : (gitRun g w done).asked m with
    | none => exact .inl (congrArg EffectWorld.refs (next_idle (GitRequest.perform g) (GitCall.program g) hq).1)
    | some q =>
      rw [store_next hq]
      cases moved (g := g) (w := (gitRun g w done).store) q with
      | same h => exact .inl h
      | swapped r fate hcas hswaps h =>
        subst hcas
        exact .inr (.inl ⟨r,fate,rfl,hswaps.2,h⟩)
      | foreign place value hforeign h =>
        subst hforeign
        exact .inr (.inr ⟨place,value,rfl⟩)
  after := by
    intro r hr hafter
    obtain ⟨seen,hseen,hsame⟩ := (sound_gitRun w moves).seen r hr hafter
    obtain ⟨before,after,hsplit⟩ := append_of_mem hseen
    obtain ⟨done,m,rest,rfl,-,-,hanswer⟩ := entry_performed hsplit
    refine ⟨done,m :: rest,rfl,?_⟩
    rw [← of_identity (·.place) hsame]
    exact observe_ok hanswer.symm
  exact := fun r hr => holdsCandidate_of_exact ((sound_gitRun w moves).rows r hr)

/-! ## Undisturbed runs -/

theorem rows_stay (w : Opening T) (done later : List (Move (GitCall T))) {row : PreparedGitEffect}
    (h : row ∈ (gitRun g w done).store.effects.rows) :
    ∃ row' ∈ (gitRun g w (done ++ later)).store.effects.rows, row'.identity = row.identity := by
  induction later using List.reverseRecOn with
  | nil => exact ⟨row,by rwa [append_nil],rfl⟩
  | append_singleton later m ih =>
    obtain ⟨row',hrow',hsame⟩ := ih
    rw [← append_assoc,gitRun_concat]
    cases hq : (gitRun g w (done ++ later)).asked m with
    | none => exact ⟨row',by rwa [(next_idle (GitRequest.perform g) (GitCall.program g) hq).1],hsame⟩
    | some q =>
      rw [store_next hq]
      obtain ⟨row'',hrow'',hsame'⟩ := stays (g := g) q hrow'
      exact ⟨row'',hrow'',hsame'.trans hsame⟩

theorem onceRun_of_undisturbed
    (h : Along (next (GitRequest.perform g) (GitCall.program g)) (Admits Undisturbed) (begin w.world) moves) :
    OnceRun g w moves where
  once := by
    rintro done m later m' rest rfl r fate r' fate' hasked hswaps hasked' hswaps' hid
    have hsplit : done ++ m :: (later ++ m' :: rest) = (done ++ m :: later) ++ m' :: rest := by
      rw [append_assoc,cons_append]
    have hsettled := settled_of_undisturbed (hsplit ▸ h).left
    have hsound := sound_gitRun (g := g) w (done ++ m :: later)
    obtain ⟨known,hknown,-,hallowed⟩ := asked_rests hasked'
    obtain ⟨row,hrow,hsame⟩ := hsound.stored hknown hallowed.read
    have hplace := hsettled row hrow (.inl ⟨done,m,later,r,fate,rfl,hasked,hswaps,
      hid.trans (of_identity (·.effectId) hsame).symm⟩)
    have hexpected := hswaps'.2
    rw [← of_identity (·.place) hsame,← of_identity (·.expected) hsame] at hexpected
    exact (hsound.rows row hrow).leaves hsound.acyclic (hexpected.symm.trans hplace)
  steady := by
    rintro done later m rest rfl row hrow hafter r hasked hid observed hobserve
    have hsettled := settled_of_undisturbed (append_assoc done later (m :: rest) ▸ h).left
    have hsound := sound_gitRun (g := g) w (done ++ later)
    obtain ⟨row',hrow',hsame⟩ := rows_stay w done later hrow
    obtain ⟨more,hmore⟩ := gitRun_log (g := g) w done later
    obtain ⟨seen,hseen,hseensame⟩ := (sound_gitRun (g := g) w done).seen row hrow hafter
    obtain ⟨known,hknown,hread⟩ := asked_rests hasked
    have hone : row'.identity = r.identity :=
      settled_new hknown hread hrow' (hid.trans (of_identity (·.effectId) hsame).symm)
    have hreached : Observed (gitRun g w (done ++ later)).log row := by
      refine ⟨seen,of_identity (·.effectId) hseensame,?_⟩
      rw [hmore]
      exact mem_append_left _ hseen
    have hplace := hsettled row' hrow' (.inr (hreached.of_identity hsame.symm))
    rw [of_identity (·.place) hone,observe_ok hobserve,
      of_identity (·.preparedCommitOid) hone] at hplace
    unfold classification
    rw [if_pos hplace]

/-- Prepared effects are safe in every run. As long as nobody else moves a ref off a prepared
commit that its effect has reached, each is swapped at most once, and one that is done stays so. -/
theorem preparedEffects_safe (g : GitRuntime) (w : Opening T) (moves : List (Move (GitCall T))) :
    SafeRun g w moves ∧
      (Along (next (GitRequest.perform g) (GitCall.program g)) (Admits Undisturbed) (begin w.world) moves →
        OnceRun g w moves) :=
  ⟨safeRun g w moves,onceRun_of_undisturbed⟩

/-! ## An effect that is done, and a ref that moves on -/

def sampleGit : GitRuntime where
  runtime := {
    upperTable := fun c => [c.toUpper]
    lowerTable := fun c => [c.toLower]
    repr := fun _ => ""
    fromIsoFormat := fun _ => none
    sha256 := fun _ => "d" }
  names := {
    blob := fun bytes => "blob-" ++ toString bytes.length
    tree := fun entries => "tree-" ++ toString entries.length
    commit := fun c => "on-" ++ ",".intercalate c.parents }
  normalized := pure
  checkRefFormat := fun _ => true
  allowedRefPrefix := "refs/bdb-vnext/"

def sampleCandidate : CandidateRepoView where
  candidateId := "c1"
  viewId := "view-1"
  manifestDigest := "view-1"
  candidateTreeDigest := entriesDigest sampleGit [⟨"a.txt","blob-2","100644"⟩]
  baseViewId := "base-view"
  taskId := "t1"
  repositoryId := "repo"
  baseCommitOid := "base"
  baseTreeOid := "tree-base"
  entries := [⟨"a.txt","blob-2","100644"⟩]
  pathBindings := [⟨"a.txt",some ("content-1",0o644)⟩]

def sampleRepository : RepositoryResource := ⟨"/repo","repo","identity","sha1"⟩

def sampleInput : PrepareInput where
  candidate := sampleCandidate
  repository := sampleRepository
  workId := "w1"
  runId := "r1"
  targetRef := "refs/bdb-vnext/main"
  expectedOldOid := zeroOid "sha1"
  metadata := ⟨"message","a","a@x","a","a@x","1 +0000"⟩
  intentRevisionId := "intent-1"
  validationPolicyDigest := "sha256:" ++ String.ofList (List.replicate 64 'a')
  checkPlanDigest := "sha256:" ++ String.ofList (List.replicate 64 'b')
  obligationIds := ["o1"]
  scope := "scope"

def sampleGate : Gate := ⟨"","","","ALLOW",true,"","","","",""⟩

def sampleOpening : Opening ℤ where
  world := {
    kernel := .empty
    clock := 0
    effects := .empty
    refs := ∅
    objects := {
      trees := AList.singleton "tree-base" [⟨"a.txt","blob-1","100644"⟩]
      commits := AList.singleton "base" ⟨"tree-base",[],⟨"","","","","",""⟩⟩ }
    repositories := fun root => if root = "/repo" then some ⟨"repo","identity","sha1",none⟩ else none
    authority := {
      sealed := fun id => if id = "c1" then some ⟨true,"view-1",sampleCandidate.candidateTreeDigest⟩ else none
      content := fun ref => if ref = "content-1" then some [1,2] else none
      committed := fun _ _ => some ⟨"base-view","tree-base","identity"⟩
      cutovers := []
      bindings := fun _ => none
      canonical := false
      activeFlow := fun _ => none
      canonicalGate := fun _ _ => sampleGate
      evidenceGate := fun _ _ => sampleGate } }
  unused := rfl
  acyclic := by
    intro oid c h
    obtain ⟨rfl,hc⟩ := Sigma.mk.inj_iff.mp (mem_singleton.mp (AList.mem_lookup_iff.mp h))
    rw [eq_of_heq hc]
    exact not_mem_nil

def spelledPerform (g : GitRuntime) : (q : GitRequest T) → EffectWorld T → EffectWorld T × q.Answer
  | .claimResource workId resourceKey leaseId fence, w =>
    let p := (Work.spelled (Work.claimResource workId resourceKey leaseId fence w.clock) workId resourceKey).write none w.kernel
    ({ w with kernel := p.1 },p.2.map fun _ => ())
  | .outside (.kernel event), w => ({ w with kernel := Work.spelledNext w.kernel event },())
  | q, w => q.perform g w

theorem perform_eq (g : GitRuntime) : GitRequest.perform (T := T) g = spelledPerform g := by
  funext q w
  cases q with
  | claimResource workId resourceKey leaseId fence => simp only [perform,spelledPerform,← Work.claimResource_eq]
  | outside o =>
    cases o with
    | kernel event => simp only [perform,EffectWorld.outside,spelledPerform,Work.next_eq]
    | _ => rfl
  | _ => rfl

def atOnce (c : GitCall ℤ) (client requests : ℕ) : List (Move (GitCall ℤ)) :=
  .start c :: List.replicate requests (.advance client)

def kernelCall (c : Work.WorkCall ℤ) : GitCall ℤ := .outside (.kernel ⟨c,0,none⟩)

/-- An effect is prepared and applied by the worker of a run. -/
def appliedMoves : List (Move (GitCall ℤ)) :=
  atOnce (kernelCall (.createWorkItem "w1" "t1" "promotion" (some true))) 0 1 ++
    atOnce (kernelCall (.acquireLease "w1" "l1" "owner" 100)) 1 1 ++
    atOnce (kernelCall (.startRun "w1" "r1" "l1" 1 0)) 2 1 ++ atOnce (.prepare sampleInput) 3 11 ++
    atOnce (.applyIfSafe "sha256:d" "approval" .ran) 4 21

def laterMoves : List (Move (GitCall ℤ)) :=
  atOnce (.outside (.moveRef ⟨"identity","refs/bdb-vnext/main"⟩ (some "later"))) 5 1 ++ atOnce (.reconcile "sha256:d") 6 2

def isForeign : GitRequest T → Bool
  | .outside (.moveRef _ _) => true
  | _ => false

theorem undisturbed_of_own {w : EffectWorld T} {q : GitRequest T} (h : isForeign q = false) :
    Undisturbed w log q := by
  rintro place value rfl
  cases h

theorem appliedMoves_own :
    Along (next (GitRequest.perform sampleGit) (GitCall.program sampleGit)) (Admits fun _ _ q => isForeign q = false)
      (begin sampleOpening.world) appliedMoves := by
  rw [perform_eq]
  decide +kernel

theorem appliedMoves_safe : SafeRun sampleGit sampleOpening appliedMoves ∧ OnceRun sampleGit sampleOpening appliedMoves :=
  (preparedEffects_safe sampleGit sampleOpening appliedMoves).imp_right fun honce =>
    honce (appliedMoves_own.mono fun _ _ h q hq => undisturbed_of_own (h q hq))

/-- The effect is stored as done, and the next request of the client finds it diverged. -/
def findsDiverged : Bool :=
  let s := gitRun sampleGit sampleOpening (appliedMoves ++ laterMoves)
  match (gitRun sampleGit sampleOpening appliedMoves).store.effects.rows, s.asked (C := GitCall ℤ) (.advance 6) with
  | [row], some (.observe r) => decide (row.effectCertainty = .after ∧ r.effectId = row.effectId) &&
    match s.store.observe r with
    | .ok observed => decide (classification r observed = .diverged)
    | .error _ => false
  | _, _ => false

theorem findsDiverged_eq : findsDiverged = true := by
  unfold findsDiverged gitRun
  rw [perform_eq]
  decide +kernel

/-- Once later work has moved the ref on, an effect that is done is seen as diverged. -/
theorem doneEffect_diverges : ¬ ∀ moves, SafeRun sampleGit sampleOpening moves ∧ OnceRun sampleGit sampleOpening moves := by
  intro h
  have hfinds := findsDiverged_eq
  unfold findsDiverged at hfinds
  dsimp only at hfinds
  split at hfinds
  · rename_i row r hrows hasked
    obtain ⟨hrow,hfinds⟩ := Bool.and_eq_true_iff.mp hfinds
    obtain ⟨hafter,hid⟩ := of_decide_eq_true hrow
    split at hfinds
    · rename_i observed hobserve
      have hsteady := (h (appliedMoves ++ (laterMoves ++ [.advance 6]))).2.steady appliedMoves laterMoves (.advance 6) [] rfl row
        (by rw [hrows]; exact mem_singleton_self _) hafter r hasked hid observed hobserve
      rw [of_decide_eq_true hfinds] at hsteady
      cases hsteady
    · cases hfinds
  · cases hfinds

end Bdb.Effects
