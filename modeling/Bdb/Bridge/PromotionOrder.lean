import Bdb.Bridge.PromotionRuns
import Bdb.Base.Dict

/-! # Settled promotions and the order of their receipts

Receipts are numbered in the order in which they are stored, in every run. A call settles a
promotion unless the commit of a direct checkout was left without its receipt, or the temporary
file of the receipt is in its way.
-/
namespace Bdb.Bridge.Promotion

open Script PromoterRequest List

variable {b : GitBehaviour} {cfg : PromoterConfig} {call : PromoteCall} {w v : PromoterWorld}

/-! ## The numbers of receipts -/

/-- No receipt has a number above the sequence file, and no two have the same. -/
structure Numbered (w : PromoterWorld) : Prop where
  bounded : ∀ key r, w.receipts.lookup key = some r → r.repositoryEventSeq ≤ w.eventSeq.getD 0
  distinct : ∀ key key' r r', w.receipts.lookup key = some r → w.receipts.lookup key' = some r' →
    r.repositoryEventSeq = r'.repositoryEventSeq → key = key'

theorem numbered_none (h : w.receipts = ∅) : Numbered w where
  bounded key r hr := by simp [h] at hr
  distinct key key' r r' hr := by simp [h] at hr

/-- Receipts stay, and new ones have numbers above the sequence file. -/
structure Follows (w v : PromoterWorld) : Prop where
  kept : ∀ key r, w.receipts.lookup key = some r → v.receipts.lookup key = some r
  above : ∀ key r, v.receipts.lookup key = some r → w.receipts.lookup key = some r ∨ w.eventSeq.getD 0 < r.repositoryEventSeq
  seq : w.eventSeq.getD 0 ≤ v.eventSeq.getD 0

theorem Follows.refl (w : PromoterWorld) : Follows w w := ⟨fun _ _ h => h,fun _ _ h => .inl h,le_rfl⟩

theorem Follows.trans {u : PromoterWorld} (h : Follows w v) (h' : Follows v u) : Follows w u where
  kept key r hr := h'.kept key r (h.kept key r hr)
  above key r hr := by
    rcases h'.above key r hr with hr | hr
    · exact h.above key r hr
    · exact .inr (h.seq.trans_lt hr)
  seq := h.seq.trans h'.seq

/-- A request that leaves receipts and sequence file alone. -/
def Quiet (w v : PromoterWorld) : Prop := v.receipts = w.receipts ∧ v.eventSeq = w.eventSeq

theorem Quiet.numbered (h : Quiet w v) (hw : Numbered w) : Numbered v where
  bounded key r hr := by
    rw [h.1] at hr
    rw [h.2]
    exact hw.bounded key r hr
  distinct key key' r r' hr hr' := by
    rw [h.1] at hr hr'
    exact hw.distinct key key' r r' hr hr'

theorem Quiet.follows (h : Quiet w v) : Follows w v where
  kept _ _ hr := h.1 ▸ hr
  above _ _ hr := .inl (h.1 ▸ hr)
  seq := h.2 ▸ le_rfl

/-- What is left of a call that started with other receipts. -/
def Ordered (w v : PromoterWorld) : Prop := Follows w v ∧ Numbered v

theorem Ordered.quiet {u : PromoterWorld} (h : Ordered w v) (hq : Quiet v u) : Ordered w u :=
  ⟨h.1.trans hq.follows,hq.numbered h.2⟩

theorem add_quiet (place : Place) (paths : List String) (w : PromoterWorld) : Quiet w (perform b (.add place paths) w).1 := by
  simp only [perform]
  split
  · exact ⟨rfl,rfl⟩
  · exact ⟨PromoterWorld.setTree_receipts _ _,PromoterWorld.setTree_eventSeq _ _⟩

theorem commit_quiet (place : Place) (message stamp : String) (w : PromoterWorld) :
    Quiet w (perform b (.commit place message stamp) w).1 := by
  simp only [perform,makeCommit]
  split
  · exact ⟨rfl,rfl⟩
  · split
    · exact ⟨rfl,rfl⟩
    · split
      · exact ⟨rfl,rfl⟩
      · exact ⟨PromoterWorld.setTree_receipts _ _,PromoterWorld.setTree_eventSeq _ _⟩

theorem merge_quiet (oid : Oid) (w : PromoterWorld) : Quiet w (perform b (.merge oid) w).1 := by
  simp only [perform,fastForward]
  split
  · split
    all_goals exact ⟨rfl,rfl⟩
  · exact ⟨rfl,rfl⟩

/-! ### The programs -/

section Programs

variable {sessionId : String} {changed : List String} {commitSha parentSha sourceHead : Oid} {pid : ℕ}

theorem Ordered.later (h : Ordered w v) {n : ℕ} (hn : v.eventSeq.getD 0 ≤ n) (temps : List (String × ℕ)) :
    Ordered w (v.later (some n) temps) := by
  have hnumbered : Numbered (v.later (some n) temps) :=
    ⟨fun key r hr => (h.2.bounded key r hr).trans hn,h.2.distinct⟩
  have hfollows : Follows v (v.later (some n) temps) := ⟨fun _ _ hr => hr,fun _ _ hr => .inl hr,hn⟩
  exact ⟨h.1.trans hfollows,hnumbered⟩

theorem Ordered.receipted (h : Ordered w v) {key : String} {r : Receipt} (hfresh : v.receipts.lookup key = none)
    (hr : r.repositoryEventSeq = v.eventSeq.getD 0 + 1) (temps : List (String × ℕ)) :
    Ordered w ((v.later (some r.repositoryEventSeq) temps).receipted key r) := by
  have hlookup (key' : String) (r' : Receipt)
      (h' : ((v.later (some r.repositoryEventSeq) temps).receipted key r).receipts.lookup key' = some r') :
      key' = key ∧ r' = r ∨ v.receipts.lookup key' = some r' :=
    (lookup_insert_cases h').imp_right And.right
  have hbelow (key' : String) (r' : Receipt) (h' : v.receipts.lookup key' = some r') :
      r'.repositoryEventSeq < r.repositoryEventSeq := by
    have hbound := h.2.bounded key' r' h'
    omega
  refine ⟨h.1.trans ⟨fun key' r' h' => ?_,fun key' r' h' => ?_,?_⟩,⟨fun key' r' h' => ?_,fun key' key'' r' r'' h' h'' heq => ?_⟩⟩
  · have hne : key' ≠ key := by
      rintro rfl
      rw [hfresh] at h'
      cases h'
    exact (AList.lookup_insert_ne hne).trans h'
  · rcases hlookup key' r' h' with ⟨-,rfl⟩ | h'
    · exact .inr (by omega)
    · exact .inl h'
  · have hseq : ((v.later (some r.repositoryEventSeq) temps).receipted key r).eventSeq.getD 0 = r.repositoryEventSeq := rfl
    omega
  · rcases hlookup key' r' h' with ⟨-,rfl⟩ | h'
    · exact le_rfl
    · exact (hbelow key' r' h').le
  · rcases hlookup key' r' h' with ⟨rfl,rfl⟩ | hold <;> rcases hlookup key'' r'' h'' with ⟨rfl,rfl⟩ | hold'
    · rfl
    · exact absurd heq (hbelow key'' r'' hold').ne'
    · exact absurd heq (hbelow key' r' hold).ne
    · exact h.2.distinct key' key'' r' r'' hold hold' heq

section

variable (h : Ordered w v) (hfresh : v.receipts.lookup (receiptKey sessionId) = none)

include h hfresh

theorem storeReceipt_ordered :
    (storeReceipt sessionId changed commitSha parentSha pid v.eventSeq).Guarantees (perform b) (Ordered w) (fun _ _ => True) v := by
  let n := v.eventSeq.getD 0 + 1
  have hnext : v.eventSeq.getD 0 ≤ n := Nat.le_succ _
  refine .step h rfl ?_
  by_cases htaken : (receiptKey sessionId,pid) ∈ v.temps
  · refine .step (h.later hnext v.temps) (perform_openTemp_taken htaken) ?_
    exact ⟨h.later hnext v.temps,trivial⟩
  · refine .step (h.later hnext v.temps) (perform_openTemp htaken) ?_
    let opened := (receiptKey sessionId,pid) :: v.temps
    refine .step (h.later hnext opened) rfl ?_
    exact ⟨h.receipted (r := ⟨sessionId,1,commitSha,parentSha,changed,n⟩) hfresh rfl (opened.erase (receiptKey sessionId,pid)),trivial⟩

theorem closeIsolated_ordered :
    (closeIsolated b sessionId changed commitSha parentSha pid).Guarantees (perform b) (Ordered w) (fun _ _ => True) v := by
  refine .step h rfl ?_
  cases checkForwarded b commitSha v with
  | error e => exact ⟨h,trivial⟩
  | ok _ => exact storeReceipt_ordered h hfresh

theorem forward_ordered :
    (forward b sessionId changed commitSha parentSha sourceHead pid).Guarantees (perform b) (Ordered w) (fun _ _ => True) v := by
  unfold forward
  split
  · have hquiet := merge_quiet (b := b) commitSha v
    refine ⟨h,?_⟩
    cases (perform b (.merge commitSha) v).2 with
    | error e => exact ⟨h.quiet hquiet,trivial⟩
    | ok _ => exact closeIsolated_ordered (h.quiet hquiet) (hquiet.1 ▸ hfresh)
  · split
    · exact ⟨h,trivial⟩
    · exact closeIsolated_ordered h hfresh

theorem commitStaged_ordered {place : Place} {next : Oid → PromoterProgram}
    (hnext : ∀ oid u, Ordered w u → u.receipts.lookup (receiptKey sessionId) = none →
      (next oid).Guarantees (perform b) (Ordered w) (fun _ _ => True) u) :
    (commitStaged b call place sessionId changed parentSha next).Guarantees (perform b) (Ordered w) (fun _ _ => True) v := by
  have hadd := add_quiet (b := b) place changed v
  refine ⟨h,?_⟩
  generalize (perform b (.add place changed) v).1 = added at hadd
  cases (perform b (.add place changed) v).2 with
  | error e => exact ⟨h.quiet hadd,trivial⟩
  | ok _ =>
    refine .step (h.quiet hadd) rfl ?_
    cases checkStaged b place changed added with
    | error e => exact ⟨h.quiet hadd,trivial⟩
    | ok _ =>
      have hcommit := commit_quiet (b := b) place (commitMessage (place = .source) call.document sessionId) call.stamp added
      refine ⟨h.quiet hadd,?_⟩
      generalize (perform b (.commit place (commitMessage (place = .source) call.document sessionId) call.stamp) added).1 = made at hcommit
      cases (perform b (.commit place (commitMessage (place = .source) call.document sessionId) call.stamp) added).2 with
      | error e => exact ⟨(h.quiet hadd).quiet hcommit,trivial⟩
      | ok _ =>
        refine .step ((h.quiet hadd).quiet hcommit) rfl ?_
        cases checkCommit place parentSha made with
        | error e => exact ⟨(h.quiet hadd).quiet hcommit,trivial⟩
        | ok oid => exact hnext oid made ((h.quiet hadd).quiet hcommit) ((hcommit.1.trans hadd.1) ▸ hfresh)

theorem promoteIsolated_ordered (look : PromoterWorld) :
    (promoteIsolated b call sessionId changed look).Guarantees (perform b) (Ordered w) (fun _ _ => True) v := by
  unfold promoteIsolated
  cases inspectIsolated b sessionId changed look with
  | error e => exact ⟨h,trivial⟩
  | ok found =>
    cases found with
    | committed commitSha parentSha => exact forward_ordered h hfresh
    | changed => exact commitStaged_ordered h hfresh fun oid u hu hfree => forward_ordered hu hfree

theorem promoteDirect_ordered (look : PromoterWorld) :
    (promoteDirect b cfg call sessionId changed look).Guarantees (perform b) (Ordered w) (fun _ _ => True) v := by
  unfold promoteDirect
  cases inspectDirect b cfg sessionId changed look with
  | error e => exact ⟨h,trivial⟩
  | ok foreign =>
    refine commitStaged_ordered h hfresh fun oid u hu hfree => ?_
    refine .step hu rfl ?_
    cases checkLeft b cfg foreign u with
    | error e => exact ⟨hu,trivial⟩
    | ok _ => exact storeReceipt_ordered hu hfree

end

theorem promoteFile_ordered (hw : Numbered w) : (promoteFile b cfg call).Guarantees (perform b) (Ordered w) (fun _ _ => True) w := by
  have h : Ordered w w := ⟨.refl w,hw⟩
  unfold promoteFile
  cases validateResult cfg call.document with
  | error e => exact ⟨h,trivial⟩
  | ok result =>
    obtain ⟨sessionId,changed⟩ := result
    refine .step h rfl ?_
    cases hfound : w.receipts.lookup (receiptKey sessionId) with
    | some receipt => exact ⟨h,trivial⟩
    | none =>
      change Guarantees (perform b) (Ordered w) (fun _ _ => True) (if cfg.direct = true then _ else _) w
      split
      · exact promoteDirect_ordered h hfound w
      · exact promoteIsolated_ordered h hfound w

end Programs

/-! ### Runs -/

variable (b cfg) in
/-- The state after calls for any results, crashes, and whatever happens elsewhere. -/
def world (start : PromoterWorld) (attempts : List (Attempt PromoterCall)) : PromoterWorld :=
  (Logged.run (perform b) (PromoterCall.program b cfg) ⟨start,[]⟩ attempts).store

theorem call_ordered (hw : Numbered w) (c : PromoterCall) :
    (c.program b cfg).Guarantees (perform b) (Ordered w) (fun _ _ => True) w := by
  have h : Ordered w w := ⟨.refl w,hw⟩
  cases c with
  | promote call => exact promoteFile_ordered hw
  | elsewhere commits branch source worktrees sessions =>
    refine .step h rfl ?_
    exact ⟨h.quiet ⟨rfl,rfl⟩,trivial⟩

theorem world_concat (start : PromoterWorld) (attempts : List (Attempt PromoterCall)) (a : Attempt PromoterCall) :
    world b cfg start (attempts ++ [a]) = ((a.call.program b cfg).cutOff (perform b) a.cut (world b cfg start attempts)).1 := by
  unfold world Logged.run
  rw [foldl_concat]
  rfl

theorem world_append (start : PromoterWorld) (done more : List (Attempt PromoterCall)) :
    world b cfg start (done ++ more) = world b cfg (world b cfg start done) more := by
  induction more using List.reverseRecOn with
  | nil => rw [append_nil]; rfl
  | append_singleton more a ih => rw [← append_assoc,world_concat,world_concat,ih]

theorem world_ordered (hw : Numbered w) (attempts : List (Attempt PromoterCall)) : Ordered w (world b cfg w attempts) := by
  induction attempts using List.reverseRecOn with
  | nil => exact ⟨.refl w,hw⟩
  | append_singleton attempts a ih =>
    rw [world_concat]
    have hordered : (a.call.program b cfg).Guarantees (perform b) (Ordered _) (fun _ _ => True) _ := call_ordered ih.2 a.call
    have hcall := hordered.cutOff a.cut
    exact ⟨ih.1.trans hcall.1,hcall.2⟩

/-! ## Settled promotions -/

theorem settles_iff {k : Workspace} (hb : b.Acyclic) (h : k.Promotable b cfg) (hl : k.Listed b cfg) {attempts : List (Attempt PromoteCall)}
    (hsame : ∀ a ∈ attempts, a.call.document = k.document) (hlast : call.document = k.document) :
    k.Settled b ((promoteFile b cfg call).alone (perform b) (Workspace.after b cfg k.start attempts)).1
        ((promoteFile b cfg call).alone (perform b) (Workspace.after b cfg k.start attempts)).2 ↔
      k.Open cfg call.pid (Workspace.after b cfg k.start attempts) := by
  have hstage := Workspace.stage_after hb h hl attempts hsame
  obtain ⟨hsettles,hfails⟩ := (Workspace.promoteFile_guarantees hb h hl hlast hstage).alone
  refine ⟨fun hsettled => ?_,hsettles⟩
  by_contra hclosed
  obtain ⟨e,he⟩ := hfails hclosed
  obtain ⟨c,n,status,-,-,-,-,hanswer⟩ := hsettled
  rw [he] at hanswer
  cases hanswer

/-! ### A direct checkout -/

/-- Names are longer than those of the parents, and one file is tracked. -/
def sampleGit : GitBehaviour where
  name c := c.parents.foldr (· ++ ·) "c"
  statusNames head index files := ["a.txt"].filter fun p => head p ≠ index p ∨ index p ≠ files p
  checkPasses _ _ _ := true
  stagedNames head index := ["a.txt"].filter fun p => head p ≠ index p
  treeNames before after := ["a.txt"].filter fun p => before p ≠ after p

theorem sampleGit_acyclic : sampleGit.Acyclic := by
  have hlong (parents : List Oid) : ∀ p ∈ parents, p.length < (parents.foldr (· ++ ·) "c").length := by
    induction parents with
    | nil => exact fun p hp => absurd hp not_mem_nil
    | cons q qs ih =>
      have hrest : 0 < (qs.foldr (· ++ ·) "c").length := by
        cases qs with
        | nil => exact Nat.one_pos
        | cons r rs => exact (Nat.zero_le _).trans_lt (ih r mem_cons_self)
      intro p hp
      rw [foldr_cons,String.length_append]
      rcases mem_cons.mp hp with rfl | hp
      · omega
      · have := ih p hp
        omega
  intro c hmem
  exact (hlong c.parents _ hmem).false

def sampleTree (content : Blob) : Tree := fun p => if p = "a.txt" then some content else none

def sampleParent : CommitNode := ⟨[],sampleTree [97],"base","0"⟩

def sampleConfig (direct : Bool) : PromoterConfig := ⟨direct,["a.txt"]⟩

def sampleSession : String := "01ARZ3NDEKTSV4RRFFQ69G5FAV"

def sampleDocument : Fields :=
  [("status",.str "success"), ("exit_code",.int 0), ("session_id",.str sampleSession), ("sequence",.int 1),
    ("data",.obj [("operation",.str "replace_exact_and_test"), ("rollback_performed",.bool false)]),
    ("changed_files",.arr [.str "a.txt"])]

def sampleChanged : WorkTree := ⟨"c",sampleTree [97],sampleTree [98]⟩

def sampleWorkspace (direct : Bool) : Workspace where
  document := sampleDocument
  sessionId := sampleSession
  changed := ["a.txt"]
  tree := sampleChanged
  parent := sampleParent
  start := {
    commits := (∅ : AList fun _ : Oid => CommitNode).insert "c" sampleParent
    branch := some "main"
    source := if direct then sampleChanged else { sampleChanged with files := sampleTree [97] }
    worktrees := fun id => if id = sampleSession then some ⟨sampleChanged,1,true,false⟩ else none
    sessions := fun id => if id = sampleSession then some "c" else none
    receipts := ∅
    eventSeq := none
    temps := [] }

theorem sampleWorkspace_promotable (direct : Bool) : (sampleWorkspace direct).Promotable sampleGit (sampleConfig direct) where
  valid := by cases direct <;> rfl
  tree := by cases direct <;> rfl
  branch := rfl
  head := by cases direct <;> rfl
  parent := by cases direct <;> rfl
  changes := by cases direct <;> decide +kernel
  fresh := rfl
  session _ := by cases direct <;> rfl
  worktree hmode := by
    cases direct with
    | true => cases hmode
    | false => exact ⟨⟨sampleChanged,1,true,false⟩,rfl,rfl,by decide +kernel⟩

theorem sampleWorkspace_listed (direct : Bool) : (sampleWorkspace direct).Listed sampleGit (sampleConfig direct) where
  checked _ _ := rfl
  stagedNames := by cases direct <;> decide +kernel
  restaged := by cases direct <;> decide +kernel
  left := by cases direct <;> decide +kernel
  foreign := by
    rintro i (rfl | rfl)
    all_goals cases direct <;> decide +kernel
  treeNames _ := by cases direct <;> decide +kernel
  forwarded _ := by cases direct <;> decide +kernel

/-- A promoter that crashes between the commit of a direct checkout and its receipt leaves it to the user. -/
theorem committedDirect_stuck :
    (sampleWorkspace true).Promotable sampleGit (sampleConfig true) ∧ (sampleWorkspace true).Listed sampleGit (sampleConfig true) ∧
      ((promoteFile sampleGit (sampleConfig true) ⟨sampleDocument,2,"2"⟩).alone (perform sampleGit)
        (Workspace.after sampleGit (sampleConfig true) (sampleWorkspace true).start [⟨⟨sampleDocument,1,"1"⟩,some 4⟩])).2 =
          fail "manual_reconciliation_required" "Direct checkout HEAD no longer matches the session base SHA" :=
  ⟨sampleWorkspace_promotable true,sampleWorkspace_listed true,by decide +kernel⟩

/-- Calls for one result settle its promotion when they can, and receipts are numbered in their order. -/
theorem promotion_settles (b : GitBehaviour) (cfg : PromoterConfig) :
    (∀ (k : Workspace) (attempts : List (Attempt PromoteCall)) (call : PromoteCall),
      b.Acyclic → k.Promotable b cfg → k.Listed b cfg → (∀ a ∈ attempts, a.call.document = k.document) →
      call.document = k.document →
      let w := Workspace.after b cfg k.start attempts
      let result := (promoteFile b cfg call).alone (perform b) w
      k.Settled b result.1 result.2 ↔ k.Open cfg call.pid w) ∧
    ∀ (w : PromoterWorld) (done more : List (Attempt PromoterCall)), Numbered w →
      let before := world b cfg w done
      let after := world b cfg w (done ++ more)
      (∀ key key' r r', after.receipts.lookup key = some r → after.receipts.lookup key' = some r' →
        r.repositoryEventSeq = r'.repositoryEventSeq → key = key') ∧
      (∀ key r, before.receipts.lookup key = some r → after.receipts.lookup key = some r) ∧
      ∀ key key' r r', before.receipts.lookup key = some r → before.receipts.lookup key' = none →
        after.receipts.lookup key' = some r' → r.repositoryEventSeq < r'.repositoryEventSeq := by
  refine ⟨fun k attempts call hb h hl hsame hlast => settles_iff hb h hl hsame hlast,fun w done more hw => ?_⟩
  have hbefore : Ordered w (world b cfg w done) := world_ordered hw done
  have hafter : Ordered _ (world b cfg (world b cfg w done) more) := world_ordered hbefore.2 more
  rw [← world_append] at hafter
  refine ⟨hafter.2.distinct,hafter.1.kept,fun key key' r r' hr hfresh hr' => ?_⟩
  rcases hafter.1.above key' r' hr' with hold | habove
  · rw [hfresh] at hold
    cases hold
  · exact (hbefore.2.bounded key r hr).trans_lt habove

/-- A worktree is promoted after a crash between the commit and the fast-forward. -/
theorem worktree_promotes :
    (let w := Workspace.after sampleGit (sampleConfig false) (sampleWorkspace false).start [⟨⟨sampleDocument,1,"1"⟩,some 4⟩]
      let result := (promoteFile sampleGit (sampleConfig false) ⟨sampleDocument,2,"2"⟩).alone (perform sampleGit) w
      (sampleWorkspace false).Settled sampleGit result.1 result.2) ∧
    let after := world sampleGit (sampleConfig false) (sampleWorkspace false).start ([] ++ [⟨.promote ⟨sampleDocument,1,"1"⟩,none⟩])
    ∀ key key' r r', after.receipts.lookup key = some r → after.receipts.lookup key' = some r' →
      r.repositoryEventSeq = r'.repositoryEventSeq → key = key' := by
  refine ⟨?_,((promotion_settles sampleGit (sampleConfig false)).2 _ _ _ (numbered_none rfl)).1⟩
  refine ((promotion_settles sampleGit (sampleConfig false)).1 (sampleWorkspace false) _ ⟨sampleDocument,2,"2"⟩ sampleGit_acyclic
    (sampleWorkspace_promotable false) (sampleWorkspace_listed false) ?_ rfl).mpr (.inr ⟨?_,nofun⟩)
  · intro a ha
    obtain rfl := mem_singleton.mp ha
    rfl
  · decide +kernel

end Bdb.Bridge.Promotion
