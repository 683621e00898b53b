import Bdb.Base.Histories
import Bdb.Bridge.Promotion

/-! # Promotions after crashes

A promotion goes through a few durable states, in each of which a crash may leave it and from each
of which another call goes on. In a separate worktree every one of them is recognised. A direct
checkout is recognised only until its commit is made.
-/
namespace Bdb.Bridge.Promotion

open Script PromoterRequest List PromoterWorld Option

variable {b : GitBehaviour} {cfg : PromoterConfig} {call : PromoteCall} {w : PromoterWorld}

/-! ## Answers of the requests -/

namespace PromoterWorld

/-- The sequence file and the temporary files as others may find them. -/
def later (w : PromoterWorld) (n : Option ℕ) (temps : List (String × ℕ)) : PromoterWorld :=
  { w with eventSeq := n, temps := temps }

def receipted (w : PromoterWorld) (key : String) (r : Receipt) : PromoterWorld :=
  { w with receipts := w.receipts.insert key r }

/-- A commit is stored under a name. -/
def named (w : PromoterWorld) (oid : Oid) (c : CommitNode) : PromoterWorld := { w with commits := w.commits.insert oid c }

variable {oid : Oid} {t : WorkTree}

variable {c : CommitNode} {place : Place}

theorem node_eq (h : w.commits.lookup oid = some c) : w.node oid = .ok c := by
  unfold node need
  rw [h]

theorem status_eq (h : w.commits.lookup t.head = some c) :
    w.status b t = .ok (b.statusNames c.tree t.index t.files) := by
  unfold status
  rw [node_eq h]
  rfl

theorem singleParent_eq {parent : Oid} (h : w.commits.lookup oid = some c) (hc : c.parents = [parent]) :
    w.singleParent oid = .ok parent := by
  unfold singleParent
  rw [node_eq h]
  simp only [ok_bind,hc]
  rfl

theorem setTree_tree {t' : WorkTree} (h : w.treeAt place = some t) : (w.setTree t' place).treeAt place = some t' := by
  cases place with
  | source => rfl
  | worktree sessionId =>
    obtain ⟨x,hx,-⟩ := map_eq_some_iff.mp h
    simp [treeAt,setTree,hx]

theorem setTree_self (h : w.treeAt place = some t) : w.setTree t place = w := by
  cases place with
  | source =>
    cases h
    rfl
  | worktree sessionId =>
    obtain ⟨x,hx,rfl⟩ := map_eq_some_iff.mp h
    have hworktrees : (fun other => if other = sessionId then (w.worktrees other).map fun y => { y with tree := x.tree }
        else w.worktrees other) = w.worktrees := by
      funext other
      by_cases hother : other = sessionId
      · simp [hother,hx]
      · simp [hother]
    exact congrArg (fun worktrees => { w with worktrees := worktrees }) hworktrees

@[simp] theorem treeAt_later (place : Place) (n : Option ℕ) (temps : List (String × ℕ)) :
    (w.later n temps).treeAt place = w.treeAt place := by cases place <;> rfl

@[simp] theorem treeAt_named (place : Place) (oid : Oid) (c : CommitNode) : (w.named oid c).treeAt place = w.treeAt place := by
  cases place <;> rfl

section

variable (t : WorkTree) (place : Place)

@[simp] theorem setTree_later (n : Option ℕ) (temps : List (String × ℕ)) :
    (w.later n temps).setTree t place = (w.setTree t place).later n temps := by cases place <;> rfl

@[simp] theorem setTree_commits : (w.setTree t place).commits = w.commits := by cases place <;> rfl

@[simp] theorem setTree_branch : (w.setTree t place).branch = w.branch := by cases place <;> rfl

@[simp] theorem setTree_sessions : (w.setTree t place).sessions = w.sessions := by cases place <;> rfl

@[simp] theorem setTree_receipts : (w.setTree t place).receipts = w.receipts := by cases place <;> rfl

@[simp] theorem setTree_eventSeq : (w.setTree t place).eventSeq = w.eventSeq := by cases place <;> rfl

end

@[simp] theorem setTree_setTree (t t' : WorkTree) (place : Place) : (w.setTree t place).setTree t' place = w.setTree t' place := by
  cases place with
  | source => rfl
  | worktree sessionId =>
    simp only [setTree,mk.injEq,true_and,and_true]
    funext other
    by_cases h : other = sessionId
    · simp [h,Function.comp_def]
    · simp [h]

end PromoterWorld

variable {t : WorkTree} {key : String} {texts : List String}

theorem perform_add {place : Place} {paths : List String} (h : w.treeAt place = some t) :
    perform b (.add place paths) w = (w.setTree (t.add paths) place,.ok ()) := by
  simp only [perform,h]

theorem perform_commit {place : Place} {head : CommitNode} {message stamp : String} (h : w.treeAt place = some t)
    (hhead : w.commits.lookup t.head = some head) (hstaged : b.stagedNames head.tree t.index ≠ []) :
    perform b (.commit place message stamp) w =
      ((w.setTree { t with head := b.name ⟨[t.head],t.index,message,stamp⟩ } place).named
        (b.name ⟨[t.head],t.index,message,stamp⟩) ⟨[t.head],t.index,message,stamp⟩,.ok ()) := by
  simp only [perform,makeCommit,h,hhead,if_neg hstaged,PromoterWorld.named,setTree_commits]
  rfl

theorem perform_merge {oid : Oid} {old new : CommitNode} (hold : w.commits.lookup w.source.head = some old)
    (hnew : w.commits.lookup oid = some new) (hchild : w.source.head ∈ new.parents) :
    perform b (.merge oid) w =
      ({ w with source := ⟨oid,new.tree,fun p => if new.tree p = old.tree p then w.source.files p else new.tree p⟩ },.ok ()) := by
  simp only [perform,fastForward,hold,hnew,if_pos hchild]
  rfl

theorem perform_openTemp {pid : ℕ} (h : (key,pid) ∉ w.temps) :
    perform b (.openTemp key pid) w = (w.later w.eventSeq ((key,pid) :: w.temps),.ok ()) := if_neg h

theorem perform_openTemp_taken {pid : ℕ} (h : (key,pid) ∈ w.temps) :
    perform b (.openTemp key pid) w = (w,fail "FileExistsError" "File exists") := if_pos h

/-! ## The last steps -/

section Receipts

variable {J : PromoterWorld → Prop} {Q : PromoterWorld → Outcome PromotionOutcome → Prop}
  {sessionId : String} {changed : List String} {commitSha parentSha : Oid} {pid : ℕ}

theorem storeReceipt_guarantees (hsame : ∀ n temps, J (w.later n temps))
    (hstored : ∀ n temps, J ((w.later (some n) temps).receipted (receiptKey sessionId) ⟨sessionId,1,commitSha,parentSha,changed,n⟩))
    (hblocked : (receiptKey sessionId,pid) ∈ w.temps → ∀ n e, Q (w.later n w.temps) (.error e))
    (hdone : (receiptKey sessionId,pid) ∉ w.temps → ∀ n temps,
      Q ((w.later (some n) temps).receipted (receiptKey sessionId) ⟨sessionId,1,commitSha,parentSha,changed,n⟩)
        (.ok ⟨.promoted,sessionId,commitSha,changed⟩)) :
    (storeReceipt sessionId changed commitSha parentSha pid w.eventSeq).Guarantees (perform b) J Q w := by
  let n := w.eventSeq.getD 0 + 1
  refine .step (hsame w.eventSeq w.temps) rfl ?_
  by_cases htaken : (receiptKey sessionId,pid) ∈ w.temps
  · refine .step (hsame (some n) w.temps) (perform_openTemp_taken htaken) ?_
    exact ⟨hsame (some n) w.temps,hblocked htaken (some n) _⟩
  · refine .step (hsame (some n) w.temps) (perform_openTemp htaken) ?_
    let opened := (receiptKey sessionId,pid) :: w.temps
    refine .step (hsame (some n) opened) rfl ?_
    exact ⟨hstored n (opened.erase (receiptKey sessionId,pid)),hdone htaken n (opened.erase (receiptKey sessionId,pid))⟩

end Receipts

/-! ## The stages of a promotion -/

theorem texts_ne_nil {values : List Json} (h : values.mapM isText = some texts) (hne : values ≠ []) :
    texts ≠ [] := by
  obtain ⟨v,vs,rfl⟩ := exists_cons_of_ne_nil hne
  rw [mapM_cons] at h
  obtain ⟨_,-,h⟩ := bind_eq_some_iff.mp h
  obtain ⟨rest,-,h⟩ := bind_eq_some_iff.mp h
  cases h
  exact cons_ne_nil _ _

theorem normalized_ne_nil {normalized : List String} (h : texts.mapM (normalizedPath cfg) = .ok normalized)
    (hne : texts ≠ []) : normalized ≠ [] := by
  obtain ⟨t,ts,rfl⟩ := exists_cons_of_ne_nil hne
  rw [mapM_cons] at h
  obtain ⟨_,_,h⟩ := rest₂ h
  obtain rfl := pure_ok.mp h
  exact cons_ne_nil _ _

theorem validateResult_ne_nil {d : Fields} {sessionId : String} {changed : List String}
    (h : validateResult cfg d = .ok (sessionId,changed)) : changed ≠ [] := by
  unfold validateResult at h
  obtain ⟨_,_,_,h⟩ := rest₃ h
  obtain ⟨_,_,h⟩ := rest₂ h
  split at h
  · obtain ⟨hvalues,h⟩ := of_require h
    obtain ⟨texts,htexts,h⟩ := of_need h
    obtain ⟨normalized,hnormalized,h⟩ := bind_ok.mp h
    obtain ⟨_,h⟩ := rest_ok h
    obtain rfl := (Prod.mk.inj (pure_ok.mp h)).2
    have hne := normalized_ne_nil hnormalized (texts_ne_nil htexts hvalues.1)
    intro hnil
    exact hne (eq_nil_of_length_eq_zero (by rw [← length_insertionSort (· ≤ ·),hnil,length_nil]))
  · exact absurd h fail_ne_ok

/-- A result, the checkout that holds its changes, and the commit it is based on. -/
structure Workspace where
  document : Fields
  sessionId : String
  changed : List String
  start : PromoterWorld
  tree : WorkTree
  parent : CommitNode

/-- The paths whose changes the promoter of a mode looks at, and the others. -/
def observed (cfg : PromoterConfig) (names : List String) : List String :=
  if cfg.direct = true then names.filter (controlled cfg) else names

def foreign (cfg : PromoterConfig) (names : List String) : List String := names.filter fun p => !controlled cfg p

namespace Workspace

variable (b : GitBehaviour) (cfg : PromoterConfig) (k : Workspace)

def place : Place := if cfg.direct = true then .source else .worktree k.sessionId

def staged : Tree := (k.tree.add k.changed).index

/-- The result may be promoted, and its changed paths are exactly those of its workspace. -/
structure Promotable : Prop where
  valid : validateResult cfg k.document = .ok (k.sessionId,k.changed)
  tree : k.start.treeAt (k.place cfg) = some k.tree
  branch : k.start.verifySourceBranch = .ok ()
  head : k.tree.head = k.start.source.head
  parent : k.start.commits.lookup k.start.source.head = some k.parent
  changes : observed cfg (b.statusNames k.parent.tree k.tree.index k.tree.files) = k.changed
  fresh : k.start.receipts.lookup (receiptKey k.sessionId) = none
  session : cfg.direct = true → k.start.sessions k.sessionId = some k.start.source.head
  worktree : cfg.direct = false → ∃ x, k.start.worktrees k.sessionId = some x ∧ PromoterWorld.verifyRegisteredWorktree x = .ok () ∧
    b.statusNames k.parent.tree k.start.source.index k.start.source.files = []

/-- Git lists the changed paths as they are, before and after they are staged and committed. -/
structure Listed : Prop where
  checked : ∀ i, i = k.tree.index ∨ i = k.staged → b.checkPasses i k.tree.files k.changed = true
  stagedNames : b.stagedNames k.parent.tree k.staged = k.changed
  restaged : observed cfg (b.statusNames k.parent.tree k.staged k.tree.files) = k.changed
  left : observed cfg (b.statusNames k.staged k.staged k.tree.files) = []
  foreign : ∀ i, i = k.tree.index ∨ i = k.staged →
    foreign cfg (b.statusNames k.staged k.staged k.tree.files) = foreign cfg (b.statusNames k.parent.tree i k.tree.files)
  treeNames : cfg.direct = false → b.treeNames k.parent.tree k.staged = k.changed
  forwarded : cfg.direct = false → b.statusNames k.staged k.staged
    (fun p => if k.staged p = k.parent.tree p then k.start.source.files p else k.staged p) = []

def CommitOf (c : CommitNode) : Prop := c.parents = [k.start.source.head] ∧ c.tree = k.staged

/-- The changes are staged, or not yet. -/
def opened (i : Tree) : PromoterWorld := k.start.setTree { k.tree with index := i } (k.place cfg)

def committed (c : CommitNode) : PromoterWorld :=
  (k.start.setTree ⟨b.name c,k.staged,k.tree.files⟩ (k.place cfg)).named (b.name c) c

def forwarded (c : CommitNode) : PromoterWorld :=
  { k.committed b cfg c with
    source := ⟨b.name c,k.staged,fun p => if k.staged p = k.parent.tree p then k.start.source.files p else k.staged p⟩ }

def finished (c : CommitNode) : PromoterWorld := if cfg.direct = true then k.committed b cfg c else k.forwarded b cfg c

def receipt (c : CommitNode) (n : ℕ) : Receipt := ⟨k.sessionId,1,b.name c,k.start.source.head,k.changed,n⟩

/-- Where calls and crashes leave a promotion. -/
inductive Stage : PromoterWorld → Prop
  | opened {i : Tree} (hi : i = k.tree.index ∨ i = k.staged) (n : Option ℕ) (temps : List (String × ℕ)) :
    Stage ((k.opened cfg i).later n temps)
  | committed {c : CommitNode} (hc : k.CommitOf c) (n : Option ℕ) (temps : List (String × ℕ)) :
    Stage ((k.committed b cfg c).later n temps)
  | finished {c : CommitNode} (hc : k.CommitOf c) (n : Option ℕ) (temps : List (String × ℕ)) :
    Stage ((k.finished b cfg c).later n temps)
  | receipted {c : CommitNode} (hc : k.CommitOf c) (m : ℕ) (n : Option ℕ) (temps : List (String × ℕ)) :
    Stage (((k.finished b cfg c).later n temps).receipted (receiptKey k.sessionId) (k.receipt b c m))

def Settled (w : PromoterWorld) (answer : Outcome PromotionOutcome) : Prop :=
  ∃ c n status, k.CommitOf c ∧ w.commits = k.start.commits.insert (b.name c) c ∧ w.source.head = b.name c ∧
    w.receipts = k.start.receipts.insert (receiptKey k.sessionId) (k.receipt b c n) ∧
    answer = .ok ⟨status,k.sessionId,b.name c,k.changed⟩

/-- The receipt is there, or its temporary file is free and a direct checkout is not committed yet. -/
def Open (pid : ℕ) (w : PromoterWorld) : Prop :=
  (w.receipts.lookup (receiptKey k.sessionId)).isSome = true ∨
    (receiptKey k.sessionId,pid) ∉ w.temps ∧ (cfg.direct = true → w.source.head = k.start.source.head)

variable {b cfg k}

/-! ### Staging and committing -/

variable {i : Tree}

theorem add_changed (hi : i = k.tree.index ∨ i = k.staged) :
    ({ k.tree with index := i } : WorkTree).add k.changed = { k.tree with index := k.staged } := by
  rcases hi with rfl | rfl
  · rfl
  · simp only [WorkTree.add,staged,WorkTree.mk.injEq,true_and,and_true]
    funext p
    by_cases hp : p ∈ k.changed
    · simp [hp]
    · simp [hp]

variable {c : CommitNode} {n : Option ℕ} {temps : List (String × ℕ)}

theorem CommitOf.ne (hb : b.Acyclic) (hc : k.CommitOf c) : k.start.source.head ≠ b.name c := by
  intro heq
  refine hb c ?_
  rw [hc.1,← heq]
  exact mem_singleton_self _

theorem committed_commits (c : CommitNode) : (k.committed b cfg c).commits = k.start.commits.insert (b.name c) c :=
  congrArg (fun commits => commits.insert (b.name c) c) (setTree_commits _ _)

theorem committed_lookup (c : CommitNode) : (k.committed b cfg c).commits.lookup (b.name c) = some c := AList.lookup_insert _

theorem committed_parent (hb : b.Acyclic) (h : k.Promotable b cfg) (hc : k.CommitOf c) :
    (k.committed b cfg c).commits.lookup k.start.source.head = some k.parent := by
  rw [committed_commits,AList.lookup_insert_ne (hc.ne hb)]
  exact h.parent

theorem committed_treeAt (h : k.Promotable b cfg) (c : CommitNode) :
    (k.committed b cfg c).treeAt (k.place cfg) = some ⟨b.name c,k.staged,k.tree.files⟩ :=
  (treeAt_named _ _ _).trans (setTree_tree h.tree)

theorem changed_ne_nil (h : k.Promotable b cfg) : k.changed ≠ [] := validateResult_ne_nil h.valid

variable {Q : PromoterWorld → Outcome PromotionOutcome → Prop}

theorem commitStaged_guarantees (h : k.Promotable b cfg) (hl : k.Listed b cfg)
    (hi : i = k.tree.index ∨ i = k.staged) {next : Oid → PromoterProgram}
    (hnext : ∀ c, k.CommitOf c → (next (b.name c)).Guarantees (perform b) (k.Stage b cfg) Q ((k.committed b cfg c).later n temps)) :
    (commitStaged b call (k.place cfg) k.sessionId k.changed k.start.source.head next).Guarantees (perform b) (k.Stage b cfg) Q
      ((k.opened cfg i).later n temps) := by
  have htree (i : Tree) : ((k.opened cfg i).later n temps).treeAt (k.place cfg) = some { k.tree with index := i } :=
    (treeAt_later _ _ _).trans (setTree_tree h.tree)
  have hadd : ((k.opened cfg i).later n temps).setTree (({ k.tree with index := i } : WorkTree).add k.changed) (k.place cfg) =
      (k.opened cfg k.staged).later n temps := by
    rw [add_changed hi,setTree_later]
    exact congrArg (fun w => PromoterWorld.later w n temps) (setTree_setTree _ _ _)
  have hlookup : ((k.opened cfg k.staged).later n temps).commits.lookup k.tree.head = some k.parent := by
    rw [h.head]
    exact (congrArg (fun commits => AList.lookup _ commits) (setTree_commits _ _)).trans h.parent
  have hstaged : checkStaged b (k.place cfg) k.changed ((k.opened cfg k.staged).later n temps) = .ok () := by
    unfold checkStaged
    rw [htree k.staged]
    simp only [need,ok_bind,node_eq hlookup]
    exact require_of hl.stagedNames _ _
  refine .step (.opened hi n temps) (perform_add (htree i)) ?_
  rw [hadd]
  refine .step (.opened (.inr rfl) n temps) rfl ?_
  simp only [hstaged]
  refine .step (.opened (.inr rfl) n temps) (perform_commit (htree k.staged) hlookup ?_) ?_
  · rw [hl.stagedNames]
    exact changed_ne_nil h
  let c : CommitNode := ⟨[k.tree.head],k.staged,commitMessage (k.place cfg = .source) call.document k.sessionId,call.stamp⟩
  have hc : k.CommitOf c := ⟨congrArg (fun head => [head]) h.head,rfl⟩
  have hmade : (((k.opened cfg k.staged).later n temps).setTree ⟨b.name c,k.staged,k.tree.files⟩ (k.place cfg)).named (b.name c) c =
      (k.committed b cfg c).later n temps := by
    rw [setTree_later]
    exact congrArg (fun w => (PromoterWorld.later w n temps).named (b.name c) c) (setTree_setTree _ _ _)
  have hcommit : checkCommit (k.place cfg) k.start.source.head ((k.committed b cfg c).later n temps) = .ok (b.name c) := by
    have htree : ((k.committed b cfg c).later n temps).treeAt (k.place cfg) = some ⟨b.name c,k.staged,k.tree.files⟩ :=
      (treeAt_later _ _ _).trans (committed_treeAt h c)
    have hparent : ((k.committed b cfg c).later n temps).singleParent (b.name c) = .ok k.start.source.head :=
      singleParent_eq (committed_lookup c) hc.1
    unfold checkCommit
    rw [htree]
    simp only [need,ok_bind,hparent]
    rfl
  rw [hmade]
  refine .step (.committed hc n temps) rfl ?_
  simp only [hcommit]
  exact hnext c hc

/-! ### The receipt -/

theorem finished_commits (c : CommitNode) : (k.finished b cfg c).commits = k.start.commits.insert (b.name c) c := by
  unfold finished
  split
  all_goals exact committed_commits c

theorem finished_head (c : CommitNode) : (k.finished b cfg c).source.head = b.name c := by
  unfold finished
  split
  · rename_i hdirect
    simp only [committed,place,if_pos hdirect]
    rfl
  · rfl

theorem finished_receipts (c : CommitNode) : (k.finished b cfg c).receipts = k.start.receipts := by
  unfold finished
  split
  all_goals exact setTree_receipts _ _

variable (b k) in
/-- What a call answers, when it can and when it cannot settle the promotion. -/
def Answers (P : Prop) (w : PromoterWorld) (answer : Outcome PromotionOutcome) : Prop :=
  (P → k.Settled b w answer) ∧ (¬ P → ∃ e, answer = .error e)

theorem settled_of_receipted (hc : k.CommitOf c) (m : ℕ) (n : Option ℕ) (temps : List (String × ℕ))
    (status : PromotionStatus) :
    k.Settled b (((k.finished b cfg c).later n temps).receipted (receiptKey k.sessionId) (k.receipt b c m))
      (.ok ⟨status,k.sessionId,b.name c,k.changed⟩) :=
  ⟨c,m,status,hc,finished_commits c,finished_head c,
    congrArg (fun receipts => receipts.insert (receiptKey k.sessionId) (k.receipt b c m)) (finished_receipts c),rfl⟩

theorem store_guarantees {P : Prop} (hc : k.CommitOf c) {pid : ℕ} (hP : P ↔ (receiptKey k.sessionId,pid) ∉ temps) :
    (storeReceipt k.sessionId k.changed (b.name c) k.start.source.head pid n).Guarantees (perform b) (k.Stage b cfg) (k.Answers b P)
      ((k.finished b cfg c).later n temps) := by
  refine storeReceipt_guarantees (w := (k.finished b cfg c).later n temps) (fun n temps => .finished hc n temps)
    (fun n temps => .receipted hc n (some n) temps) ?_ ?_
  · intro htaken n e
    exact ⟨fun hfree => absurd htaken (hP.mp hfree),fun _ => ⟨e,rfl⟩⟩
  · intro hfree n temps
    exact ⟨fun _ => settled_of_receipted hc n (some n) temps .promoted,fun hblocked => absurd (hP.mpr hfree) hblocked⟩

/-! ### The separate worktree -/

section Isolated

variable {P : Prop} {c : CommitNode} {pid : ℕ} {n : Option ℕ} {temps : List (String × ℕ)}

theorem finished_eq_forwarded (hmode : cfg.direct = false) (c : CommitNode) : k.finished b cfg c = k.forwarded b cfg c :=
  if_neg (by rw [hmode]; exact Bool.false_ne_true)

theorem observed_isolated (hmode : cfg.direct = false) (names : List String) : observed cfg names = names :=
  if_neg (by rw [hmode]; exact Bool.false_ne_true)

theorem place_isolated (hmode : cfg.direct = false) : k.place cfg = .worktree k.sessionId :=
  if_neg (by rw [hmode]; exact Bool.false_ne_true)

theorem closeIsolated_guarantees (hmode : cfg.direct = false) (hl : k.Listed b cfg) (hc : k.CommitOf c)
    (hP : P ↔ (receiptKey k.sessionId,pid) ∉ temps) :
    (closeIsolated b k.sessionId k.changed (b.name c) k.start.source.head pid).Guarantees (perform b) (k.Stage b cfg) (k.Answers b P)
      ((k.finished b cfg c).later n temps) := by
  have hhead : ((k.finished b cfg c).later n temps).source.head = b.name c := finished_head c
  have hlookup : ((k.finished b cfg c).later n temps).commits.lookup (b.name c) = some c := by
    have hcommits : ((k.finished b cfg c).later n temps).commits = k.start.commits.insert (b.name c) c := finished_commits c
    rw [hcommits,AList.lookup_insert]
  have hstatus : ((k.finished b cfg c).later n temps).status b ((k.finished b cfg c).later n temps).source = .ok [] := by
    rw [status_eq (c := c) (by rw [hhead]; exact hlookup),hc.2]
    refine congrArg Except.ok ?_
    rw [finished_eq_forwarded hmode]
    exact hl.forwarded hmode
  have hcheck : checkForwarded b (b.name c) ((k.finished b cfg c).later n temps) = .ok () := by
    unfold checkForwarded
    rw [hstatus,ok_bind]
    exact require_of ⟨hhead,rfl⟩ _ _
  refine .step (.finished hc n temps) rfl ?_
  simp only [hcheck]
  exact store_guarantees hc hP

theorem forward_committed (hb : b.Acyclic) (hmode : cfg.direct = false) (h : k.Promotable b cfg) (hl : k.Listed b cfg)
    (hc : k.CommitOf c) (hP : P ↔ (receiptKey k.sessionId,pid) ∉ temps) :
    (forward b k.sessionId k.changed (b.name c) k.start.source.head k.start.source.head pid).Guarantees (perform b) (k.Stage b cfg)
      (k.Answers b P) ((k.committed b cfg c).later n temps) := by
  have hsource : ((k.committed b cfg c).later n temps).source = k.start.source := by
    simp only [committed,place_isolated hmode]
    rfl
  have hold : ((k.committed b cfg c).later n temps).commits.lookup ((k.committed b cfg c).later n temps).source.head = some k.parent := by
    rw [hsource]
    exact committed_parent hb h hc
  have hchild : ((k.committed b cfg c).later n temps).source.head ∈ c.parents := by
    rw [hsource,hc.1]
    exact mem_singleton_self _
  have hmerge : perform b (.merge (b.name c)) ((k.committed b cfg c).later n temps) = ((k.finished b cfg c).later n temps,.ok ()) := by
    rw [perform_merge hold (committed_lookup c) hchild,hsource,hc.2,finished_eq_forwarded hmode]
    rfl
  unfold forward
  rw [if_pos rfl]
  refine .step (.committed hc n temps) hmerge ?_
  exact closeIsolated_guarantees hmode hl hc hP

variable {x : Worktree} {i : Tree}

theorem inspectIsolated_changed (hx : w.worktrees k.sessionId = some x)
    (hsafe : PromoterWorld.verifyRegisteredWorktree x = .ok ()) (hbranch : w.verifySourceBranch = .ok ())
    (hsource : w.status b w.source = .ok []) (hchanges : w.status b x.tree = .ok k.changed) (hne : k.changed ≠ [])
    (hhead : w.source.head = x.tree.head) (hcheck : b.checkPasses x.tree.index x.tree.files k.changed = true) :
    inspectIsolated b k.sessionId k.changed w = .ok .changed := by
  unfold inspectIsolated need
  simp only [hx,ok_bind,hsafe,hbranch,hsource,hchanges]
  rw [require_of trivial,ok_bind,if_pos hne,require_of trivial,ok_bind,require_of hhead,ok_bind,require_of hcheck]
  rfl

theorem inspectIsolated_clean {parentSha : Oid} {before : CommitNode} (hx : w.worktrees k.sessionId = some x)
    (hsafe : PromoterWorld.verifyRegisteredWorktree x = .ok ()) (hbranch : w.verifySourceBranch = .ok ())
    (hsource : w.status b w.source = .ok []) (hchanges : w.status b x.tree = .ok [])
    (hnode : w.commits.lookup x.tree.head = some c) (hparent : c.parents = [parentSha])
    (hbefore : w.commits.lookup parentSha = some before) (htree : b.treeNames before.tree c.tree = k.changed)
    (hhead : w.source.head = parentSha ∨ w.source.head = x.tree.head) :
    inspectIsolated b k.sessionId k.changed w = .ok (.committed x.tree.head parentSha) := by
  unfold inspectIsolated need
  simp only [hx,ok_bind,hsafe,hbranch,hsource,hchanges]
  rw [require_of trivial,ok_bind,if_neg (fun h => h rfl),singleParent_eq hnode hparent,ok_bind,
    node_eq hnode,ok_bind,node_eq hbefore,ok_bind,require_of htree,ok_bind,require_of hhead]
  rfl

theorem start_worktree (hmode : cfg.direct = false) (h : k.Promotable b cfg) :
    ∃ x, k.start.worktrees k.sessionId = some x ∧ x.tree = k.tree ∧ PromoterWorld.verifyRegisteredWorktree x = .ok () ∧
      b.statusNames k.parent.tree k.start.source.index k.start.source.files = [] := by
  obtain ⟨x,hx,hsafe,hclean⟩ := h.worktree hmode
  have htree := h.tree
  rw [place_isolated hmode] at htree
  obtain ⟨x',hx',htree⟩ := map_eq_some_iff.mp htree
  obtain rfl := some_unique hx hx'
  exact ⟨x,hx,htree,hsafe,hclean⟩

theorem setTree_worktree (hx : k.start.worktrees k.sessionId = some x) (t : WorkTree) :
    (k.start.setTree t (.worktree k.sessionId)).worktrees k.sessionId = some { x with tree := t } := by
  simp [PromoterWorld.setTree,hx]

theorem inspectIsolated_opened (hmode : cfg.direct = false) (h : k.Promotable b cfg) (hl : k.Listed b cfg)
    (hi : i = k.tree.index ∨ i = k.staged) :
    inspectIsolated b k.sessionId k.changed ((k.opened cfg i).later n temps) = .ok .changed := by
  obtain ⟨x,hx,-,hsafe,hclean⟩ := start_worktree hmode h
  have hchanges : b.statusNames k.parent.tree i k.tree.files = k.changed := by
    rw [← observed_isolated hmode (b.statusNames k.parent.tree i k.tree.files)]
    rcases hi with rfl | rfl
    · exact h.changes
    · exact hl.restaged
  have hworld : k.opened cfg i = k.start.setTree { k.tree with index := i } (.worktree k.sessionId) := by
    rw [opened,place_isolated hmode]
  rw [hworld]
  refine inspectIsolated_changed (x := { x with tree := { k.tree with index := i } }) (setTree_worktree hx _) hsafe h.branch ?_ ?_
    (changed_ne_nil h) h.head.symm (hl.checked i hi)
  · exact (status_eq h.parent).trans (congrArg Except.ok hclean)
  · exact (status_eq (h.head ▸ h.parent)).trans (congrArg Except.ok hchanges)

theorem left_isolated (hmode : cfg.direct = false) (hl : k.Listed b cfg) : b.statusNames k.staged k.staged k.tree.files = [] :=
  (observed_isolated hmode _).symm.trans hl.left

section

variable (hb : b.Acyclic) (hmode : cfg.direct = false) (h : k.Promotable b cfg) (hl : k.Listed b cfg)

include hb hmode h hl

theorem inspectIsolated_committed (hc : k.CommitOf c) :
    inspectIsolated b k.sessionId k.changed ((k.committed b cfg c).later n temps) = .ok (.committed (b.name c) k.start.source.head) := by
  obtain ⟨x,hx,-,hsafe,hclean⟩ := start_worktree hmode h
  have hparent := committed_parent hb h hc
  have hlookup : (k.committed b cfg c).commits.lookup (b.name c) = some c := committed_lookup c
  have hworld : k.committed b cfg c =
      (k.start.setTree ⟨b.name c,k.staged,k.tree.files⟩ (.worktree k.sessionId)).named (b.name c) c := by
    rw [committed,place_isolated hmode]
  rw [hworld] at hparent hlookup ⊢
  refine inspectIsolated_clean (x := { x with tree := ⟨b.name c,k.staged,k.tree.files⟩ }) (setTree_worktree hx _) hsafe h.branch ?_ ?_
    hlookup hc.1 hparent ?_ (.inl rfl)
  · exact (status_eq hparent).trans (congrArg Except.ok hclean)
  · exact (status_eq hlookup).trans (congrArg Except.ok (hc.2 ▸ left_isolated hmode hl))
  · exact hc.2 ▸ hl.treeNames hmode

theorem inspectIsolated_finished (hc : k.CommitOf c) :
    inspectIsolated b k.sessionId k.changed ((k.finished b cfg c).later n temps) = .ok (.committed (b.name c) k.start.source.head) := by
  obtain ⟨x,hx,-,hsafe,-⟩ := start_worktree hmode h
  have hparent := committed_parent hb h hc
  have hlookup : (k.committed b cfg c).commits.lookup (b.name c) = some c := committed_lookup c
  rw [finished_eq_forwarded hmode]
  have hworktree : (k.forwarded b cfg c).worktrees k.sessionId = some { x with tree := ⟨b.name c,k.staged,k.tree.files⟩ } := by
    have hworld : (k.forwarded b cfg c).worktrees = (k.start.setTree ⟨b.name c,k.staged,k.tree.files⟩ (.worktree k.sessionId)).worktrees := by
      rw [forwarded,committed,place_isolated hmode]
      rfl
    rw [hworld]
    exact setTree_worktree hx _
  have hbranch : (k.forwarded b cfg c).branch = k.start.branch := setTree_branch _ _
  refine inspectIsolated_clean (x := { x with tree := ⟨b.name c,k.staged,k.tree.files⟩ }) hworktree hsafe ?_ ?_ ?_
    hlookup hc.1 hparent ?_ (.inr rfl)
  · have hverify : (k.forwarded b cfg c).verifySourceBranch = k.start.verifySourceBranch := by
      unfold PromoterWorld.verifySourceBranch
      rw [hbranch]
    exact hverify.trans h.branch
  · exact (status_eq hlookup).trans (congrArg Except.ok (hc.2 ▸ hl.forwarded hmode))
  · exact (status_eq hlookup).trans (congrArg Except.ok (hc.2 ▸ left_isolated hmode hl))
  · exact hc.2 ▸ hl.treeNames hmode

theorem promoteIsolated_guarantees
    (hi : i = k.tree.index ∨ i = k.staged) (hP : P ↔ (receiptKey k.sessionId,call.pid) ∉ temps) :
    (promoteIsolated b call k.sessionId k.changed ((k.opened cfg i).later n temps)).Guarantees (perform b) (k.Stage b cfg)
      (k.Answers b P) ((k.opened cfg i).later n temps) := by
  have hsource : ((k.opened cfg i).later n temps).source = k.start.source := by
    simp only [opened,place_isolated hmode]
    rfl
  unfold promoteIsolated
  simp only [inspectIsolated_opened hmode h hl hi,hsource]
  rw [← place_isolated (k := k) hmode]
  exact commitStaged_guarantees h hl hi fun c hc => forward_committed hb hmode h hl hc hP

theorem promoteIsolated_committed (hc : k.CommitOf c) (hP : P ↔ (receiptKey k.sessionId,call.pid) ∉ temps) :
    (promoteIsolated b call k.sessionId k.changed ((k.committed b cfg c).later n temps)).Guarantees (perform b) (k.Stage b cfg)
      (k.Answers b P) ((k.committed b cfg c).later n temps) := by
  have hsource : ((k.committed b cfg c).later n temps).source = k.start.source := by
    simp only [committed,place_isolated hmode]
    rfl
  unfold promoteIsolated
  simp only [inspectIsolated_committed hb hmode h hl hc,hsource]
  exact forward_committed hb hmode h hl hc hP

theorem promoteIsolated_finished (hc : k.CommitOf c) (hP : P ↔ (receiptKey k.sessionId,call.pid) ∉ temps) :
    (promoteIsolated b call k.sessionId k.changed ((k.finished b cfg c).later n temps)).Guarantees (perform b) (k.Stage b cfg)
      (k.Answers b P) ((k.finished b cfg c).later n temps) := by
  have hhead : ((k.finished b cfg c).later n temps).source.head = b.name c := finished_head c
  unfold promoteIsolated
  simp only [inspectIsolated_finished hb hmode h hl hc,hhead]
  unfold forward
  rw [if_neg (hc.ne hb).symm,if_neg (not_not_intro rfl)]
  exact closeIsolated_guarantees hmode hl hc hP

end

end Isolated

/-! ### The direct checkout -/

section Direct

variable {P : Prop} {c : CommitNode} {n : Option ℕ} {temps : List (String × ℕ)}

theorem place_direct (hmode : cfg.direct = true) : k.place cfg = .source := if_pos hmode

theorem finished_direct (hmode : cfg.direct = true) (c : CommitNode) : k.finished b cfg c = k.committed b cfg c := if_pos hmode

theorem observed_direct (hmode : cfg.direct = true) (names : List String) : observed cfg names = names.filter (controlled cfg) :=
  if_pos hmode

variable {base : Oid} {i : Tree}

theorem inspectDirect_changed {changes : List String} (hbranch : w.verifySourceBranch = .ok ())
    (hsession : w.sessions k.sessionId = some base) (hhead : w.source.head = base) (hstatus : w.status b w.source = .ok changes)
    (hchanges : changes.filter (controlled cfg) = k.changed)
    (hcheck : b.checkPasses w.source.index w.source.files k.changed = true) :
    inspectDirect b cfg k.sessionId k.changed w = .ok (foreign cfg changes) := by
  unfold inspectDirect need
  simp only [hbranch,hsession,hstatus,ok_bind]
  rw [require_of hhead,ok_bind,require_of hchanges,ok_bind,require_of hcheck]
  rfl

theorem inspectDirect_moved (hsession : w.sessions k.sessionId = some base) (hhead : w.source.head ≠ base) :
    ∃ e, inspectDirect b cfg k.sessionId k.changed w = .error e := by
  cases hresult : inspectDirect b cfg k.sessionId k.changed w with
  | error e => exact ⟨e,rfl⟩
  | ok names =>
    unfold inspectDirect at hresult
    obtain ⟨_,hresult⟩ := rest_ok hresult
    obtain ⟨base',hbase,hresult⟩ := of_need hresult
    obtain ⟨hsame,_⟩ := of_require hresult
    obtain rfl := some_unique hsession hbase
    exact absurd hsame hhead

theorem inspectDirect_opened (hmode : cfg.direct = true) (h : k.Promotable b cfg) (hl : k.Listed b cfg)
    (hi : i = k.tree.index ∨ i = k.staged) :
    inspectDirect b cfg k.sessionId k.changed ((k.opened cfg i).later n temps) =
      .ok (foreign cfg (b.statusNames k.staged k.staged k.tree.files)) := by
  have hchanges : (b.statusNames k.parent.tree i k.tree.files).filter (controlled cfg) = k.changed := by
    rw [← observed_direct hmode]
    rcases hi with rfl | rfl
    · exact h.changes
    · exact hl.restaged
  have hworld : k.opened cfg i = k.start.setTree { k.tree with index := i } .source := by rw [opened,place_direct hmode]
  rw [hworld,hl.foreign i hi]
  exact inspectDirect_changed h.branch (h.session hmode) h.head (status_eq (h.head ▸ h.parent)) hchanges (hl.checked i hi)

theorem committed_source (hmode : cfg.direct = true) (c : CommitNode) :
    (k.committed b cfg c).source = ⟨b.name c,k.staged,k.tree.files⟩ := by
  rw [committed,place_direct hmode]
  rfl

theorem inspectDirect_committed (hb : b.Acyclic) (hmode : cfg.direct = true) (h : k.Promotable b cfg) (hc : k.CommitOf c) :
    ∃ e, inspectDirect b cfg k.sessionId k.changed ((k.committed b cfg c).later n temps) = .error e := by
  have hsession : (k.committed b cfg c).sessions = k.start.sessions := setTree_sessions _ _
  refine inspectDirect_moved ((congrFun hsession k.sessionId).trans (h.session hmode)) ?_
  have hsource := committed_source (b := b) (k := k) hmode c
  intro heq
  refine hc.ne hb (heq.symm.trans ?_)
  exact congrArg WorkTree.head hsource

theorem promoteDirect_guarantees (hmode : cfg.direct = true) (h : k.Promotable b cfg) (hl : k.Listed b cfg)
    (hi : i = k.tree.index ∨ i = k.staged) (hP : P ↔ (receiptKey k.sessionId,call.pid) ∉ temps) :
    (promoteDirect b cfg call k.sessionId k.changed ((k.opened cfg i).later n temps)).Guarantees (perform b) (k.Stage b cfg)
      (k.Answers b P) ((k.opened cfg i).later n temps) := by
  have hhead : ((k.opened cfg i).later n temps).source.head = k.start.source.head := by
    simp only [opened,place_direct hmode]
    exact h.head
  unfold promoteDirect
  simp only [inspectDirect_opened hmode h hl hi,hhead]
  rw [← place_direct (k := k) hmode]
  refine commitStaged_guarantees h hl hi fun c hc => ?_
  have hstatus : ((k.committed b cfg c).later n temps).status b ((k.committed b cfg c).later n temps).source =
      .ok (b.statusNames k.staged k.staged k.tree.files) := by
    have hsource : ((k.committed b cfg c).later n temps).source = ⟨b.name c,k.staged,k.tree.files⟩ := committed_source hmode c
    rw [hsource,← hc.2]
    exact status_eq (committed_lookup c)
  have hleft : checkLeft b cfg (foreign cfg (b.statusNames k.staged k.staged k.tree.files)) ((k.committed b cfg c).later n temps) =
      .ok () := by
    unfold checkLeft
    rw [hstatus,ok_bind,require_of ((observed_direct hmode _).symm.trans hl.left),ok_bind]
    exact require_of rfl _ _
  refine .step (.committed hc n temps) rfl ?_
  simp only [hleft]
  rw [← finished_direct hmode]
  exact store_guarantees hc hP

end Direct

/-! ### A call from every stage -/

section Calls

variable {c : CommitNode} {n : Option ℕ} {temps : List (String × ℕ)}

theorem open_iff {pid : ℕ} (hfresh : w.receipts.lookup (receiptKey k.sessionId) = none)
    (hhead : cfg.direct = true → w.source.head = k.start.source.head) :
    k.Open cfg pid w ↔ (receiptKey k.sessionId,pid) ∉ w.temps := by
  unfold Open
  rw [hfresh]
  constructor
  · rintro (hsome | ⟨hfree,-⟩)
    · exact absurd hsome Bool.false_ne_true
    · exact hfree
  · exact fun hfree => .inr ⟨hfree,hhead⟩

theorem not_open {pid : ℕ} (hmode : cfg.direct = true) (hfresh : w.receipts.lookup (receiptKey k.sessionId) = none)
    (hhead : w.source.head ≠ k.start.source.head) : ¬ k.Open cfg pid w := by
  rintro (hsome | ⟨-,hsame⟩)
  · rw [hfresh] at hsome
    exact Bool.false_ne_true hsome
  · exact hhead (hsame hmode)

theorem opened_head (h : k.Promotable b cfg) (i : Tree) (hmode : cfg.direct = true) :
    ((k.opened cfg i).later n temps).source.head = k.start.source.head := by
  simp only [opened,place_direct hmode]
  exact h.head

theorem promoteFile_fresh (h : k.Promotable b cfg) (hdoc : call.document = k.document) (hw : k.Stage b cfg w)
    (hfresh : w.receipts.lookup (receiptKey k.sessionId) = none)
    (hdirect : cfg.direct = true → (promoteDirect b cfg call k.sessionId k.changed w).Guarantees (perform b) (k.Stage b cfg) Q w)
    (hisolated : cfg.direct = false → (promoteIsolated b call k.sessionId k.changed w).Guarantees (perform b) (k.Stage b cfg) Q w) :
    (promoteFile b cfg call).Guarantees (perform b) (k.Stage b cfg) Q w := by
  unfold promoteFile
  rw [hdoc,h.valid]
  refine .step hw rfl ?_
  simp only [hfresh]
  cases hmode : cfg.direct with
  | true => exact hdirect hmode
  | false => exact hisolated hmode

theorem promoteDirect_committed (hb : b.Acyclic) (hmode : cfg.direct = true) (h : k.Promotable b cfg) (hc : k.CommitOf c) {P : Prop}
    (hP : ¬ P) :
    (promoteDirect b cfg call k.sessionId k.changed ((k.committed b cfg c).later n temps)).Guarantees (perform b) (k.Stage b cfg)
      (k.Answers b P) ((k.committed b cfg c).later n temps) := by
  obtain ⟨e,he⟩ : ∃ e, inspectDirect b cfg k.sessionId k.changed ((k.committed b cfg c).later n temps) = .error e :=
    inspectDirect_committed hb hmode h hc
  unfold promoteDirect
  rw [he]
  exact ⟨.committed hc n temps,fun holds => absurd holds hP,fun _ => ⟨e,rfl⟩⟩

theorem promoteFile_guarantees (hb : b.Acyclic) (h : k.Promotable b cfg) (hl : k.Listed b cfg) (hdoc : call.document = k.document)
    (hw : k.Stage b cfg w) :
    (promoteFile b cfg call).Guarantees (perform b) (k.Stage b cfg) (k.Answers b (k.Open cfg call.pid w)) w := by
  have hcommitted (c : CommitNode) (n : Option ℕ) (temps : List (String × ℕ)) :
      ((k.committed b cfg c).later n temps).receipts.lookup (receiptKey k.sessionId) = none := by
    exact (congrArg (AList.lookup (receiptKey k.sessionId)) (setTree_receipts _ _)).trans h.fresh
  have hmoved {c : CommitNode} (hc : k.CommitOf c) (n : Option ℕ) (temps : List (String × ℕ)) (hmode : cfg.direct = true) :
      ((k.committed b cfg c).later n temps).source.head ≠ k.start.source.head := by
    rw [show ((k.committed b cfg c).later n temps).source = ⟨b.name c,k.staged,k.tree.files⟩ from committed_source hmode c]
    exact (hc.ne hb).symm
  cases hw with
  | @opened i hi n temps =>
    have hfresh : ((k.opened cfg i).later n temps).receipts.lookup (receiptKey k.sessionId) = none :=
      (congrArg (AList.lookup (receiptKey k.sessionId)) (setTree_receipts _ _)).trans h.fresh
    have hP : k.Open cfg call.pid _ ↔ _ := open_iff hfresh (opened_head h i)
    refine promoteFile_fresh h hdoc (.opened hi n temps) hfresh ?_ ?_
    · exact fun hmode => promoteDirect_guarantees hmode h hl hi hP
    · exact fun hmode => promoteIsolated_guarantees hb hmode h hl hi hP
  | @committed c hc n temps =>
    refine promoteFile_fresh h hdoc (.committed hc n temps) (hcommitted c n temps) ?_ ?_
    · exact fun hmode => promoteDirect_committed hb hmode h hc (not_open hmode (hcommitted c n temps) (hmoved hc n temps hmode))
    · intro hmode
      refine promoteIsolated_committed hb hmode h hl hc (open_iff (hcommitted c n temps) ?_)
      exact fun hdirect => absurd (hmode.symm.trans hdirect) Bool.false_ne_true
  | @finished c hc n temps =>
    have hfresh : ((k.finished b cfg c).later n temps).receipts.lookup (receiptKey k.sessionId) = none :=
      (congrArg (AList.lookup (receiptKey k.sessionId)) (finished_receipts c)).trans h.fresh
    refine promoteFile_fresh h hdoc (.finished hc n temps) hfresh ?_ ?_
    · intro hmode
      rw [finished_direct hmode]
      exact promoteDirect_committed hb hmode h hc (not_open hmode (hcommitted c n temps) (hmoved hc n temps hmode))
    · intro hmode
      refine promoteIsolated_finished hb hmode h hl hc (open_iff hfresh ?_)
      exact fun hdirect => absurd (hmode.symm.trans hdirect) Bool.false_ne_true
  | @receipted c hc m n temps =>
    have hfound : (((k.finished b cfg c).later n temps).receipted (receiptKey k.sessionId) (k.receipt b c m)).receipts.lookup
        (receiptKey k.sessionId) = some (k.receipt b c m) := AList.lookup_insert _
    have hread : readExistingReceipt (k.receipt b c m) k.sessionId k.changed = .ok ⟨.alreadyPromoted,k.sessionId,b.name c,k.changed⟩ := by
      unfold readExistingReceipt
      rw [require_of ⟨rfl,rfl,rfl⟩]
      rfl
    unfold promoteFile
    rw [hdoc,h.valid]
    refine .step (.receipted hc m n temps) rfl ?_
    simp only [hfound,hread]
    refine ⟨.receipted hc m n temps,fun _ => settled_of_receipted hc m n temps .alreadyPromoted,fun hclosed => absurd (.inl ?_) hclosed⟩
    rw [hfound]
    rfl

theorem stage_start (h : k.Promotable b cfg) : k.Stage b cfg k.start := by
  have hsame : (k.opened cfg k.tree.index).later k.start.eventSeq k.start.temps = k.start :=
    congrArg (fun w => PromoterWorld.later w k.start.eventSeq k.start.temps) (setTree_self h.tree)
  rw [← hsame]
  exact .opened (.inl rfl) _ _

variable (b cfg) in
/-- The state after calls with the same result, each of which may crash. -/
def after (start : PromoterWorld) (attempts : List (Attempt PromoteCall)) : PromoterWorld :=
  (Logged.run (perform b) (promoteFile b cfg) ⟨start,[]⟩ attempts).store

theorem stage_after (hb : b.Acyclic) (h : k.Promotable b cfg) (hl : k.Listed b cfg) (attempts : List (Attempt PromoteCall))
    (hsame : ∀ a ∈ attempts, a.call.document = k.document) : k.Stage b cfg (after b cfg k.start attempts) := by
  induction attempts using List.reverseRecOn with
  | nil => exact stage_start h
  | append_singleton attempts a ih =>
    have hbefore := ih fun a ha => hsame a (mem_append_left _ ha)
    have hdoc := hsame a (mem_append_right _ (mem_singleton_self a))
    have hcall := (promoteFile_guarantees hb h hl hdoc hbefore).cutOff a.cut
    unfold after Logged.run
    rw [foldl_concat]
    exact hcall

end Calls

end Workspace

end Bdb.Bridge.Promotion
