import Bdb.Bridge.StateHash

/-! # The predicted hash

The prediction and the later hash read the same bytes at the same paths, but they choose
their paths differently. So they agree exactly when git comes to report the paths of the
patch, and no other allowed path is reported before and not after, or after and not before.
-/
namespace Bdb.Bridge

open List AList

variable {m : WorkspaceManager} {lsFiles : Checkout → List String} {c c' : Checkout}

/-! ## What is assumed and what is required -/

def ListsReported (lsFiles : Checkout → List String) : Prop :=
  ∀ c s, s ∈ lsFiles c ↔ ∃ p, c.reports p = true ∧ s = p.text

/-- Exactly the overridden paths have changed. -/
structure ChangedTo (c : Checkout) (overrides : Overrides) (c' : Checkout) : Prop where
  head : c'.head = c.head
  index : c'.index = c.index
  ignored : c'.ignored = c.ignored
  throughLink : c'.throughLink = c.throughLink
  files : ∀ p, c'.tree.fileAt p = (overrides.lookup p).getD (c.tree.fileAt p)

/-- Git comes to report every overridden path, and of the other allowed ones the same as
before. -/
structure Foreseen (m : WorkspaceManager) (c : Checkout) (overrides : Overrides) (c' : Checkout) : Prop where
  overridden : ∀ p ∈ overrides, c'.reports p = true
  others : ∀ p, p ∉ overrides → m.allowedPath p.text = some p → c'.reports p = c.reports p

/-! ## The hashed paths -/

variable {p : RepoPath} {paths : List String}

variable {relative : String} {content : RepoPath → Outcome (Option Bytes)} {x : List ℕ}

theorem allowedPath_some :
    m.allowedPath relative = some p ↔ validateRepoRelativePath relative = .ok p ∧ pathMatches p m.allowedPaths = true ∧
      pathMatches p m.manifestPaths = true := by
  unfold WorkspaceManager.allowedPath
  cases hv : validateRepoRelativePath relative with
  | error e => simp
  | ok q =>
    simp only [Bool.and_eq_true,Option.ite_none_right_eq_some,Option.some.injEq,Except.ok.injEq]
    constructor
    · rintro ⟨hmatch,rfl⟩
      exact ⟨rfl,hmatch⟩
    · rintro ⟨rfl,hmatch⟩
      exact ⟨hmatch,rfl⟩

theorem allowedPath_text {q : RepoPath} (h : m.allowedPath p.text = some q) : q = p :=
  validate_text (allowedPath_some.mp h).1

def Canonical (m : WorkspaceManager) (paths : List String) : Prop :=
  ∀ s ∈ paths, ∀ p, m.allowedPath s = some p → s = p.text

theorem mem_hashedPaths (h : Canonical m paths) :
    p ∈ m.hashedPaths paths ↔ p.text ∈ paths ∧ m.allowedPath p.text = some p := by
  unfold WorkspaceManager.hashedPaths
  rw [mem_filterMap]
  constructor
  · rintro ⟨s,hs,hp⟩
    have hmem : s ∈ paths := mem_dedup.mp ((mem_insertionSort _).mp hs)
    obtain rfl := h s hmem p hp
    exact ⟨hmem,hp⟩
  · rintro ⟨hmem,hp⟩
    exact ⟨p.text,(mem_insertionSort _).mpr (mem_dedup.mpr hmem),hp⟩

theorem hashedPaths_sorted (h : Canonical m paths) :
    (m.hashedPaths paths).Pairwise fun p q => p.text < q.text := by
  have hsorted : (paths.dedup.insertionSort (· ≤ ·)).Pairwise (· < ·) := by
    have hle := pairwise_insertionSort (· ≤ ·) paths.dedup
    have hne : (paths.dedup.insertionSort (· ≤ ·)).Nodup :=
      (perm_insertionSort _ _).nodup_iff.mpr (nodup_dedup paths)
    exact (hle.and hne).imp fun hpair => lt_of_le_of_ne hpair.1 hpair.2
  have hmem : ∀ s ∈ paths.dedup.insertionSort (· ≤ ·), s ∈ paths :=
    fun s hs => mem_dedup.mp ((mem_insertionSort _).mp hs)
  refine pairwise_filterMap.mpr (hsorted.imp_of_mem ?_)
  intro s t hs ht hlt p hp q hq
  rw [← h s (hmem s hs) p hp,← h t (hmem t ht) q hq]
  exact hlt

theorem hashedPaths_congr {paths' : List String} (h : Canonical m paths) (h' : Canonical m paths')
    (hsame : ∀ p, m.allowedPath p.text = some p → (p.text ∈ paths ↔ p.text ∈ paths')) :
    m.hashedPaths paths = m.hashedPaths paths' := by
  have : Std.Irrefl fun p q : RepoPath => p.text < q.text := ⟨fun p => lt_irrefl _⟩
  have : Std.Antisymm fun p q : RepoPath => p.text < q.text := ⟨fun p q hpq hqp => absurd hpq (lt_asymm hqp)⟩
  refine List.Pairwise.eq_of_mem_iff (hashedPaths_sorted h) (hashedPaths_sorted h') fun p => ?_
  rw [mem_hashedPaths h,mem_hashedPaths h']
  exact and_congr_left (hsame p)

/-! ## The bytes of the entries -/

theorem hashEntries_cons {rest : List RepoPath} (h : hashEntries content (p :: rest) = .ok x) :
    ∃ found more, content p = .ok found ∧ hashEntries content rest = .ok more ∧ x = hashEntry p found ++ more := by
  unfold hashEntries at h
  obtain ⟨found,hfound,h⟩ := bind_ok.mp h
  obtain ⟨more,hmore,h⟩ := bind_ok.mp h
  exact ⟨found,more,hfound,hmore,(pure_ok.mp h).symm⟩

theorem hashEntries_inj {ps qs : List RepoPath}
    (hclean : ∀ p ∈ ps ++ qs, ∀ ch ∈ p.text.toList, ch.toNat ≠ 0) (hp : hashEntries content ps = .ok x)
    (hq : hashEntries content qs = .ok x) : ps = qs := by
  induction ps generalizing qs x with
  | nil =>
    cases hp
    cases qs with
    | nil => rfl
    | cons q rest =>
      obtain ⟨found,more,-,-,hx⟩ := hashEntries_cons hq
      simp [hashEntry] at hx
  | cons p ps ih =>
    obtain ⟨found,more,hfound,hmore,rfl⟩ := hashEntries_cons hp
    cases qs with
    | nil =>
      have hx := Except.ok.inj hq
      simp [hashEntry] at hx
    | cons q qs =>
      obtain ⟨found',more',hfound',hmore',hx⟩ := hashEntries_cons hq
      unfold hashEntry at hx
      rw [append_assoc,append_assoc,cons_append,cons_append] at hx
      have hpc := hclean p (mem_append_left _ mem_cons_self)
      have hqc := hclean q (mem_append_right _ mem_cons_self)
      obtain ⟨htext,hrest⟩ := textBytes_closed_inj hpc hqc hx
      obtain rfl := text_inj htext
      cases hfound.symm.trans hfound'
      obtain rfl := append_cancel_left hrest
      rw [ih (fun r hr => hclean r ?_) hmore hmore']
      rcases mem_append.mp hr with hr | hr
      · exact mem_append_left _ (mem_cons_of_mem p hr)
      · exact mem_append_right _ (mem_cons_of_mem p hr)

/-! ## The two choices of paths -/

variable {overrides : Overrides}

theorem canonical_listed (hgit : ListsReported lsFiles) (c : Checkout) : Canonical m (lsFiles c) := by
  intro s hs p hp
  obtain ⟨q,-,rfl⟩ := (hgit c s).mp hs
  rw [allowedPath_text hp]

theorem listed_text (hgit : ListsReported lsFiles) : p.text ∈ lsFiles c ↔ c.reports p = true := by
  rw [hgit c]
  constructor
  · rintro ⟨q,hq,htext⟩
    rwa [text_inj htext]
  · exact fun h => ⟨p,h,rfl⟩

/-- The paths that the prediction covers. -/
def predictedPaths (lsFiles : Checkout → List String) (c : Checkout) (overrides : Overrides) : List String :=
  lsFiles c ++ overrides.keys.map RepoPath.text

theorem mem_predictedPaths (hgit : ListsReported lsFiles) :
    p.text ∈ predictedPaths lsFiles c overrides ↔ c.reports p = true ∨ p ∈ overrides := by
  unfold predictedPaths
  rw [mem_append,listed_text hgit]
  refine or_congr_right ?_
  constructor
  · intro h
    obtain ⟨q,hq,htext⟩ := mem_map.mp h
    rw [← text_inj htext]
    exact mem_keys.mp hq
  · exact fun h => mem_map_of_mem (mem_keys.mpr h)

theorem canonical_predicted (hgit : ListsReported lsFiles) (c : Checkout) (overrides : Overrides) :
    Canonical m (predictedPaths lsFiles c overrides) := by
  intro s hs p hp
  rcases mem_append.mp hs with hs | hs
  · exact canonical_listed hgit c s hs p hp
  · obtain ⟨q,-,rfl⟩ := mem_map.mp hs
    rw [allowedPath_text hp]

theorem resolve_ok {u : Unit} (h : m.resolve c p = .ok u) :
    pathMatches p m.allowedPaths = true ∧ pathMatches p m.manifestPaths = true ∧ c.throughLink p = false := by
  unfold WorkspaceManager.resolve at h
  split at h
  · cases h
  · rename_i hpolicy
    split at h
    · cases h
    · rename_i hmanifest
      split at h
      · cases h
      · rename_i hlink
        exact ⟨by simpa using hpolicy,by simpa using hmanifest,by simpa using hlink⟩

theorem resolveAllowedPath_ok (h : m.resolveAllowedPath c relative = .ok p) :
    m.allowedPath p.text = some p ∧ m.resolve c p = .ok () := by
  obtain ⟨q,hq,h⟩ := bind_ok.mp h
  obtain ⟨u,hu,h⟩ := bind_ok.mp h
  cases pure_ok.mp h
  obtain ⟨hpolicy,hmanifest,-⟩ := resolve_ok hu
  exact ⟨allowedPath_some.mpr ⟨validate_again hq,hpolicy,hmanifest⟩,hu⟩

theorem normalizeOverrides_allowed {entries : List (String × Option Bytes)} (h : m.normalizeOverrides c entries = .ok overrides) :
    ∀ p ∈ overrides, m.allowedPath p.text = some p ∧ m.resolve c p = .ok () := by
  induction entries generalizing overrides with
  | nil =>
    cases h
    exact fun p hp => absurd hp (notMem_empty p)
  | cons entry rest ih =>
    obtain ⟨relative,content⟩ := entry
    obtain ⟨q,hq,h⟩ := bind_ok.mp h
    obtain ⟨more,hmore,h⟩ := bind_ok.mp h
    cases pure_ok.mp h
    intro p hp
    split at hp
    · exact ih hmore p hp
    · rcases (mem_insert more).mp hp with rfl | hp
      · exact resolveAllowedPath_ok hq
      · exact ih hmore p hp

theorem hashedPaths_iff (hgit : ListsReported lsFiles) (hallowed : ∀ p ∈ overrides, m.allowedPath p.text = some p) :
    m.hashedPaths (predictedPaths lsFiles c overrides) = m.hashedPaths (lsFiles c') ↔ Foreseen m c overrides c' := by
  have hleft : ∀ p, p ∈ m.hashedPaths (predictedPaths lsFiles c overrides) ↔
      (c.reports p = true ∨ p ∈ overrides) ∧ m.allowedPath p.text = some p := by
    intro p
    rw [mem_hashedPaths (canonical_predicted hgit c overrides),mem_predictedPaths hgit]
  have hright : ∀ p, p ∈ m.hashedPaths (lsFiles c') ↔ c'.reports p = true ∧ m.allowedPath p.text = some p := by
    intro p
    rw [mem_hashedPaths (canonical_listed hgit c'),listed_text hgit]
  constructor
  · intro h
    refine ⟨fun p hp => ?_,fun p hp hallow => ?_⟩
    · exact ((hright p).mp (h ▸ (hleft p).mpr ⟨.inr hp,hallowed p hp⟩)).1
    · rw [Bool.eq_iff_iff]
      constructor
      · intro hr
        rcases ((hleft p).mp (h ▸ (hright p).mpr ⟨hr,hallow⟩)).1 with hr | hp'
        · exact hr
        · exact absurd hp' hp
      · exact fun hr => ((hright p).mp (h ▸ (hleft p).mpr ⟨.inl hr,hallow⟩)).1
  · intro h
    refine hashedPaths_congr (canonical_predicted hgit c overrides) (canonical_listed hgit c') fun p hallow => ?_
    rw [mem_predictedPaths hgit,listed_text hgit]
    by_cases hp : p ∈ overrides
    · exact ⟨fun _ => h.overridden p hp,fun _ => .inr hp⟩
    · rw [h.others p hp hallow]
      exact or_iff_left hp

/-! ## Both hashes -/

theorem read_foreseen (hafter : ChangedTo c overrides c') (hresolve : ∀ p ∈ overrides, m.resolve c p = .ok ())
    (p : RepoPath) : m.readNow c' p = m.readOverridden c overrides p := by
  have hsame : m.resolve c' p = m.resolve c p := by
    unfold WorkspaceManager.resolve
    rw [hafter.throughLink]
  unfold WorkspaceManager.readOverridden WorkspaceManager.readNow
  rw [hsame,hafter.files p]
  cases hp : overrides.lookup p with
  | none => rfl
  | some content =>
    rw [hresolve p (lookup_isSome.mp (by rw [hp]; rfl))]
    rfl

theorem predictedBytes_eq (m : WorkspaceManager) (lsFiles : Checkout → List String) (c : Checkout) (overrides : Overrides) :
    m.predictedBytes lsFiles c overrides =
      m.stateBytes c (m.readOverridden c overrides) (predictedPaths lsFiles c overrides) := rfl

theorem bytes_foreseen_iff (hgit : ListsReported lsFiles) (hafter : ChangedTo c overrides c')
    (hallowed : ∀ p ∈ overrides, m.allowedPath p.text = some p ∧ m.resolve c p = .ok ()) {bytes : List ℕ}
    (hbytes : m.predictedBytes lsFiles c overrides = .ok bytes) :
    m.computeStateBytes lsFiles c' = .ok bytes ↔ Foreseen m c overrides c' := by
  have hread : m.readNow c' = m.readOverridden c overrides :=
    funext (read_foreseen hafter fun p hp => (hallowed p hp).2)
  rw [predictedBytes_eq] at hbytes
  rw [← hashedPaths_iff hgit fun p hp => (hallowed p hp).1]
  unfold WorkspaceManager.computeStateBytes WorkspaceManager.stateBytes at *
  rw [hread,hafter.head]
  obtain ⟨entries,hentries,hbytes⟩ := bind_ok.mp hbytes
  cases pure_ok.mp hbytes
  constructor
  · intro h
    obtain ⟨entries',hentries',h⟩ := bind_ok.mp h
    obtain rfl := append_cancel_left (pure_ok.mp h)
    refine hashEntries_inj (fun p hp => ?_) hentries hentries'
    have hallow : ∃ s, m.allowedPath s = some p := by
      rcases mem_append.mp hp with hp | hp
      all_goals
        obtain ⟨s,-,hs⟩ := mem_filterMap.mp hp
        exact ⟨s,hs⟩
    obtain ⟨s,hs⟩ := hallow
    exact (validate_ok (validate_again (allowedPath_some.mp hs).1)).2
  · intro h
    rw [← h,hentries]
    rfl

theorem computeStateHashWithOverride_eq (m : WorkspaceManager) (lsFiles : Checkout → List String) (c : Checkout)
    (relative : String) (content : Bytes) :
    m.computeStateHashWithOverride lsFiles c relative content =
      m.computeStateHashWithOverrides lsFiles c [(relative,some content)] := by
  unfold WorkspaceManager.computeStateHashWithOverride WorkspaceManager.computeStateHashWithOverrides
    WorkspaceManager.normalizeOverrides
  cases hp : m.resolveAllowedPath c relative with
  | error e => rfl
  | ok p =>
    have hread : (fun q => if q = p then .ok (some content) else m.readNow c q) =
        m.readOverridden c ((∅ : Overrides).insert p (some content)) := by
      funext q
      unfold WorkspaceManager.readOverridden
      by_cases hq : q = p
      · subst hq
        rw [if_pos rfl,lookup_insert]
      · rw [if_neg hq,lookup_insert_ne hq,lookup_empty]
    simp only [WorkspaceManager.normalizeOverrides,ok_bind,pure,Except.pure,hread,notMem_empty,if_false,
      WorkspaceManager.predictedBytes]
    rw [show ((∅ : Overrides).insert p (some content)).keys.map RepoPath.text = [p.text] from rfl]
    cases m.stateBytes c (m.readOverridden c ((∅ : Overrides).insert p (some content))) (lsFiles c ++ [p.text]) <;> rfl

theorem gate_iff {actual : Outcome String} {predicted code message : String} :
    (actual >>= fun found => require (found = predicted) code message) = .ok () ↔ actual = .ok predicted := by
  rw [bind_ok]
  constructor
  · rintro ⟨found,rfl,hfound⟩
    rw [require_ok.mp hfound]
  · rintro rfl
    exact ⟨predicted,rfl,require_of rfl code message⟩

/-- The predicted hash is the one computed after the change exactly when the change was
foreseen, and exactly then the change passes the comparison at its commit. -/
theorem predicted_hash_iff (hgit : ListsReported lsFiles) {entries : List (String × Option Bytes)} {bytes : List ℕ}
    (hnorm : m.normalizeOverrides c entries = .ok overrides) (hafter : ChangedTo c overrides c')
    (hbytes : m.predictedBytes lsFiles c overrides = .ok bytes)
    (hdigest : ∀ later, m.computeStateBytes lsFiles c' = .ok later → stateHashOf later = stateHashOf bytes → later = bytes) :
    ∃ predicted, m.computeStateHashWithOverrides lsFiles c entries = .ok predicted ∧
      (∀ relative content, entries = [(relative,some content)] →
        m.computeStateHashWithOverride lsFiles c relative content = .ok predicted) ∧
      (m.computeStateHash lsFiles c' = .ok predicted ↔ Foreseen m c overrides c') ∧
      (m.finishCheckpoint lsFiles c' predicted = .ok () ↔ Foreseen m c overrides c') ∧
      (m.checkReplaced lsFiles c' predicted = .ok () ↔ Foreseen m c overrides c') := by
  have hpredicted : m.computeStateHashWithOverrides lsFiles c entries = .ok (stateHashOf bytes) := by
    unfold WorkspaceManager.computeStateHashWithOverrides
    rw [hnorm,ok_bind,hbytes]
    rfl
  have hhash : m.computeStateHash lsFiles c' = .ok (stateHashOf bytes) ↔ Foreseen m c overrides c' := by
    rw [← bytes_foreseen_iff hgit hafter (normalizeOverrides_allowed hnorm) hbytes]
    unfold WorkspaceManager.computeStateHash
    cases hlater : m.computeStateBytes lsFiles c' with
    | error e => exact ⟨nofun,nofun⟩
    | ok later =>
      constructor
      · intro h
        rw [hdigest later hlater (Except.ok.inj h)]
      · intro h
        rw [Except.ok.inj h]
        rfl
  refine ⟨stateHashOf bytes,hpredicted,?_,hhash,gate_iff.trans hhash,gate_iff.trans hhash⟩
  rintro relative content rfl
  rw [computeStateHashWithOverride_eq]
  exact hpredicted

/-! ## A file that is restored -/

/-- A listing computed from the tracked files and the tree. -/
def listedTexts (c : Checkout) : List String :=
  ((c.tree.keys ++ c.index.keys).filter c.reports).map RepoPath.text

theorem listedTexts_reported : ListsReported listedTexts := by
  intro c s
  unfold listedTexts
  rw [mem_map]
  constructor
  · rintro ⟨p,hp,rfl⟩
    exact ⟨p,(mem_filter.mp hp).2,rfl⟩
  · rintro ⟨p,hp,rfl⟩
    refine ⟨p,mem_filter.mpr ⟨?_,hp⟩,rfl⟩
    rw [mem_append]
    by_cases hindex : p ∈ c.index
    · exact .inr (mem_keys.mp hindex)
    · refine .inl (mem_keys.mp ?_)
      by_contra htree
      have hnone := lookup_eq_none.mpr hindex
      have hfile : c.tree.fileAt p = none := by
        unfold Tree.fileAt
        rw [lookup_eq_none.mpr htree]
      simp [Checkout.reports,hnone,hfile] at hp

def Checkout.withFile (c : Checkout) (p : RepoPath) (content : Bytes) : Checkout :=
  { c with tree := c.tree.insert p (.file content) }

theorem changedTo_withFile (c : Checkout) (p : RepoPath) (content : Bytes) :
    ChangedTo c ((∅ : Overrides).insert p (some content)) (c.withFile p content) where
  head := rfl
  index := rfl
  ignored := rfl
  throughLink := rfl
  files := by
    intro q
    unfold Checkout.withFile Tree.fileAt
    by_cases hq : q = p
    · subst hq
      rw [lookup_insert,lookup_insert]
      rfl
    · rw [lookup_insert_ne hq,lookup_insert_ne hq,lookup_empty]
      rfl

def sampleManager : WorkspaceManager := ⟨["src/*"],["src/*"]⟩

def samplePath : RepoPath := ⟨["src","a.py"],by decide⟩

def sampleCheckout (content : Bytes) : Checkout where
  head := "0123456789012345678901234567890123456789"
  index := (∅ : AList fun _ : RepoPath => Bytes).insert samplePath [120]
  tree := (∅ : Tree).insert samplePath (.file content)
  ignored := fun _ _ => false
  throughLink := fun _ => false

theorem sample_foreseen : Foreseen sampleManager (sampleCheckout [121]) ((∅ : Overrides).insert samplePath (some [122]))
    ((sampleCheckout [121]).withFile samplePath [122]) where
  overridden := by
    intro p hp
    rcases (mem_insert _).mp hp with rfl | hp
    · decide +kernel
    · exact absurd hp (notMem_empty p)
  others := by
    intro p hp _
    have hne : p ≠ samplePath := fun heq => hp ((mem_insert _).mpr (.inl heq))
    unfold Checkout.reports Checkout.withFile Tree.fileAt
    rw [lookup_insert_ne hne]
    rfl

/-- New bytes for a tracked file are predicted. -/
theorem changed_file_predicted :
    ∃ predicted,
      sampleManager.computeStateHashWithOverrides listedTexts (sampleCheckout [121]) [("src/a.py",some [122])] =
        .ok predicted ∧
      sampleManager.finishCheckpoint listedTexts ((sampleCheckout [121]).withFile samplePath [122]) predicted = .ok () := by
  have hsome : (sampleManager.predictedBytes listedTexts (sampleCheckout [121])
      ((∅ : Overrides).insert samplePath (some [122]))).toOption.isSome = true := by decide +kernel
  obtain ⟨bytes,hbytes⟩ := Option.isSome_iff_exists.mp hsome
  rw [toOption_eq_some] at hbytes
  have hnorm : sampleManager.normalizeOverrides (sampleCheckout [121]) [("src/a.py",some [122])] =
      .ok ((∅ : Overrides).insert samplePath (some [122])) := by
    have hpath : sampleManager.resolveAllowedPath (sampleCheckout [121]) "src/a.py" = .ok samplePath := by decide +kernel
    unfold WorkspaceManager.normalizeOverrides
    rw [hpath]
    rfl
  have hafter := changedTo_withFile (sampleCheckout [121]) samplePath [122]
  obtain ⟨predicted,hpredicted,-,-,hgate,-⟩ := predicted_hash_iff listedTexts_reported hnorm hafter hbytes
    fun later hlater _ => by
      have hsame := (bytes_foreseen_iff listedTexts_reported hafter (normalizeOverrides_allowed hnorm) hbytes).mpr
        sample_foreseen
      exact Except.ok.inj (hlater.symm.trans hsame)
  exact ⟨predicted,hpredicted,hgate.mpr sample_foreseen⟩

/-- The override gives a changed file its committed bytes back: git no longer reports it. -/
theorem restored_file_differs :
    ChangedTo (sampleCheckout [121]) ((∅ : Overrides).insert samplePath (some [120]))
        ((sampleCheckout [121]).withFile samplePath [120]) ∧
      sampleManager.computeStateHashWithOverrides listedTexts (sampleCheckout [121]) [("src/a.py",some [120])] =
        .ok "sha256:2423447463f700c870eb8a36f1fc5ef4618164fd55a0c831db3b6a8f16746cdd" ∧
      sampleManager.computeStateHash listedTexts ((sampleCheckout [121]).withFile samplePath [120]) =
        .ok "sha256:dbc33abdd915ed44fe88d4964a572eebdfb855837e0bd52542b436b0b0636c93" :=
  ⟨changedTo_withFile _ _ _,toOption_eq_some.mp (by decide +kernel),toOption_eq_some.mp (by decide +kernel)⟩

end Bdb.Bridge
