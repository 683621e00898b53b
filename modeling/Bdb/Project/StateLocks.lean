import Bdb.Base.AgedLock
import Bdb.Project.Memory

/-! # The locks of the project memory and of the project catalog

Every write to the memory of a project, and every write to the catalog of projects, runs under a lock file that is
reclaimed after 120 seconds without a look at its owner.
-/
namespace Bdb.Project

open AgedLock List

variable {Token α δ : Type}

/-- 120 seconds in microseconds. -/
def lockLimit : ℕ := 120000000

/-! ## The project memory -/

def memoryWriters (projectId : String) (operation : Token → Transition α) (expectedRevision : Token → Option ℕ) :
    Setting Token (Option ProjectMemoryState) where
  limit := lockLimit
  update t memory := (writeTransaction projectId (operation t) (expectedRevision t) memory).toOption.map (·.1)

/-- A missing memory file counts as revision 1. -/
def storedRevision (projectId : String) (memory : Option ProjectMemoryState) : ℕ :=
  (memory.getD (ProjectMemoryState.fresh projectId)).revision

theorem storedRevision_some (projectId : String) (s : ProjectMemoryState) :
    storedRevision projectId (some s) = s.revision := rfl

theorem writeTransaction_ok {projectId : String} {operation : Transition α} {expectedRevision : Option ℕ}
    {memory after : Option ProjectMemoryState} {a : α}
    (h : writeTransaction projectId operation expectedRevision memory = .ok (after,a)) :
    ∃ current updated, readState projectId memory = .ok current ∧ (∀ r ∈ expectedRevision, current.revision = r) ∧
      operation current = .ok (updated,a) ∧ after = some { updated with revision := current.revision + 1 } := by
  simp only [writeTransaction,writeState,bind_ok,require_ok,pure_ok,Prod.exists,Prod.mk.injEq,exists_and_left,
    exists_const] at h
  obtain ⟨current,hread,hexpected,updated,b,hop,-,-,hafter,rfl⟩ := h
  exact ⟨current,updated,hread,hexpected,hop,hafter.symm⟩

def Commits (projectId : String) (operation : Token → Transition α) (expectedRevision : Token → Option ℕ) (t : Token)
    (base new : Option ProjectMemoryState) : Prop :=
  ∃ current updated result, readState projectId base = .ok current ∧ (∀ r ∈ expectedRevision t, current.revision = r) ∧
    operation t current = .ok (updated,result) ∧ new = some { updated with revision := current.revision + 1 }

section Memory

variable {projectId : String} {operation : Token → Transition α} {expectedRevision : Token → Option ℕ}
variable {start document base new : Option ProjectMemoryState} {t : Token}
variable {commits : List (Token × Option ProjectMemoryState × Option ProjectMemoryState)}

theorem commits_of_update (h : (memoryWriters projectId operation expectedRevision).update t base = some new) :
    Commits projectId operation expectedRevision t base new := by
  obtain ⟨⟨after,result⟩,hok,rfl⟩ := Option.map_eq_some_iff.mp h
  cases hwrite : writeTransaction projectId (operation t) (expectedRevision t) base with
  | error e =>
    rw [hwrite] at hok
    cases hok
  | ok pair =>
    rw [hwrite] at hok
    cases hok
    obtain ⟨current,updated,hread,hexpected,hop,hafter⟩ := writeTransaction_ok hwrite
    exact ⟨current,updated,result,hread,hexpected,hop,hafter⟩

theorem Commits.revision (h : Commits projectId operation expectedRevision t base new) :
    storedRevision projectId new = storedRevision projectId base + 1 := by
  obtain ⟨current,updated,result,hread,-,-,rfl⟩ := h
  obtain ⟨hcurrent,-⟩ := readState_eq hread
  rw [storedRevision_some,storedRevision,← hcurrent]

theorem chained_commits (h : Chained (memoryWriters projectId operation expectedRevision) start commits document) :
    ∀ c ∈ commits, Commits projectId operation expectedRevision c.1 c.2.1 c.2.2 := by
  induction commits generalizing document with
  | nil => exact fun c hc => absurd hc not_mem_nil
  | cons c commits ih =>
    obtain ⟨t,base,new⟩ := c
    obtain ⟨-,hnew,hrest⟩ := h
    intro d hd
    rcases mem_cons.mp hd with rfl | hd
    · exact commits_of_update hnew
    · exact ih hrest d hd

theorem chained_revision (h : Chained (memoryWriters projectId operation expectedRevision) start commits document) :
    storedRevision projectId document = storedRevision projectId start + commits.length := by
  induction commits generalizing document with
  | nil => rw [show document = start from h,length_nil,Nat.add_zero]
  | cons c commits ih =>
    obtain ⟨t,base,new⟩ := c
    obtain ⟨rfl,hnew,hrest⟩ := h
    rw [(commits_of_update hnew).revision,ih hrest,length_cons,Nat.add_assoc]

end Memory

/-! ## The project catalog -/

/-- A project of the catalog; `rest` are the fields the catalog does not look at. -/
structure CatalogRecord (δ : Type) where
  projectId : String
  displayName : String
  rest : δ
deriving DecidableEq

/-- What the catalog takes from its runtime: case folding, what a written record is read back as, and the size of the
written document. -/
structure CatalogRuntime (δ : Type) where
  casefold : String → String
  fromDict : CatalogRecord δ → Outcome (CatalogRecord δ)
  bytes : List (CatalogRecord δ) → ℕ

def projectCatalogMaxBytes : ℕ := 2 * 1024 * 1024

variable (rt : CatalogRuntime δ)

/-- The order of the written records: by folded name, then by identifier. -/
def recordBefore (a b : CatalogRecord δ) : Bool :=
  rt.casefold a.displayName < rt.casefold b.displayName ||
    (rt.casefold a.displayName == rt.casefold b.displayName && decide (a.projectId ≤ b.projectId))

def readCatalog [DecidableEq δ] : Option (List (CatalogRecord δ)) → Outcome (List (CatalogRecord δ))
  | none => .ok []
  | some stored => do
    require (rt.bytes stored ≤ projectCatalogMaxBytes) "catalog_too_large" "project catalog exceeds its bound"
    require (stored.length ≤ 256) "catalog_shape_invalid" "project catalog projects must be bounded"
    let projects ← stored.mapM rt.fromDict
    require (projects.map (·.projectId)).Nodup "catalog_duplicate_project" "project IDs must be unique"
    require (projects = stored) "catalog_digest_mismatch" "project catalog digest differs"
    pure projects

def writeUnlocked (projects : List (CatalogRecord δ)) : Outcome (List (CatalogRecord δ)) := do
  let ordered := projects.mergeSort (recordBefore rt)
  require (ordered.length ≤ 256) "catalog_size_invalid" "project catalog is bounded to 256 projects"
  pure ordered

def upsert [DecidableEq δ] (project : CatalogRecord δ) (stored : Option (List (CatalogRecord δ))) :
    Outcome (List (CatalogRecord δ)) := do
  let projects ← readCatalog rt stored
  writeUnlocked rt (projects.filter (·.projectId ≠ project.projectId) ++ [project])

/-- The calls under the catalog lock. `maintain` stands for the projection upkeep, by what it makes of the stored file. -/
inductive CatalogCall (δ : Type) where
  | upsert (project : CatalogRecord δ)
  | write (projects : List (CatalogRecord δ))
  | maintain (change : Option (List (CatalogRecord δ)) → Option (List (CatalogRecord δ)))

def CatalogCall.apply [DecidableEq δ] : CatalogCall δ → Option (List (CatalogRecord δ)) → Option (List (CatalogRecord δ))
  | .upsert project, stored => (Project.upsert rt project stored).toOption
  | .write projects, _ => (writeUnlocked rt projects).toOption
  | .maintain change, stored => change stored

def catalogWriters [DecidableEq δ] (calls : Token → CatalogCall δ) : Setting Token (Option (List (CatalogRecord δ))) where
  limit := lockLimit
  update t stored := ((calls t).apply rt stored).map some

def storedRecords (stored : Option (List (CatalogRecord δ))) : List (CatalogRecord δ) := stored.getD []

section Catalog

variable [DecidableEq δ] {rt} {calls : Token → CatalogCall δ} {project r : CatalogRecord δ}
variable {start document base new : Option (List (CatalogRecord δ))} {t : Token}
variable {commits newer older : List (Token × Option (List (CatalogRecord δ)) × Option (List (CatalogRecord δ)))}

theorem readCatalog_ok {projects : List (CatalogRecord δ)} (h : readCatalog rt base = .ok projects) :
    projects = storedRecords base := by
  cases base with
  | none => exact (Except.ok.inj h).symm
  | some stored =>
    simp only [readCatalog,bind_ok,require_ok,pure_ok,exists_and_left,exists_const] at h
    obtain ⟨-,-,read,-,-,rfl,rfl⟩ := h
    rfl

theorem mem_upsert {written : List (CatalogRecord δ)} (h : upsert rt project base = .ok written) :
    r ∈ written ↔ r = project ∨ (r ∈ storedRecords base ∧ r.projectId ≠ project.projectId) := by
  obtain ⟨projects,hread,hwrite⟩ := bind_ok.mp h
  obtain rfl := readCatalog_ok hread
  obtain ⟨-,-,hordered⟩ := bind_ok.mp hwrite
  obtain rfl := pure_ok.mp hordered
  rw [(mergeSort_perm _ _).mem_iff,mem_append,mem_filter,mem_singleton,decide_eq_true_eq]
  exact or_comm

theorem mem_of_upsert (hcall : calls t = .upsert project) (h : (catalogWriters rt calls).update t base = some new) :
    r ∈ storedRecords new ↔ r = project ∨ (r ∈ storedRecords base ∧ r.projectId ≠ project.projectId) := by
  obtain ⟨written,hwritten,rfl⟩ := Option.map_eq_some_iff.mp h
  rw [hcall] at hwritten
  change (upsert rt project base).toOption = some written at hwritten
  cases hup : upsert rt project base with
  | error e =>
    rw [hup] at hwritten
    cases hwritten
  | ok projects =>
    rw [hup] at hwritten
    cases hwritten
    exact mem_upsert hup

theorem chained_keeps (h : Chained (catalogWriters rt calls) start commits document) (hr : r ∈ storedRecords start)
    (hother : ∀ c ∈ commits, ∃ p, calls c.1 = .upsert p ∧ p.projectId ≠ r.projectId) : r ∈ storedRecords document := by
  induction commits generalizing document with
  | nil =>
    rw [show document = start from h]
    exact hr
  | cons c commits ih =>
    obtain ⟨t,base,new⟩ := c
    obtain ⟨rfl,hnew,hrest⟩ := h
    obtain ⟨p,hcall,hp⟩ := hother _ mem_cons_self
    have hbase := ih hrest (fun d hd => hother d (mem_cons_of_mem _ hd))
    exact (mem_of_upsert hcall hnew).mpr (.inr ⟨hbase,fun heq => hp heq.symm⟩)

omit [DecidableEq δ] in
theorem chained_after {w : Setting Token (Option (List (CatalogRecord δ)))}
    (h : Chained w start (newer ++ (t,base,new) :: older) document) :
    Chained w new newer document ∧ w.update t base = some new := by
  induction newer generalizing document with
  | nil =>
    obtain ⟨rfl,hnew,-⟩ := h
    exact ⟨rfl,hnew⟩
  | cons c newer ih =>
    obtain ⟨u,b,n⟩ := c
    obtain ⟨hdocument,hnew,hrest⟩ := h
    obtain ⟨hchained,hupdate⟩ := ih hrest
    exact ⟨⟨hdocument,hnew,hchained⟩,hupdate⟩

end Catalog

/-! ## No lost update -/

/-- In every run in which no owner's lock file counts as too old while the owner is under way, and a reclaiming unlink
meets the file whose age was looked at: the lock guards the memory and the catalog, every committed transaction applied
its operation to what the commit before it wrote and moved the revision on by one, and a record of the catalog stays
through all later upserts of other projects. -/
theorem no_lost_update [DecidableEq Token] [DecidableEq δ] (projectId : String) (operation : Token → Transition α)
    (expectedRevision : Token → Option ℕ) (rt : CatalogRuntime δ) (calls : Token → CatalogCall δ)
    (memory : Option ProjectMemoryState) (catalog : Option (List (CatalogRecord δ))) (onMemory onCatalog : List (Event Token))
    (hmemory : Along (step (memoryWriters projectId operation expectedRevision))
      (Careful (memoryWriters projectId operation expectedRevision)) (begin memory) onMemory)
    (hcatalog : Along (step (catalogWriters rt calls)) (Careful (catalogWriters rt calls)) (begin catalog) onCatalog) :
    let m := run (memoryWriters projectId operation expectedRevision) memory onMemory
    let c := run (catalogWriters rt calls) catalog onCatalog
    Guarded (memoryWriters projectId operation expectedRevision) memory onMemory ∧
      (∀ commit ∈ m.commits, Commits projectId operation expectedRevision commit.1 commit.2.1 commit.2.2) ∧
      storedRevision projectId m.document = storedRevision projectId memory + m.commits.length ∧
      Guarded (catalogWriters rt calls) catalog onCatalog ∧
      (∀ newer t base new older, c.commits = newer ++ (t,base,new) :: older →
        (∀ project, calls t = .upsert project → ∀ r,
          r ∈ storedRecords new ↔ r = project ∨ (r ∈ storedRecords base ∧ r.projectId ≠ project.projectId)) ∧
        ∀ r ∈ storedRecords new, (∀ d ∈ newer, ∃ p, calls d.1 = .upsert p ∧ p.projectId ≠ r.projectId) →
          r ∈ storedRecords c.document) := by
  have hguarded := guarded_run hmemory
  have hguardedCatalog := guarded_run hcatalog
  refine ⟨hguarded,chained_commits hguarded.chained,chained_revision hguarded.chained,hguardedCatalog,?_⟩
  intro newer t base new older hsplit
  have hchained := hguardedCatalog.chained
  rw [hsplit] at hchained
  obtain ⟨hafter,hnew⟩ := chained_after hchained
  refine ⟨fun project hcall r => mem_of_upsert hcall hnew,?_⟩
  intro r hr hother
  exact chained_keeps hafter hr hother

def wholeCall (t : Bool) (now : ℕ) : List (Event Bool) :=
  [.start t,.create t now false,.write t now .full,.read t false,.commit t false,.exists t,.readToken t true,.unlink t false]

def plainRuntime : CatalogRuntime Unit := ⟨id,.ok,List.length⟩

def plainUpserts (t : Bool) : CatalogCall Unit := .upsert ⟨if t then "a" else "b","",()⟩

def keepsState (_ : Bool) : Transition Unit := fun s => .ok (s,())

/-- Two calls after each other. -/
theorem no_lost_update_twice :
    storedRevision "p" (run (memoryWriters "p" keepsState fun _ => none) none
      (wholeCall false 0 ++ wholeCall true 5)).document = 1 + 2 := by
  have hmemory : Along (step (memoryWriters "p" keepsState fun _ => none))
      (Careful (memoryWriters "p" keepsState fun _ => none)) (begin none) (wholeCall false 0 ++ wholeCall true 5) := by
    decide +kernel
  have hcatalog : Along (step (catalogWriters plainRuntime plainUpserts)) (Careful (catalogWriters plainRuntime plainUpserts))
      (begin none) (wholeCall false 0 ++ wholeCall true 5) := by
    decide +kernel
  obtain ⟨-,-,hrevision,-⟩ := no_lost_update "p" keepsState (fun _ => none) plainRuntime plainUpserts none none
    (wholeCall false 0 ++ wholeCall true 5) (wholeCall false 0 ++ wholeCall true 5) hmemory hcatalog
  rw [hrevision]
  decide +kernel

/-- The first call takes more than 120 seconds; the second one reclaims its lock file. -/
def slowOwner : List (Event Bool) :=
  [.start false,.create false 0 false,.write false 0 .full,.read false false,
    .start true,.create true 120000001 false,.stat true 120000001 false,.reclaim true false,.create true 120000001 false,
    .write true 120000001 .full,.read true false,.commit false false,.commit true false]

/-- Both calls are in the critical section, and the second commit loses the first. -/
theorem slow_owner_loses_update :
    ¬ Guarded (memoryWriters "p" keepsState fun _ => none) none (slowOwner.take 11) ∧
      (run (memoryWriters "p" keepsState fun _ => none) none slowOwner).commits.length = 2 ∧
      storedRevision "p" (run (memoryWriters "p" keepsState fun _ => none) none slowOwner).document = 2 := by
  refine ⟨?_,by decide +kernel,by decide +kernel⟩
  intro h
  have hsame := h.exclusive false true (by decide +kernel) (by decide +kernel)
  cases hsame

end Bdb.Project
