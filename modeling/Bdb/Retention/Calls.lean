import Bdb.Retention.CompactionSteps

/-! # Calls on the retention store

The calls that a project makes on one connection, with a record of every event that was
appended. The record is not stored: it is what the audit trail is compared with.
-/
namespace Bdb.Retention

open Json Table Connection

/-- A call, under its project and with its clock readings. -/
inductive RetentionCall where
  | registerEntity (projectId : String) (r : Registration) (now : String)
  | appendEvent (projectId : String) (maxSegmentEvents : Int) (eventType : String) (payload : Fields)
      (eventId : Option String) (now : String)
  | sealSegment (segmentId now : String)
  | executeCompaction (projectId : String) (revision : Int) (faultStage : Option FaultStage) (clock : CompactionClock)

variable (rt : Runtime)

/-- The call, without its answer. -/
def RetentionCall.program : RetentionCall → Db Unit
  | registerEntity projectId r now => Retention.registerEntity projectId r now
  | appendEvent projectId most eventType payload eventId now => do
    let _ ← Retention.appendEvent rt projectId most eventType payload eventId now
    pure ()
  | sealSegment segmentId now => Retention.sealSegment segmentId now
  | executeCompaction projectId revision fault clock => do
    let _ ← Retention.executeCompaction rt projectId revision fault clock
    pure ()

/-- A connection, and every event that was appended on it, in order. -/
structure Watched where
  connection : Database
  appended : List (SegmentedEvent Json)

def Watched.store (w : Watched) : RetentionStore := w.connection.working

def newEvents (s t : RetentionStore) : List (SegmentedEvent Json) :=
  t.segmentedEvents.rows.filter fun e => !s.segmentedEvents.rows.contains e

def Watched.next (w : Watched) (call : RetentionCall) : Watched :=
  let c := ((call.program rt).exec w.connection).2
  ⟨c,w.appended ++ newEvents w.store c.working⟩

def Watched.initial : Watched := ⟨.fresh .empty,[]⟩

def retentionRun (calls : List RetentionCall) : Watched := calls.foldl (Watched.next rt) .initial

def eventsIn (projectId : String) (events : List (SegmentedEvent Json)) : List (SegmentedEvent Json) :=
  events.filter fun e => e.projectId == projectId

/-! ## What a call does to the tables it works on -/

variable {rt} {s t : RetentionStore} {projectId now : String} {c : Database}

theorem newEvents_of_subset (h : ∀ e ∈ t.segmentedEvents.rows, e ∈ s.segmentedEvents.rows) : newEvents s t = [] := by
  unfold newEvents
  rw [List.filter_eq_nil_iff]
  intro e he
  simpa using h e he

theorem newEvents_insert {e : SegmentedEvent Json} (h : s.segmentedEvents.insert e = some t.segmentedEvents) :
    newEvents s t = [e] := by
  obtain ⟨hnew,hrows⟩ := insert_some h
  have hfresh : e ∉ s.segmentedEvents.rows := by
    intro he
    rw [get_of_mem he] at hnew
    cases hnew
  unfold newEvents
  rw [hrows,List.filter_append]
  have hold : s.segmentedEvents.rows.filter (fun e => !s.segmentedEvents.rows.contains e) = [] := by
    rw [List.filter_eq_nil_iff]
    intro f hf
    simpa using hf
  rw [hold,List.nil_append,List.filter_cons_of_pos (by simpa using hfresh)]
  rfl

/-- The active segment of the project, found or created. -/
inductive Opens (s : RetentionStore) (projectId now : String) : AuditSegment → RetentionStore → Prop
  | found {g : AuditSegment} (h : s.activeSegment projectId = some g) : Opens s projectId now g s
  | created {t : RetentionStore} {g : AuditSegment} (hnone : s.activeSegment projectId = none)
      (hg : g = nextSegment projectId (s.lastSealed projectId) now)
      (hinsert : s.auditSegments.insert g = some t.auditSegments) (ht : t = { s with auditSegments := t.auditSegments }) :
      Opens s projectId now g t

theorem Opens.events {g : AuditSegment} (h : Opens s projectId now g t) : t.segmentedEvents = s.segmentedEvents := by
  cases h with
  | found => rfl
  | created _ _ _ ht => rw [ht]

theorem getOrCreate_cases {α : Type} (k : AuditSegment → Db α) (projectId now : String) (c : Database) :
    (∃ g t d, Opens c.working projectId now g t ∧ d.working = t ∧
        (getOrCreateActiveSegment projectId now >>= k).exec c = (k g).exec d) ∨
      ∃ e, (getOrCreateActiveSegment projectId now >>= k).exec c = (.error e,c) := by
  unfold getOrCreateActiveSegment
  rw [bind_assoc,exec_read]
  dsimp only
  cases hactive : c.working.activeSegment projectId with
  | some g => exact .inl ⟨g,c.working,c,.found hactive,rfl,rfl⟩
  | none =>
    dsimp only
    rw [bind_assoc,exec_write]
    cases hinsert : c.working.auditSegments.insert (nextSegment projectId (c.working.lastSealed projectId) now) with
    | none =>
      have hrefused : ∃ e, RetentionStore.insertSegment (nextSegment projectId (c.working.lastSealed projectId) now)
          c.working = .error e := by
        simp only [RetentionStore.insertSegment,integrityError,need,hinsert]
        exact ⟨_,rfl⟩
      obtain ⟨e,he⟩ := hrefused
      rw [he]
      exact .inr ⟨e,rfl⟩
    | some segments =>
      refine .inl ⟨_,{ c.working with auditSegments := segments },.fresh _,
        .created hactive rfl hinsert rfl,rfl,?_⟩
      simp only [RetentionStore.insertSegment,integrityError,need,hinsert]
      rfl

/-- What an append leaves behind: nothing, or a segment without the event, or both. -/
inductive Appends (rt : Runtime) (s : RetentionStore) (projectId eventType now : String) (payload : Fields)
    (eventId : Option String) : RetentionStore → Prop
  | refused : Appends rt s projectId eventType now payload eventId s
  | opened {t : RetentionStore} {g : AuditSegment} (h : Opens s projectId now g t) :
      Appends rt s projectId eventType now payload eventId t
  | appended {t u : RetentionStore} {g : AuditSegment} {e : SegmentedEvent Json} (h : Opens s projectId now g t)
      (he : e = eventFor rt g projectId eventType payload eventId now)
      (hinsert : t.segmentedEvents.insert e = some u.segmentedEvents)
      (hsegments : u.auditSegments = t.auditSegments.put (extended rt g e.payloadDigest) ∨
        u.auditSegments = (t.auditSegments.put (extended rt g e.payloadDigest)).change (·.sealIf g.segmentId now)
          (AuditSegment.sealIf_id g.segmentId now))
      (hrest : u = { t with segmentedEvents := u.segmentedEvents, auditSegments := u.auditSegments }) :
      Appends rt s projectId eventType now payload eventId u

theorem Appends.rest {eventType : String} {payload : Fields} {eventId : Option String}
    (h : Appends rt s projectId eventType now payload eventId t) :
    t = { s with auditSegments := t.auditSegments, segmentedEvents := t.segmentedEvents } ∧
      ∀ e ∈ s.segmentedEvents.rows, e ∈ t.segmentedEvents.rows := by
  have hopens : ∀ {g t}, Opens s projectId now g t → t = { s with auditSegments := t.auditSegments } := by
    intro g t ho
    cases ho with
    | found => rfl
    | created _ _ _ ht => exact ht
  cases h with
  | refused => exact ⟨rfl,fun _ h => h⟩
  | opened ho =>
    rw [hopens ho]
    exact ⟨rfl,fun _ h => h⟩
  | appended ho he hinsert hsegments hrest =>
    rw [hrest]
    refine ⟨?_,fun e he => (mem_insert hinsert).mpr (.inl (ho.events ▸ he))⟩
    rw [hopens ho]

theorem appendEvent_cases (rt : Runtime) (projectId : String) (most : Int) (eventType : String) (payload : Fields)
    (eventId : Option String) (now : String) (c : Database) :
    Appends rt c.working projectId eventType now payload eventId
      ((appendEvent rt projectId most eventType payload eventId now).exec c).2.working := by
  unfold appendEvent
  rcases getOrCreate_cases (fun active => do
      let e := eventFor rt active projectId eventType payload eventId now
      Connection.execute (RetentionStore.insertEvent e)
      let updated := extended rt active e.payloadDigest
      Connection.write (RetentionStore.putSegment updated)
      if most ≤ updated.eventCount then sealSegment active.segmentId now
      pure (e.sequenceNumber,updated.segmentDigest)) projectId now c with ⟨g,t,d,hopens,hd,hexec⟩ | ⟨e,hexec⟩
  · rw [hexec]
    subst hd
    dsimp only
    rw [exec_execute]
    cases hinsert : d.working.segmentedEvents.insert (eventFor rt g projectId eventType payload eventId now) with
    | none =>
      simp only [RetentionStore.insertEvent,integrityError,need,hinsert]
      exact .opened hopens
    | some events =>
      have hok : RetentionStore.insertEvent (eventFor rt g projectId eventType payload eventId now) d.working =
          .ok { d.working with segmentedEvents := events } := by
        simp only [RetentionStore.insertEvent,integrityError,need,hinsert]
        rfl
      rw [hok]
      dsimp only
      rw [exec_write]
      dsimp only [RetentionStore.putSegment]
      split
      · unfold sealSegment
        rw [exec_write]
        exact .appended hopens rfl hinsert (.inr rfl) rfl
      · exact .appended hopens rfl hinsert (.inl rfl) rfl
  · rw [hexec]
    exact .refused

theorem exec_forget {α : Type} (p : Db α) (c : Database) :
    ((do let _ ← p; pure () : Db Unit).exec c).2 = (p.exec c).2 := by
  rw [Program.exec_bind]
  rcases p.exec c with ⟨answer,d⟩
  cases answer <;> rfl

/-- A registration works on the entities only, and on no other than its own. -/
structure Registers (s : RetentionStore) (entityId : String) (t : RetentionStore) : Prop where
  rest : t = { s with managedEntities := t.managedEntities }
  own : ∃ e, t.managedEntities.get entityId = some e
  others : ∀ id ≠ entityId, t.managedEntities.get id = s.managedEntities.get id

theorem upsertEntity_registers (projectId : String) (r : Registration) (now : String) (s : RetentionStore) :
    ∃ t, RetentionStore.upsertEntity projectId r now s = .ok t ∧ Registers s r.entityId t := by
  unfold RetentionStore.upsertEntity
  cases hget : s.managedEntities.get r.entityId with
  | some old =>
    have hid : old.entityId = r.entityId := key_of_get hget
    refine ⟨_,rfl,rfl,⟨_,(get_put (hid ▸ hget) _).trans (if_pos hid)⟩,fun id hother => ?_⟩
    exact (get_put (hid ▸ hget) _).trans (if_neg fun hsame => hother (hsame.symm.trans hid))
  | none =>
    dsimp only
    generalize hrow : ManagedEntity.mk r.entityId projectId r.entityType r.taskId r.status r.retentionClass
      (canon (.obj r.payload)) now now = row
    have hid : row.entityId = r.entityId := by rw [← hrow]
    obtain ⟨entities,hinsert⟩ := insert_of_new (a := row) (hid ▸ hget)
    refine ⟨{ s with managedEntities := entities },?_,rfl,⟨row,?_⟩,fun id hother => ?_⟩
    · rw [hinsert]
      rfl
    · exact (get_insert hinsert _).trans (if_pos hid)
    · exact (get_insert hinsert _).trans (if_neg fun hsame => hother (hsame.symm.trans hid))

theorem registerEntity_registers (projectId : String) (r : Registration) (now : String) (c : Database) :
    Registers c.working r.entityId ((registerEntity projectId r now).exec c).2.working := by
  obtain ⟨t,ht,hregisters⟩ := upsertEntity_registers projectId r now c.working
  unfold registerEntity
  rw [working_write,ht]
  exact hregisters

theorem sealSegment_working (segmentId now : String) (c : Database) :
    ((sealSegment segmentId now).exec c).2.working = { c.working with
      auditSegments := c.working.auditSegments.change (·.sealIf segmentId now) (AuditSegment.sealIf_id segmentId now) } := by
  unfold sealSegment
  rw [working_write]

theorem executeCompaction_effect (rt : Runtime) (projectId : String) (revision : Int) (fault : Option FaultStage)
    (clock : CompactionClock) (c : Database) :
    Untouched c.working ((executeCompaction rt projectId revision fault clock).exec c).2.working ∨
      Untouched (c.working.prune projectId (c.working.sealedSegments projectId))
        ((executeCompaction rt projectId revision fault clock).exec c).2.working :=
  (executeCompaction_cases rt projectId revision fault clock c).effect

end Bdb.Retention
