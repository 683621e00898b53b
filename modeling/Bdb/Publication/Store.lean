import Bdb.Base.Interleaving
import Bdb.Base.Outcome

/-! # Publications and their consumers

Publications, the bindings of consumers to them, the cursors of consumers and the witnesses of presentations are
tables of one database. A call reads them statement by statement and changes them in one write transaction.
-/
namespace Bdb.Publication

/-! ## Tables -/

structure ContentRef where
  rawDigest : String
  size : ℕ
deriving DecidableEq

/-- What a publication is about. -/
structure Identity where
  taskId : String
  workId : String
  intentRevisionId : String
  resultRef : ContentRef
  candidateId : Option String
  candidateViewId : Option String
  evidenceId : Option String
  evaluationId : Option String
  dispositionId : Option String
deriving DecidableEq

inductive ConsumerKind where
  | browser
  | operator
deriving DecidableEq

/-- A consumer of one generation. A browser names its conversation. -/
structure Consumer where
  consumerId : String
  kind : ConsumerKind
  conversationId : Option String
  profileId : Option String
  generation : String
  conversation : kind = .browser → conversationId ≠ none
deriving DecidableEq

structure PublicationRecord where
  publicationId : String
  requestId : String
  identity : Identity
  consumer : Consumer
  sequence : ℕ
deriving DecidableEq

inductive Presentation where
  | presented
  | unknown
deriving DecidableEq

structure ConsumerBinding where
  bindingId : String
  publicationId : String
  consumer : Consumer
  intentRevisionId : String
  cursorSequence : ℕ
  cursorPublicationId : Option String
  presentation : Presentation
  presentationReason : Option String
  witnessId : Option String
deriving DecidableEq

structure BindingIdentity where
  publicationId : String
  consumer : Consumer
  intentRevisionId : String

structure WitnessIdentity where
  publicationId : String
  consumerId : String
  conversationId : String
  profileId : Option String
  marker : String
  resultDigest : String

structure PresentationWitness where
  witnessId : String
  bindingId : String
  identity : WitnessIdentity

structure Cursor where
  sequence : ℕ
  publicationId : Option String
deriving DecidableEq

/-- The digests of the identities. -/
structure Digests where
  publication : Identity → String
  binding : BindingIdentity → String
  witness : WitnessIdentity → String

structure Database where
  publications : List PublicationRecord
  bindings : List ConsumerBinding
  /-- The cursor of a consumer in a generation. -/
  cursors : String → String → Option Cursor
  witnesses : List PresentationWitness

def Database.empty : Database := ⟨[],[],fun _ _ => none,[]⟩

namespace Database

variable (db : Database)

def get (publicationId : String) : Option PublicationRecord :=
  db.publications.find? (·.publicationId == publicationId)

def requestOwner (requestId : String) : Option String :=
  (db.publications.find? (·.requestId == requestId)).map (·.publicationId)

def getBinding (publicationId consumerId generation : String) : Option ConsumerBinding :=
  db.bindings.find? fun b =>
    b.publicationId == publicationId && b.consumer.consumerId == consumerId && b.consumer.generation == generation

def isBound (consumerId generation : String) (p : PublicationRecord) : Bool :=
  (db.getBinding p.publicationId consumerId generation).isSome

def firstPending (consumerId generation : String) (sequence : ℕ) : Option PublicationRecord :=
  ((db.publications.filter fun p => db.isBound consumerId generation p && decide (sequence < p.sequence)).insertionSort
    fun a b => a.sequence ≤ b.sequence).head?

def nextSequence : ℕ := (db.publications.map (·.sequence)).foldr max 0 + 1

/-- The keys of a new binding are free. -/
def admitsBinding (b : ConsumerBinding) : Bool :=
  (db.getBinding b.publicationId b.consumer.consumerId b.consumer.generation).isNone &&
    db.bindings.all fun x => x.bindingId != b.bindingId

def setCursor (consumerId generation : String) (c : Cursor) : Database :=
  { db with cursors := fun x g => if x = consumerId ∧ g = generation then some c else db.cursors x g }

def insertBinding (b : ConsumerBinding) : Database :=
  let bound := { db with bindings := db.bindings ++ [b] }
  match db.cursors b.consumer.consumerId b.consumer.generation with
  | some _ => bound
  | none => bound.setCursor b.consumer.consumerId b.consumer.generation ⟨b.cursorSequence,none⟩

/-- Changes the binding with an identifier. -/
def updateBinding (bindingId : String) (f : ConsumerBinding → ConsumerBinding) : Database :=
  { db with bindings := db.bindings.map fun b => if b.bindingId = bindingId then f b else b }

end Database

/-! ## Calls -/

/-- The arguments of `publish`. The last three say how the rest of the system answers: the two checks of the lineage with
the store of the content, and the write lock. -/
structure PublishRequest where
  requestId : String
  identity : Identity
  consumer : Consumer
  applicable : Bool
  stillApplicable : Bool
  busy : Bool

/-- The arguments of `observe_presentation`; `captured` says that the captured evidence shows the exact result. -/
structure Observation where
  publicationId : String
  consumerId : String
  generation : String
  conversationId : String
  profileId : Option String
  marker : String
  resultDigest : String
  composerPreserved : Bool
  captured : Bool
  busy : Bool

variable (dg : Digests)

def Identity.publicationId (i : Identity) : String := dg.publication i

def newBinding (p : PublicationRecord) (c : Consumer) : ConsumerBinding where
  bindingId := dg.binding ⟨p.publicationId,c,p.identity.intentRevisionId⟩
  publicationId := p.publicationId
  consumer := c
  intentRevisionId := p.identity.intentRevisionId
  cursorSequence := p.sequence - 1
  cursorPublicationId := none
  presentation := .unknown
  presentationReason := none
  witnessId := none

def PublishRequest.matches (r : PublishRequest) (p : PublicationRecord) : Bool :=
  p.publicationId = r.identity.publicationId dg && p.identity.resultRef = r.identity.resultRef && p.consumer = r.consumer

/-- How a publish transaction ends. -/
inductive Publishing where
  | replayed (p : PublicationRecord)
  | requestConflict
  | found (p : PublicationRecord)
  | refused
  | integrity
  | committed

def Database.publish (r : PublishRequest) (db : Database) : Database × Publishing :=
  match db.requestOwner r.requestId with
  | some id =>
    match db.get id with
    | some p => (db,if r.matches dg p then .replayed p else .requestConflict)
    | none => (db,.requestConflict)
  | none =>
    match db.get (r.identity.publicationId dg) with
    | some p => (db,.found p)
    | none =>
      if r.stillApplicable = false then (db,.refused)
      else
        let p : PublicationRecord := ⟨r.identity.publicationId dg,r.requestId,r.identity,r.consumer,db.nextSequence⟩
        let b := newBinding dg p r.consumer
        if db.admitsBinding b then
          ({ db with publications := db.publications ++ [p] }.insertBinding b,.committed)
        else (db,.integrity)

def Database.bind (p : PublicationRecord) (c : Consumer) (db : Database) : Database × Bool :=
  let b := newBinding dg p c
  if db.admitsBinding b then (db.insertBinding b,true) else (db,false)

def Database.acknowledge (p : PublicationRecord) (b : ConsumerBinding) (consumerId generation : String) (db : Database) :
    Database :=
  let moved := match db.cursors consumerId generation with
    | some _ => db.setCursor consumerId generation ⟨p.sequence,some p.publicationId⟩
    | none => db
  moved.updateBinding b.bindingId fun x => { x with cursorSequence := p.sequence, cursorPublicationId := some p.publicationId }

/-- Stores a witness and names it in the binding, whatever the binding holds now. -/
def Database.witness (w : PresentationWitness) (db : Database) : Database × Bool :=
  if db.witnesses.any fun x => x.witnessId == w.witnessId then (db,false)
  else
    ({ db with witnesses := db.witnesses ++ [w] }.updateBinding w.bindingId fun x =>
      { x with presentation := .presented, presentationReason := none, witnessId := some w.witnessId },true)

def Database.markUnknown (publicationId consumerId generation reason : String) (db : Database) :
    Database × Option ConsumerBinding :=
  match db.getBinding publicationId consumerId generation with
  | none => (db,none)
  | some b =>
    if b.presentation = .presented then (db,some b)
    else (db.updateBinding b.bindingId fun x => { x with presentation := .unknown, presentationReason := some reason },some b)

/-- A statement outside of a transaction, or a whole write transaction. -/
inductive PublicationRequest where
  | requestOwner (requestId : String)
  | get (publicationId : String)
  | identity (r : PublishRequest)
  | getBinding (publicationId consumerId generation : String)
  | cursor (consumerId generation : String)
  | firstPending (consumerId generation : String) (sequence : ℕ)
  | publish (r : PublishRequest)
  | bind (p : PublicationRecord) (c : Consumer)
  | acknowledge (p : PublicationRecord) (b : ConsumerBinding) (consumerId generation : String)
  | witness (w : PresentationWitness)
  | markUnknown (publicationId consumerId generation reason : String)

namespace PublicationRequest

def Answer : PublicationRequest → Type
  | requestOwner _ => Option String
  | get _ => Option PublicationRecord
  | identity _ => Option PublicationRecord
  | getBinding _ _ _ => Option ConsumerBinding
  | cursor _ _ => Option Cursor
  | firstPending _ _ _ => Option PublicationRecord
  | publish _ => Publishing
  | bind _ _ => Bool
  | acknowledge _ _ _ _ => Unit
  | witness _ => Bool
  | markUnknown _ _ _ _ => Option ConsumerBinding

def perform : (q : PublicationRequest) → Database → Database × q.Answer
  | requestOwner requestId, db => (db,db.requestOwner requestId)
  | get id, db => (db,db.get id)
  | identity r, db => (db,db.get (r.identity.publicationId dg))
  | getBinding p c g, db => (db,db.getBinding p c g)
  | cursor c g, db => (db,db.cursors c g)
  | firstPending c g n, db => (db,db.firstPending c g n)
  | publish r, db => db.publish dg r
  | bind p c, db => db.bind dg p c
  | acknowledge p b c g, db => (db.acknowledge p b c g,())
  | witness w, db => db.witness w
  | markUnknown p c g reason, db => db.markUnknown p c g reason

end PublicationRequest

abbrev PublicationScript := Script PublicationRequest PublicationRequest.Answer

def ask (q : PublicationRequest) : PublicationScript q.Answer := Script.request q

/-- What a call gives back. -/
inductive Result where
  | failed (code : String)
  | published (requestId publicationId : String)
  | bound (b : ConsumerBinding)
  | received (p : Option PublicationRecord)

def bindThen (publicationId : String) (c : Consumer) (busy : Bool) (onBound : ConsumerBinding → Result) :
    PublicationScript Result := do
  match ← ask (.get publicationId) with
  | none => return .failed "publication_missing"
  | some p =>
    match ← ask (.getBinding publicationId c.consumerId c.generation) with
    | some existing => return if existing.consumer = c then onBound existing else .failed "consumer_binding_conflict"
    | none =>
      if busy then return .failed "database_busy"
      else
        let inserted : Bool ← ask (.bind p c)
        match ← ask (.getBinding publicationId c.consumerId c.generation) with
        | some b => return if inserted ∨ b.consumer = c then onBound b else .failed "consumer_binding_conflict"
        | none => return .failed "consumer_binding_conflict"

/-- A request that is stored already: the same inputs get the stored publication again. -/
def replay (r : PublishRequest) (id : String) : PublicationScript Result := do
  match ← ask (.get id) with
  | some p => return if r.matches dg p then .published r.requestId p.publicationId else .failed "publication_request_conflict"
  | none => return .failed "publication_request_conflict"

/-- A publication that is stored already is returned once its consumer is bound. -/
def adopt (r : PublishRequest) (p : PublicationRecord) : PublicationScript Result :=
  if p.identity.resultRef = r.identity.resultRef then
    bindThen p.publicationId r.consumer r.busy fun _ => .published r.requestId p.publicationId
  else .done (.failed "publication_conflict")

def publish (r : PublishRequest) : PublicationScript Result := do
  match ← ask (.requestOwner r.requestId) with
  | some id => replay dg r id
  | none =>
    match ← ask (.identity r) with
    | some p => adopt r p
    | none =>
      if r.applicable = false then return .failed "lineage"
      else if r.busy then return .failed "database_busy"
      else
        match ← ask (.publish r) with
        | .replayed p => return .published r.requestId p.publicationId
        | .requestConflict => return .failed "publication_request_conflict"
        | .found p => adopt r p
        | .refused => return .failed "lineage"
        | .committed => return .published r.requestId (r.identity.publicationId dg)
        | .integrity =>
          match ← ask (.requestOwner r.requestId) with
          | some id => replay dg r id
          | none => return .failed "publication_identity_conflict"

def bindConsumer (publicationId : String) (c : Consumer) (busy : Bool) : PublicationScript Result :=
  bindThen publicationId c busy .bound

def receiveNext (consumerId generation : String) : PublicationScript Result := do
  match ← ask (.cursor consumerId generation) with
  | none => return .failed "consumer_cursor_missing"
  | some c =>
    match ← ask (.firstPending consumerId generation c.sequence) with
    | none => return .received none
    | some p => return .received (← ask (.get p.publicationId))

def receiveFromCursor (consumerId generation : String) (cursorSequence : ℕ) : PublicationScript Result := do
  match ← ask (.cursor consumerId generation) with
  | none => return .failed "consumer_cursor_missing"
  | some c => if c.sequence = cursorSequence then receiveNext consumerId generation else return .failed "stale_cursor"

/-- The binding a call ends with. -/
def boundNow (publicationId consumerId generation : String) : PublicationScript Result := do
  match ← ask (.getBinding publicationId consumerId generation) with
  | some b => return .bound b
  | none => return .failed "consumer_binding_missing"

def acknowledge (consumerId generation publicationId : String) (busy : Bool) : PublicationScript Result := do
  match ← ask (.get publicationId) with
  | none => return .failed "publication_missing"
  | some p =>
    match ← ask (.getBinding publicationId consumerId generation) with
    | none => return .failed "consumer_binding_missing"
    | some b =>
      match ← ask (.cursor consumerId generation) with
      | none => return .failed "consumer_cursor_missing"
      | some c =>
        if p.sequence ≤ c.sequence then return .bound b
        else
          let first ← ask (.firstPending consumerId generation c.sequence)
          if first.map PublicationRecord.sequence ≠ some p.sequence then return .failed "cursor_gap"
          else if busy then return .failed "database_busy"
          else
            ask (.acknowledge p b consumerId generation)
            boundNow publicationId consumerId generation

def observePresentation (o : Observation) : PublicationScript Result := do
  match ← ask (.get o.publicationId) with
  | none => return .failed "publication_missing"
  | some p =>
    match ← ask (.getBinding o.publicationId o.consumerId o.generation) with
    | none => return .failed "consumer_binding_missing"
    | some b =>
      let identity : WitnessIdentity :=
        ⟨o.publicationId,b.consumer.consumerId,o.conversationId,b.consumer.profileId,o.marker,o.resultDigest⟩
      let witnessId := dg.witness identity
      if b.consumer.conversationId ≠ some o.conversationId then return .failed "wrong_conversation"
      else if b.consumer.profileId ≠ o.profileId then return .failed "wrong_profile"
      else if o.composerPreserved = false then return .failed "composer_mutation"
      else if o.resultDigest ≠ p.identity.resultRef.rawDigest then return .failed "presentation_digest_mismatch"
      else if o.captured = false then return .failed "presentation_not_observed"
      else if b.witnessId = some witnessId ∧ b.presentation = .presented then return .bound b
      else if b.witnessId ≠ none ∧ b.witnessId ≠ some witnessId then return .failed "presentation_witness_conflict"
      else if o.busy then return .failed "database_busy"
      else
        let stored : Bool ← ask (.witness ⟨witnessId,b.bindingId,identity⟩)
        if stored then boundNow o.publicationId b.consumer.consumerId b.consumer.generation
        else
          match ← ask (.getBinding o.publicationId b.consumer.consumerId b.consumer.generation) with
          | some x => return if x.witnessId = some witnessId then .bound x else .failed "presentation_witness_conflict"
          | none => return .failed "presentation_witness_conflict"

def markUnknown (publicationId consumerId generation reason : String) (busy : Bool) : PublicationScript Result := do
  if busy then return .failed "database_busy"
  else
    match ← ask (.markUnknown publicationId consumerId generation reason) with
    | none => return .failed "consumer_binding_missing"
    | some b => if b.presentation = .presented then return .bound b else boundNow publicationId consumerId generation

inductive PublicationCall where
  | publish (r : PublishRequest)
  | bindConsumer (publicationId : String) (c : Consumer) (busy : Bool)
  | receiveNext (consumerId generation : String)
  | receiveFromCursor (consumerId generation : String) (cursorSequence : ℕ)
  | acknowledge (consumerId generation publicationId : String) (busy : Bool)
  | observePresentation (o : Observation)
  | markUnknown (publicationId consumerId generation reason : String) (busy : Bool)

def PublicationCall.script : PublicationCall → PublicationScript Result
  | .publish r => Publication.publish dg r
  | .bindConsumer id c busy => Publication.bindConsumer id c busy
  | .receiveNext c g => Publication.receiveNext c g
  | .receiveFromCursor c g n => Publication.receiveFromCursor c g n
  | .acknowledge c g id busy => Publication.acknowledge c g id busy
  | .observePresentation o => Publication.observePresentation dg o
  | .markUnknown id c g reason busy => Publication.markUnknown id c g reason busy

/-- The database, what was done to it, and the calls under way. -/
abbrev PublicationState := Shared Database PublicationRequest.Answer Result

def publicationRun (moves : List (Move PublicationCall)) : PublicationState :=
  Shared.run (PublicationRequest.perform dg) (PublicationCall.script dg) (Shared.begin .empty) moves

end Bdb.Publication
