import Bdb.Project.PlanDiffs

/-! # Comparing the old and the new project memory

The importer copies eight collections of a version 1 document into the tables of the
version 2 store. The comparator looks at six of them: at their identities, and at the
titles of five; its verdict says nothing about the rest.
-/
namespace Bdb.Migration

open List
open Project (strings sortedTexts)

inductive EntityKind where
  | tasks
  | decisions
  | inbox
  | risks
  | debts
  | attentions
  | checkpoints
  | events
deriving DecidableEq

namespace EntityKind

/-- The collection of the version 1 document. -/
def v1Key : EntityKind → String
  | .tasks => "tasks"
  | .decisions => "decisions"
  | .inbox => "inbox"
  | .risks => "risks"
  | .debts => "debts"
  | .attentions => "attentions"
  | .checkpoints => "checkpoints"
  | .events => "events"

def tableName : EntityKind → String
  | .tasks => "tasks"
  | .decisions => "decisions"
  | .inbox => "inbox_items"
  | .risks => "risks"
  | .debts => "technical_debt"
  | .attentions => "attention_items"
  | .checkpoints => "checkpoints"
  | .events => "audit_events"

def idField : EntityKind → String
  | .tasks => "task_id"
  | .decisions => "decision_id"
  | .inbox => "inbox_id"
  | .risks => "risk_id"
  | .debts => "debt_id"
  | .attentions => "attention_id"
  | .checkpoints => "checkpoint_id"
  | .events => "event_id"

/-- The statuses a table admits, and the one that stands for all others. -/
def statuses : EntityKind → List String × String
  | .tasks => (["pending","active","review","completed","blocked","skipped"],"pending")
  | .decisions => (["active","superseded","draft"],"active")
  | .inbox => (["new","processed","dismissed","discuss","later","accepted","rejected","resolved"],"new")
  | .risks => (["open","resolved","mitigated","accepted"],"open")
  | .debts => (["open","resolved","wontfix","planned","accepted"],"open")
  | .attentions => (["open","resolved"],"open")
  | .checkpoints => ([],"")
  | .events => ([],"")

/-- The tables whose titles are compared, in the order of the comparison. -/
def titled : List EntityKind := [.decisions,.inbox,.risks,.debts,.attentions]

end EntityKind

/-- One row of a version 2 table; a column that the table lacks is empty. -/
structure Entity where
  title : String
  description : String
  status : String
deriving DecidableEq

/-- The rows of one project in the version 2 store. -/
structure ShadowStore where
  projectExists : Bool
  rows : EntityKind → Dict Entity

section Reading
variable (rt : Runtime)

/-! ## The records of the version 1 document, as the importer reads them -/

/-- The text of the first field that is not empty. -/
def firstOf (item : Fields) (keys : List String) : Option String :=
  ((keys.map item.get).find? Json.truthy).map rt.str

def textOf (item : Fields) (keys : List String) (default : String) : String :=
  (firstOf rt item keys).getD default

def statusOf (kind : EntityKind) (item : Fields) : String :=
  let status := rt.lower (textOf rt item ["status"] kind.statuses.2)
  if status ∈ kind.statuses.1 then status else kind.statuses.2

def entityOf (kind : EntityKind) (identity : String) (item : Fields) : Entity :=
  let title := textOf rt item ["title"] identity
  let status := statusOf rt kind item
  match kind with
  | .tasks => ⟨"","",status⟩
  | .decisions => ⟨title,textOf rt item ["decision","summary"] title,status⟩
  | .checkpoints => ⟨textOf rt item ["title","label"] identity,textOf rt item ["summary"] "",status⟩
  | .events =>
    let eventType := textOf rt item ["event_type"] "EVENT"
    ⟨eventType,textOf rt item ["summary"] eventType,status⟩
  | _ => ⟨title,textOf rt item ["description"] "",status⟩

/-- A collection is a list, or a mapping whose keys do not count. -/
def itemsOf : Json → List Json
  | .obj fs => fs.map (·.2)
  | .arr xs => xs
  | _ => []

/-- The records that name themselves. -/
def identified (kind : EntityKind) (items : List Json) : List (String × Fields) :=
  items.filterMap (fun it => match it with
    | .obj fs => (firstOf rt fs [kind.idField,"id"]).map (fun i => (i,fs))
    | _ => none)

/-- An event without a name is named by its place. -/
def identifiedEvents (items : List Json) : List (String × Fields) :=
  items.zipIdx.filterMap (fun p => match p.1 with
    | .obj fs => some (textOf rt fs ["event_id","id"] ("ev_" ++ (p.2 + 1).repr),fs)
    | _ => none)

def v1Items (v1 : Fields) (kind : EntityKind) : List Json := itemsOf (v1.getOr kind.v1Key (.arr []))

/-- The tasks of the plan, or else those of the document. -/
def v1Tasks (v1 : Fields) : Outcome (List Json) := do
  let plan := if (v1.get "plan").truthy = true then v1.get "plan"
    else if (v1.get "current_plan").truthy = true then v1.get "current_plan" else .obj []
  match plan with
  | .obj fs =>
    let tasks := Fields.getOr fs "tasks" (.arr [])
    Json.elements (if tasks.truthy = true then tasks else v1.getOr "tasks" (.arr []))
  | _ => fail "AttributeError" "object has no attribute 'get'"

def v1Records (v1 : Fields) (tasks : List Json) : EntityKind → List (String × Fields)
  | .tasks => (identified rt .tasks tasks).filter (fun p => p.1 ≠ "")
  | .events => identifiedEvents rt (v1Items v1 .events)
  | kind => (identified rt kind (v1Items v1 kind)).filter (fun p => p.1 ≠ "")

/-! ## The comparison -/

inductive DiffKind where
  | missingInV2
  | attributeMismatch
deriving DecidableEq

structure LogicalDiffItem where
  entityType : String
  entityId : Json
  diffKind : DiffKind
  message : String
deriving DecidableEq

structure ShadowComparisonReport where
  projectId : String
  isEquivalent : Bool
  v1LogicalDigest : String
  v2LogicalDigest : String
  differences : List LogicalDiffItem

/-- A dictionary as the loop builds it: a repeated key keeps its place and takes the new value. -/
def dictOf (items : List (String × Fields)) : List (String × Fields) :=
  items.foldl (fun d p => if p.1 ∈ d.map (·.1) then d.map (fun q => if q.1 = p.1 then p else q)
    else d ++ [p]) []

/-- Titles are compared without regard to case, and only where both are given. -/
def titlesDiffer (item : Fields) (row : Entity) : Bool :=
  let a := rt.lower (rt.str (item.getOr "title" (.str "")))
  let b := rt.lower row.title
  a ≠ "" && b ≠ "" && a ≠ b

def compareTable (v1 : Fields) (store : ShadowStore) (kind : EntityKind) : List LogicalDiffItem :=
  (dictOf (identified rt kind (v1Items v1 kind))).flatMap (fun p =>
    match (store.rows kind).lookup p.1 with
    | none => [⟨kind.tableName,.str p.1,.missingInV2,"Item missing in v2 table " ++ kind.tableName⟩]
    | some row => if titlesDiffer rt p.2 row = true
        then [⟨kind.tableName,.str p.1,.attributeMismatch,"Mismatch on title"⟩] else [])

/-- Lists and mappings cannot be keys of a dictionary. -/
def hashable : Json → Bool
  | .arr _ => false
  | .obj _ => false
  | _ => true

/-- The keys of the dictionary of tasks: only a task with a `task_id` is in it. -/
def taskKeys (tasks : List Json) : Outcome (List Json) := do
  let keys := tasks.filterMap (fun t => t.fields.lookup "task_id")
  require (∀ k ∈ keys, hashable k = true) "TypeError" "unhashable type"
  pure keys.eraseDups

def isText : Json → Bool
  | .str _ => true
  | _ => false

def number : Json → Option Int
  | .int n => some n
  | .bool b => some (if b = true then 1 else 0)
  | _ => none

def keyLe : Json → Json → Bool
  | .str a, .str b => decide (a ≤ b)
  | a, b => decide ((number a).getD 0 ≤ (number b).getD 0)

/-- Keys of different kinds cannot be sorted. -/
def sortKeys (keys : List Json) : Outcome (List Json) := do
  require (keys.length ≤ 1 ∨ (∀ k ∈ keys, isText k = true) ∨ ∀ k ∈ keys, (number k).isSome = true) "TypeError"
    "'<' not supported between instances"
  pure (keys.insertionSort (fun a b => keyLe a b = true))

def missingTasks (store : ShadowStore) (keys : List Json) : List LogicalDiffItem :=
  (keys.filter (fun k => k ∉ (store.rows .tasks).keys.map .str)).map (fun k =>
    ⟨"tasks",k,.missingInV2,"Task missing in v2"⟩)

/-- What the digests are taken of. -/
def logical (projectId : String) (tasks : List Json) (ids : EntityKind → List String) : Json :=
  .obj (("project_id",.str projectId) :: ("tasks",.arr tasks) ::
    EntityKind.titled.map (fun kind => (kind.v1Key,strings (sortedTexts (ids kind)))))

def v1Logical (projectId : String) (v1 : Fields) (sorted : List Json) : Json :=
  logical projectId sorted (fun kind => (v1Records rt v1 [] kind).map (·.1))

def v2Logical (projectId : String) (store : ShadowStore) : Json :=
  logical projectId ((sortedTexts (store.rows .tasks).keys).map .str) (fun kind => (store.rows kind).keys)

def canonicalDigest (j : Json) : String := rt.sha256 (Json.text (Json.canon j))

def compare (v1 : Fields) (store : ShadowStore) (projectId : String) : Outcome ShadowComparisonReport := do
  let tasks ← v1Tasks v1
  let keys ← taskKeys tasks
  let differences :=
    (if store.projectExists = true then [] else
      [⟨"projects",.str projectId,.missingInV2,"Project missing in v2"⟩]) ++
    EntityKind.titled.flatMap (compareTable rt v1 store) ++ missingTasks store keys
  let sorted ← sortKeys keys
  let v1Digest := canonicalDigest rt (v1Logical rt projectId v1 sorted)
  let v2Digest := canonicalDigest rt (v2Logical projectId store)
  pure ⟨projectId,differences.isEmpty && v1Digest == v2Digest,v1Digest,v2Digest,differences⟩

end Reading

/-! ## What the verdict should mean -/

section Meaning
variable (rt : Runtime) (v1 : Fields) (tasks keys : List Json) (store : ShadowStore)

/-- One collection is the same on both sides: its identities, and every shared record. -/
structure Agrees (kind : EntityKind) : Prop where
  identities : ∀ i, i ∈ (v1Records rt v1 tasks kind).map (·.1) ↔ ((store.rows kind).lookup i).isSome = true
  records : ∀ p ∈ v1Records rt v1 tasks kind, ∀ row, (store.rows kind).lookup p.1 = some row →
    entityOf rt kind p.1 p.2 = row

/-- Everything the comparator looks at agrees. -/
structure LooksEqual : Prop where
  project : store.projectExists = true
  tasks : keys.Perm ((store.rows .tasks).keys.map .str)
  identities : ∀ kind ∈ EntityKind.titled, ((v1Records rt v1 [] kind).map (·.1)).Perm (store.rows kind).keys
  titles : ∀ kind ∈ EntityKind.titled, ∀ p ∈ dictOf (identified rt kind (v1Items v1 kind)),
    ∃ row, (store.rows kind).lookup p.1 = some row ∧ titlesDiffer rt p.2 row = false

/-- What the comparator does not look at agrees: three whole collections, and the titles as
they are spelled, descriptions and statuses of the others. -/
structure UnseenAgrees : Prop where
  taskRows : Agrees rt v1 tasks store .tasks
  checkpoints : Agrees rt v1 tasks store .checkpoints
  events : Agrees rt v1 tasks store .events
  records : ∀ kind ∈ EntityKind.titled, ∀ p ∈ v1Records rt v1 tasks kind, ∀ row,
    (store.rows kind).lookup p.1 = some row → entityOf rt kind p.1 p.2 = row

end Meaning

section Verdict
variable {rt : Runtime} {projectId : String} {v1 : Fields} {tasks keys sorted : List Json} {store : ShadowStore}

variable {kind : EntityKind} {bs : List String}

theorem compareTable_eq_nil : compareTable rt v1 store kind = [] ↔
    ∀ p ∈ dictOf (identified rt kind (v1Items v1 kind)),
      ∃ row, (store.rows kind).lookup p.1 = some row ∧ titlesDiffer rt p.2 row = false := by
  rw [compareTable,flatMap_eq_nil_iff]
  refine forall₂_congr fun p _ => ?_
  cases (store.rows kind).lookup p.1 with
  | none => simp
  | some row => cases h : titlesDiffer rt p.2 row <;> simp [h]

theorem missingTasks_eq_nil : missingTasks store keys = [] ↔
    ∀ k ∈ keys, k ∈ (store.rows .tasks).keys.map Json.str := by
  rw [missingTasks,map_eq_nil_iff,filter_eq_nil_iff]
  simp

theorem canonList_eq_texts {xs : List Json} {ys : List String} :
    Json.canonList xs = ys.map .str ↔ xs = ys.map .str := by
  induction xs generalizing ys with
  | nil => cases ys <;> simp [Json.canonList]
  | cons x xs ih =>
    cases ys with
    | nil => simp [Json.canonList]
    | cons y ys => simp only [Json.canonList,map_cons,List.cons.injEq,Json.canon_eq_str,ih]

theorem canon_strings (xs : List String) : Json.canon (strings xs) = strings xs := by
  rw [strings,Json.canon]
  exact congrArg Json.arr (canonList_eq_texts.mpr rfl)

theorem titled_lookup {ids : EntityKind → List String} (h : kind ∈ EntityKind.titled) :
    List.lookup kind.v1Key (("project_id",Json.str projectId) :: ("tasks",.arr tasks) ::
      EntityKind.titled.map (fun kind => (kind.v1Key,strings (sortedTexts (ids kind))))) =
      some (strings (sortedTexts (ids kind))) := by
  simp only [EntityKind.titled,mem_cons,not_mem_nil,or_false] at h
  rcases h with rfl | rfl | rfl | rfl | rfl <;>
    simp [EntityKind.titled,EntityKind.v1Key,Json.lookup_cons_ite]

/-- Two sides with the same canonical text list the same tasks and identities. -/
theorem logical_eq_of_text {as : List Json} {ids jds : EntityKind → List String}
    (h : Json.text (Json.canon (logical projectId as ids)) =
      Json.text (Json.canon (logical projectId ((sortedTexts bs).map .str) jds))) :
    as = (sortedTexts bs).map .str ∧ ∀ kind ∈ EntityKind.titled, (ids kind).Perm (jds kind) := by
  have hcanon : Json.canon (logical projectId as ids) =
      Json.canon (logical projectId ((sortedTexts bs).map .str) jds) :=
    Json.canon_eq_of_canonicalText (congrArg (· ++ ['\n']) h)
  have hat := Json.lookup_of_canon_obj hcanon
  refine ⟨?_,fun kind hkind => ?_⟩
  · have htasks := hat "tasks"
    simp only [Json.lookup_cons_ite] at htasks
    simp only [String.reduceEq,if_false,if_true,Option.map_some,Option.some.injEq,
      Json.canon,Json.arr.injEq] at htasks
    exact canonList_eq_texts.mp (htasks.trans (canonList_eq_texts.mpr rfl))
  · have hkey := hat kind.v1Key
    rw [titled_lookup hkind,titled_lookup hkind,Option.map_some,Option.map_some,Option.some.injEq,
      canon_strings,canon_strings,Project.strings_inj] at hkey
    exact Project.sortedTexts_eq_iff.mp hkey

theorem sortKeys_texts (h : sortKeys keys = .ok sorted) :
    sorted = (sortedTexts bs).map .str ↔ keys.Perm (bs.map .str) := by
  obtain ⟨_,h⟩ := rest_ok h
  obtain rfl := pure_ok.mp h
  have hsort : ∀ as : List String, (as.map Json.str).insertionSort (fun a b => keyLe a b = true) =
      (sortedTexts as).map .str := by
    intro as
    refine (map_insertionSort _ _ _ _ fun a _ b _ => ?_).symm
    simp [keyLe]
  constructor
  · intro heq
    have hperm := perm_insertionSort (fun a b => keyLe a b = true) keys
    rw [heq] at hperm
    exact hperm.symm.trans ((perm_insertionSort _ _).map _)
  · intro hperm
    let text : Json → String := fun k => match k with
      | .str s => s
      | _ => ""
    have htexts : keys = (keys.map text).map .str := by
      rw [List.map_map]
      refine (map_id' keys).symm.trans (map_congr_left fun k hk => ?_)
      obtain ⟨s,-,rfl⟩ := mem_map.mp (hperm.mem_iff.mp hk)
      rfl
    have hsame : (keys.map text).Perm bs := by
      have hmap := hperm.map text
      rw [List.map_map] at hmap
      have hid : bs.map (text ∘ Json.str) = bs := map_id' bs
      rwa [hid] at hmap
    rw [htexts,hsort,Project.sortedTexts_eq_iff.mpr hsame]

/-- The comparator calls two sides equivalent exactly when all it looks at agrees. -/
theorem isEquivalent_iff {report : ShadowComparisonReport} (htasks : v1Tasks v1 = .ok tasks)
    (hkeys : taskKeys tasks = .ok keys) (hsorted : sortKeys keys = .ok sorted)
    (hreport : compare rt v1 store projectId = .ok report)
    (hdistinct : canonicalDigest rt (v1Logical rt projectId v1 sorted) =
        canonicalDigest rt (v2Logical projectId store) →
      Json.text (Json.canon (v1Logical rt projectId v1 sorted)) =
        Json.text (Json.canon (v2Logical projectId store))) :
    report.isEquivalent = true ↔ LooksEqual rt v1 keys store := by
  unfold compare at hreport
  rw [htasks,ok_bind,hkeys,ok_bind,hsorted,ok_bind] at hreport
  obtain rfl := pure_ok.mp hreport
  simp only [Bool.and_eq_true,List.isEmpty_iff,beq_iff_eq,append_eq_nil_iff,flatMap_eq_nil_iff,
    compareTable_eq_nil,missingTasks_eq_nil]
  constructor
  · rintro ⟨⟨⟨hproject,htitles⟩,-⟩,hdigest⟩
    obtain ⟨hsame,hids⟩ := logical_eq_of_text (hdistinct hdigest)
    refine ⟨?_,(sortKeys_texts hsorted).mp hsame,hids,htitles⟩
    by_contra hno
    simp [hno] at hproject
  · rintro ⟨hproject,hperm,hids,htitles⟩
    refine ⟨⟨⟨if_pos hproject,htitles⟩,fun k hk => hperm.mem_iff.mp hk⟩,?_⟩
    have hlogical : v1Logical rt projectId v1 sorted = v2Logical projectId store := by
      unfold v1Logical v2Logical logical
      rw [(sortKeys_texts hsorted).mpr hperm]
      have hlists : ∀ kind ∈ EntityKind.titled,
          (kind.v1Key,strings (sortedTexts ((v1Records rt v1 [] kind).map (·.1)))) =
            (kind.v1Key,strings (sortedTexts (store.rows kind).keys)) := by
        intro kind hkind
        rw [Project.sortedTexts_eq_iff.mpr (hids kind hkind)]
      rw [map_congr_left hlists]
    rw [hlogical]

theorem records_titled (h : kind ∈ EntityKind.titled) :
    v1Records rt v1 tasks kind = v1Records rt v1 [] kind := by
  simp only [EntityKind.titled,mem_cons,not_mem_nil,or_false] at h
  rcases h with rfl | rfl | rfl | rfl | rfl <;> rfl

/-- The verdict is right exactly when something it looks at differs, or nothing that it
does not look at does. -/
theorem comparison_sound_iff {report : ShadowComparisonReport} (htasks : v1Tasks v1 = .ok tasks)
    (hkeys : taskKeys tasks = .ok keys) (hsorted : sortKeys keys = .ok sorted)
    (hreport : compare rt v1 store projectId = .ok report)
    (hdistinct : canonicalDigest rt (v1Logical rt projectId v1 sorted) =
        canonicalDigest rt (v2Logical projectId store) →
      Json.text (Json.canon (v1Logical rt projectId v1 sorted)) =
        Json.text (Json.canon (v2Logical projectId store))) :
    (report.isEquivalent = true → ∀ kind, Agrees rt v1 tasks store kind) ↔
      (LooksEqual rt v1 keys store → UnseenAgrees rt v1 tasks store) := by
  rw [isEquivalent_iff htasks hkeys hsorted hreport hdistinct]
  constructor
  · intro h hlooks
    have hall := h hlooks
    exact ⟨hall .tasks,hall .checkpoints,hall .events,fun kind _ => (hall kind).records⟩
  · intro h hlooks kind
    have hunseen := h hlooks
    have htitled : kind ∈ EntityKind.titled → Agrees rt v1 tasks store kind := by
      intro hkind
      refine ⟨fun i => ?_,hunseen.records kind hkind⟩
      rw [records_titled hkind,(hlooks.identities kind hkind).mem_iff,AList.lookup_isSome,AList.mem_keys]
    cases kind with
    | tasks => exact hunseen.taskRows
    | checkpoints => exact hunseen.checkpoints
    | events => exact hunseen.events
    | _ => exact htitled (by decide)

end Verdict

/-! ## A status that nobody compares -/

def sampleV1 : Fields :=
  [("decisions",.arr [.obj [("id",.str "d1"),("title",.str "Use a file"),("status",.str "superseded")]])]

/-- The decision was imported, and its status changed since. -/
def sampleStore (status : String) : ShadowStore :=
  ⟨true,fun kind => if kind = .decisions then AList.singleton "d1" ⟨"Use a file","Use a file",status⟩ else ∅⟩

theorem changed_status_equivalent :
    (∃ report, compare Project.sampleRuntime sampleV1 (sampleStore "active") "p1" = .ok report ∧
      report.isEquivalent = true) ∧
      ¬ Agrees Project.sampleRuntime sampleV1 [] (sampleStore "active") .decisions := by
  refine ⟨⟨_,rfl,?_⟩,fun h => ?_⟩
  · decide +kernel
  · have hrow := h.records ("d1",[("id",.str "d1"),("title",.str "Use a file"),("status",.str "superseded")])
      (by decide +kernel) ⟨"Use a file","Use a file","active"⟩ (by decide +kernel)
    revert hrow
    decide +kernel

theorem comparison_sound_iff_changed :
    ∃ report, compare Project.sampleRuntime sampleV1 (sampleStore "active") "p1" = .ok report ∧
      ((report.isEquivalent = true → ∀ kind, Agrees Project.sampleRuntime sampleV1 [] (sampleStore "active") kind) ↔
        (LooksEqual Project.sampleRuntime sampleV1 [] (sampleStore "active") →
          UnseenAgrees Project.sampleRuntime sampleV1 [] (sampleStore "active"))) :=
  ⟨_,rfl,comparison_sound_iff rfl rfl rfl rfl (fun _ => by decide +kernel)⟩

end Bdb.Migration
