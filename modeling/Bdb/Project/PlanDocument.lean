import Mathlib
import Bdb.Project.Authority

/-! # Reading a project plan

A plan document is checked field by field: text and list bounds, the planning context,
unique identifiers, references between tasks, milestones, gates and open questions,
and the absence of cycles. What is accepted is a well-formed plan.
-/
namespace Bdb.Project

open List

/-! ## Fields -/

def planText (value : Json) (field : String) (maxLength : ℕ) : Outcome String :=
  boundedText "project_field_invalid" "project_field_too_large" value field maxLength true

def textItems (code : String) (value : Json) (field : String) (maxItems maxLength : ℕ) :
    Outcome (List String) :=
  match value with
  | .null => pure []
  | .arr xs => do
    require (xs.length ≤ maxItems) code (field ++ " must be a bounded list")
    xs.mapM (fun x => planText x (field ++ "[]") maxLength)
  | _ => fail code (field ++ " must be a bounded list")

def listOfText (value : Json) (field : String) (maxItems : ℕ) : Outcome (List String) :=
  textItems "project_field_invalid" value field maxItems 1000

def boundedTextList (value : Json) (field : String) (maxItems maxLength : ℕ) : Outcome (List String) :=
  textItems "plan_field_invalid" value field maxItems maxLength

def requireMapping (value : Json) (field : String) : Outcome Fields :=
  match value with
  | .obj fs => pure fs
  | _ => fail "plan_field_invalid" (field ++ " must be an object")

/-- The keys of a mapping, each once. -/
def keysOf (fs : Fields) : List String := (fs.map (·.1)).dedup

def hasKey (fs : Fields) (key : String) : Bool := (fs.lookup key).isSome

def rejectUnknownKeys (fs : Fields) (allowed : List String) (field : String) : Outcome Unit :=
  let unknown := sortedTexts ((keysOf fs).filter (fun k => k ∉ allowed))
  require (unknown = []) "plan_field_unknown"
    (field ++ " contains unsupported fields: " ++ ", ".intercalate unknown)

/-! ## Records of the planning context -/

def recordValue (field key : String) (value : Json) : Outcome Json :=
  if key = "interfaces" then strings <$> boundedTextList value (field ++ ".interfaces") 64 8000
  else if key = "severity" then .str <$> planText value (field ++ ".severity") 32
  else .str <$> planText value (field ++ "." ++ key) 4000

def recordItem (field : String) (required optional seen : List String) (raw : Json) (index : ℕ) :
    Outcome (String × Fields) := do
  let place := field ++ "[" ++ index.repr ++ "]"
  let item ← requireMapping raw place
  rejectUnknownKeys item (required ++ optional) place
  let missing := required.filter (fun k => !hasKey item k)
  require (missing = []) "plan_field_invalid"
    (place ++ " is missing: " ++ ", ".intercalate (sortedTexts missing))
  let identifier ← planText (item.get "id") (place ++ ".id") 96
  require (matchesId 0 95 identifier = true ∧ identifier ∉ seen) "plan_field_invalid"
    (field ++ " IDs must be unique and bounded")
  let values ← (sortedTexts ((keysOf item).filter (· ≠ "id"))).mapM (fun key => do
    let value ← recordValue place key (item.get key)
    pure (key,value))
  pure (identifier,("id",.str identifier) :: values)

def recordItems (field : String) (required optional : List String) :
    List String → ℕ → List Json → Outcome (List Fields)
  | _, _, [] => pure []
  | seen, index, raw :: rest => do
    let (identifier,item) ← recordItem field required optional seen raw index
    let items ← recordItems field required optional (identifier :: seen) (index + 1) rest
    pure (item :: items)

def recordList (value : Json) (field : String) (required optional : List String) :
    Outcome (List Fields) :=
  match value with
  | .null => pure []
  | .arr xs => do
    require (xs.length ≤ 128) "plan_field_invalid" (field ++ " must be a bounded list")
    recordItems field required optional [] 0 xs
  | _ => fail "plan_field_invalid" (field ++ " must be a bounded list")

def records (items : List Fields) : Json := .arr (items.map .obj)

/-! ## The planning context -/

def planningContextKeys : List String :=
  ["objective","requirements","scope","assumptions","decisions","open_questions","specifications",
    "architecture","test_strategy","risks","gates","acceptance_scenarios","definition_of_done"]

def decisionClassifications : List String :=
  ["architectural_decision","product_decision","scope_decision","design_decision",
    "architecture_requirement","recommended_default","domain_contract","interaction_decision","other"]

def planningSpecificationCategories : List String :=
  ["domain","data","ui","ux","validation","accessibility","performance","security","testing",
    "release","operations","other"]

def part (context : Fields) (key : String) (read : Json → Outcome Json) : Outcome Fields :=
  match context.lookup key with
  | some value => do
    let j ← read value
    pure [(key,j)]
  | none => pure []

def textPart (context : Fields) (key : String) : Outcome Fields :=
  part context key (fun v => strings <$> boundedTextList v ("planning_context." ++ key) 128 2000)

def recordPart (context : Fields) (key : String) (required optional : List String) : Outcome Fields :=
  part context key (fun v => records <$> recordList v ("planning_context." ++ key) required optional)

def textSection (context : Fields) (key : String) (names : List String) : Outcome Fields :=
  part context key (fun v => do
    let field := "planning_context." ++ key
    let fs ← requireMapping v field
    rejectUnknownKeys fs names field
    let lists ← (names.filter (hasKey fs)).mapM (fun name => do
      let xs ← boundedTextList (fs.get name) (field ++ "." ++ name) 128 2000
      pure (name,strings xs))
    pure (.obj lists))

def decisionsPart (context : Fields) : Outcome Fields :=
  part context "decisions" (fun v => do
    let items ← recordList v "planning_context.decisions" ["id","title","decision"]
      ["rationale","classification"]
    require (∀ item ∈ items, item.get "classification" = .null ∨
        item.get "classification" ∈ decisionClassifications.map Json.str) "plan_field_invalid"
      "planning_context.decisions classification is unsupported"
    pure (records items))

def specificationsPart (context : Fields) : Outcome Fields :=
  part context "specifications" (fun v => do
    let items ← recordList v "planning_context.specifications" ["id","category","title","body"] []
    require (∀ item ∈ items, item.get "category" ∈ planningSpecificationCategories.map Json.str)
      "plan_field_invalid" "planning_context.specifications category is unsupported"
    pure (records items))

def architecturePart (context : Fields) : Outcome Fields :=
  part context "architecture" (fun v => do
    let fs ← requireMapping v "planning_context.architecture"
    rejectUnknownKeys fs ["summary","components","interfaces","patterns"] "planning_context.architecture"
    let summary ← part fs "summary" (fun v =>
      .str <$> planText v "planning_context.architecture.summary" 8000)
    let components ← part fs "components" (fun v =>
      records <$> recordList v "planning_context.architecture.components"
        ["id","name","responsibility"] ["interfaces"])
    let interfaces ← part fs "interfaces" (fun v =>
      records <$> recordList v "planning_context.architecture.interfaces"
        ["id","name","responsibility"] ["interfaces"])
    let patterns ← part fs "patterns" (fun v =>
      strings <$> boundedTextList v "planning_context.architecture.patterns" 128 2000)
    pure (.obj (summary ++ components ++ interfaces ++ patterns)))

def planningContext (value : Json) : Outcome (Option Fields) :=
  match value with
  | .null => pure none
  | _ => do
    let context ← requireMapping value "planning_context"
    rejectUnknownKeys context planningContextKeys "planning_context"
    let objective ← part context "objective" (fun v =>
      .str <$> planText v "planning_context.objective" 8000)
    let requirements ← textSection context "requirements" ["functional","quality"]
    let scope ← textSection context "scope" ["in_scope","out_of_scope"]
    let assumptions ← textPart context "assumptions"
    let decisions ← decisionsPart context
    let openQuestions ← recordPart context "open_questions" ["id","question"]
      ["recommended_default","owner","deadline","blocking_effect"]
    let specifications ← specificationsPart context
    let architecture ← architecturePart context
    let testStrategy ← textSection context "test_strategy"
      ["unit","integration","e2e","manual","automation"]
    let risks ← recordPart context "risks" ["id","title","description","severity","mitigation"] []
    let gates ← recordPart context "gates" ["id","title","criteria"] []
    let scenarios ← recordPart context "acceptance_scenarios" ["id","title","given","when","then"] []
    let done ← textPart context "definition_of_done"
    pure (some (objective ++ requirements ++ scope ++ assumptions ++ decisions ++ openQuestions ++
      specifications ++ architecture ++ testStrategy ++ risks ++ gates ++ scenarios ++ done))

/-! ## Versions and timestamps -/

def digitZeros : List ℕ :=
  [0x30,0x660,0x6f0,0x7c0,0x966,0x9e6,0xa66,0xae6,0xb66,0xbe6,0xc66,0xce6,0xd66,0xde6,0xe50,0xed0,0xf20,
    0x1040,0x1090,0x17e0,0x1810,0x1946,0x19d0,0x1a80,0x1a90,0x1b50,0x1bb0,0x1c40,0x1c50,0xa620,0xa8d0,
    0xa900,0xa9d0,0xa9f0,0xaa50,0xabf0,0xff10,0x104a0,0x10d30,0x11066,0x110f0,0x11136,0x111d0,0x112f0,
    0x11450,0x114d0,0x11650,0x116c0,0x11730,0x118e0,0x11950,0x11c50,0x11d50,0x11da0,0x16a60,0x16ac0,
    0x16b50,0x1d7ce,0x1d7d8,0x1d7e2,0x1d7ec,0x1d7f6,0x1e140,0x1e2f0,0x1e950,0x1fbf0]

def digitValue (c : Char) : Option ℕ :=
  (digitZeros.find? (fun z => z ≤ c.toNat && c.toNat ≤ z + 9)).map (fun z => c.toNat - z)

def isDecimal (c : Char) : Bool := (digitValue c).isSome

def versionDigits (text : String) : Option (List Char) :=
  let digits := text.toList.takeWhile isDecimal
  let rest := text.toList.dropWhile isDecimal
  let integral := match rest with
    | [] => true
    | c :: zeros => c == '.' && !zeros.isEmpty && zeros.all (· == '0')
  if digits.isEmpty = false ∧ integral = true then some digits else none

def digitsNumber (digits : List Char) : ℕ := digits.foldl (fun n c => 10 * n + (digitValue c).getD 0) 0

def numberOrText (value : Json) (code message : String) : Outcome String :=
  match value with
  | .str s => pure (strip s)
  | .int n => pure n.repr
  | _ => fail code message

def integerVersion (value : Json) (code message : String) : Outcome String := do
  let text ← numberOrText value code message
  let _ ← need (versionDigits text) code message
  pure text

def planVersionNumber (value : Json) : Outcome ℕ := do
  let text ← integerVersion value "plan_version_invalid" "plan_version must be an integer version"
  let digits ← need (versionDigits text) "plan_version_invalid" "plan_version must be an integer version"
  -- the language refuses to convert longer texts to integers
  require (digits.length ≤ 4300) "ValueError" "Exceeds the limit for integer string conversion"
  pure (digitsNumber digits)

def version (value : Json) : Outcome String := Nat.repr <$> planVersionNumber value

theorem digitValue_of_isDigit {c : Char} (h : c.isDigit = true) :
    digitValue c = some (c.toNat - '0'.toNat) := by
  have hrange : 48 ≤ c.toNat ∧ c.toNat ≤ 57 := by
    simpa [Char.isDigit,UInt32.le_iff_toNat_le] using h
  simp [digitValue,digitZeros,hrange]

theorem versionDigits_repr (n : ℕ) : versionDigits n.repr = some (Nat.toDigits 10 n) := by
  have hdecimal : ∀ c ∈ Nat.toDigits 10 n, isDecimal c = true := by
    intro c hc
    rw [isDecimal,digitValue_of_isDigit (Nat.isDigit_of_mem_toDigits (by omega) (by omega) hc)]
    rfl
  have htake : (Nat.toDigits 10 n).takeWhile isDecimal = Nat.toDigits 10 n :=
    takeWhile_eq_self_iff.mpr hdecimal
  have hdrop : (Nat.toDigits 10 n).dropWhile isDecimal = [] := dropWhile_eq_nil_iff.mpr hdecimal
  simp [versionDigits,Nat.toList_repr,htake,hdrop,Nat.toDigits_ne_nil]

theorem digitsNumber_toDigits (n : ℕ) : digitsNumber (Nat.toDigits 10 n) = n := by
  have hfold : digitsNumber (Nat.toDigits 10 n) = Nat.ofDigitChars 10 (Nat.toDigits 10 n) 0 := by
    rw [Nat.ofDigitChars_eq_foldl]
    refine foldl_ext _ _ _ ?_
    intro a c hc
    rw [digitValue_of_isDigit (Nat.isDigit_of_mem_toDigits (by omega) (by omega) hc)]
    rfl
  rw [hfold,Nat.ofDigitChars_ten_toDigits]

variable {value document : Json} {seen milestoneIds : List String} {values : List Json}
  {rt : Runtime} {expected : Option String} {p : ProjectPlan}

theorem version_ok {v : String} (h : version value = .ok v) :
    ∃ n : ℕ, planVersionNumber value = .ok n ∧ v = n.repr := by
  unfold version at h
  cases hn : planVersionNumber value with
  | error e =>
    rw [hn] at h
    cases h
  | ok n =>
    rw [hn] at h
    exact ⟨n,rfl,(Except.ok.inj h).symm⟩

def timestamp (rt : Runtime) (value : Json) (field : String) : Outcome String := do
  let text ← planText value field 64
  require (text.toList.getLast? = some 'Z') "project_timestamp_invalid" (field ++ " must use UTC Z form")
  match rt.fromIsoFormat (String.ofList text.toList.dropLast ++ "+00:00") with
  | none => fail "project_timestamp_invalid" (field ++ " is not a timestamp")
  | some .naive => fail "project_timestamp_invalid" (field ++ " must include timezone")
  | some (.utc t) => pure t

/-- A field that may be absent. -/
def optionalValue {α : Type} (value : Json) (read : Json → Outcome α) : Outcome (Option α) :=
  match value with
  | .null => pure none
  | _ => some <$> read value

/-! ## Milestones and tasks -/

def readStatus (raw : Fields) (field : String) : Outcome TaskStatus := do
  let text ← planText (raw.getOr "status" (.str "pending")) (field ++ ".status") 16
  need (TaskStatus.ofText text) "plan_status_invalid" (field ++ " status is unsupported")

def planObject (raw : Json) (code message : String) : Outcome Fields :=
  match raw with
  | .obj fs => pure fs
  | _ => fail code message

def readMilestone (seen : List String) (value : Json) : Outcome ProjectMilestone := do
  let raw ← planObject value "plan_milestone_invalid" "milestone must be an object"
  rejectUnknownKeys raw ["id","title","description","status"] "milestone"
  let identifier ← planText (raw.get "id") "milestone.id" 96
  require (matchesId 0 95 identifier = true ∧ identifier ∉ seen) "plan_milestone_invalid"
    "milestone IDs must be unique and bounded"
  let status ← readStatus raw "milestone"
  let title ← planText (raw.get "title") "milestone.title" 300
  let description ← planText (raw.get "description") "milestone.description" 4000
  pure ⟨identifier,title,description,status⟩

def readMilestones : List String → List Json → Outcome (List ProjectMilestone)
  | _, [] => pure []
  | seen, value :: rest => do
    let milestone ← readMilestone seen value
    let milestones ← readMilestones (milestone.milestoneId :: seen) rest
    pure (milestone :: milestones)

/-- Identifiers must be safe and must not repeat. -/
def safeIds (ids : List String) : Prop := (∀ i ∈ ids, matchesId 0 95 i = true) ∧ ids.Nodup

instance (ids : List String) : Decidable (safeIds ids) := inferInstanceAs (Decidable (_ ∧ _))

def taskTexts (raw : Fields) (name : String) : Outcome (List String) :=
  boundedTextList (raw.get name) ("task." ++ name) 64 8000

def taskIds (raw : Fields) (name : String) : Outcome (List String) :=
  listOfText (raw.get name) ("task." ++ name) 64

def readTask (milestoneIds seen : List String) (value : Json) : Outcome ProjectTask := do
  let raw ← planObject value "plan_task_invalid" "task must be an object"
  rejectUnknownKeys raw (["id","milestone_id","title","description","status","dependencies",
    "acceptance_criteria"] ++ OptionalField.all.map OptionalField.key) "task"
  let identifier ← planText (raw.get "id") "task.id" 96
  let milestoneId ← planText (raw.get "milestone_id") "task.milestone_id" 96
  require (matchesId 0 95 identifier = true ∧ identifier ∉ seen ∧ milestoneId ∈ milestoneIds)
    "plan_task_invalid" "task IDs and milestone references must be valid"
  let status ← readStatus raw "task"
  let dependencies ← taskIds raw "dependencies"
  let acceptance ← taskTexts raw "acceptance_criteria"
  require (safeIds dependencies) "plan_dependency_invalid" "task dependency IDs must be safe and unique"
  let deliverables ← taskTexts raw "deliverables"
  let verification ← taskTexts raw "verification"
  let tests ← taskTexts raw "tests"
  let decisionIds ← taskIds raw "decision_ids"
  let specificationIds ← taskIds raw "specification_ids"
  let riskIds ← taskIds raw "risk_ids"
  require (safeIds decisionIds) "plan_reference_invalid"
    "task.decision_ids contains unsafe or duplicate IDs"
  require (safeIds specificationIds) "plan_reference_invalid"
    "task.specification_ids contains unsafe or duplicate IDs"
  require (safeIds riskIds) "plan_reference_invalid" "task.risk_ids contains unsafe or duplicate IDs"
  let title ← planText (raw.get "title") "task.title" 300
  let description ← planText (raw.get "description") "task.description" 4000
  pure ⟨identifier,milestoneId,title,description,status,dependencies,acceptance,deliverables,
    verification,tests,decisionIds,specificationIds,riskIds,
    OptionalField.all.filter (fun f => hasKey raw f.key)⟩

def readTasks (milestoneIds : List String) : List String → List Json → Outcome (List ProjectTask)
  | _, [] => pure []
  | seen, value :: rest => do
    let task ← readTask milestoneIds seen value
    let tasks ← readTasks milestoneIds (task.taskId :: seen) rest
    pure (task :: tasks)

/-! ## References and cycles -/

def checkDependency (taskIds gateIds questionIds : List String) (dependency : String) : Outcome Unit := do
  let kinds := [taskIds,gateIds,questionIds].countP (fun ids => dependency ∈ ids)
  require (kinds ≠ 0) "plan_dependency_missing"
    ("task dependency target does not exist: " ++ dependency)
  require (kinds ≤ 1) "plan_dependency_ambiguous"
    ("task dependency target has multiple namespaces: " ++ dependency)

/-- Walks the dependencies of a task in depth; returns the tasks that are known to lead
into no cycle. No path is longer than the number of tasks, so that much fuel is enough. -/
def visit (graph : String → List String) : ℕ → List String → List String → String → Outcome (List String)
  | 0, _, _, _ => fail "plan_dependency_cycle" "task dependency graph contains a cycle"
  | fuel + 1, visiting, visited, identifier =>
    if identifier ∈ visiting then fail "plan_dependency_cycle" "task dependency graph contains a cycle"
    else if identifier ∈ visited then pure visited
    else do
      let visited ← (graph identifier).foldlM
        (fun visited dependency => visit graph fuel (identifier :: visiting) visited dependency) visited
      pure (identifier :: visited)

def checkCycles (tasks : List ProjectTask) : Outcome Unit := do
  let ids := tasks.map (·.taskId)
  let graph := fun identifier =>
    ((tasks.find? (fun t => t.taskId == identifier)).map (fun t => t.dependencies.filter (· ∈ ids))).getD []
  let _ ← ids.foldlM (fun visited identifier => visit graph (ids.length + 1) [] visited identifier) []
  pure ()

def checkReferences (context : Option Fields) (tasks : List ProjectTask) : Outcome Unit :=
  match context with
  | some _ => tasks.forM (fun t => do
    require (∀ i ∈ t.decisionIds, i ∈ contextRecordIds context "decisions") "plan_reference_missing"
      ("task " ++ t.taskId ++ " references an unknown decision")
    require (∀ i ∈ t.specificationIds, i ∈ contextRecordIds context "specifications")
      "plan_reference_missing" ("task " ++ t.taskId ++ " references an unknown specification")
    require (∀ i ∈ t.riskIds, i ∈ contextRecordIds context "risks") "plan_reference_missing"
      ("task " ++ t.taskId ++ " references an unknown risk"))
  | none => require (∀ t ∈ tasks, t.decisionIds = [] ∧ t.specificationIds = [] ∧ t.riskIds = [])
      "plan_reference_missing" "task rich references require planning_context"

def currentTaskOf (value : Json) (tasks : List ProjectTask) : Outcome (Option String) :=
  match value with
  | .null => pure ((tasks.filter (fun t => t.status == .active)).head?.map (·.taskId))
  | _ => do
    let identifier ← planText value "current_task_id" 96
    require (identifier ∈ tasks.map (·.taskId)) "plan_current_task_missing" "current_task_id does not exist"
    pure (some identifier)

def planArrays (value : Fields) : Outcome (List Json × List Json) :=
  match value.get "milestones", value.get "tasks" with
  | .arr milestones, .arr tasks => do
    require (milestones.length ≤ 512 ∧ tasks.length ≤ 2048) "plan_size_invalid"
      "milestones/tasks exceed bounded limits"
    pure (milestones,tasks)
  | _, _ => fail "plan_size_invalid" "milestones/tasks exceed bounded limits"

def planKeys : List String :=
  ["schema","project_id","project_name","plan_version","supersedes_version","created_at",
    "revision_reason","revision_summary","milestones","tasks","current_task_id","planning_context"]

def validateProjectPlan (rt : Runtime) (document : Json) (expectedProjectId : Option String) :
    Outcome ProjectPlan := do
  require (document.fields.get "schema" = .str projectPlanSchema) "plan_schema_invalid"
    "project plan schema must be bdb-project-plan-v1"
  let value := document.fields
  rejectUnknownKeys value planKeys "project plan"
  let projectId ← planText (value.get "project_id") "project_id" 96
  require (matchesId 0 95 projectId = true) "plan_project_id_invalid" "project_id has an unsafe format"
  require (∀ expected ∈ expectedProjectId, projectId = expected) "plan_project_mismatch"
    "plan project_id does not match the selected project"
  let projectName ← planText (value.get "project_name") "project_name" 200
  let planVersion ← integerVersion (value.get "plan_version") "plan_version_invalid"
    "plan_version must be an integer version"
  let supersedes ← optionalValue (value.get "supersedes_version") (fun v =>
    integerVersion v "plan_supersedes_invalid" "supersedes_version must be an integer version")
  let createdAt ← optionalValue (value.get "created_at") (fun v => timestamp rt v "created_at")
  let revisionReason ← optionalValue (value.get "revision_reason") (fun v =>
    planText v "revision_reason" 1000)
  let revisionSummary ← optionalValue (value.get "revision_summary") (fun v =>
    planText v "revision_summary" 4000)
  let (milestonesRaw,tasksRaw) ← planArrays value
  let milestones ← readMilestones [] milestonesRaw
  let context ← planningContext (value.get "planning_context")
  let tasks ← readTasks (milestones.map (·.milestoneId)) [] tasksRaw
  (tasks.flatMap (·.dependencies)).forM (checkDependency (tasks.map (·.taskId))
    (contextRecordIds context "gates") (contextRecordIds context "open_questions"))
  checkCycles tasks
  require ((tasks.filter (fun t => t.status == .active)).length ≤ 1) "plan_active_task_ambiguous"
    "at most one task may be active"
  let currentTaskId ← currentTaskOf (value.get "current_task_id") tasks
  checkReferences context tasks
  pure ⟨projectId,projectName,planVersion,milestones,tasks,currentTaskId,supersedes,createdAt,
    revisionReason,revisionSummary,context⟩

/-! ## What is accepted is well formed -/

theorem readMilestone_ok {m : ProjectMilestone} (h : readMilestone seen value = .ok m) :
    matchesId 0 95 m.milestoneId = true ∧ m.milestoneId ∉ seen := by
  obtain ⟨_,_,_,h⟩ := rest₃ h
  obtain ⟨hid,h⟩ := of_require h
  obtain ⟨_,_,_,h⟩ := rest₃ h
  obtain rfl := pure_ok.mp h
  exact hid

theorem readMilestones_ok {ms : List ProjectMilestone} (h : readMilestones seen values = .ok ms) :
    (∀ m ∈ ms, matchesId 0 95 m.milestoneId = true ∧ m.milestoneId ∉ seen) ∧
      (ms.map (·.milestoneId)).Nodup := by
  induction values generalizing seen ms with
  | nil =>
    obtain rfl := pure_ok.mp h
    exact ⟨fun m hm => absurd hm not_mem_nil,nodup_nil⟩
  | cons value rest ih =>
    obtain ⟨m,hm,h⟩ := bind_ok.mp h
    obtain ⟨later,hlater,h⟩ := bind_ok.mp h
    obtain rfl := pure_ok.mp h
    obtain ⟨hfresh,hnodup⟩ := ih hlater
    refine ⟨?_,?_⟩
    · intro x hx
      rcases mem_cons.mp hx with rfl | hx
      · exact readMilestone_ok hm
      · exact ⟨(hfresh x hx).1,fun hs => (hfresh x hx).2 (mem_cons_of_mem _ hs)⟩
    · refine nodup_cons.mpr ⟨?_,hnodup⟩
      intro hmem
      obtain ⟨x,hx,heq⟩ := mem_map.mp hmem
      exact (hfresh x hx).2 (heq ▸ mem_cons_self)

theorem readTask_ok {t : ProjectTask} (h : readTask milestoneIds seen value = .ok t) :
    matchesId 0 95 t.taskId = true ∧ t.taskId ∉ seen ∧ t.milestoneId ∈ milestoneIds := by
  obtain ⟨_,_,h⟩ := rest₂ h
  obtain ⟨identifier,-,h⟩ := bind_ok.mp h
  obtain ⟨_,h⟩ := rest_ok h
  obtain ⟨hid,h⟩ := of_require h
  -- nothing read after this check changes the identifier or the milestone
  iterate 15 obtain ⟨_,-,h⟩ := bind_ok.mp h
  obtain rfl := pure_ok.mp h
  exact hid

theorem readTasks_ok {ts : List ProjectTask} (h : readTasks milestoneIds seen values = .ok ts) :
    (∀ t ∈ ts, matchesId 0 95 t.taskId = true ∧ t.taskId ∉ seen ∧ t.milestoneId ∈ milestoneIds) ∧
      (ts.map (·.taskId)).Nodup := by
  induction values generalizing seen ts with
  | nil =>
    obtain rfl := pure_ok.mp h
    exact ⟨fun t ht => absurd ht not_mem_nil,nodup_nil⟩
  | cons value rest ih =>
    obtain ⟨t,ht,h⟩ := bind_ok.mp h
    obtain ⟨later,hlater,h⟩ := bind_ok.mp h
    obtain rfl := pure_ok.mp h
    obtain ⟨hfresh,hnodup⟩ := ih hlater
    refine ⟨?_,?_⟩
    · intro x hx
      rcases mem_cons.mp hx with rfl | hx
      · exact readTask_ok ht
      · obtain ⟨hsafe,hnew,hmilestone⟩ := hfresh x hx
        exact ⟨hsafe,fun hs => hnew (mem_cons_of_mem _ hs),hmilestone⟩
    · refine nodup_cons.mpr ⟨?_,hnodup⟩
      intro hmem
      obtain ⟨x,hx,heq⟩ := mem_map.mp hmem
      exact (hfresh x hx).2.1 (heq ▸ mem_cons_self)

theorem strip_of_integerVersion {code message v : String}
    (h : integerVersion value code message = .ok v) : strip v = v := by
  obtain ⟨text,htext,h⟩ := bind_ok.mp h
  obtain ⟨_,h⟩ := rest_ok h
  obtain rfl := pure_ok.mp h
  cases value with
  | str s =>
    obtain rfl := pure_ok.mp htext
    exact strip_strip s
  | int n =>
    obtain rfl := pure_ok.mp htext
    exact strip_repr n
  | _ => exact absurd htext fail_ne_ok

/-- What an accepted document says about its plan, field by field. -/
structure ReadFrom (rt : Runtime) (document : Json) (expected : Option String) (p : ProjectPlan) : Prop where
  projectId : planText (document.fields.get "project_id") "project_id" 96 = .ok p.projectId
  safe : matchesId 0 95 p.projectId = true
  expected : ∀ i ∈ expected, p.projectId = i
  projectName : planText (document.fields.get "project_name") "project_name" 200 = .ok p.projectName
  planVersion : integerVersion (document.fields.get "plan_version") "plan_version_invalid"
    "plan_version must be an integer version" = .ok p.planVersion
  supersedes : optionalValue (document.fields.get "supersedes_version") (fun v => integerVersion v
    "plan_supersedes_invalid" "supersedes_version must be an integer version") = .ok p.supersedesVersion
  createdAt : optionalValue (document.fields.get "created_at") (fun v =>
    timestamp rt v "created_at") = .ok p.createdAt
  revisionReason : optionalValue (document.fields.get "revision_reason") (fun v =>
    planText v "revision_reason" 1000) = .ok p.revisionReason
  revisionSummary : optionalValue (document.fields.get "revision_summary") (fun v =>
    planText v "revision_summary" 4000) = .ok p.revisionSummary
  lists : ∃ milestonesRaw tasksRaw, planArrays document.fields = .ok (milestonesRaw,tasksRaw) ∧
    readMilestones [] milestonesRaw = .ok p.milestones ∧
    readTasks (p.milestones.map (·.milestoneId)) [] tasksRaw = .ok p.tasks
  context : planningContext (document.fields.get "planning_context") = .ok p.planningContext
  dependencies : (p.tasks.flatMap (·.dependencies)).forM (checkDependency (p.tasks.map (·.taskId))
    (contextRecordIds p.planningContext "gates") (contextRecordIds p.planningContext "open_questions")) = .ok ()
  acyclic : checkCycles p.tasks = .ok ()
  active : (p.tasks.filter (fun t => t.status == .active)).length ≤ 1
  current : currentTaskOf (document.fields.get "current_task_id") p.tasks = .ok p.currentTaskId
  references : checkReferences p.planningContext p.tasks = .ok ()

theorem readFrom_of_validated (h : validateProjectPlan rt document expected = .ok p) : ReadFrom rt document expected p := by
  obtain ⟨_,_,h⟩ := rest₂ h
  obtain ⟨projectId,hid,h⟩ := bind_ok.mp h
  obtain ⟨hsafe,h⟩ := of_require h
  obtain ⟨hexpected,h⟩ := of_require h
  obtain ⟨projectName,hname,h⟩ := bind_ok.mp h
  obtain ⟨planVersion,hversion,h⟩ := bind_ok.mp h
  obtain ⟨supersedes,hsupersedes,h⟩ := bind_ok.mp h
  obtain ⟨createdAt,hcreated,h⟩ := bind_ok.mp h
  obtain ⟨revisionReason,hreason,h⟩ := bind_ok.mp h
  obtain ⟨revisionSummary,hsummary,h⟩ := bind_ok.mp h
  obtain ⟨⟨milestonesRaw,tasksRaw⟩,harrays,h⟩ := bind_ok.mp h
  obtain ⟨milestones,hmilestones,h⟩ := bind_ok.mp h
  obtain ⟨context,hcontext,h⟩ := bind_ok.mp h
  obtain ⟨tasks,htasks,h⟩ := bind_ok.mp h
  obtain ⟨_,hdependencies,h⟩ := bind_ok.mp h
  obtain ⟨_,hcycles,h⟩ := bind_ok.mp h
  obtain ⟨hactive,h⟩ := of_require h
  obtain ⟨currentTaskId,hcurrent,h⟩ := bind_ok.mp h
  obtain ⟨_,hreferences,h⟩ := bind_ok.mp h
  obtain rfl := pure_ok.mp h
  exact ⟨hid,hsafe,hexpected,hname,hversion,hsupersedes,hcreated,hreason,hsummary,
    ⟨milestonesRaw,tasksRaw,harrays,hmilestones,htasks⟩,hcontext,hdependencies,hcycles,hactive,
    hcurrent,hreferences⟩

theorem validateProjectPlan_ok (h : validateProjectPlan rt document expected = .ok p) :
    p.WellFormed ∧ ∀ i ∈ expected, p.projectId = i := by
  have hp := readFrom_of_validated h
  obtain ⟨_,_,-,hmilestones,htasks⟩ := hp.lists
  obtain ⟨hm,hmnodup⟩ := readMilestones_ok hmilestones
  obtain ⟨ht,htnodup⟩ := readTasks_ok htasks
  exact ⟨⟨strip_of_integerVersion hp.planVersion,fun t h => (ht t h).1,htnodup,fun m h => (hm m h).1,hmnodup,
    fun t h => (ht t h).2.2⟩,hp.expected⟩

end Bdb.Project
