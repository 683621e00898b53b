import Bdb.Project.Records
import Bdb.Shared.Evidence

/-! # Result identity

A result is identified by its binding and its reported outcome. The legacy identity
keeps the order of the evidence references and has no failure code; the current one
sorts the references and carries its version.
-/
namespace Bdb.Project

def identityVersionV1 : String := "v1"
def identityVersionV2 : String := "v2"

/-- The canonical references of a result, empty unless they are a mapping. -/
def canonicalRefs (result : Fields) : Fields := (result.get "canonical_refs").fields

def resultIdentityV1 (binding : ProjectExecutionBinding) (result : Fields) : Outcome Fields := do
  let evidence ← (result.getOr "evidence_refs" (.arr [])).elements
  let criteria ← (result.getOr "criteria" (.arr [])).elements
  pure [("execution_binding_id",.str binding.executionBindingId),("command_id",.str binding.commandId),
    ("correlation_id",.str binding.correlationId),("project_id",.str binding.projectId),
    ("task_id",.str binding.taskId),("plan_version",.str binding.planVersion),
    ("repo_alias",.str binding.repoAlias),("result_project_id",result.get "project_id"),
    ("result_task_id",result.get "task_id"),("result_plan_version",result.get "plan_version"),
    ("head_before",result.get "head_before"),("head_after",result.get "head_after"),
    ("execution_status",result.get "execution_status"),
    ("validation_status",result.get "validation_status"),
    ("promotion_status",result.get "promotion_status"),
    ("summary",result.getOr "result_summary" (.str "")),("evidence_refs",.arr evidence),
    ("criteria",.arr criteria),("canonical_refs",.obj (canonicalRefs result))]

def sortedTexts (xs : List String) : List String := xs.insertionSort (· ≤ ·)

/-- A plan version named by a result, as text. -/
def versionText (rt : Runtime) (version : Json) : Json :=
  if version = .null then .null else .str (rt.str version)

def resultIdentityV2 (rt : Runtime) (binding : ProjectExecutionBinding) (result : Fields) :
    Outcome Fields := do
  let evidence ← (result.getOr "evidence_refs" (.arr [])).elements
  let items ← (result.getOr "criteria" (.arr [])).elements
  let criteria ← items.mapM Json.toFields
  pure [("identity_version",.str identityVersionV2),
    ("execution_binding_id",.str binding.executionBindingId),("command_id",.str binding.commandId),
    ("correlation_id",.str binding.correlationId),("project_id",.str binding.projectId),
    ("task_id",.str binding.taskId),("plan_version",.str binding.planVersion),
    ("repo_alias",.str binding.repoAlias),("result_project_id",result.get "project_id"),
    ("result_task_id",result.get "task_id"),
    ("result_plan_version",versionText rt (result.get "plan_version")),
    ("head_before",result.get "head_before"),("head_after",result.get "head_after"),
    ("execution_status",result.get "execution_status"),
    ("validation_status",result.get "validation_status"),
    ("promotion_status",result.get "promotion_status"),("failure_code",result.get "failure_code"),
    ("summary",result.getOr "result_summary" (.str "")),
    ("evidence_refs",strings (sortedTexts (evidence.map rt.str))),
    ("criteria",.arr (criteria.map .obj)),("canonical_refs",.obj (canonicalRefs result))]

def executionResultDigestV1 (rt : Runtime) (binding : ProjectExecutionBinding) (result : Fields) :
    Outcome String :=
  Evidence.semanticDigest rt <$> resultIdentityV1 binding result

def executionResultDigestV2 (rt : Runtime) (binding : ProjectExecutionBinding) (result : Fields) :
    Outcome String :=
  Evidence.semanticDigest rt <$> resultIdentityV2 rt binding result

/-- A stored attempt is a replay of a result when it belongs to the same binding and
carries the current digest, or the legacy digest in a legacy attempt. -/
def isReplay (bindingId digestV2 digestV1 : String) (a : AttemptDocument) : Bool :=
  a.attempt.executionBindingId == bindingId && (a.attempt.resultDigest == digestV2 ||
    (a.attempt.resultDigest == digestV1 &&
      decide (a.attempt.identityVersion = none ∨ a.attempt.identityVersion = some identityVersionV1)))

theorem resultIdentity_congr {b c : ProjectExecutionBinding} (h : resultSubject b = resultSubject c)
    (rt : Runtime) (result : Fields) :
    resultIdentityV1 b result = resultIdentityV1 c result ∧
      resultIdentityV2 rt b result = resultIdentityV2 rt c result := by
  simp only [resultSubject,List.cons.injEq,and_true] at h
  obtain ⟨h1,h2,h3,h4,h5,h6,h7⟩ := h
  simp only [resultIdentityV1,resultIdentityV2,h1,h2,h3,h4,h5,h6,h7,and_self]

end Bdb.Project
