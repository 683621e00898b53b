import Bdb.Base.Stamps
import Bdb.Shared.Evidence

/-! # The promotion gate

Obligations are assessed on recorded evidence, and the latest assessment of an obligation is stored. The gate allows a
promotion from the stored assessments, the waivers and one approval; it does not assess again.
-/
namespace Bdb.Policy

/-! ## Tables -/

structure ObligationRecord where
  obligationId : String
  subjectKind : String
  subjectIdentity : Fields
  subjectDigest : String
  evidenceContract : Fields
  waivability : String
  risk : String
deriving DecidableEq

structure AssessmentRecord where
  obligationId : String
  evidenceId : Option String
  evaluationId : Option String
  dispositionId : Option String
  subjectDigest : String
  status : String
  applicability : String
  verdict : String
deriving DecidableEq

structure WaiverDecision where
  waiverId : String
  obligationId : String
  subjectDigest : String
  risk : String
  authority : String
  scope : String
  expiresAt : String
deriving DecidableEq

structure ApprovalRecord where
  approvalId : String
  subjectDigest : String
  intentRevisionId : String
  effectDigest : String
  policyDigest : String
  scope : String
  expiresAt : String
deriving DecidableEq

structure EvidenceRecord where
  evidenceId : String
  primarySubjectKind : String
  primarySubjectIdentity : Fields
  candidateViewId : Option String
  checkerId : String
  checkerVersion : String
  checkerCodeDigest : String
  environment : Fields
  completeness : String
  applicability : String
  status : String
deriving DecidableEq

structure EvaluationRecord where
  evaluationId : String
  evidenceId : String
  configDigest : String
  result : String
  applicability : String
deriving DecidableEq

structure DispositionRecord where
  dispositionId : String
  evidenceId : String
  evaluationId : String
  disposition : String
deriving DecidableEq

/-- What the candidate store finds when it verifies that a candidate is applicable now. -/
structure CandidateRecord where
  state : String
  manifestDigest : String
deriving DecidableEq

/-- The tables in row order, with what the candidate store and the content store answer now. -/
structure Tables where
  obligations : List ObligationRecord
  assessments : List AssessmentRecord
  waivers : List WaiverDecision
  approvals : List ApprovalRecord
  evidence : List EvidenceRecord
  evaluations : List EvaluationRecord
  dispositions : List DispositionRecord
  /-- The current disposition of an evidence record. -/
  heads : List (String × String)
  verifyCurrentApplicability : Option (String → Option CandidateRecord)
  rawObservation : String → Outcome Unit

namespace Tables

variable (db : Tables)

def getObligation (id : String) : Option ObligationRecord := db.obligations.find? (·.obligationId == id)

def getApproval (id : String) : Option ApprovalRecord := db.approvals.find? (·.approvalId == id)

def get (evidenceId : String) : Option EvidenceRecord := db.evidence.find? (·.evidenceId == evidenceId)

def waiversForObligation (id : String) : List WaiverDecision := db.waivers.filter (·.obligationId == id)

def getLatestAssessment (id : String) : Option AssessmentRecord := (db.assessments.filter (·.obligationId == id)).getLast?

def currentEvaluation (evidenceId : String) : Option EvaluationRecord :=
  (db.evaluations.filter (·.evidenceId == evidenceId)).getLast?

def currentDisposition (evidenceId : String) : Option DispositionRecord :=
  match db.heads.lookup evidenceId with
  | some id => db.dispositions.find? (·.dispositionId == id)
  | none => none

end Tables

/-! ## Evidence -/

variable (rt : Runtime)

def computeSubjectDigest (kind : String) (identity : Fields) : String :=
  Evidence.semanticDigest rt
    [("schema",.str "bdb-vnext-m6a-subject-v1"),("subject_kind",.str kind),("subject_identity",.obj identity)]

def candidateSealed : String := "SEALED"

def candidateApplicable (db : Tables) (r : EvidenceRecord) : Bool × String :=
  if r.primarySubjectKind ≠ "CANDIDATE" then (true,"not_candidate_bound")
  else
    match db.verifyCurrentApplicability with
    | none => (false,"candidate_authority_unavailable")
    | some verify =>
      match verify (rt.str (r.primarySubjectIdentity.getOr "candidate_id" (.str ""))) with
      | none => (false,"candidate_stale_or_invalidated")
      | some current =>
        if current.state ≠ candidateSealed ∨ some current.manifestDigest ≠ r.candidateViewId then
          (false,"candidate_stale_or_invalidated")
        else (true,"candidate_sealed_exact")

structure EvidenceQuery where
  current : Option DispositionRecord
  applicable : Bool
  reason : String
  effective : String

def query (db : Tables) (r : EvidenceRecord) : EvidenceQuery :=
  let current := db.currentDisposition r.evidenceId
  let (applicable,reason) := candidateApplicable rt db r
  let effective := (current.map (·.disposition)).getD "INCONCLUSIVE"
  let (applicable,reason,effective) :=
    if effective = "PASS" then
      match db.rawObservation r.evidenceId with
      | .ok _ => (applicable,reason,effective)
      | .error e => (false,e.code,"INCONCLUSIVE")
    else (applicable,reason,effective)
  ⟨current,applicable,reason,if applicable = false ∧ effective = "PASS" then "INCONCLUSIVE" else effective⟩

/-! ## Assessments -/

def sameSubject (ob : ObligationRecord) (r : EvidenceRecord) : Bool :=
  decide (r.primarySubjectKind = ob.subjectKind ∧ (Json.obj r.primarySubjectIdentity).canon = (Json.obj ob.subjectIdentity).canon ∧
    computeSubjectDigest rt r.primarySubjectKind r.primarySubjectIdentity = ob.subjectDigest)

def asks (contract : Fields) (key : String) (value : String) : Bool :=
  !(contract.get key).truthy || contract.get key == .str value

def asksEnvironment (contract environment : Fields) : Bool :=
  !(contract.get "environment_fingerprint").truthy ||
    (environment.get "fingerprint").canon == (contract.get "environment_fingerprint").canon ||
    contract.get "environment_fingerprint" == .str (Evidence.semanticDigest rt environment)

def asksConfig (contract : Fields) (current : Option EvaluationRecord) : Bool :=
  !(contract.get "evaluation_config_digest").truthy ||
    current.any fun e => contract.get "evaluation_config_digest" == .str e.configDigest

structure Judgement where
  status : String
  applicability : String
  verdict : String
  reason : String
deriving DecidableEq

def stale (reason : String) : Judgement := ⟨"STALE","UNKNOWN","UNKNOWN",reason⟩

def judge (db : Tables) (ob : ObligationRecord) (r : EvidenceRecord) : Judgement :=
  let contract := ob.evidenceContract
  if sameSubject rt ob r = false then stale "subject_mismatch"
  else if asks contract "checker_id" r.checkerId = false then stale "checker_id_mismatch"
  else if asks contract "checker_version" r.checkerVersion = false then stale "checker_version_mismatch"
  else if asks contract "checker_code_digest" r.checkerCodeDigest = false then stale "checker_code_digest_mismatch"
  else if asksEnvironment rt contract r.environment = false then stale "environment_fingerprint_mismatch"
  else
    let q := query rt db r
    if asksConfig contract (db.currentEvaluation r.evidenceId) = false then stale "evaluation_config_digest_mismatch"
    else if q.applicable = false then stale q.reason
    else if q.effective = "PASS" then ⟨"SATISFIED","APPLICABLE","PASS","PASS"⟩
    else if q.effective = "FAIL" then ⟨"UNSATISFIED","APPLICABLE","FAIL","FAIL"⟩
    else ⟨"UNKNOWN","UNKNOWN","UNKNOWN",q.effective⟩

def assessObligation (db : Tables) (obligationId : String) (evidenceId : Option String) (notApplicable : Bool) :
    Outcome AssessmentRecord := do
  let ob ← need (db.getObligation obligationId) "obligation_missing" "cannot assess missing obligation"
  let record (evaluationId dispositionId : Option String) (j : Judgement) : AssessmentRecord :=
    ⟨obligationId,evidenceId,evaluationId,dispositionId,ob.subjectDigest,j.status,j.applicability,j.verdict⟩
  if notApplicable then pure (record none none ⟨"SATISFIED","NOT_APPLICABLE","NOT_APPLICABLE","explicit_not_applicable"⟩)
  else
    match evidenceId.bind db.get with
    | none => pure (record none none ⟨"UNKNOWN","UNKNOWN","UNKNOWN","evidence_missing"⟩)
    | some r =>
      let j := judge rt db ob r
      if sameSubject rt ob r ∧ asks ob.evidenceContract "checker_id" r.checkerId ∧
          asks ob.evidenceContract "checker_version" r.checkerVersion ∧
          asks ob.evidenceContract "checker_code_digest" r.checkerCodeDigest ∧
          asksEnvironment rt ob.evidenceContract r.environment then
        pure (record ((db.currentEvaluation r.evidenceId).map (·.evaluationId))
          ((db.currentDisposition r.evidenceId).map (·.dispositionId)) j)
      else pure (record none none j)

/-! ## The gate -/

inductive Subject where
  | identified (kind : String) (identity : Fields)
  | digest (subjectDigest : String)
  | invalid

structure GateArguments where
  obligationIds : List String
  approvalId : Option String
  subject : Subject
  intentRevisionId : String
  effectDigest : String
  policyDigest : String
  scope : String
  /-- The time of the decision, in the form the caller or the clock gives it. -/
  now : String

def Subject.expectedDigest : Subject → Option String
  | .identified kind identity => some (computeSubjectDigest rt kind identity)
  | .digest d => some d
  | .invalid => none

/-- The authority of a waiver is not refused. -/
def acceptsAuthority (waivability authority : String) : Bool :=
  !(waivability == "ADMIN_ONLY" && authority != "ADMIN") &&
    !(waivability == "AUTHORIZED_USER" && !(authority == "USER" || authority == "ADMIN"))

/-- A waiver that the gate accepts. The times are compared as texts. -/
def WaiverDecision.accepted (w : WaiverDecision) (ob : ObligationRecord) (expected scope now : String) : Bool :=
  w.subjectDigest == expected && w.risk == ob.risk && w.scope == scope && acceptsAuthority ob.waivability w.authority &&
    !decide (w.expiresAt < now)

structure ObligationResult where
  obligationId : String
  status : String
  applicability : String
  verdict : String
  waivability : String
  waiverId : Option String
  passed : Bool
  reasons : List String
deriving DecidableEq

/-- The result for one obligation, with the reason the gate adds when it is not passed. -/
def obligationResult (db : Tables) (expected scope now id : String) : ObligationResult × List String :=
  match db.getObligation id with
  | none =>
    (⟨id,"UNKNOWN","UNKNOWN","UNKNOWN","NEVER",none,false,["obligation_missing"]⟩,["obligation_" ++ id ++ "_missing"])
  | some ob =>
    if ob.subjectDigest ≠ expected then
      (⟨id,"STALE","UNKNOWN","UNKNOWN",ob.waivability,none,false,["subject_digest_mismatch"]⟩,
        ["obligation_" ++ id ++ "_subject_mismatch"])
    else
      let latest := db.getLatestAssessment id
      let status := (latest.map (·.status)).getD "UNKNOWN"
      let applicability := (latest.map (·.applicability)).getD "UNKNOWN"
      let verdict := (latest.map (·.verdict)).getD "UNKNOWN"
      if verdict = "PASS" ∨ verdict = "NOT_APPLICABLE" then
        (⟨id,status,applicability,verdict,ob.waivability,none,true,[]⟩,[])
      else if ob.waivability = "NEVER" then
        (⟨id,status,applicability,verdict,ob.waivability,none,false,["obligation_not_waivable"]⟩,
          ["obligation_" ++ id ++ "_unsatisfied"])
      else
        match (db.waiversForObligation id).find? (·.accepted ob expected scope now) with
        | some w => (⟨id,status,applicability,verdict,ob.waivability,some w.waiverId,true,[]⟩,[])
        | none =>
          (⟨id,status,applicability,verdict,ob.waivability,none,false,["no_valid_waiver"]⟩,
            ["obligation_" ++ id ++ "_unsatisfied"])

/-- The first thing that is wrong with the approval. The times are compared as texts. -/
def approvalProblem (db : Tables) (a : GateArguments) (expected : String) : Option String :=
  match a.approvalId with
  | none => some "approval_missing"
  | some id =>
    match db.getApproval id with
    | none => some "approval_not_found"
    | some approval =>
      if approval.subjectDigest ≠ expected then some "approval_subject_mismatch"
      else if approval.intentRevisionId ≠ a.intentRevisionId then some "approval_intent_mismatch"
      else if approval.effectDigest ≠ a.effectDigest then some "approval_effect_mismatch"
      else if approval.policyDigest ≠ a.policyDigest then some "approval_policy_mismatch"
      else if approval.scope ≠ a.scope then some "approval_scope_mismatch"
      else if approval.expiresAt < a.now then some "approval_expired"
      else none

structure GateResult where
  allowed : Bool
  subjectDigest : String
  approvalId : Option String
  obligationResults : List ObligationResult
  reasons : List String

def promotionGate (db : Tables) (a : GateArguments) : Outcome GateResult := do
  let expected ← need (a.subject.expectedDigest rt) "invalid_subject"
    "subject must contain subject_kind and subject_identity or subject_digest"
  let results := a.obligationIds.map (obligationResult db expected a.scope a.now)
  let problem := approvalProblem db a expected
  pure ⟨(results.all (·.1.passed)) && problem.isNone,expected,if problem.isNone then a.approvalId else none,
    results.map (·.1),results.flatMap (·.2) ++ problem.toList⟩

def Allows (db : Tables) (a : GateArguments) : Prop := ∃ g, promotionGate rt db a = .ok g ∧ g.allowed = true

end Bdb.Policy
