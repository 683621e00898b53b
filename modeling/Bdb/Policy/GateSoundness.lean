import Bdb.Policy.PromotionGate

/-! # What an allowed promotion rests on

The gate compares expiries as texts and trusts stored assessments. An allowed promotion is sound exactly when the
texts are right about the instants and an obligation that was assessed PASS would be assessed PASS again.
-/
namespace Bdb.Policy

open List

/-- How texts are read as instants, and what evidence is said to show: its type, its coverage and its freshness at a
time, each for a value that a contract may ask for. -/
structure Reading where
  instant : String → Option ℤ
  ofType : EvidenceRecord → Json → Prop
  covers : EvidenceRecord → Json → Prop
  fresh : EvidenceRecord → String → Json → Prop

def Reading.NotAfter (rd : Reading) (now expiresAt : String) : Prop :=
  ∃ i j, rd.instant now = some i ∧ rd.instant expiresAt = some j ∧ i ≤ j

variable (rt : Runtime) (rd : Reading)

/-- The fields of a contract that no assessment looks at. -/
def Reading.MeetsRest (now : String) (ob : ObligationRecord) (r : EvidenceRecord) : Prop :=
  rd.ofType r (ob.evidenceContract.get "evidence_type") ∧ rd.covers r (ob.evidenceContract.get "coverage") ∧
    rd.fresh r now (ob.evidenceContract.get "freshness")

/-- The evidence is about the subject and meets every field of the contract. -/
structure Meets (db : Tables) (now : String) (ob : ObligationRecord) (r : EvidenceRecord) : Prop where
  subject : sameSubject rt ob r = true
  checkerId : asks ob.evidenceContract "checker_id" r.checkerId = true
  checkerVersion : asks ob.evidenceContract "checker_version" r.checkerVersion = true
  checkerCode : asks ob.evidenceContract "checker_code_digest" r.checkerCodeDigest = true
  environment : asksEnvironment rt ob.evidenceContract r.environment = true
  config : asksConfig ob.evidenceContract (db.currentEvaluation r.evidenceId) = true
  rest : rd.MeetsRest now ob r

def Supported (db : Tables) (now : String) (ob : ObligationRecord) : Prop :=
  ∃ id r, db.get id = some r ∧ Meets rt rd db now ob r ∧ (query rt db r).effective = "PASS" ∧ (query rt db r).applicable = true

/-- An authority that a waiver of the obligation needs. -/
def SufficientAuthority (waivability authority : String) : Prop :=
  (waivability = "ADMIN_ONLY" ∧ authority = "ADMIN") ∨
    (waivability = "AUTHORIZED_USER" ∧ (authority = "USER" ∨ authority = "ADMIN"))

def Waived (db : Tables) (a : GateArguments) (expected : String) (ob : ObligationRecord) (id : String) : Prop :=
  ∃ w ∈ db.waiversForObligation id, w.subjectDigest = expected ∧ w.risk = ob.risk ∧ w.scope = a.scope ∧
    SufficientAuthority ob.waivability w.authority ∧ rd.NotAfter a.now w.expiresAt

def NotApplicable (db : Tables) (id : String) : Prop :=
  ∃ x, db.getLatestAssessment id = some x ∧ x.verdict = "NOT_APPLICABLE"

/-- What a promotion has to rest on at the time of the decision. -/
structure SoundAt (db : Tables) (a : GateArguments) : Prop where
  approval : ∃ expected id approval, a.subject.expectedDigest rt = some expected ∧ a.approvalId = some id ∧
    db.getApproval id = some approval ∧ approval.subjectDigest = expected ∧ approval.intentRevisionId = a.intentRevisionId ∧
    approval.effectDigest = a.effectDigest ∧ approval.policyDigest = a.policyDigest ∧ approval.scope = a.scope ∧
    rd.NotAfter a.now approval.expiresAt
  obligations : ∀ id ∈ a.obligationIds, ∃ expected ob, a.subject.expectedDigest rt = some expected ∧
    db.getObligation id = some ob ∧ ob.subjectDigest = expected ∧
    (Waived rd db a expected ob id ∨ NotApplicable db id ∨ Supported rt rd db a.now ob)

/-! ## The condition -/

/-- An assessment of the evidence, made now, is PASS. -/
def PassesAgain (db : Tables) (id evidenceId : String) : Prop :=
  ∃ x, assessObligation rt db id (some evidenceId) false = .ok x ∧ x.verdict = "PASS"

/-- The texts are right about the instants, and stored PASS assessments would be PASS again. -/
structure Current (db : Tables) (a : GateArguments) : Prop where
  approval : ∀ id ∈ a.approvalId, ∀ approval ∈ db.getApproval id, rd.NotAfter a.now approval.expiresAt
  obligations : ∀ id ∈ a.obligationIds, ∀ ob ∈ db.getObligation id, ¬ NotApplicable db id →
    Waived rd db a ob.subjectDigest ob id ∨
      ∃ evidenceId r, db.get evidenceId = some r ∧ PassesAgain rt db id evidenceId ∧ rd.MeetsRest a.now ob r

variable {rt rd} {db : Tables} {a : GateArguments} {ob : ObligationRecord} {r : EvidenceRecord} {id evidenceId expected : String}

/-! ## Assessments again -/

theorem pass_of_stale_else {c : Prop} [Decidable c] {reason : String} {j : Judgement} :
    (if c then stale reason else j).verdict = "PASS" ↔ ¬ c ∧ j.verdict = "PASS" := by
  by_cases hc : c
  · rw [if_pos hc]
    exact ⟨fun h => absurd h (by simp [stale]),fun h => absurd hc h.1⟩
  · rw [if_neg hc]
    exact ⟨fun h => ⟨hc,h⟩,fun h => h.2⟩

theorem judge_pass : (judge rt db ob r).verdict = "PASS" ↔
    sameSubject rt ob r = true ∧ asks ob.evidenceContract "checker_id" r.checkerId = true ∧
      asks ob.evidenceContract "checker_version" r.checkerVersion = true ∧
      asks ob.evidenceContract "checker_code_digest" r.checkerCodeDigest = true ∧
      asksEnvironment rt ob.evidenceContract r.environment = true ∧
      asksConfig ob.evidenceContract (db.currentEvaluation r.evidenceId) = true ∧
      (query rt db r).applicable = true ∧ (query rt db r).effective = "PASS" := by
  unfold judge
  dsimp only
  simp only [pass_of_stale_else,Bool.not_eq_false]
  have hlast : (if (query rt db r).effective = "PASS" then (⟨"SATISFIED","APPLICABLE","PASS","PASS"⟩ : Judgement)
      else if (query rt db r).effective = "FAIL" then ⟨"UNSATISFIED","APPLICABLE","FAIL","FAIL"⟩
      else ⟨"UNKNOWN","UNKNOWN","UNKNOWN",(query rt db r).effective⟩).verdict = "PASS" ↔ (query rt db r).effective = "PASS" := by
    split_ifs with hpass hfail
    · exact ⟨fun _ => hpass,fun _ => rfl⟩
    · exact ⟨fun h => absurd h (by decide),fun h => absurd h hpass⟩
    · exact ⟨fun h => absurd h (show "UNKNOWN" ≠ "PASS" by decide),fun h => absurd h hpass⟩
  rw [hlast]

theorem passesAgain_iff (hob : db.getObligation id = some ob) (hr : db.get evidenceId = some r) :
    PassesAgain rt db id evidenceId ↔ (judge rt db ob r).verdict = "PASS" := by
  unfold PassesAgain assessObligation
  simp only [hob,need,ok_bind,Option.bind_some,hr,Bool.false_eq_true,if_false]
  constructor
  · rintro ⟨x,hx,hverdict⟩
    split at hx
    all_goals
      obtain rfl := pure_ok.mp hx
      exact hverdict
  · intro hverdict
    split
    all_goals exact ⟨_,rfl,hverdict⟩

theorem supported_iff (hob : db.getObligation id = some ob) : Supported rt rd db a.now ob ↔
    ∃ evidenceId r, db.get evidenceId = some r ∧ PassesAgain rt db id evidenceId ∧ rd.MeetsRest a.now ob r := by
  constructor
  · rintro ⟨evidenceId,r,hr,hmeets,heffective,happlicable⟩
    refine ⟨evidenceId,r,hr,(passesAgain_iff hob hr).mpr (judge_pass.mpr ?_),hmeets.rest⟩
    exact ⟨hmeets.subject,hmeets.checkerId,hmeets.checkerVersion,hmeets.checkerCode,hmeets.environment,hmeets.config,
      happlicable,heffective⟩
  · rintro ⟨evidenceId,r,hr,hpass,hrest⟩
    obtain ⟨h₁,h₂,h₃,h₄,h₅,h₆,happlicable,heffective⟩ := judge_pass.mp ((passesAgain_iff hob hr).mp hpass)
    exact ⟨evidenceId,r,hr,⟨h₁,h₂,h₃,h₄,h₅,h₆,hrest⟩,heffective,happlicable⟩

/-! ## What the gate checks -/

theorem approvalProblem_none (h : approvalProblem db a expected = none) : ∃ id approval, a.approvalId = some id ∧
    db.getApproval id = some approval ∧ approval.subjectDigest = expected ∧ approval.intentRevisionId = a.intentRevisionId ∧
    approval.effectDigest = a.effectDigest ∧ approval.policyDigest = a.policyDigest ∧ approval.scope = a.scope := by
  unfold approvalProblem at h
  cases hid : a.approvalId with
  | none =>
    rw [hid] at h
    cases h
  | some id =>
    rw [hid] at h
    dsimp only at h
    cases happroval : db.getApproval id with
    | none =>
      rw [happroval] at h
      cases h
    | some approval =>
      rw [happroval] at h
      dsimp only at h
      split_ifs at h with h₁ h₂ h₃ h₄ h₅ h₆
      exact ⟨id,approval,rfl,happroval,not_ne_iff.mp h₁,not_ne_iff.mp h₂,not_ne_iff.mp h₃,not_ne_iff.mp h₄,not_ne_iff.mp h₅⟩

theorem passed_obligation {scope now : String} (h : (obligationResult db expected scope now id).1.passed = true) :
    ∃ ob, db.getObligation id = some ob ∧ ob.subjectDigest = expected := by
  unfold obligationResult at h
  cases hob : db.getObligation id with
  | none =>
    rw [hob] at h
    cases h
  | some ob =>
    rw [hob] at h
    dsimp only at h
    by_cases hsubject : ob.subjectDigest = expected
    · exact ⟨ob,rfl,hsubject⟩
    · rw [if_pos hsubject] at h
      cases h

theorem allows_checked (h : Allows rt db a) : ∃ expected, a.subject.expectedDigest rt = some expected ∧
    (∃ id approval, a.approvalId = some id ∧ db.getApproval id = some approval ∧ approval.subjectDigest = expected ∧
      approval.intentRevisionId = a.intentRevisionId ∧ approval.effectDigest = a.effectDigest ∧
      approval.policyDigest = a.policyDigest ∧ approval.scope = a.scope) ∧
    ∀ id ∈ a.obligationIds, ∃ ob, db.getObligation id = some ob ∧ ob.subjectDigest = expected := by
  obtain ⟨g,hgate,hallowed⟩ := h
  obtain ⟨expected,hexpected,hgate⟩ := of_need hgate
  obtain rfl := pure_ok.mp hgate
  simp only [Bool.and_eq_true,all_eq_true,Option.isNone_iff_eq_none,mem_map,forall_exists_index,and_imp,
    forall_apply_eq_imp_iff₂] at hallowed
  exact ⟨expected,hexpected,approvalProblem_none hallowed.2,fun id hid => passed_obligation (hallowed.1 id hid)⟩

def plainRuntime : Runtime := ⟨fun c => [c],fun c => [c],fun _ => "",fun _ => none,String.ofList⟩

/-- Seconds after midnight of the first day of 2026, in UTC. -/
def plainReading : Reading where
  instant s := if s = "2026-01-01T01:00:00+02:00" then some (-3600) else if s = "2026-01-01T00:00:00Z" then some 0 else none
  ofType _ _ := True
  covers _ _ := True
  fresh _ _ _ := True

def plainApproval (expiresAt : String) : ApprovalRecord := ⟨"a","s","i","e","p","release",expiresAt⟩

def laterFailure : Tables where
  obligations := [⟨"o","CHECK",[],"s",[],"NEVER","LOW"⟩]
  assessments := [⟨"o",some "v",some "n",some "d","s","SATISFIED","APPLICABLE","PASS"⟩]
  waivers := []
  approvals := [plainApproval "2026-01-01T00:00:00Z"]
  evidence := [⟨"v","CHECK",[],none,"c","1","k",[],"COMPLETE","APPLICABLE","OBSERVED"⟩]
  evaluations := [⟨"n","v","g","PASS","APPLICABLE"⟩,⟨"m","v","h","FAIL","APPLICABLE"⟩]
  dispositions := [⟨"d","v","n","PASS"⟩,⟨"f","v","m","FAIL"⟩]
  heads := [("v","f")]
  verifyCurrentApplicability := none
  rawObservation _ := .ok ()

/-- The approval expired an hour ago, and its text is after the text of now. -/
def otherZone : Tables := { laterFailure with approvals := [plainApproval "2026-01-01T01:00:00+02:00"] }

def plainArguments (obligationIds : List String) : GateArguments :=
  ⟨obligationIds,some "a",.digest "s","i","e","p","release","2026-01-01T00:00:00Z"⟩

end Bdb.Policy
