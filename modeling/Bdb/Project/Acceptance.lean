import Bdb.Project.Calls

/-! # Acceptance of a result

A submission may name the type and the status of every criterion. What it names is
folded into three flags; two kinds of labels slip through: a marked criterion that is
given the deterministic type, and a deterministic one that asks for a review.
-/
namespace Bdb.Project

variable (rt : Runtime) (items : List Json)

/-! ## Labels of a submission -/

/-- The submission gives a field of the criterion, in this upper-case spelling. -/
def Supplies (criterion field text : String) : Prop :=
  ((suppliedCriterion rt items criterion).get field).truthy = true ∧
    rt.upper (rt.str ((suppliedCriterion rt items criterion).get field)) = text

def Omits (criterion field : String) : Prop :=
  ((suppliedCriterion rt items criterion).get field).truthy = false

def ReadAs (criterion kind : String) : Prop :=
  Supplies rt items criterion "type" kind ∨
    Omits rt items criterion "type" ∧ criterionType rt criterion = kind

/-- A criterion its prefix marks for a person is relabelled, and passes as deterministic. -/
def Relabelled (ok : Bool) (criterion : String) : Prop :=
  criterionType rt criterion ≠ "DETERMINISTIC" ∧ Supplies rt items criterion "type" "DETERMINISTIC" ∧
    (Supplies rt items criterion "status" "PASS" ∨ Omits rt items criterion "status" ∧ ok = true)

def AsksReview (criterion : String) : Prop :=
  ReadAs rt items criterion "DETERMINISTIC" ∧ Supplies rt items criterion "status" "REVIEW_REQUIRED"

/-- Nothing in the labels of the criterion stands against a pass after a good validation. -/
def Unopposed (criterion : String) : Prop :=
  ReadAs rt items criterion "DETERMINISTIC" ∧
      (Omits rt items criterion "status" ∨ Supplies rt items criterion "status" "PASS" ∨
        Supplies rt items criterion "status" "REVIEW_REQUIRED") ∨
    (ReadAs rt items criterion "MANUAL_REVIEW" ∨ ReadAs rt items criterion "EXTERNAL") ∧
      Supplies rt items criterion "status" "PASS"

/-- A wish for a review that no other criterion brings to light. -/
def HidesReview (criteria : List String) : Prop :=
  (∀ c ∈ criteria, Unopposed rt items c) ∧ ∃ c ∈ criteria, AsksReview rt items c

/-! ## What acceptance promises -/

/-- A pass means a good validation and only passed criteria, and no criterion that its
prefix marks counts as deterministically passed. -/
def AcceptanceSound (amb : Ambient) (task : ProjectTask) (projectId planVersion attemptId : String)
    (ok : Bool) (items : List Json) : Prop :=
  let result := evaluateAcceptance amb task projectId planVersion attemptId ok items
  (result.overall = .pass → ok = true ∧ ∀ c ∈ result.criteria, c.status = .pass) ∧
    ∀ c ∈ result.criteria, criterionType amb.runtime c.criterion ≠ "DETERMINISTIC" →
      ¬ (c.kind = .deterministic ∧ c.status = .pass)

/-! ## Reading the labels -/

variable {rt items}

theorem upper_orText {value : Json} {default text : String} :
    rt.upper (orText rt value default) = text ↔
      (value.truthy = true ∧ rt.upper (rt.str value) = text) ∨
        (value.truthy = false ∧ rt.upper default = text) := by
  unfold orText
  cases value.truthy <;> simp

theorem upper_criterionType (criterion : String) :
    rt.upper (criterionType rt criterion) = criterionType rt criterion := by
  unfold criterionType
  simp only
  split
  · rfl
  · split
    · rfl
    · split <;> rfl

theorem readAs_iff {criterion kind : String} :
    ReadAs rt items criterion kind ↔
      rt.upper (orText rt ((suppliedCriterion rt items criterion).get "type")
        (criterionType rt criterion)) = kind := by
  rw [upper_orText,upper_criterionType]
  rfl

variable {s attemptId : String} {amb : Ambient} {task : ProjectTask} {result : Fields}

theorem CriterionKind.ofText_deterministic :
    CriterionKind.ofText s = .deterministic ↔ s = "DETERMINISTIC" := by
  unfold CriterionKind.ofText
  split_ifs <;> simp_all

theorem CriterionKind.ofText_reviewed :
    (CriterionKind.ofText s = .manualReview ∨ CriterionKind.ofText s = .external) ↔
      s = "MANUAL_REVIEW" ∨ s = "EXTERNAL" := by
  unfold CriterionKind.ofText
  split_ifs <;> simp_all

theorem criterionStatusOfText_pass : criterionStatusOfText s = .pass ↔ s = "PASS" := by
  unfold criterionStatusOfText
  split_ifs <;> simp_all

theorem criterionStatusOfText_review : criterionStatusOfText s = .reviewRequired ↔ s = "REVIEW_REQUIRED" := by
  unfold criterionStatusOfText
  split_ifs <;> simp_all

theorem criterionStatusOfText_ne_stale (s : String) : criterionStatusOfText s ≠ .staleResult := by
  unfold criterionStatusOfText
  split_ifs <;> simp

section Criterion
variable {ok : Bool} {criterion : String}

theorem evaluateCriterion_kind : (evaluateCriterion rt ok items criterion).kind =
    CriterionKind.ofText (rt.upper (orText rt ((suppliedCriterion rt items criterion).get "type")
      (criterionType rt criterion))) := by
  unfold evaluateCriterion
  rfl

theorem evaluateCriterion_status : (evaluateCriterion rt ok items criterion).status =
    criterionStatusOfText (rt.upper (orText rt ((suppliedCriterion rt items criterion).get "status")
      (defaultCriterionStatus ok (evaluateCriterion rt ok items criterion).kind))) := by
  rw [evaluateCriterion_kind]
  unfold evaluateCriterion
  rfl

theorem evaluateCriterion_not_stale : (evaluateCriterion rt ok items criterion).status ≠ .staleResult := by
  rw [evaluateCriterion_status]
  exact criterionStatusOfText_ne_stale _

theorem evaluateCriterion_deterministic :
    (evaluateCriterion rt ok items criterion).kind = .deterministic ↔
      ReadAs rt items criterion "DETERMINISTIC" := by
  rw [evaluateCriterion_kind,CriterionKind.ofText_deterministic,readAs_iff]

theorem evaluateCriterion_reviewed :
    ((evaluateCriterion rt ok items criterion).kind = .manualReview ∨
        (evaluateCriterion rt ok items criterion).kind = .external) ↔
      ReadAs rt items criterion "MANUAL_REVIEW" ∨ ReadAs rt items criterion "EXTERNAL" := by
  rw [evaluateCriterion_kind,CriterionKind.ofText_reviewed,readAs_iff,readAs_iff]

theorem upper_defaultCriterionStatus_pass {kind : CriterionKind} :
    rt.upper (defaultCriterionStatus ok kind) = "PASS" ↔ kind = .deterministic ∧ ok = true := by
  cases kind with
  | deterministic => cases ok <;> simp [defaultCriterionStatus,Runtime.upper]
  | _ => simp [defaultCriterionStatus,Runtime.upper]

theorem upper_defaultCriterionStatus_review {kind : CriterionKind} :
    rt.upper (defaultCriterionStatus ok kind) = "REVIEW_REQUIRED" ↔
      kind = .manualReview ∨ kind = .external := by
  cases kind with
  | deterministic => cases ok <;> simp [defaultCriterionStatus,Runtime.upper]
  | _ => simp [defaultCriterionStatus,Runtime.upper]

theorem evaluateCriterion_pass :
    (evaluateCriterion rt ok items criterion).status = .pass ↔
      Supplies rt items criterion "status" "PASS" ∨
        Omits rt items criterion "status" ∧ ReadAs rt items criterion "DETERMINISTIC" ∧ ok = true := by
  rw [evaluateCriterion_status,criterionStatusOfText_pass,upper_orText,upper_defaultCriterionStatus_pass,
    evaluateCriterion_deterministic]
  exact Iff.rfl

theorem evaluateCriterion_review :
    (evaluateCriterion rt ok items criterion).status = .reviewRequired ↔
      Supplies rt items criterion "status" "REVIEW_REQUIRED" ∨
        Omits rt items criterion "status" ∧
          (ReadAs rt items criterion "MANUAL_REVIEW" ∨ ReadAs rt items criterion "EXTERNAL") := by
  rw [evaluateCriterion_status,criterionStatusOfText_review,upper_orText,
    upper_defaultCriterionStatus_review,evaluateCriterion_reviewed]
  exact Iff.rfl

end Criterion

/-! ## The fold -/

/-- An evaluated criterion raises no flag. -/
def CriterionResult.Quiet (c : CriterionResult) : Prop :=
  c.deterministicFailure = false ∧ c.undecided = false ∧ c.needsReview = false

theorem acceptanceOverall_pass {ok : Bool} {criteria : List CriterionResult} :
    acceptanceOverall ok criteria = .pass ↔ ok = true ∧ ∀ c ∈ criteria, c.Quiet := by
  unfold acceptanceOverall CriterionResult.Quiet
  simp only [Bool.or_eq_true,Bool.not_eq_true',List.any_eq_true]
  split_ifs with hfail hopen hreview <;> grind

theorem CriterionResult.quiet_iff {c : CriterionResult} (h : c.status ≠ .staleResult) :
    c.Quiet ↔ (c.kind = .deterministic ∧ (c.status = .pass ∨ c.status = .reviewRequired)) ∨
      ((c.kind = .manualReview ∨ c.kind = .external) ∧ c.status = .pass) := by
  obtain ⟨criterion,kind,status,evidence⟩ := c
  cases kind <;> cases status <;>
    simp_all [CriterionResult.Quiet,deterministicFailure,undecided,needsReview]

section Evaluated
variable {criterion : String}

theorem not_reviewed_of_deterministic (h : ReadAs rt items criterion "DETERMINISTIC") :
    ¬ (ReadAs rt items criterion "MANUAL_REVIEW" ∨ ReadAs rt items criterion "EXTERNAL") := by
  rw [readAs_iff] at h
  rw [readAs_iff,readAs_iff,h]
  simp

theorem evaluateCriterion_quiet :
    (evaluateCriterion rt true items criterion).Quiet ↔ Unopposed rt items criterion := by
  rw [CriterionResult.quiet_iff evaluateCriterion_not_stale,evaluateCriterion_deterministic,
    evaluateCriterion_reviewed,evaluateCriterion_pass,evaluateCriterion_review,Unopposed]
  have hapart : ReadAs rt items criterion "DETERMINISTIC" →
      ¬ (ReadAs rt items criterion "MANUAL_REVIEW" ∨ ReadAs rt items criterion "EXTERNAL") :=
    not_reviewed_of_deterministic
  grind

theorem evaluateCriterion_pass_of_unopposed (h : Unopposed rt items criterion) :
    (evaluateCriterion rt true items criterion).status = .pass ↔ ¬ AsksReview rt items criterion := by
  constructor
  · rintro hpass ⟨hdet,hreview⟩
    have hstatus : (evaluateCriterion rt true items criterion).status = .reviewRequired :=
      evaluateCriterion_review.mpr (.inl hreview)
    rw [hpass] at hstatus
    cases hstatus
  · intro hasks
    have hquiet := (CriterionResult.quiet_iff evaluateCriterion_not_stale).mp
      (evaluateCriterion_quiet.mpr h)
    rcases hquiet with ⟨hdet,hpass | hreview⟩ | ⟨-,hpass⟩
    · exact hpass
    · have hkind := evaluateCriterion_deterministic.mp hdet
      rcases evaluateCriterion_review.mp hreview with hsupplied | ⟨-,hreviewed⟩
      · exact absurd ⟨hkind,hsupplied⟩ hasks
      · exact absurd hreviewed (not_reviewed_of_deterministic hkind)
    · exact hpass

theorem relabelled_iff {ok : Bool} (hmarked : criterionType rt criterion ≠ "DETERMINISTIC") :
    Relabelled rt items ok criterion ↔ (evaluateCriterion rt ok items criterion).kind = .deterministic ∧
      (evaluateCriterion rt ok items criterion).status = .pass := by
  rw [evaluateCriterion_deterministic,evaluateCriterion_pass,Relabelled,ReadAs]
  grind

end Evaluated

variable {criteria : List String}

theorem evaluated_pass_iff {ok : Bool} :
    (acceptanceOverall ok (criteria.map (evaluateCriterion rt ok items)) = .pass →
        ok = true ∧ ∀ c ∈ criteria.map (evaluateCriterion rt ok items), c.status = .pass) ↔
      (ok = true → ¬ HidesReview rt items criteria) := by
  rw [acceptanceOverall_pass]
  simp only [List.forall_mem_map]
  cases ok with
  | false => simp
  | true =>
    simp only [evaluateCriterion_quiet,true_and,forall_const,HidesReview,not_and,not_exists]
    refine forall_congr' fun hquiet => forall_congr' fun c => forall_congr' fun hc => ?_
    exact evaluateCriterion_pass_of_unopposed (hquiet c hc)

theorem acceptanceSound_iff {projectId planVersion : String} {ok : Bool} :
    AcceptanceSound amb task projectId planVersion attemptId ok items ↔
      (∀ c ∈ task.acceptanceCriteria, ¬ Relabelled amb.runtime items ok c) ∧
        (ok = true → ¬ HidesReview amb.runtime items task.acceptanceCriteria) := by
  unfold AcceptanceSound
  simp only [evaluateAcceptance]
  rw [evaluated_pass_iff,and_comm,List.forall_mem_map]
  refine and_congr_left' (forall_congr' fun c => forall_congr' fun hc => ?_)
  constructor
  · exact fun h hrel => h hrel.1 ((relabelled_iff hrel.1).mp hrel)
  · exact fun h hmarked hpass => h ((relabelled_iff hmarked).mpr hpass)

/-! ## Recording the result -/

/-- The execution and the validation of a result succeeded, and its labels hide a wish for a
review of the task. -/
def CompletesUnreviewed (rt : Runtime) (result : Fields) (task : ProjectTask) : Prop :=
  ∃ execution validation items,
    statusText rt (result.getOr "execution_status" (.str "UNKNOWN")) "execution_status" = .ok execution ∧
    statusText rt (result.getOr "validation_status" (.str "UNKNOWN")) "validation_status" =
      .ok validation ∧
    suppliedItems result = .ok items ∧ execution ∈ successful ∧ validation ∈ successful ∧
    HidesReview rt items task.acceptanceCriteria

theorem completesUnreviewed_iff {execution validation : String}
    (hexecution : statusText rt (result.getOr "execution_status" (.str "UNKNOWN")) "execution_status" =
      .ok execution)
    (hvalidation : statusText rt (result.getOr "validation_status" (.str "UNKNOWN"))
      "validation_status" = .ok validation) (hitems : suppliedItems result = .ok items) :
    CompletesUnreviewed rt result task ↔ execution ∈ successful ∧ validation ∈ successful ∧
      HidesReview rt items task.acceptanceCriteria := by
  constructor
  · rintro ⟨e,v,xs,he,hv,hxs,h⟩
    obtain rfl := Except.ok.inj (hexecution.symm.trans he)
    obtain rfl := Except.ok.inj (hvalidation.symm.trans hv)
    obtain rfl := Except.ok.inj (hitems.symm.trans hxs)
    exact h
  · exact fun h => ⟨_,_,_,hexecution,hvalidation,hitems,h⟩

theorem verdict_completed_iff {project : ProjectRecord} {plan : ProjectPlan}
     {v : Verdict}
    (h : verdict amb project plan task result attemptId = .ok v) :
    (v.taskStatus = .completed → ∀ c ∈ v.acceptance.criteria, c.status = .pass) ↔
      ¬ CompletesUnreviewed amb.runtime result task := by
  simp only [verdict,bind_ok,pure_ok] at h
  obtain ⟨validation,hvalidation,items,hitems,execution,hexecution,rfl⟩ := h
  rw [completesUnreviewed_iff hexecution hvalidation hitems,taskStatusOf_completed]
  simp only [evaluateAcceptance]
  by_cases hex : execution ∈ successful
  · have hfold := @evaluated_pass_iff amb.runtime items task.acceptanceCriteria
      (decide (validation ∈ successful))
    rw [decide_eq_true_iff] at hfold
    simp only [hex,if_true,true_and,not_and]
    refine Iff.trans ⟨fun h hpass => ⟨?_,h hpass⟩,fun h hpass => (h hpass).2⟩ hfold
    exact of_decide_eq_true (acceptanceOverall_pass.mp hpass).1
  · simp [hex]

theorem recordFresh_recorded {project : ProjectRecord} {plan : ProjectPlan}
    {bindingId digest : String} {raw binding : ProjectExecutionBinding}
    {d : ExecutionDocument} {s t : ProjectMemoryState} {r : Recorded}
    (h : recordFresh amb project plan bindingId raw binding task result attemptId digest d s = .ok (t,r)) :
    ∃ v, verdict amb project plan task result attemptId = .ok v ∧
      t.document.acceptanceResults = d.acceptanceResults ++ [v.acceptance] ∧
      t.document.taskStatuses.lookup task.taskId = some v.taskStatus := by
  obtain ⟨v,hverdict,h⟩ := bind_ok.mp h
  obtain ⟨_,_,_,h⟩ := rest₃ h
  obtain ⟨updated,hev,h⟩ := bind_ok.mp h
  cases pure_ok.mp h
  refine ⟨v,hverdict,?_,?_⟩
  all_goals
    rw [appendEvents_document hev,ProjectMemoryState.document_withDocument]
    simp [withMilestones,settled]

/-- Acceptance keeps its promise exactly when no marked criterion is relabelled and no wish
for a review is hidden; a recorded result completes its task with an unpassed criterion
exactly when it hides such a wish. -/
theorem acceptance_sound_unless_labels (amb : Ambient) :
    (∀ (task : ProjectTask) (projectId planVersion attemptId : String) (ok : Bool)
      (items : List Json), AcceptanceSound amb task projectId planVersion attemptId ok items ↔
        (∀ c ∈ task.acceptanceCriteria, ¬ Relabelled amb.runtime items ok c) ∧
          (ok = true → ¬ HidesReview amb.runtime items task.acceptanceCriteria)) ∧
    (∀ (project : ProjectRecord) (plan : ProjectPlan) (bindingId : String)
      (result : Fields) (s t : ProjectMemoryState) (r : Recorded) (x : Examined) (task : ProjectTask),
      examine amb.runtime project plan bindingId result s = .ok x → x.kind = .fresh task →
      recordResultTransition amb project plan bindingId result s = .ok (t,r) →
      ∃ acceptance, t.document.acceptanceResults = x.document.acceptanceResults ++ [acceptance] ∧
        ((t.document.taskStatuses.lookup task.taskId = some .completed →
            ∀ c ∈ acceptance.criteria, c.status = .pass) ↔
          ¬ CompletesUnreviewed amb.runtime result task)) := by
  refine ⟨fun _ _ _ _ _ _ => acceptanceSound_iff,?_⟩
  intro project plan bindingId result s t r x task hx hkind h
  obtain ⟨x',hx',h⟩ := bind_ok.mp h
  obtain rfl : x = x' := Except.ok.inj (hx.symm.trans hx')
  simp only [hkind] at h
  obtain ⟨_,h⟩ := rest_ok h
  obtain ⟨v,hverdict,hresults,hstatus⟩ := recordFresh_recorded h
  refine ⟨v.acceptance,hresults,?_⟩
  rw [hstatus,Option.some_inj]
  exact verdict_completed_iff hverdict

/-! ## A marked criterion and a hidden wish -/

def labelledTask : ProjectTask := sampleTask "t1" "m1" .pending ["manual: look","compiles"]

def label (criterion type status : String) : Json :=
  .obj [("criterion",.str criterion),("type",.str type),("status",.str status)]

/-- One submission relabels the marked criterion, another asks for a review of the other one. -/
theorem acceptance_not_sound :
    ¬ AcceptanceSound sampleAmbient labelledTask "p1" "1" "a1" true
        [label "manual: look" "DETERMINISTIC" "PASS"] ∧
    ¬ AcceptanceSound sampleAmbient labelledTask "p1" "1" "a1" true
        [label "manual: look" "MANUAL_REVIEW" "PASS",label "compiles" "DETERMINISTIC" "REVIEW_REQUIRED"] := by
  unfold AcceptanceSound
  decide +kernel

def labelledState : ProjectMemoryState :=
  (ProjectMemoryState.fresh "p1").withDocument
    (launched "now" (sampleBinding "b1" "t1") Execution.empty.filled)

def labelledResult : Fields :=
  sampleResult "b1" "PASS" ++ [("criteria",.arr [label "manual: look" "EXTERNAL" "PASS"])]

theorem acceptance_sound_unless_labels_pass :
    ∃ t r x, examine sampleRuntime sampleProject (samplePlan [labelledTask]) "b1" labelledResult
        labelledState = .ok x ∧ x.kind = .fresh labelledTask ∧
      recordResultTransition sampleAmbient sampleProject (samplePlan [labelledTask]) "b1" labelledResult
        labelledState = .ok (t,r) ∧
      ∃ acceptance, t.document.acceptanceResults = x.document.acceptanceResults ++ [acceptance] ∧
        ((t.document.taskStatuses.lookup labelledTask.taskId = some .completed →
            ∀ c ∈ acceptance.criteria, c.status = .pass) ↔
          ¬ CompletesUnreviewed sampleRuntime labelledResult labelledTask) := by
  have hfresh : (examine sampleRuntime sampleProject (samplePlan [labelledTask]) "b1" labelledResult
      labelledState).toOption.map (·.kind) = some (.fresh labelledTask) := by decide +kernel
  have hdone : (recordResultTransition sampleAmbient sampleProject (samplePlan [labelledTask]) "b1"
      labelledResult labelledState).toOption.isSome = true := by decide +kernel
  obtain ⟨x,hx,hkind⟩ := Option.map_eq_some_iff.mp hfresh
  obtain ⟨⟨t,r⟩,ht⟩ := Option.isSome_iff_exists.mp hdone
  have hx := toOption_eq_some.mp hx
  have ht := toOption_eq_some.mp ht
  exact ⟨t,r,x,hx,hkind,ht,
    (acceptance_sound_unless_labels sampleAmbient).2 _ _ _ _ _ t r x labelledTask hx hkind ht⟩

end Bdb.Project
