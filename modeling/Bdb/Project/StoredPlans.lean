import Bdb.Project.PlanRereading

/-! # The current plan of a store

The store writes accepted plans only, each to the file of its version, and points to one
that it wrote. What it wrote is accepted as the same plan when it is read, so no sequence
of writes, complete or cut off, leaves a pointer whose digest differs from its plan.
-/
namespace Bdb.Project

/-! ## Versions -/

theorem digitValue_le {c : Char} {d : ℕ} (h : digitValue c = some d) : d ≤ 9 := by
  obtain ⟨z,hz,rfl⟩ := Option.map_eq_some_iff.mp h
  have hrange := List.find?_some hz
  simp only [Bool.and_eq_true,decide_eq_true_eq] at hrange
  omega

theorem digitsNumber_lt (digits : List Char) : digitsNumber digits < 10 ^ digits.length := by
  have hfold : ∀ (ds : List Char) (n : ℕ),
      ds.foldl (fun n c => 10 * n + (digitValue c).getD 0) n < (n + 1) * 10 ^ ds.length := by
    intro ds
    induction ds with
    | nil => simp
    | cons c rest ih =>
      intro n
      have hdigit : (digitValue c).getD 0 ≤ 9 := by
        cases hc : digitValue c with
        | none => exact Nat.zero_le 9
        | some d => exact digitValue_le hc
      calc (c :: rest).foldl (fun n c => 10 * n + (digitValue c).getD 0) n
          = rest.foldl (fun n c => 10 * n + (digitValue c).getD 0) (10 * n + (digitValue c).getD 0) := rfl
        _ < (10 * n + (digitValue c).getD 0 + 1) * 10 ^ rest.length := ih _
        _ ≤ (10 * (n + 1)) * 10 ^ rest.length := Nat.mul_le_mul_right _ (by omega)
        _ = (n + 1) * 10 ^ (c :: rest).length := by
            rw [List.length_cons,Nat.pow_succ,Nat.mul_comm 10 (n + 1),Nat.mul_assoc,Nat.mul_comm 10 (10 ^ _)]
  simpa [digitsNumber] using hfold digits 0

theorem version_again : Rereads version .str := by
  intro value v h
  obtain ⟨n,hn,rfl⟩ := version_ok h
  obtain ⟨_,hn⟩ := rest_ok hn
  obtain ⟨digits,hdigits,hn⟩ := of_need hn
  obtain ⟨hlen,hn⟩ := of_require hn
  obtain rfl := pure_ok.mp hn
  have hpos : 0 < digits.length := by
    rw [List.length_pos_iff]
    rintro rfl
    have hsome := hdigits
    simp [versionDigits] at hsome
    grind
  have hshort : (Nat.toDigits 10 (digitsNumber digits)).length ≤ digits.length :=
    (Nat.length_toDigits_le_iff (by omega) hpos).mpr (digitsNumber_lt digits)
  have hstrip : strip (digitsNumber digits).repr = (digitsNumber digits).repr := strip_repr (digitsNumber digits)
  have htext : integerVersion (.str (digitsNumber digits).repr) "plan_version_invalid"
      "plan_version must be an integer version" = .ok (digitsNumber digits).repr :=
    bind_ok.mpr ⟨_,by rw [numberOrText,hstrip]; rfl,
      bind_ok.mpr ⟨_,need_ok.mpr (versionDigits_repr _),rfl⟩⟩
  refine map_ok.mpr ⟨digitsNumber digits,?_,rfl⟩
  refine bind_of htext ?_
  refine bind_of (need_ok.mpr (versionDigits_repr _)) ?_
  refine require_bind (hshort.trans hlen) ?_
  rw [digitsNumber_toDigits]
  rfl

/-! ## The files -/

section Files
variable {rt : Runtime} {projectId : String} {plan : ProjectPlan} {st after : ProjectStore}

theorem currentPlan_none :
    currentPlan rt projectId st = .ok none ↔ st.currentPointer = none := by
  unfold currentPlan
  cases st.currentPointer with
  | none => simp
  | some pointer =>
    simp only [bind_ok,pure_ok]
    constructor
    · rintro ⟨_,_,_,_,_,_,_,_,_,_,h⟩
      cases h
    · intro h
      cases h

theorem currentPlan_some :
    currentPlan rt projectId st = .ok (some plan) ↔
      ∃ pointer v document, st.currentPointer = some pointer ∧
        pointer.fields.get "schema" = .str pointerSchema ∧
        pointer.fields.get "project_id" = .str projectId ∧
        version (pointer.fields.get "plan_version") = .ok v ∧ st.plans.lookup v = some document ∧
        validateProjectPlan rt document (some projectId) = .ok plan ∧
        pointer.fields.get "plan_digest" = .str (planDigest rt plan) := by
  unfold currentPlan
  cases st.currentPointer with
  | none => simp
  | some pointer =>
    simp only [bind_ok,require_ok,need_ok,pure_ok,Option.some.injEq,exists_and_left,exists_const]
    constructor
    · rintro ⟨⟨hschema,hproject⟩,v,hv,document,hdocument,p,hp,hdigest,rfl⟩
      exact ⟨pointer,rfl,hschema,hproject,v,hv,document,hdocument,hp,hdigest⟩
    · rintro ⟨_,rfl,hschema,hproject,v,hv,document,hdocument,hp,hdigest⟩
      exact ⟨⟨hschema,hproject⟩,v,hv,document,hdocument,plan,hp,hdigest,rfl⟩

theorem currentPlan_insert {current : Option ProjectPlan} {v : String}
    (h : currentPlan rt projectId st = .ok current) (hv : st.plans.lookup v = none) (document : Json) :
    currentPlan rt projectId { st with plans := st.plans.insert v document } = .ok current := by
  cases current with
  | none =>
    have hpointer : st.currentPointer = none := currentPlan_none.mp h
    exact currentPlan_none.mpr hpointer
  | some plan =>
    obtain ⟨pointer,w,d,hpointer,hschema,hproject,hw,hd,hrest⟩ := currentPlan_some.mp h
    have hne : w ≠ v := by
      rintro rfl
      rw [hv] at hd
      cases hd
    exact currentPlan_some.mpr ⟨pointer,w,d,hpointer,hschema,hproject,hw,
      (AList.lookup_insert_ne hne).trans hd,hrest⟩

theorem writeImmutablePlan_ok {u : Unit}
    (h : writeImmutablePlan rt projectId plan st = .ok (after,u)) :
    ∃ v, version (.str plan.planVersion) = .ok v ∧
      ((∃ document existing, st.plans.lookup v = some document ∧
          validateProjectPlan rt document (some projectId) = .ok existing ∧
          planDigest rt existing = planDigest rt plan ∧ after = st) ∨
        (st.plans.lookup v = none ∧
          after = { st with plans := st.plans.insert v (.obj plan.toDict) })) := by
  obtain ⟨v,hv,h⟩ := bind_ok.mp h
  refine ⟨v,hv,?_⟩
  cases hlookup : st.plans.lookup v with
  | some document =>
    rw [hlookup] at h
    obtain ⟨existing,hexisting,h⟩ := bind_ok.mp h
    obtain ⟨hdigest,h⟩ := of_require h
    cases pure_ok.mp h
    exact .inl ⟨document,existing,rfl,hexisting,hdigest,rfl⟩
  | none =>
    rw [hlookup] at h
    obtain ⟨_,h⟩ := rest_ok h
    cases pure_ok.mp h
    exact .inr ⟨rfl,rfl⟩

theorem activatePointer_ok {u : Unit}
    (h : activatePointer rt projectId plan st = .ok (after,u)) :
    ∃ v, version (.str plan.planVersion) = .ok v ∧
      after = { st with currentPointer := some (.obj (pointerTo rt projectId v plan)) } := by
  obtain ⟨v,hv,h⟩ := bind_ok.mp h
  obtain ⟨_,h⟩ := rest_ok h
  cases pure_ok.mp h
  exact ⟨v,hv,rfl⟩

end Files

/-! ## What the store writes -/

section Stored
variable (rt : Runtime) (projectId : String)

/-- The plans that the store writes: an accepted one, as it is or with the version and
the history that a first import or an update gives it. -/
inductive StoredPlan : ProjectPlan → Prop
  | accepted {document : Json} {plan : ProjectPlan}
      (h : validateProjectPlan rt document (some projectId) = .ok plan) : StoredPlan plan
  | initial {amb : Ambient} {document : Json} {plan : ProjectPlan} {n : ℕ} (hnow : TimeText rt amb.now)
      (h : validateProjectPlan rt document (some projectId) = .ok plan)
      (hn : planVersionNumber (.str plan.planVersion) = .ok n) :
      StoredPlan (initialPlan amb projectId plan n.repr)
  | successor {amb : Ambient} {document : Json} {plan : ProjectPlan} {v previous supersedes : String}
      (hnow : TimeText rt amb.now) (h : validateProjectPlan rt document (some projectId) = .ok plan)
      (hv : version (.str plan.planVersion) = .ok v) (hs : version (.str previous) = .ok supersedes) :
      StoredPlan (successorPlan amb projectId plan v supersedes)

/-- The stores of a project after any writes of plans, each with or without the move of
the pointer, and any transactions of the memory in between. -/
inductive Written : ProjectStore → Prop
  | empty (memory : Memory) : Written ⟨∅,none,memory⟩
  | plan {st after : ProjectStore} {plan : ProjectPlan} (h : Written st) (hplan : StoredPlan rt projectId plan)
      (hw : writeImmutablePlan rt projectId plan st = .ok (after,())) : Written after
  | pointer {st written after : ProjectStore} {plan : ProjectPlan} (h : Written st)
      (hplan : StoredPlan rt projectId plan) (hw : writeImmutablePlan rt projectId plan st = .ok (written,()))
      (ha : activatePointer rt projectId plan written = .ok (after,())) : Written after
  | memory {st : ProjectStore} (h : Written st) (memory : Memory) : Written { st with memory := memory }

end Stored

section Reading
variable {rt : Runtime} {projectId : String} {plan : ProjectPlan} {st written after : ProjectStore}

theorem integerVersion_of_version {value : Json} {v code message : String} (h : version value = .ok v) :
    integerVersion (.str v) code message = .ok v := by
  obtain ⟨n,-,rfl⟩ := version_ok h
  have hstrip : strip n.repr = n.repr := strip_repr n
  exact bind_ok.mpr ⟨n.repr,by rw [numberOrText,hstrip]; rfl,
    bind_ok.mpr ⟨_,need_ok.mpr (versionDigits_repr n),rfl⟩⟩

theorem textOr_again {read : Json → Outcome String} {o : Option String} {default : String}
    (h : optionalValue (nullableText o) read = .ok o) (hdefault : read (.str default) = .ok default) :
    optionalValue (nullableText (some (textOr o default))) read = .ok (some (textOr o default)) := by
  refine optionalValue_text ?_
  cases o with
  | none => exact hdefault
  | some s =>
    by_cases hs : s = ""
    · subst hs
      exact hdefault
    · have hread : read (.str s) = .ok s := by
        obtain ⟨t,ht,hsome⟩ := map_ok.mp h
        exact Option.some.inj hsome ▸ ht
      rw [textOr,Option.filter_some,if_pos (decide_eq_true hs)]
      exact hread

theorem StoredPlan.reread (hrt : TimesLast rt) (h : StoredPlan rt projectId plan) :
    RereadPlan rt plan ∧ plan.projectId = projectId := by
  have hsame : ∀ {document p}, validateProjectPlan rt document (some projectId) = .ok p →
      p.projectId = projectId := fun h => (validateProjectPlan_ok h).2 projectId rfl
  cases h with
  | accepted h => exact ⟨reread_of_validated hrt h,hsame h⟩
  | @initial amb document p n hnow h hn =>
    have hp := reread_of_validated hrt h
    have hv : version (.str p.planVersion) = .ok n.repr := map_ok.mpr ⟨n,hn,rfl⟩
    refine ⟨{ hp with
      projectId := ?_, safe := ?_, planVersion := integerVersion_of_version hv, supersedes := rfl,
      createdAt := textOr_again hp.createdAt (timestamp_of_timeText hnow),
      revisionReason := textOr_again hp.revisionReason ?_,
      revisionSummary := textOr_again hp.revisionSummary ?_ },rfl⟩
    · exact hsame h ▸ hp.projectId
    · exact hsame h ▸ hp.safe
    · decide
    · decide
  | @successor amb document p v previous supersedes hnow h hv hs =>
    have hp := reread_of_validated hrt h
    refine ⟨{ hp with
      projectId := ?_, safe := ?_, planVersion := integerVersion_of_version hv,
      supersedes := optionalValue_text (integerVersion_of_version hs),
      createdAt := textOr_again hp.createdAt (timestamp_of_timeText hnow),
      revisionReason := textOr_again hp.revisionReason ?_,
      revisionSummary := textOr_again hp.revisionSummary ?_ },rfl⟩
    · exact hsame h ▸ hp.projectId
    · exact hsame h ▸ hp.safe
    · decide
    · decide

theorem currentPlan_written (hplan : RereadPlan rt plan ∧ plan.projectId = projectId)
    (hw : writeImmutablePlan rt projectId plan st = .ok (written,()))
    (ha : activatePointer rt projectId plan written = .ok (after,())) :
    ∃ again, currentPlan rt projectId after = .ok (some again) ∧ planDigest rt again = planDigest rt plan ∧
      ((∀ v, version (.str plan.planVersion) = .ok v → st.plans.lookup v = none) → again = plan) := by
  obtain ⟨v,hv,rfl⟩ := activatePointer_ok ha
  obtain ⟨w,hw',hfile⟩ := writeImmutablePlan_ok hw
  obtain rfl : v = w := Except.ok.inj (hv.symm.trans hw')
  have hvalid : validateProjectPlan rt (.obj plan.toDict) (some projectId) = .ok plan :=
    hplan.1.validated fun i hi => hplan.2.trans (Option.some.inj hi)
  rcases hfile with ⟨document,existing,hlookup,hexisting,hdigest,rfl⟩ | ⟨-,rfl⟩
  · refine ⟨existing,currentPlan_some.mpr ⟨_,v,document,rfl,rfl,rfl,version_again hv,hlookup,hexisting,?_⟩,
      hdigest,fun hfree => ?_⟩
    · exact congrArg Json.str hdigest.symm
    · cases hlookup.symm.trans (hfree v hv)
  · refine ⟨plan,currentPlan_some.mpr ⟨_,v,.obj plan.toDict,rfl,rfl,rfl,version_again hv,
      AList.lookup_insert _,hvalid,rfl⟩,rfl,fun _ => rfl⟩

theorem Written.readable (hrt : TimesLast rt) (h : Written rt projectId st) :
    ∃ o, currentPlan rt projectId st = .ok o := by
  induction h with
  | empty memory => exact ⟨none,rfl⟩
  | @plan st after plan _ hplan hw ih =>
    obtain ⟨o,ho⟩ := ih
    obtain ⟨v,-,⟨_,_,-,-,-,rfl⟩ | ⟨hfree,rfl⟩⟩ := writeImmutablePlan_ok hw
    · exact ⟨o,ho⟩
    · exact ⟨o,currentPlan_insert ho hfree _⟩
  | pointer _ hplan hw ha _ =>
    obtain ⟨again,hagain,-⟩ := currentPlan_written (hplan.reread hrt) hw ha
    exact ⟨some again,hagain⟩
  | memory _ _ ih => exact ih

end Reading

/-! ## Imports and updates -/

section Updates
variable {amb : Ambient} {projectId : String} {plan : ProjectPlan} {st : ProjectStore}

/-- The three writes of a new plan, wherever they stop. -/
theorem publish_written (current : Option ProjectPlan) (hplan : StoredPlan amb.runtime projectId plan)
    (h : Written amb.runtime projectId st) :
    Program.Ends (publish amb projectId plan current) st (Written amb.runtime projectId) := by
  unfold Program.Ends publish
  rw [Program.exec_bind_commit]
  cases hw : writeImmutablePlan amb.runtime projectId plan st with
  | error e => exact h
  | ok p =>
    obtain ⟨written,u⟩ := p
    dsimp only
    rw [Program.exec_bind_commit]
    cases ha : activatePointer amb.runtime projectId plan written with
    | error e => exact .plan h hplan hw
    | ok q =>
      obtain ⟨after,u⟩ := q
      have hafter := Written.pointer h hplan hw ha
      refine Program.ends_bind (Program.ends_commit hafter ?_) fun _ _ ht => Program.ends_pure _ ht
      intro t a ht
      obtain ⟨⟨m,_⟩,-,ht⟩ := bind_ok.mp ht
      obtain ⟨rfl,-⟩ := Prod.mk.inj (pure_ok.mp ht)
      exact hafter.memory m

theorem ensureInitialPlan_written {document : Json} (hnow : TimeText amb.runtime amb.now)
    (hplan : validateProjectPlan amb.runtime document (some projectId) = .ok plan)
    (h : Written amb.runtime projectId st) :
    Program.Ends (ensureInitialPlan amb projectId plan) st (Written amb.runtime projectId) := by
  unfold ensureInitialPlan
  refine Program.ends_bind_lift h fun n hn => ?_
  refine Program.ends_bind_lift h fun _ _ => ?_
  refine Program.ends_bind_observe h fun _ _ => ?_
  refine Program.ends_bind_lift h fun _ _ => ?_
  exact publish_written none (.initial hnow hplan hn) h

theorem applyUpdate_written (candidate : ProjectPlan) (preview : Option PlanUpdatePreview)
    (hnow : TimeText amb.runtime amb.now) (h : Written amb.runtime projectId st) :
    Program.Ends (applyUpdate amb projectId candidate preview) st (Written amb.runtime projectId) := by
  unfold applyUpdate
  refine Program.ends_bind_lift h fun plan hplan => ?_
  refine Program.ends_bind_observe h fun check _ => ?_
  refine Program.ends_bind_lift h fun _ _ => ?_
  refine Program.ends_bind_lift h fun _ _ => ?_
  refine Program.ends_bind_observe h fun current _ => ?_
  cases current with
  | none => exact ensureInitialPlan_written hnow hplan h
  | some current =>
    refine Program.ends_bind_lift h fun _ _ => ?_
    refine Program.ends_bind_lift h fun v hv => ?_
    refine Program.ends_bind_lift h fun supersedes hs => ?_
    exact publish_written (some current) (.successor hnow hplan hv hs) h

end Updates

/-- Reading an accepted plan from its own document gives the same plan. What the store
writes is the plan it reads, with the digest that the pointer records; imports and updates
write nothing else, and no run of them, complete or cut off, leaves a current plan that is
refused. -/
theorem plan_validation_retracts {rt : Runtime} (hrt : TimesLast rt) :
    (∀ document expected p, validateProjectPlan rt document expected = .ok p →
      validateProjectPlan rt (.obj p.toDict) expected = .ok p) ∧
    (∀ projectId plan st written after, StoredPlan rt projectId plan →
      writeImmutablePlan rt projectId plan st = .ok (written,()) →
      activatePointer rt projectId plan written = .ok (after,()) →
      ∃ again, currentPlan rt projectId after = .ok (some again) ∧ planDigest rt again = planDigest rt plan ∧
        ((∀ v, version (.str plan.planVersion) = .ok v → st.plans.lookup v = none) → again = plan)) ∧
    (∀ amb projectId st, amb.runtime = rt → TimeText rt amb.now → Written rt projectId st →
      (∀ document plan, validateProjectPlan rt document (some projectId) = .ok plan →
        Written rt projectId ((ensureInitialPlan amb projectId plan).exec st).2) ∧
      ∀ candidate preview, Written rt projectId ((applyUpdate amb projectId candidate preview).exec st).2) ∧
    ∀ projectId st, Written rt projectId st → ∃ o, currentPlan rt projectId st = .ok o := by
  refine ⟨fun document expected p h => ?_,fun projectId plan st written after hplan hw ha => ?_,
    fun amb projectId st hamb hnow h => ?_,fun projectId st h => h.readable hrt⟩
  · exact (reread_of_validated hrt h).validated (validateProjectPlan_ok h).2
  · exact currentPlan_written (hplan.reread hrt) hw ha
  · subst hamb
    exact ⟨fun document plan hplan => ensureInitialPlan_written hnow hplan h,
      fun candidate preview => applyUpdate_written candidate preview hnow h⟩

/-! ## A small document -/

/-- A runtime that knows one moment. -/
def clockRuntime : Runtime :=
  { sampleRuntime with
    fromIsoFormat s :=
      if s = "2026-01-01T00:00:00.000000+00:00" then some (.utc "2026-01-01T00:00:00.000000Z") else none }

theorem clockRuntime_timeText : TimeText clockRuntime "2026-01-01T00:00:00.000000Z" where
  stripped := by decide +kernel
  short := by decide
  zulu := by decide +kernel
  again := by
    have htext : String.ofList "2026-01-01T00:00:00.000000Z".toList.dropLast ++ "+00:00" =
        "2026-01-01T00:00:00.000000+00:00" := by decide +kernel
    rw [htext]
    rfl

theorem clockRuntime_lasts : TimesLast clockRuntime := by
  intro s t h
  have hread : (if s = "2026-01-01T00:00:00.000000+00:00" then some (ParsedTime.utc "2026-01-01T00:00:00.000000Z")
      else none) = some (.utc t) := h
  split_ifs at hread
  cases hread
  exact clockRuntime_timeText

/-- Text with blanks around it, a version given as a number and an empty rich field. -/
def sampleDocument : Json :=
  .obj [("schema",.str projectPlanSchema),("project_id",.str " p1 "),("project_name",.str "Project"),
    ("plan_version",.int 1),("created_at",.str "2026-01-01T00:00:00.000000Z"),
    ("milestones",.arr [.obj [("title",.str " First "),("id",.str "m1"),("description",.str "Work")]]),
    ("tasks",.arr [.obj [("id",.str "t1"),("milestone_id",.str "m1"),("title",.str "Task"),
      ("description",.str "Work"),("status",.str "active"),("tests",.null)]]),
    ("planning_context",.obj [("gates",.arr [.obj [("title",.str "Gate"),("criteria",.str "Done"),
      ("id",.str "g1")]]),("objective",.str "Goal ")])]

theorem plan_validation_retracts_sample :
    (validateProjectPlan clockRuntime sampleDocument (some "p1")).toOption.isSome = true ∧
      ∀ p, validateProjectPlan clockRuntime sampleDocument (some "p1") = .ok p →
        validateProjectPlan clockRuntime (.obj p.toDict) (some "p1") = .ok p :=
  ⟨by decide +kernel,(plan_validation_retracts clockRuntime_lasts).1 sampleDocument (some "p1")⟩

end Bdb.Project
