import Bdb.Project.PlanStore
import Bdb.Project.Calls

/-! # What a plan preview shows

The preview of an update lists every changed milestone, task, dependency, criterion and
the current task. The gates and open questions that block tasks belong to the planning
context, which no part of the comparison reads.
-/
namespace Bdb.Project

open Option

/-! ## Summary lines -/

def DiffKind.label : DiffKind → String
  | .added => "+"
  | .removed => "-"
  | .modified => "~"
  | .unchanged => "="

namespace PlanDiff

def allItems (d : PlanDiff) : List PlanDiffItem :=
  d.milestones ++ d.tasks ++ d.dependencies ++ d.acceptanceCriteria ++ d.currentTask

def summaryLines (d : PlanDiff) : List String :=
  (d.allItems.filter (fun i => i.kind ≠ .unchanged)).map
    (fun i => i.kind.label ++ " " ++ i.subject ++ " " ++ i.subjectId)

theorem summaryLines_eq_nil {d : PlanDiff} :
    d.summaryLines = [] ↔ ∀ i ∈ d.allItems, i.kind = .unchanged := by
  simp [summaryLines,List.filter_eq_nil_iff]

end PlanDiff

/-! ## Plans that ask for the same work -/

def ProjectTask.shows (t : ProjectTask) (f : OptionalField) : Bool :=
  !(t.optional f).isEmpty || decide (f ∈ t.optionalFields)

/-- Two versions of a task that differ at most in the order of dependencies and criteria. -/
structure SameTask (a b : ProjectTask) : Prop where
  taskId : a.taskId = b.taskId
  milestoneId : a.milestoneId = b.milestoneId
  title : a.title = b.title
  description : a.description = b.description
  status : a.status = b.status
  dependencies : a.dependencies.Perm b.dependencies
  acceptanceCriteria : a.acceptanceCriteria.Perm b.acceptanceCriteria
  optional : ∀ f, a.shows f = b.shows f ∧ a.optional f = b.optional f

/-- The same milestones and tasks, in any order, and the same current task. -/
structure SameWork (old new : ProjectPlan) : Prop where
  milestones : ∀ i, old.milestone? i = new.milestone? i
  tasks : ∀ i, Option.Rel SameTask (old.task? i) (new.task? i)
  current : old.currentTaskId = new.currentTaskId

def ProjectPlan.contextRecords (p : ProjectPlan) (key : String) : List Json :=
  ((p.planningContext.getD []).get key).elements.toOption.getD []

structure SamePrerequisites (old new : ProjectPlan) : Prop where
  gates : (old.contextRecords "gates").Perm (new.contextRecords "gates")
  openQuestions : (old.contextRecords "open_questions").Perm (new.contextRecords "open_questions")

/-- A preview without a line hides no change of what decides execution. -/
def HidesNoChange (old new : ProjectPlan) : Prop :=
  (semanticPlanDiff old new).summaryLines = [] → SameWork old new ∧ SamePrerequisites old new

/-! ## Documents of tasks -/

theorem sortedTexts_eq_iff {a b : List String} : sortedTexts a = sortedTexts b ↔ a.Perm b := by
  constructor
  · intro h
    have hb : (sortedTexts a).Perm b := h ▸ List.perm_insertionSort _ b
    exact (List.perm_insertionSort _ a).symm.trans hb
  · intro h
    have hp := (List.perm_insertionSort (· ≤ ·) a).trans (h.trans (List.perm_insertionSort (· ≤ ·) b).symm)
    exact hp.eq_of_pairwise (fun x y _ _ hxy hyx => le_antisymm hxy hyx)
      (List.pairwise_insertionSort _ a) (List.pairwise_insertionSort _ b)

theorem strings_inj {a b : List String} : strings a = strings b ↔ a = b := by
  simp [strings,List.map_inj_right]

theorem TaskStatus.text_inj {a b : TaskStatus} : a.text = b.text ↔ a = b := by
  cases a <;> cases b <;> simp [text]

theorem OptionalField.key_inj {f g : OptionalField} : f.key = g.key ↔ f = g := by
  cases f <;> cases g <;> simp [key]

theorem OptionalField.mem_all (f : OptionalField) : f ∈ all := by
  cases f <;> simp [all]

def optionalPart (t : ProjectTask) : Fields :=
  (OptionalField.all.filter t.shows).map (fun f => (f.key,strings (t.optional f)))

theorem optionalPart_eq_iff {a b : ProjectTask} :
    optionalPart a = optionalPart b ↔ ∀ f, a.shows f = b.shows f ∧ a.optional f = b.optional f := by
  constructor
  · intro h f
    have hkeys : (OptionalField.all.filter a.shows).map OptionalField.key =
        (OptionalField.all.filter b.shows).map OptionalField.key := by
      simpa [optionalPart,Function.comp_def] using congrArg (List.map Prod.fst) h
    have hshown := (List.map_inj_right fun _ _ => OptionalField.key_inj.mp).mp hkeys
    have hmem : f ∈ OptionalField.all.filter a.shows ↔ f ∈ OptionalField.all.filter b.shows := by rw [hshown]
    simp only [List.mem_filter,OptionalField.mem_all,true_and] at hmem
    refine ⟨Bool.eq_iff_iff.mpr hmem,?_⟩
    by_cases hf : a.shows f = true
    · unfold optionalPart at h
      rw [← hshown] at h
      have hvalue := List.map_inj_left.mp h f (List.mem_filter.mpr ⟨OptionalField.mem_all f,hf⟩)
      exact strings_inj.mp (Prod.mk.inj hvalue).2
    · -- a list that is not shown is empty
      have hnot : ¬ b.shows f = true := fun hb => hf (hmem.mpr hb)
      simp only [ProjectTask.shows,Bool.or_eq_true,Bool.not_eq_true',not_or,Bool.not_eq_false,
        List.isEmpty_iff] at hf hnot
      rw [hf.1,hnot.1]
  · intro h
    have hshows : a.shows = b.shows := funext fun f => (h f).1
    unfold optionalPart
    rw [hshows]
    exact List.map_congr_left fun f _ => by rw [(h f).2]

theorem sortedList_strings (xs : List String) : sortedList (strings xs) = strings (sortedTexts xs) := by
  simp [sortedList,strings,List.filterMap_map]

theorem normalized_toDict (t : ProjectTask) : normalizedItem t.toDict =
    [("id",.str t.taskId),("milestone_id",.str t.milestoneId),("title",.str t.title),
      ("description",.str t.description),("status",.str t.status.text),
      ("dependencies",strings (sortedTexts t.dependencies)),
      ("acceptance_criteria",strings (sortedTexts t.acceptanceCriteria))] ++ optionalPart t := by
  have hplain : ∀ f : OptionalField, f.key ∉ ["dependencies","acceptance_criteria"] := by
    intro f
    cases f <;> simp [OptionalField.key]
  rw [normalizedItem,ProjectTask.toDict,List.map_append,List.map_map]
  refine congrArg₂ (· ++ ·) ?_ (List.map_congr_left fun f _ => ?_)
  · simp [sortedList_strings]
  · exact if_neg (hplain f)

theorem normalized_task_iff {a b : ProjectTask} :
    normalizedItem a.toDict = normalizedItem b.toDict ↔ SameTask a b := by
  rw [normalized_toDict,normalized_toDict]
  simp only [List.cons_append,List.nil_append,List.cons.injEq,Prod.mk.injEq,Json.str.injEq,true_and,
    strings_inj,sortedTexts_eq_iff,TaskStatus.text_inj,optionalPart_eq_iff]
  constructor
  all_goals
    rintro ⟨h1,h2,h3,h4,h5,h6,h7,h8⟩
    exact ⟨h1,h2,h3,h4,h5,h6,h7,h8⟩

theorem normalized_milestone_iff {a b : ProjectMilestone} :
    normalizedItem a.toDict = normalizedItem b.toDict ↔ a = b := by
  obtain ⟨i,t,d,s⟩ := a
  obtain ⟨i',t',d',s'⟩ := b
  simp [normalizedItem,ProjectMilestone.toDict,TaskStatus.text_inj]

/-! ## The comparison by identifier -/

theorem lookup_foldl_insert {items : List (String × Fields)} (h : (items.map (·.1)).Nodup)
    (d : Dict Fields) (i : String) :
    (items.foldl (fun d item => d.insert item.1 item.2) d).lookup i =
      (((items.find? (fun item => item.1 == i)).map (·.2)) <|> d.lookup i) := by
  induction items generalizing d with
  | nil => rfl
  | cons item rest ih =>
    obtain ⟨hnew,hrest⟩ := List.nodup_cons.mp h
    rw [List.foldl_cons,ih hrest]
    by_cases hi : item.1 = i
    · subst hi
      have hnone : rest.find? (fun other => other.1 == item.1) = none := by
        refine List.find?_eq_none.mpr fun other hother heq => hnew ?_
        exact List.mem_map.mpr ⟨other,hother,by simpa using heq⟩
      rw [hnone,AList.lookup_insert]
      simp
    · have hne : i ≠ item.1 := fun h => hi h.symm
      simp [hi,AList.lookup_insert_ne hne]

theorem lookup_itemMap {α : Type} {xs : List α} {key : α → String} {doc : α → Fields}
    (h : (xs.map key).Nodup) (i : String) :
    (itemMap ((xs.map (fun x => (key x,doc x))).map (fun item => (item.1,normalizedItem item.2)))).lookup i =
      (xs.find? (fun x => key x == i)).map (fun x => normalizedItem (doc x)) := by
  rw [itemMap,lookup_foldl_insert (by simpa [Function.comp_def] using h)]
  simp [List.find?_map,Function.comp_def]

theorem diffById_unchanged {old new : List (String × Fields)} {subject : String} :
    (∀ item ∈ diffById old new subject, item.kind = .unchanged) ↔
      ∀ i, (itemMap (old.map (fun item => (item.1,normalizedItem item.2)))).lookup i =
        (itemMap (new.map (fun item => (item.1,normalizedItem item.2)))).lookup i := by
  simp only [diffById]
  generalize itemMap (old.map (fun item => (item.1,normalizedItem item.2))) = before
  generalize itemMap (new.map (fun item => (item.1,normalizedItem item.2))) = after
  have hmem : ∀ (xs : List String) (i : String), i ∈ sortedTexts xs ↔ i ∈ xs :=
    fun xs i => List.mem_insertionSort _
  have hkeys : ∀ (d : Dict Fields) (i : String), i ∈ d.keys ↔ d.lookup i ≠ none := by
    intro d i
    rw [← AList.mem_keys,← AList.lookup_isSome,isSome_iff_ne_none]
  simp only [List.forall_mem_append,List.forall_mem_map,hmem,List.mem_filter,decide_eq_true_eq]
  constructor
  · rintro ⟨hafter,hbefore⟩ i
    by_cases hi : i ∈ after.keys
    · have hkind := hafter i hi
      split_ifs at hkind with hnone hne
      exact not_ne_iff.mp hne
    · have hnot : i ∉ before.keys := fun hb => by cases hbefore i ⟨hb,hi⟩
      rw [hkeys,not_ne_iff] at hi hnot
      rw [hi,hnot]
  · intro h
    refine ⟨fun i hi => ?_,fun i hi => ?_⟩
    · rw [hkeys] at hi
      rw [h i,if_neg hi,if_neg (by simp)]
    · rw [hkeys,hkeys,h i] at hi
      exact absurd hi.1 hi.2

/-! ## What an empty preview says -/

theorem map_eq_map_iff_rel {α β : Type} {R : α → α → Prop} {f : α → β} (h : ∀ a b, f a = f b ↔ R a b)
    {x y : Option α} : x.map f = y.map f ↔ Option.Rel R x y := by
  cases x with
  | none =>
    cases y with
    | none => exact iff_of_true rfl .none
    | some b => exact iff_of_false (by simp) (fun h => by cases h)
  | some a =>
    cases y with
    | none => exact iff_of_false (by simp) (fun h => by cases h)
    | some b =>
      rw [map_some,map_some,some_inj,h]
      exact ⟨.some,fun h => by cases h; assumption⟩

theorem diffByList_unchanged {old new : ProjectPlan} {subject key : String}
    {list : ProjectTask → List String} (hlist : ∀ a b, SameTask a b → (list a).Perm (list b))
    (h : ∀ i, Option.Rel SameTask (old.task? i) (new.task? i)) :
    ∀ item ∈ diffByList old new subject key list, item.kind = .unchanged := by
  intro item hitem
  obtain ⟨i,-,hi⟩ := List.mem_filterMap.mp hitem
  have hrel := h i
  split at hi
  · rename_i a b ha hb
    rw [ha,hb] at hrel
    cases hrel with
    | some hsame =>
      cases hi
      exact if_pos (sortedTexts_eq_iff.mpr (hlist a b hsame))
  · cases hi

theorem summaryLines_empty_iff {old new : ProjectPlan} (hold : old.WellFormed) (hnew : new.WellFormed) :
    (semanticPlanDiff old new).summaryLines = [] ↔ SameWork old new := by
  have htasks : (∀ item ∈ (semanticPlanDiff old new).tasks, item.kind = .unchanged) ↔
      ∀ i, Option.Rel SameTask (old.task? i) (new.task? i) := by
    refine diffById_unchanged.trans (forall_congr' fun i => ?_)
    rw [lookup_itemMap hold.tasksNodup,lookup_itemMap hnew.tasksNodup]
    exact map_eq_map_iff_rel fun _ _ => normalized_task_iff
  have hmilestones : (∀ item ∈ (semanticPlanDiff old new).milestones, item.kind = .unchanged) ↔
      ∀ i, old.milestone? i = new.milestone? i := by
    refine diffById_unchanged.trans (forall_congr' fun i => ?_)
    rw [lookup_itemMap hold.milestonesNodup,lookup_itemMap hnew.milestonesNodup]
    exact map_inj_right fun _ _ => normalized_milestone_iff.mp
  have hcurrent : (∀ item ∈ (semanticPlanDiff old new).currentTask, item.kind = .unchanged) ↔
      old.currentTaskId = new.currentTaskId := by
    simp [semanticPlanDiff]
  rw [PlanDiff.summaryLines_eq_nil,PlanDiff.allItems]
  simp only [List.forall_mem_append,htasks,hmilestones,hcurrent]
  constructor
  · rintro ⟨⟨⟨⟨hm,ht⟩,-⟩,-⟩,hc⟩
    exact ⟨hm,ht,hc⟩
  · intro h
    exact ⟨⟨⟨⟨h.milestones,h.tasks⟩,diffByList_unchanged (fun _ _ hs => hs.dependencies) h.tasks⟩,
      diffByList_unchanged (fun _ _ hs => hs.acceptanceCriteria) h.tasks⟩,h.current⟩

/-- Between validated plans a preview without a line hides nothing exactly when plans of the
same work have the same gates and open questions. -/
theorem preview_hides_nothing_iff (rt : Runtime) (before after : Json) (old new : ProjectPlan)
    (expected expected' : Option String) (hold : validateProjectPlan rt before expected = .ok old)
    (hnew : validateProjectPlan rt after expected' = .ok new) :
    HidesNoChange old new ↔ (SameWork old new → SamePrerequisites old new) := by
  unfold HidesNoChange
  rw [summaryLines_empty_iff (validateProjectPlan_ok hold).1 (validateProjectPlan_ok hnew).1]
  exact ⟨fun h hwork => (h hwork).2,fun h hwork => ⟨hwork,h hwork⟩⟩

def gatedDocument (gates : List Json) : Json :=
  .obj [("schema",.str projectPlanSchema),("project_id",.str "p1"),("project_name",.str "Project"),
    ("plan_version",.str "1"),
    ("milestones",.arr [.obj [("id",.str "m1"),("title",.str "First"),("description",.str "Work")]]),
    ("tasks",.arr [.obj [("id",.str "t1"),("milestone_id",.str "m1"),("title",.str "Task"),
      ("description",.str "Work")]]),
    ("planning_context",.obj [("gates",.arr gates)])]

def releaseGate : Json := .obj [("id",.str "g1"),("title",.str "Release"),("criteria",.str "Signed")]

/-- A new gate does not appear in the preview. -/
theorem gate_hidden_from_preview :
    ∃ old new, validateProjectPlan sampleRuntime (gatedDocument []) (some "p1") = .ok old ∧
      validateProjectPlan sampleRuntime (gatedDocument [releaseGate]) (some "p1") = .ok new ∧
      (semanticPlanDiff old new).summaryLines = [] ∧ ¬ HidesNoChange old new := by
  have hrun : ((validateProjectPlan sampleRuntime (gatedDocument []) (some "p1")).toOption.bind (fun old =>
      (validateProjectPlan sampleRuntime (gatedDocument [releaseGate]) (some "p1")).toOption.map (fun new =>
        ((semanticPlanDiff old new).summaryLines,(old.contextRecords "gates").length,
          (new.contextRecords "gates").length)))) = some ([],0,1) := by decide +kernel
  obtain ⟨old,hold,hrest⟩ := bind_eq_some_iff.mp hrun
  obtain ⟨new,hnew,hseen⟩ := map_eq_some_iff.mp hrest
  obtain ⟨hlines,hlengths⟩ := Prod.mk.inj hseen
  obtain ⟨hnone,hone⟩ := Prod.mk.inj hlengths
  refine ⟨old,new,toOption_eq_some.mp hold,toOption_eq_some.mp hnew,hlines,fun h => ?_⟩
  have hperm := (h hlines).2.gates.length_eq
  omega

theorem preview_hides_nothing_iff_same :
    ∃ plan, validateProjectPlan sampleRuntime (gatedDocument [releaseGate]) (some "p1") = .ok plan ∧
      (HidesNoChange plan plan ↔ (SameWork plan plan → SamePrerequisites plan plan)) := by
  have hrun : (validateProjectPlan sampleRuntime (gatedDocument [releaseGate])
      (some "p1")).toOption.isSome = true := by decide +kernel
  obtain ⟨plan,hplan⟩ := isSome_iff_exists.mp hrun
  have hplan := toOption_eq_some.mp hplan
  exact ⟨plan,hplan,preview_hides_nothing_iff sampleRuntime _ _ plan plan (some "p1") (some "p1") hplan hplan⟩

end Bdb.Project
