import Bdb.Scope.LaunchSoundness

/-! # What the validation of a plan graph means

The depth-first search marks tasks as visiting and visited. Every visited task is grounded: no
path of dependencies goes on from it for ever. So the search finds a circular dependency
exactly when there is one, as far as the first listing of each task goes.
-/
namespace Bdb.Scope

open Relation List

/-- No element is reached from itself. -/
def Acyclic {α : Type} (r : α → α → Prop) : Prop := ∀ a, ¬ TransGen r a a

theorem not_transGen_of_acc {α : Type} {r : α → α → Prop} {a : α} (h : Acc (fun b a => r a b) a) :
    ¬ TransGen r a a := by
  induction h with
  | intro a _ ih =>
    intro hcycle
    obtain ⟨b,hab,hba⟩ := TransGen.head'_iff.mp hcycle
    exact ih b hab (TransGen.tail' hba hab)

namespace CanonicalPlanGraph

variable {plan : CanonicalPlanGraph} {marks after : Visited} {taskId : String} {depth : ℕ} {deps : List String}

/-- What the search follows: the dependencies of the first task with the identity. -/
def Follows (plan : CanonicalPlanGraph) (taskId dep : String) : Prop :=
  dep ∈ ((plan.getTask taskId).map (·.dependencies)).getD []

/-- The dependencies of all listed tasks. -/
def Depends (plan : CanonicalPlanGraph) (taskId dep : String) : Prop :=
  ∃ t ∈ plan.tasks, t.taskId = taskId ∧ dep ∈ t.dependencies

def Grounded (plan : CanonicalPlanGraph) (taskId : String) : Prop := Acc (fun b a => plan.Follows a b) taskId

/-- The identities that have no mark yet. -/
def room (plan : CanonicalPlanGraph) (marks : Visited) : ℕ :=
  ((plan.tasks.map (·.taskId)).filter fun v => (marks.lookup v).isNone).length

theorem lookup_mark (v : String) (m : Mark) :
    List.lookup v ((taskId,m) :: marks) = if v = taskId then some m else marks.lookup v := by
  by_cases h : v = taskId
  · simp [h]
  · simp [lookup_cons,h,beq_false_of_ne h]

/-! ## What a visit does to the marks -/

structure Marked (marks after : Visited) : Prop where
  keeps : ∀ v m, marks.lookup v = some m → after.lookup v = some m
  visiting : ∀ v, after.lookup v = some .visiting → marks.lookup v = some .visiting

theorem Marked.trans {last : Visited} (h : Marked marks after) (h' : Marked after last) : Marked marks last :=
  ⟨fun v m hv => h'.keeps v m (h.keeps v m hv),fun v hv => h.visiting v (h'.visiting v hv)⟩

theorem Marked.room_le (h : Marked marks after) : plan.room after ≤ plan.room marks := by
  refine (monotone_filter_right _ ?_).length_le
  intro v hv
  cases hm : marks.lookup v with
  | none => rfl
  | some m =>
    rw [h.keeps v m hm] at hv
    cases hv

theorem room_mark {m : Mark} (hlisted : taskId ∈ plan.tasks.map (·.taskId)) (hnew : marks.lookup taskId = none) :
    plan.room ((taskId,m) :: marks) < plan.room marks := by
  have hsub : ((plan.tasks.map (·.taskId)).filter fun v => (List.lookup v ((taskId,m) :: marks)).isNone).Sublist
      ((plan.tasks.map (·.taskId)).filter fun v => (marks.lookup v).isNone) := by
    refine monotone_filter_right _ ?_
    intro v hv
    rw [lookup_mark] at hv
    split at hv
    · cases hv
    · exact hv
  refine lt_of_le_of_ne hsub.length_le fun hlength => ?_
  have hmem : taskId ∈ (plan.tasks.map (·.taskId)).filter fun v => (marks.lookup v).isNone :=
    mem_filter.mpr ⟨hlisted,by rw [hnew]; rfl⟩
  rw [← hsub.eq_of_length hlength,mem_filter,lookup_mark,if_pos rfl] at hmem
  cases hmem.2

def Settled (plan : CanonicalPlanGraph) (marks : Visited) : Prop :=
  ∀ v, marks.lookup v = some .visited → plan.Grounded v

/-- What a search that starts with these marks finds. -/
def Found (plan : CanonicalPlanGraph) (marks : Visited) (targets : List String) : Bool × Visited → Prop
  | (true, _) => ¬ Acyclic plan.Follows
  | (false, after) => plan.Settled after ∧ Marked marks after ∧ ∀ v ∈ targets, after.lookup v = some .visited

/-- The dependencies of a task are searched while everything that is being visited waits
for that task. -/
theorem anyCycle_found {visit : String → Visited → Bool × Visited}
    (hvisit : ∀ dep marks, plan.Follows taskId dep → marks.lookup dep = none → plan.room marks ≤ depth →
      plan.Settled marks → (∀ v, marks.lookup v = some .visiting → ReflTransGen plan.Follows v taskId) →
      plan.Found marks [dep] (visit dep marks))
    (hdeps : ∀ dep ∈ deps, plan.Follows taskId dep) (hroom : plan.room marks ≤ depth) (hsettled : plan.Settled marks)
    (hwaits : ∀ v, marks.lookup v = some .visiting → ReflTransGen plan.Follows v taskId) :
    plan.Found marks deps (anyCycle visit deps marks) := by
  induction deps generalizing marks with
  | nil => exact ⟨hsettled,⟨fun _ _ h => h,fun _ h => h⟩,fun _ h => absurd h not_mem_nil⟩
  | cons dep deps ih =>
    have hfollows : plan.Follows taskId dep := hdeps dep mem_cons_self
    have hrest : ∀ d ∈ deps, plan.Follows taskId d := fun d hd => hdeps d (mem_cons_of_mem _ hd)
    unfold anyCycle
    split
    · rename_i hvisiting
      intro hacyclic
      exact hacyclic dep (TransGen.tail' (hwaits dep hvisiting) hfollows)
    · rename_i hvisited
      have hfound := ih hrest hroom hsettled hwaits
      generalize anyCycle visit deps marks = out at hfound
      obtain ⟨cycle,after⟩ := out
      cases cycle with
      | true => exact hfound
      | false =>
        obtain ⟨hafter,hmarked,hall⟩ := hfound
        refine ⟨hafter,hmarked,fun v hv => ?_⟩
        rcases mem_cons.mp hv with rfl | hv
        · exact hmarked.keeps _ _ hvisited
        · exact hall v hv
    · rename_i hnew
      have hfirst := hvisit dep marks hfollows hnew hroom hsettled hwaits
      generalize visit dep marks = out at hfirst
      obtain ⟨cycle,between⟩ := out
      cases cycle with
      | true => exact hfirst
      | false =>
        obtain ⟨hbetween,hmarked,hone⟩ := hfirst
        have hfound := ih hrest (hmarked.room_le.trans hroom) hbetween fun v hv => hwaits v (hmarked.visiting v hv)
        dsimp only
        generalize anyCycle visit deps between = out at hfound
        obtain ⟨cycle,after⟩ := out
        cases cycle with
        | true => exact hfound
        | false =>
          obtain ⟨hafter,hmarked',hall⟩ := hfound
          refine ⟨hafter,hmarked.trans hmarked',fun v hv => ?_⟩
          rcases mem_cons.mp hv with rfl | hv
          · exact hmarked'.keeps _ _ (hone _ (mem_singleton.mpr rfl))
          · exact hall v hv

/-- There is room for every identity without a mark, so the depth is never used up. -/
theorem hasCycle_found (hlisted : ∀ a dep, plan.Follows a dep → dep ∈ plan.tasks.map (·.taskId))
    (hid : taskId ∈ plan.tasks.map (·.taskId)) (hnew : marks.lookup taskId = none) (hroom : plan.room marks ≤ depth)
    (hsettled : plan.Settled marks)
    (hwaits : ∀ v, marks.lookup v = some .visiting → TransGen plan.Follows v taskId) :
    plan.Found marks [taskId] (plan.hasCycle depth taskId marks) := by
  induction depth generalizing taskId marks with
  | zero =>
    have hlt := room_mark (m := .visiting) hid hnew
    omega
  | succ depth ih =>
    have hstarted : plan.Settled ((taskId,.visiting) :: marks) := by
      intro v hv
      rw [lookup_mark] at hv
      split at hv
      · cases hv
      · exact hsettled v hv
    have hpath : ∀ v, List.lookup v ((taskId,.visiting) :: marks) = some .visiting →
        ReflTransGen plan.Follows v taskId := by
      intro v hv
      rw [lookup_mark] at hv
      split at hv
      · rename_i hsame
        rw [hsame]
      · exact (hwaits v hv).to_reflTransGen
    have hless := room_mark (m := .visiting) hid hnew
    have hfound : plan.Found ((taskId,.visiting) :: marks) (((plan.getTask taskId).map (·.dependencies)).getD [])
        (anyCycle (plan.hasCycle depth) (((plan.getTask taskId).map (·.dependencies)).getD [])
          ((taskId,.visiting) :: marks)) := by
      refine anyCycle_found ?_ (fun _ h => h) (Nat.le_of_lt_succ (hless.trans_le hroom)) hstarted hpath
      intro dep marks hfollows hnone hle hset hwait
      exact ih (hlisted _ _ hfollows) hnone hle hset fun v hv => TransGen.tail' (hwait v hv) hfollows
    unfold hasCycle
    dsimp only
    generalize anyCycle (plan.hasCycle depth) _ ((taskId,.visiting) :: marks) = out at hfound
    obtain ⟨cycle,after⟩ := out
    cases cycle with
    | true => exact hfound
    | false =>
      obtain ⟨hafter,hmarked,hall⟩ := hfound
      refine ⟨?_,⟨?_,?_⟩,?_⟩
      · intro v hv
        rw [lookup_mark] at hv
        split at hv
        · rename_i hsame
          rw [hsame]
          exact Acc.intro _ fun dep hdep => hafter dep (hall dep hdep)
        · exact hafter v hv
      · intro v m hv
        have hne : v ≠ taskId := by
          rintro rfl
          rw [hnew] at hv
          cases hv
        rw [lookup_mark,if_neg hne]
        exact hmarked.keeps v m (by rw [lookup_mark,if_neg hne,hv])
      · intro v hv
        rw [lookup_mark] at hv
        split at hv
        · cases hv
        · rename_i hne
          have hbefore := hmarked.visiting v hv
          rwa [lookup_mark,if_neg hne] at hbefore
      · intro v hv
        rw [mem_singleton.mp hv,lookup_mark,if_pos rfl]

/-! ## The search over all tasks -/

theorem findCycle_found (hlisted : ∀ a dep, plan.Follows a dep → dep ∈ plan.tasks.map (·.taskId)) {ids : List String}
    (hids : ∀ id ∈ ids, id ∈ plan.tasks.map (·.taskId)) (hroom : plan.room marks ≤ depth)
    (hsettled : plan.Settled marks) (hidle : ∀ v, marks.lookup v ≠ some .visiting) :
    (plan.findCycle depth ids marks = none ∧ ∀ id ∈ ids, plan.Grounded id) ∨
      (∃ id, plan.findCycle depth ids marks = some id) ∧ ¬ Acyclic plan.Follows := by
  induction ids generalizing marks with
  | nil => exact .inl ⟨rfl,fun _ h => absurd h not_mem_nil⟩
  | cons id ids ih =>
    have hrest : ∀ v ∈ ids, v ∈ plan.tasks.map (·.taskId) := fun v hv => hids v (mem_cons_of_mem _ hv)
    unfold findCycle
    cases hmark : marks.lookup id with
    | some m =>
      have hgrounded : plan.Grounded id := by
        cases m with
        | visiting => exact absurd hmark (hidle id)
        | visited => exact hsettled id hmark
      refine (ih hrest hroom hsettled hidle).imp_left fun h => ⟨h.1,fun v hv => ?_⟩
      rcases mem_cons.mp hv with rfl | hv
      · exact hgrounded
      · exact h.2 v hv
    | none =>
      have hfound := hasCycle_found hlisted (hids id mem_cons_self) hmark hroom hsettled
        fun v hv => absurd hv (hidle v)
      simp only [Option.isSome_none,Bool.false_eq_true,if_false]
      generalize plan.hasCycle depth id marks = out at hfound
      obtain ⟨cycle,after⟩ := out
      cases cycle with
      | true => exact .inr ⟨⟨id,rfl⟩,hfound⟩
      | false =>
        obtain ⟨hafter,hmarked,hall⟩ := hfound
        refine (ih hrest (hmarked.room_le.trans hroom) hafter fun v hv => hidle v (hmarked.visiting v hv)).imp_left
          fun h => ⟨h.1,fun v hv => ?_⟩
        rcases mem_cons.mp hv with rfl | hv
        · exact hafter _ (hall _ (mem_singleton.mpr rfl))
        · exact h.2 v hv

/-- Tasks name milestones and tasks that exist. -/
structure References (plan : CanonicalPlanGraph) : Prop where
  milestones : ∀ t ∈ plan.tasks, ∃ m ∈ plan.milestones, m.milestoneId = t.milestoneId
  dependencies : ∀ t ∈ plan.tasks, ∀ dep ∈ t.dependencies, ∃ u ∈ plan.tasks, u.taskId = dep

/-- Milestones list tasks that exist and are theirs. -/
def Memberships (plan : CanonicalPlanGraph) : Prop :=
  ∀ m ∈ plan.milestones, ∀ id ∈ m.taskIds, ∃ t ∈ plan.tasks, t.taskId = id ∧ t.milestoneId = m.milestoneId

structure WellFormed (plan : CanonicalPlanGraph) : Prop where
  references : plan.References
  memberships : plan.Memberships
  acyclic : Acyclic plan.Depends

theorem brokenReference_none {t : PlanTaskNode} : plan.brokenReference t = none ↔
    (∃ m ∈ plan.milestones, m.milestoneId = t.milestoneId) ∧
      ∀ dep ∈ t.dependencies, ∃ u ∈ plan.tasks, u.taskId = dep := by
  unfold brokenReference
  split
  · rename_i hmissing
    simp only [reduceCtorEq,false_iff,not_and]
    rintro ⟨m,hm,hid⟩
    rw [any_eq_false] at hmissing
    exact absurd hid (by simpa using hmissing m hm)
  · rename_i hpresent
    obtain ⟨m,hm,hid⟩ := any_eq_true.mp (Bool.not_eq_false _ ▸ hpresent)
    simp only [Option.map_eq_none_iff,List.find?_eq_none,all_eq_true,decide_eq_true_eq,not_forall,not_not,
      exists_prop]
    exact ⟨fun h => ⟨⟨m,hm,by simpa using hid⟩,h⟩,fun h => h.2⟩

theorem follows_depends {a dep : String} (h : plan.Follows a dep) : plan.Depends a dep := by
  unfold Follows at h
  cases hfound : plan.getTask a with
  | none => simp [hfound] at h
  | some t =>
    rw [hfound] at h
    exact ⟨t,mem_of_find?_eq_some hfound,getTask_id hfound,h⟩

/-- The validation passes exactly when the references of the tasks hold and no dependencies
of first listings are circular. -/
theorem validateGraph_none : plan.validateGraph = none ↔ plan.References ∧ Acyclic plan.Follows := by
  have hreferences : plan.tasks.findSome? plan.brokenReference = none ↔ plan.References := by
    rw [List.findSome?_eq_none_iff]
    exact ⟨fun h => ⟨fun t ht => (brokenReference_none.mp (h t ht)).1,fun t ht => (brokenReference_none.mp (h t ht)).2⟩,
      fun h t ht => brokenReference_none.mpr ⟨h.milestones t ht,h.dependencies t ht⟩⟩
  unfold validateGraph
  cases hbroken : plan.tasks.findSome? plan.brokenReference with
  | some message =>
    have hnot : ¬ plan.References := fun h => by
      rw [hreferences.mpr h] at hbroken
      cases hbroken
    simp [hnot]
  | none =>
    have hrefs := hreferences.mp hbroken
    have hlisted : ∀ a dep, plan.Follows a dep → dep ∈ plan.tasks.map (·.taskId) := by
      intro a dep h
      obtain ⟨t,ht,-,hdep⟩ := follows_depends h
      obtain ⟨u,hu,hid⟩ := hrefs.dependencies t ht dep hdep
      exact mem_map.mpr ⟨u,hu,hid⟩
    have hroom : plan.room [] ≤ plan.tasks.length + 1 := by
      have hle := length_filter_le (fun v => (List.lookup v ([] : Visited)).isNone) (plan.tasks.map (·.taskId))
      rw [length_map] at hle
      exact Nat.le_succ_of_le hle
    simp only [Option.map_eq_none_iff]
    rcases findCycle_found hlisted (fun _ h => h) hroom (fun _ h => by cases h) (fun _ h => by cases h) with
      ⟨hnone,hgrounded⟩ | ⟨⟨id,hsome⟩,hcyclic⟩
    · refine ⟨fun _ => ⟨hrefs,fun a hcycle => ?_⟩,fun _ => hnone⟩
      obtain ⟨b,hab,-⟩ := TransGen.head'_iff.mp hcycle
      obtain ⟨t,ht,hid,-⟩ := follows_depends hab
      exact not_transGen_of_acc (hgrounded a (mem_map.mpr ⟨t,ht,hid⟩)) hcycle
    · rw [hsome]
      exact ⟨(by rintro ⟨⟩),fun h => absurd h.2 hcyclic⟩

/-- The validation accepts exactly the well-formed plans as long as references that hold and
first listings without a cycle come with memberships that hold and no cycle at all. -/
theorem validation_exact_iff (plan : CanonicalPlanGraph) : (plan.validateGraph = none ↔ plan.WellFormed) ↔
    (plan.References → Acyclic plan.Follows → plan.Memberships ∧ Acyclic plan.Depends) := by
  have hfirst : Acyclic plan.Depends → Acyclic plan.Follows := fun h a hcycle =>
    h a (TransGen.mono (fun _ _ => follows_depends) _ _ hcycle)
  rw [validateGraph_none]
  constructor
  · intro h hrefs hacyclic
    have hwell := h.mp ⟨hrefs,hacyclic⟩
    exact ⟨hwell.memberships,hwell.acyclic⟩
  · intro h
    constructor
    · rintro ⟨hrefs,hacyclic⟩
      exact ⟨hrefs,(h hrefs hacyclic).1,(h hrefs hacyclic).2⟩
    · intro hwell
      exact ⟨hwell.references,hfirst hwell.acyclic⟩

/-- A milestone lists a task that no one has planned. -/
def strayPlan : CanonicalPlanGraph where
  planIdentity := "plan:v1"
  planVersion := 1
  milestones := [⟨"m1","GATE:m1",[],["t1","t9"]⟩]
  tasks := [sampleTask "t1" "m1" []]

theorem stray_member_passes : ¬ ∀ plan : CanonicalPlanGraph, plan.validateGraph = none ↔ plan.WellFormed := by
  intro h
  obtain ⟨t,ht,hid,-⟩ := ((h strayPlan).mp (by decide +kernel)).memberships _ mem_cons_self "t9" (by decide)
  rw [mem_singleton.mp ht] at hid
  exact absurd hid (by decide)

end CanonicalPlanGraph

end Bdb.Scope
