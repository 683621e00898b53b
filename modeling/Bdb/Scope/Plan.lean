import Bdb.Base.Outcome

/-! # The plan graph

Milestones with their tasks and gates, tasks with their dependencies, and the validation
that every tick starts with: references must exist and dependencies must not be circular.
-/
namespace Bdb.Scope

structure PlanTaskNode where
  taskId : String
  milestoneId : String
  dependencies : List String
  isGate : Bool
  requiresManualApproval : Bool
  requiresPolicyApproval : Bool
deriving DecidableEq

structure PlanMilestoneNode where
  milestoneId : String
  gateId : String
  dependencies : List String
  taskIds : List String
deriving DecidableEq

structure CanonicalPlanGraph where
  planIdentity : String
  planVersion : ℕ
  milestones : List PlanMilestoneNode
  tasks : List PlanTaskNode
deriving DecidableEq

namespace CanonicalPlanGraph

variable (plan : CanonicalPlanGraph)

def getTask (taskId : String) : Option PlanTaskNode := plan.tasks.find? (fun t => t.taskId = taskId)

def getMilestone (milestoneId : String) : Option PlanMilestoneNode :=
  plan.milestones.find? (fun m => m.milestoneId = milestoneId)

def indexOf (milestoneId : String) : ℕ := plan.milestones.findIdx (fun m => m.milestoneId = milestoneId)

def milestonesBefore (milestoneId : String) : List PlanMilestoneNode :=
  plan.milestones.take (plan.indexOf milestoneId)

/-! ## Validation -/

inductive Mark where
  | visiting
  | visited
deriving DecidableEq

abbrev Visited := List (String × Mark)

/-- Looks at the dependencies in order, and visits those that have no mark yet. -/
def anyCycle (visit : String → Visited → Bool × Visited) : List String → Visited → Bool × Visited
  | [], marks => (false,marks)
  | dep :: deps, marks =>
    match marks.lookup dep with
    | some .visiting => (true,marks)
    | some .visited => anyCycle visit deps marks
    | none =>
      match visit dep marks with
      | (true,marks) => (true,marks)
      | (false,marks) => anyCycle visit deps marks

/-- Depth-first search for a circular dependency. The depth is at most the number of tasks. -/
def hasCycle : ℕ → String → Visited → Bool × Visited
  | 0, _, marks => (true,marks)
  | depth + 1, taskId, marks =>
    let deps := ((plan.getTask taskId).map (·.dependencies)).getD []
    match anyCycle (hasCycle depth) deps ((taskId,.visiting) :: marks) with
    | (true,marks) => (true,marks)
    | (false,marks) => (false,(taskId,.visited) :: marks)

def findCycle (depth : ℕ) : List String → Visited → Option String
  | [], _ => none
  | taskId :: rest, marks =>
    if (marks.lookup taskId).isSome then findCycle depth rest marks
    else
      match plan.hasCycle depth taskId marks with
      | (true,_) => some taskId
      | (false,marks) => findCycle depth rest marks

def brokenReference (t : PlanTaskNode) : Option String :=
  if plan.milestones.any (fun m => m.milestoneId = t.milestoneId) = false then
    some ("Task " ++ t.taskId ++ " references non-existent milestone " ++ t.milestoneId)
  else
    (t.dependencies.find? (fun dep => plan.tasks.all (fun u => u.taskId ≠ dep))).map
      (fun dep => "Task " ++ t.taskId ++ " references non-existent dependency " ++ dep)

/-- What is wrong with the graph, if anything. The search starts from the tasks in plan
order; the source starts from them in the order of a set. -/
def validateGraph : Option String :=
  match plan.tasks.findSome? plan.brokenReference with
  | some message => some message
  | none =>
    (plan.findCycle (plan.tasks.length + 1) (plan.tasks.map (·.taskId)) []).map
      (fun taskId => "Circular dependency detected involving task " ++ taskId)

/-! ## Looking up -/

variable {plan} {taskId milestoneId : String} {t : PlanTaskNode} {m : PlanMilestoneNode}

theorem getTask_id (h : plan.getTask taskId = some t) : t.taskId = taskId := by
  simpa using List.find?_some h

theorem getMilestone_id (h : plan.getMilestone milestoneId = some m) : m.milestoneId = milestoneId := by
  simpa using List.find?_some h

theorem getMilestone_of_mem (h : m ∈ plan.milestones) : ∃ n, plan.getMilestone m.milestoneId = some n := by
  apply Option.isSome_iff_exists.mp
  rw [getMilestone,List.find?_isSome]
  exact ⟨m,h,by simp⟩

theorem getElem_indexOf (h : plan.getMilestone milestoneId = some m) :
    plan.milestones[plan.indexOf milestoneId]? = some m := by
  unfold getMilestone at h
  unfold indexOf
  exact List.find?_eq_getElem?_findIdx.symm.trans h

theorem indexOf_le {k : ℕ} (h : plan.milestones[k]? = some m) : plan.indexOf m.milestoneId ≤ k := by
  by_contra hlt
  push Not at hlt
  obtain ⟨hk,hm⟩ := List.getElem?_eq_some_iff.mp h
  have hnot := List.not_of_lt_findIdx hlt
  rw [hm] at hnot
  simp at hnot

theorem indexOf_eq {k : ℕ} (hdistinct : (plan.milestones.map (·.milestoneId)).Nodup)
    (h : plan.milestones[k]? = some m) : plan.indexOf m.milestoneId = k := by
  obtain ⟨n,hn⟩ := getMilestone_of_mem (List.mem_of_getElem? h)
  obtain ⟨hlt,helem⟩ := List.getElem?_eq_some_iff.mp (getElem_indexOf hn)
  obtain ⟨hk,hm⟩ := List.getElem?_eq_some_iff.mp h
  have hi : plan.indexOf m.milestoneId < (plan.milestones.map (·.milestoneId)).length := by simpa using hlt
  have hk' : k < (plan.milestones.map (·.milestoneId)).length := by simpa using hk
  have hsame : (plan.milestones.map (·.milestoneId)).get ⟨_,hi⟩ = (plan.milestones.map (·.milestoneId)).get ⟨k,hk'⟩ := by
    simp only [List.get_eq_getElem,List.getElem_map,helem,hm]
    exact getMilestone_id hn
  exact congrArg Fin.val (List.nodup_iff_injective_get.mp hdistinct hsame)

end CanonicalPlanGraph

end Bdb.Scope
