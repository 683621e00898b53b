import Bdb.Project.Records

/-! # Binding lifecycle

A binding starts active and ends accepted, failed or superseded. The checker groups
the bindings of a document by task and plan version and reports every violation.
-/
namespace Bdb.Project

open ProjectExecutionBinding List

namespace BindingStatus

def legalTransitions : BindingStatus → List BindingStatus
  | .active => [.accepted,.failed,.superseded]
  | _ => []

end BindingStatus

def transitionDetails (current new : BindingStatus) : Fields :=
  [("current_status",.str current.text),("new_status",.str new.text)]

def validateBindingTransition (current new : BindingStatus) : Outcome Unit :=
  if !current.legal then
    .error ⟨"binding_status_invalid","current binding status '" ++ current.text ++ "' is unknown",
      transitionDetails current new⟩
  else if !new.legal then
    .error ⟨"binding_status_invalid","target binding status '" ++ new.text ++ "' is unknown",
      transitionDetails current new⟩
  else if current = new then .ok ()
  else if new ∈ current.legalTransitions then .ok ()
  else
    .error ⟨"illegal_binding_transition","illegal transition from '" ++ current.text ++ "' to '" ++
      new.text ++ "' (terminal state cannot be mutated)",transitionDetails current new⟩

/-- A missing or empty end time is filled in. -/
def finishedOr (finishedAt : Option String) (now : String) : String :=
  match finishedAt with
  | some s => if s = "" then now else s
  | none => now

def supersede (now : String) (b : ProjectExecutionBinding) : ProjectExecutionBinding :=
  { b with status := .superseded, superseded := true, finishedAt := some (finishedOr b.finishedAt now) }

/-! ## The checker -/

abbrev GroupKey := String × String

def groupKey (b : ProjectExecutionBinding) : GroupKey := (b.taskId,b.planVersion)

/-- The groups of a document in the order their first bindings were appended. -/
def groupKeys (bindings : List ProjectExecutionBinding) : List GroupKey :=
  (bindings.map groupKey).eraseDups

def group (bindings : List ProjectExecutionBinding) (key : GroupKey) : List ProjectExecutionBinding :=
  bindings.filter (fun b => groupKey b == key)

def strictlyIncreasing : List Int → Bool
  | [] => true
  | [_] => true
  | a :: b :: rest => decide (a < b) && strictlyIncreasing (b :: rest)

def groupLabel (key : GroupKey) : String := "Task (" ++ key.1 ++ ", v=" ++ key.2 ++ ")"

def activeErrors (rt : Runtime) (key : GroupKey) (bs : List ProjectExecutionBinding) : List String :=
  let active := bs.filter isActive
  if active.length > 1 then
    [groupLabel key ++ " has " ++ active.length.repr ++ " ACTIVE bindings: " ++
      rt.str (strings (active.map (·.executionBindingId)))]
  else []

def generationErrors (rt : Runtime) (key : GroupKey) (bs : List ProjectExecutionBinding) :
    List String :=
  let generations := bs.map (·.generation)
  let shown := rt.str (.arr (generations.map .int))
  (if generations.any (fun g => decide (g < 1)) then
    [groupLabel key ++ " has generation < 1: " ++ shown] else []) ++
  (if strictlyIncreasing generations then []
    else [groupLabel key ++ " generations not strictly increasing: " ++ shown])

def statusErrors (b : ProjectExecutionBinding) : List String :=
  (if b.status.legal then []
    else ["Binding " ++ b.executionBindingId ++ " has invalid status '" ++ b.status.text ++ "'"]) ++
  (if b.status = .superseded ∧ b.superseded = false then
    ["Binding " ++ b.executionBindingId ++ " has status SUPERSEDED but superseded=False"] else [])

def groupErrors (rt : Runtime) (key : GroupKey) (bs : List ProjectExecutionBinding) : List String :=
  activeErrors rt key bs ++ generationErrors rt key bs ++ bs.flatMap statusErrors

def checkBindingLifecycleInvariants (rt : Runtime) (d : ExecutionDocument) : Bool × List String :=
  let errors := (groupKeys d.bindings).flatMap (fun key => groupErrors rt key (group d.bindings key))
  (errors.isEmpty,errors)

/-! ## Reconciliation -/

def createdBefore (a b : ProjectExecutionBinding × ℕ) : Bool :=
  decide (a.1.createdAt < b.1.createdAt) ||
    (a.1.createdAt == b.1.createdAt && decide (a.1.executionBindingId ≤ b.1.executionBindingId))

/-- Generations follow the order of creation. -/
def renumber (bs : List (ProjectExecutionBinding × ℕ)) : List (ProjectExecutionBinding × ℕ) :=
  (bs.zipIdx 1).map (fun p =>
    ({ p.1.1 with generation := if p.1.1.generation < p.2 then p.2 else p.1.1.generation },p.1.2))

def canonicalActive (current : Option String) (active : List (ProjectExecutionBinding × ℕ)) :
    Option (ProjectExecutionBinding × ℕ) :=
  (current.filter (· ≠ "")).bind (fun id => active.find? (fun p => p.1.executionBindingId == id)) <|>
    active.getLast?

def reconcileGroup (now : String) (current : Option String)
    (bs : List (ProjectExecutionBinding × ℕ)) : List (ProjectExecutionBinding × ℕ) :=
  let numbered := renumber (bs.insertionSort (fun a b => createdBefore a b = true))
  let active := numbered.filter (fun p => p.1.isActive)
  if active.length ≤ 1 then numbered
  else
    let canonical := (canonicalActive current active).map (·.2)
    numbered.map (fun p => if p.1.isActive && canonical != some p.2 then (supersede now p.1,p.2) else p)

def reconcileExecutionBindings (now : String) (d : ExecutionDocument) : ExecutionDocument :=
  let indexed := d.bindings.zipIdx
  let updated := (groupKeys d.bindings).flatMap (fun key =>
    reconcileGroup now d.currentBinding (indexed.filter (fun p => groupKey p.1 == key)))
  { d with bindings := indexed.map (fun p => ((updated.find? (fun q => q.2 == p.2)).map (·.1)).getD p.1) }

/-! ## What the checker accepts -/

theorem strictlyIncreasing_of_pairwise {gs : List Int} (h : gs.Pairwise (· < ·)) :
    strictlyIncreasing gs = true := by
  induction gs with
  | nil => rfl
  | cons a rest ih =>
    cases rest with
    | nil => rfl
    | cons b rest =>
      obtain ⟨ha,hrest⟩ := pairwise_cons.mp h
      have hab : a < b := ha b mem_cons_self
      simp only [strictlyIncreasing,hab,decide_true,Bool.true_and]
      exact ih hrest

theorem length_filter_le_one {α : Type} {p : α → Bool} {xs : List α}
    (h : xs.Pairwise (fun a b => ¬ (p a = true ∧ p b = true))) : (xs.filter p).length ≤ 1 := by
  induction xs with
  | nil => simp
  | cons a rest ih =>
    obtain ⟨ha,hrest⟩ := pairwise_cons.mp h
    by_cases hp : p a = true
    · have hnone : rest.filter p = [] := by
        rw [filter_eq_nil_iff]
        intro b hb hpb
        exact ha b hb ⟨hp,hpb⟩
      simp [hp,hnone]
    · simpa [hp] using ih hrest

/-- Two bindings of one group, the earlier first: the later one has a larger
generation and at most one of the two is active. -/
def Succeeds (a b : ProjectExecutionBinding) : Prop :=
  groupKey a = groupKey b → a.generation < b.generation ∧ ¬ (a.isActive = true ∧ b.isActive = true)

/-- A binding whose own fields are consistent. -/
structure Sound (b : ProjectExecutionBinding) : Prop where
  generation : 1 ≤ b.generation
  legal : b.status.legal = true
  flag : b.status = .superseded → b.superseded = true

theorem statusErrors_of_sound {b : ProjectExecutionBinding} (h : Sound b) : statusErrors b = [] := by
  have hflag : ¬ (b.status = .superseded ∧ b.superseded = false) := by
    intro ⟨hs,hf⟩
    rw [h.flag hs] at hf
    cases hf
  simp [statusErrors,h.legal,hflag]

theorem group_pairwise {bindings : List ProjectExecutionBinding} (h : bindings.Pairwise Succeeds)
    (key : GroupKey) :
    (group bindings key).Pairwise (fun a b => a.generation < b.generation ∧
      ¬ (a.isActive = true ∧ b.isActive = true)) := by
  have hsub : (group bindings key).Pairwise Succeeds := h.filter _
  refine List.Pairwise.imp_of_mem ?_ hsub
  intro a b ha hb hab
  have hka : groupKey a = key := by simpa using (mem_filter.mp ha).2
  have hkb : groupKey b = key := by simpa using (mem_filter.mp hb).2
  exact hab (hka.trans hkb.symm)

theorem check_of_pairwise (rt : Runtime) {d : ExecutionDocument}
    (hpair : d.bindings.Pairwise Succeeds) (hsound : ∀ b ∈ d.bindings, Sound b) :
    checkBindingLifecycleInvariants rt d = (true,[]) := by
  have hgroup : ∀ key, groupErrors rt key (group d.bindings key) = [] := by
    intro key
    have hp := group_pairwise hpair key
    have hone : ((group d.bindings key).filter isActive).length ≤ 1 :=
      length_filter_le_one (hp.imp fun h => h.2)
    have hmono : strictlyIncreasing ((group d.bindings key).map (·.generation)) = true :=
      strictlyIncreasing_of_pairwise (pairwise_map.mpr (hp.imp fun h => h.1))
    have hmem : ∀ b ∈ group d.bindings key, Sound b :=
      fun b hb => hsound b (mem_filter.mp hb).1
    have hpos : ((group d.bindings key).map (·.generation)).any (fun g => decide (g < 1)) = false := by
      rw [any_eq_false]
      intro g hg
      obtain ⟨b,hb,rfl⟩ := mem_map.mp hg
      have := (hmem b hb).generation
      simp only [decide_eq_true_eq,not_lt]
      exact this
    have hstatus : (group d.bindings key).flatMap statusErrors = [] := by
      rw [flatMap_eq_nil_iff]
      exact fun b hb => statusErrors_of_sound (hmem b hb)
    have hactive : activeErrors rt key (group d.bindings key) = [] := by
      simp only [activeErrors]
      exact if_neg (by omega)
    simp only [groupErrors,hactive,hstatus,generationErrors,hmono,hpos,Bool.false_eq_true,↓reduceIte,
      append_nil]
  have hnil : (groupKeys d.bindings).flatMap (fun key => groupErrors rt key (group d.bindings key)) = [] := by
    rw [flatMap_eq_nil_iff]
    exact fun key _ => hgroup key
  simp only [checkBindingLifecycleInvariants,hnil,isEmpty_nil]

end Bdb.Project
