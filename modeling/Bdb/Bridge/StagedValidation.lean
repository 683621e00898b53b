import Bdb.Bridge.Paths
import Mathlib.Data.List.Induction

/-! # Staged validation

The tests that the changed paths name are run first, then the whole suite without the files of these
tests. A staged success is a success of the whole suite. The converse needs tests in the targeted files,
all of them passing, and tests that are left for the last stage.
-/
namespace Bdb.Bridge.StagedValidation

open List

inductive RunStatus where
  | success
  | failed
  | timeout
  | internalError
deriving DecidableEq

structure ProfileRunOutcome where
  status : RunStatus
  exitCode : Option ℕ
deriving DecidableEq

structure Workspace where
  /-- The regular files, by their paths. -/
  files : List String
  /-- What a pattern matches in the directory of tests. -/
  glob : String → List String
  /-- Whether each test of a file passes. -/
  tests : String → List Bool
  /-- The files in which a run without paths finds its tests. -/
  collected : String → Bool
  /-- The answer of the structural checks for the changed paths. -/
  structural : List String → ProfileRunOutcome

/-! ## Target selection -/

def startsWith (s start : String) : Bool := start.toList.isPrefixOf s.toList

def endsWith (s ending : String) : Bool := ending.toList.isSuffixOf s.toList

def fileName (relative : String) : String := (pureParts relative).getLastD ""

/-- The name without its last suffix. -/
def stem (relative : String) : String :=
  let name := (fileName relative).toList
  let suffix := name.reverse.takeWhile (· ≠ '.')
  let rest := (name.reverse.drop (suffix.length + 1)).reverse
  String.ofList (if '.' ∈ name ∧ suffix ≠ [] ∧ rest ≠ [] then rest else name)

def browserFastTestPatterns : List (String × List String) :=
  [("content_auto_retry.js",
      ["test_browser_auto_decision_retry_runtime.py","test_browser_conversation_tab_binding_runtime.py"]),
    ("content_auto_send.js",
      ["test_browser_auto_send_confirmation_runtime.py","test_browser_auto_composer_fast_path_runtime.py"]),
    ("background_task_controller.js",
      ["test_browser_task_controller_runtime.py","test_browser_failed_result_recovery_runtime.py"]),
    ("popup.js",["test_browser_auto_contract.py","test_browser_task_controller_contract.py"])]

def migrationContractChanged (relative : String) : Bool :=
  relative == "bdb_bridge/migrations.py" || startsWith relative "bdb_bridge/" && endsWith (stem relative) "_migration"

def packageLabel (label : String) : String :=
  if startsWith label "bdb_" then String.ofList (label.toList.drop 4) else label

def isBrowserTest (relative : String) : Bool := startsWith relative "tests/test_browser" && endsWith relative ".py"

def sorted (paths : List String) : List String := paths.dedup.insertionSort (· ≤ ·)

namespace Workspace

variable (w : Workspace)

def addPath (path : String) : List String :=
  [String.ofList (['/'].intercalate ((pureParts path).map String.toList))].filter (· ∈ w.files)

def addGlob (pattern : String) : List String := (w.glob pattern).filter (· ∈ w.files)

/-- What one changed path selects. -/
def selected (relative : String) : List String :=
  if startsWith relative "tests/" && endsWith relative ".py" then w.addPath relative
  else if startsWith relative "browser_extension/" then
    match browserFastTestPatterns.lookup (fileName relative) with
    | none => w.addGlob "test_browser*.py"
    | some patterns => patterns.flatMap w.addGlob
  else
    (if migrationContractChanged relative then
      w.addGlob "test_*migration*.py" ++ w.addPath "tests/test_durable_ingestion_additional.py" ++
        w.addPath "tests/test_multi_file_patch_v10_contracts.py"
      else []) ++
    if endsWith relative ".py" then
      w.addGlob ("test_" ++ stem relative ++ ".py") ++ w.addGlob ("test_" ++ stem relative ++ "_*.py") ++
        w.addGlob ("test_*_" ++ stem relative ++ ".py") ++
        match pureParts relative with
        | label :: _ :: _ => w.addGlob ("test_" ++ packageLabel label ++ "*.py")
        | _ => []
    else []

def targetedTestPaths (changed : List String) : List String := sorted (changed.flatMap w.selected)

def browserRegressionTestPaths (changed : List String) : List String :=
  let sources := changed.filter fun relative => !isBrowserTest relative
  if sources.all (fun relative => startsWith relative "browser_extension/" &&
      (browserFastTestPatterns.lookup (fileName relative)).isSome) = true ∧ 1 < (sources.map fileName).dedup.length then
    sorted (w.addGlob "test_browser*.py")
  else []

end Workspace

/-- Only changes of the browser extension and its tests go without the full suite. -/
def requiresFullPytest (changed : List String) : Bool :=
  changed.isEmpty || changed.any fun relative => !startsWith relative "browser_extension/" && !isBrowserTest relative

/-! ## The runs -/

/-- The exit code of a run that has collected these tests. -/
def exitCode (tests : List Bool) : ℕ := if tests = [] then 5 else if tests.all id then 0 else 1

namespace Workspace

variable (w : Workspace)

/-- The tests of the given paths, or what is collected outside the ignored ones. -/
def collects (testPaths excludePaths : List String) : List Bool :=
  if testPaths = [] then (w.files.filter fun f => w.collected f ∧ f ∉ excludePaths).flatMap w.tests
  else testPaths.flatMap w.tests

def runPytest (testPaths excludePaths : List String) : ProfileRunOutcome :=
  let code := exitCode (w.collects testPaths excludePaths)
  ⟨if code = 0 then .success else .failed,some code⟩

def passed : ProfileRunOutcome := ⟨.success,some 0⟩

/-- A stage of explicit paths, which is skipped when there are none. -/
def runPaths (testPaths : List String) : ProfileRunOutcome :=
  if testPaths = [] then passed else w.runPytest testPaths []

def runStagedPytestProfile (changed : List String) : ProfileRunOutcome :=
  let structural := w.structural changed
  let targeted := w.runPaths (w.targetedTestPaths changed)
  let regression := w.runPaths (w.browserRegressionTestPaths changed)
  if structural.status ≠ .success then structural
  else if targeted.status ≠ .success then targeted
  else if regression.status ≠ .success then regression
  else if requiresFullPytest changed = true then w.runPytest [] (w.targetedTestPaths changed)
  else passed

end Workspace

/-- The recorded stages of a command, by their index. -/
abbrev ValidationRuns := ℕ → Option ProfileRunOutcome

def durableStage (index : ℕ) (runner : ProfileRunOutcome) (runs : ValidationRuns) :
    ValidationRuns × ProfileRunOutcome :=
  match runs index with
  | some existing => (runs,existing)
  | none => (Function.update runs index (some runner),runner)

/-- The stages from an index on, by a process that lives long enough to record `left` of them. -/
def durableStages (index : ℕ) : List ProfileRunOutcome → ℕ → ValidationRuns → ValidationRuns × Option ProfileRunOutcome
  | [], _, runs => (runs,none)
  | _ :: _, 0, runs => (runs,none)
  | runner :: rest, left + 1, runs =>
    let stage := durableStage index runner runs
    if stage.2.status ≠ .success ∨ rest = [] then (stage.1,some stage.2)
    else durableStages (index + 1) rest left stage.1

namespace Workspace

variable (w : Workspace)

/-- What the runners of the four stages answer; `debt` full runs have been skipped before. -/
def stages (changed : List String) (debt : ℕ) : List ProfileRunOutcome :=
  [w.structural changed,w.runPaths (w.targetedTestPaths changed),w.runPaths (w.browserRegressionTestPaths changed),
    if requiresFullPytest changed = true ∨ 4 ≤ debt then w.runPytest [] (w.targetedTestPaths changed) else passed]

def runDurableStagedPytestProfile (changed : List String) (debt left : ℕ) (runs : ValidationRuns) :
    ValidationRuns × Option ProfileRunOutcome :=
  durableStages 1 (w.stages changed debt) left runs

/-- What runs that were interrupted have recorded. -/
def restarted (changed : List String) (lives : List (ℕ × ℕ)) : ValidationRuns :=
  lives.foldl (fun runs life => (w.runDurableStagedPytestProfile changed life.1 life.2 runs).1) fun _ => none

end Workspace

/-! ## Restarts -/

/-- What is recorded is what the runners answer. -/
def Recorded (index : ℕ) (stages : List ProfileRunOutcome) (runs : ValidationRuns) : Prop :=
  ∀ k o, runs (index + k) = some o → stages[k]? = some o

/-- The first stage that does not succeed, or the last one. -/
def verdict : List ProfileRunOutcome → Option ProfileRunOutcome
  | [] => none
  | runner :: rest => if runner.status ≠ .success ∨ rest = [] then some runner else verdict rest

variable {index left : ℕ} {runner : ProfileRunOutcome} {rest stages : List ProfileRunOutcome} {runs : ValidationRuns}

theorem durableStage_recorded (h : Recorded index (runner :: rest) runs) :
    (durableStage index runner runs).2 = runner ∧ (durableStage index runner runs).1 index = some runner ∧
      ∀ i, i ≠ index → (durableStage index runner runs).1 i = runs i := by
  unfold durableStage
  cases hrun : runs index with
  | some existing =>
    obtain rfl : runner = existing := Option.some.inj (h 0 existing hrun)
    exact ⟨rfl,hrun,fun _ _ => rfl⟩
  | none => exact ⟨rfl,Function.update_self ..,fun i hi => Function.update_of_ne hi ..⟩

theorem durableStage_rest (h : Recorded index (runner :: rest) runs) :
    Recorded (index + 1) rest (durableStage index runner runs).1 := by
  intro k o ho
  rw [(durableStage_recorded h).2.2 _ (by omega),Nat.add_assoc,Nat.add_comm 1] at ho
  exact h (k + 1) o ho

theorem durableStages_below (i : ℕ) (hi : i < index) : (durableStages index stages left runs).1 i = runs i := by
  induction stages generalizing index left runs with
  | nil => rw [durableStages]
  | cons runner rest ih =>
    cases left with
    | zero => rfl
    | succ left =>
      have hstage : (durableStage index runner runs).1 i = runs i := by
        unfold durableStage
        split
        · rfl
        · exact Function.update_of_ne hi.ne ..
      unfold durableStages
      dsimp only
      split
      · exact hstage
      · exact (ih (hi.trans (Nat.lt_succ_self index))).trans hstage

theorem Recorded.kept (h : Recorded index stages runs) : Recorded index stages (durableStages index stages left runs).1 := by
  induction stages generalizing index left runs with
  | nil => rwa [durableStages]
  | cons runner rest ih =>
    cases left with
    | zero => exact h
    | succ left =>
      obtain ⟨-,hself,hothers⟩ := durableStage_recorded h
      have hrest := durableStage_rest h
      have hall : ∀ runs' : ValidationRuns, runs' index = some runner → Recorded (index + 1) rest runs' →
          Recorded index (runner :: rest) runs' := by
        intro runs' hfirst hlater k o ho
        cases k with
        | zero => exact hfirst.symm.trans ho
        | succ k => exact hlater k o (by rwa [Nat.add_assoc,Nat.add_comm 1])
      unfold durableStages
      dsimp only
      split
      · exact hall _ hself hrest
      · exact hall _ ((durableStages_below index (Nat.lt_succ_self index)).trans hself) (ih hrest)

/-- A run that is not interrupted ends as if nothing had been recorded. -/
theorem durableStages_verdict (h : Recorded index stages runs) (hleft : stages.length ≤ left) :
    (durableStages index stages left runs).2 = verdict stages := by
  induction stages generalizing index left runs with
  | nil => rw [durableStages,verdict]
  | cons runner rest ih =>
    cases left with
    | zero => cases hleft
    | succ left =>
      unfold durableStages verdict
      dsimp only
      rw [(durableStage_recorded h).1]
      split
      · rfl
      · exact ih (durableStage_rest h) (Nat.le_of_succ_le_succ hleft)

/-! ## Staged and whole -/

/-- Some test was collected and all have passed. -/
def Green (tests : List Bool) : Prop := tests ≠ [] ∧ ∀ b ∈ tests, b = true

variable {w : Workspace} {changed targeted : List String}

theorem runPytest_success {testPaths excludePaths : List String} :
    (w.runPytest testPaths excludePaths).status = .success ↔ Green (w.collects testPaths excludePaths) := by
  unfold Workspace.runPytest exitCode Green
  split_ifs <;> simp_all

theorem runPaths_success : (w.runPaths targeted).status = .success ↔
    targeted ≠ [] → Green (targeted.flatMap w.tests) := by
  unfold Workspace.runPaths
  split
  next hnone => simp [hnone,Workspace.passed]
  next hsome => rw [runPytest_success,Workspace.collects,if_neg hsome]; simp [hsome]

theorem regression_nil (hne : changed ≠ []) (hfull : requiresFullPytest changed = true) :
    w.browserRegressionTestPaths changed = [] := by
  simp only [requiresFullPytest,Bool.or_eq_true,List.isEmpty_iff,hne,false_or,any_eq_true,Bool.and_eq_true,
    Bool.not_eq_true'] at hfull
  obtain ⟨relative,hmem,houtside,htest⟩ := hfull
  refine if_neg fun h => ?_
  have hall := (Bool.and_eq_true _ _ ▸ all_eq_true.mp h.1 relative (mem_filter.mpr ⟨hmem,by rw [htest]; rfl⟩)).1
  exact absurd (houtside.symm.trans hall) (by decide)

/-- A single run over the whole workspace reports success. -/
def Workspace.Passes (w : Workspace) : Prop := (w.runPytest [] []).status = .success

/-- If the whole suite passes, then the targeted files have tests, these pass, and some are left. -/
def Workspace.Splits (w : Workspace) (targeted : List String) : Prop :=
  Green (w.collects [] []) → (targeted ≠ [] → Green (targeted.flatMap w.tests)) ∧ w.collects [] targeted ≠ []

theorem staged_success (hne : changed ≠ []) (hfull : requiresFullPytest changed = true)
    (hstructural : (w.structural changed).status = .success) :
    (w.runStagedPytestProfile changed).status = .success ↔
      (w.targetedTestPaths changed ≠ [] → Green ((w.targetedTestPaths changed).flatMap w.tests)) ∧
        Green (w.collects [] (w.targetedTestPaths changed)) := by
  unfold Workspace.runStagedPytestProfile
  rw [regression_nil hne hfull,← runPaths_success,← runPytest_success]
  dsimp only
  rw [if_neg (not_not.mpr hstructural),if_pos hfull,Workspace.runPaths,Workspace.runPaths,if_pos rfl]
  split_ifs <;> simp_all [Workspace.passed]

theorem durable_verdict (hfull : requiresFullPytest changed = true) (debt : ℕ) :
    verdict (w.stages changed debt) = some (w.runStagedPytestProfile changed) := by
  simp only [Workspace.stages,verdict,Workspace.runStagedPytestProfile,hfull,true_or,if_true,reduceCtorEq,or_false,or_true]
  split_ifs <;> rfl

theorem collects_split (targeted : List String) (f : String) (b : Bool) (hf : f ∈ w.files)
    (hcollected : w.collected f = true) (hb : b ∈ w.tests f) :
    b ∈ targeted.flatMap w.tests ∨ b ∈ w.collects [] targeted := by
  by_cases hmem : f ∈ targeted
  · exact .inl (mem_flatMap.mpr ⟨f,hmem,hb⟩)
  · refine .inr (mem_flatMap.mpr ⟨f,mem_filter.mpr ⟨hf,?_⟩,hb⟩)
    simp [hcollected,hmem]

theorem mem_collects {b : Bool} {excludePaths : List String} : b ∈ w.collects [] excludePaths ↔
    ∃ f ∈ w.files, w.collected f = true ∧ f ∉ excludePaths ∧ b ∈ w.tests f := by
  simp [Workspace.collects,and_assoc]

theorem split_iff : (((targeted ≠ [] → Green (targeted.flatMap w.tests)) ∧ Green (w.collects [] targeted)) ↔ w.Passes) ↔
    w.Splits targeted := by
  unfold Workspace.Splits Workspace.Passes
  rw [runPytest_success]
  constructor
  · exact fun h hpasses => ⟨(h.mpr hpasses).1,(h.mpr hpasses).2.1⟩
  · refine fun h => ⟨?_,fun hpasses => ⟨(h hpasses).1,(h hpasses).2,fun b hb => ?_⟩⟩
    · rintro ⟨htargeted,hnonempty,hrest⟩
      obtain ⟨b,hb⟩ := exists_mem_of_ne_nil _ hnonempty
      obtain ⟨f,hf,hcollected,-,htest⟩ := mem_collects.mp hb
      refine ⟨ne_nil_of_mem (mem_collects.mpr ⟨f,hf,hcollected,not_mem_nil,htest⟩),fun b hb => ?_⟩
      obtain ⟨f,hf,hcollected,-,htest⟩ := mem_collects.mp hb
      rcases collects_split targeted f b hf hcollected htest with hfirst | hlast
      · obtain ⟨f,hmem,-⟩ := mem_flatMap.mp hfirst
        exact (htargeted (ne_nil_of_mem hmem)).2 b hfirst
      · exact hrest b hlast
    · obtain ⟨f,hf,hcollected,-,htest⟩ := mem_collects.mp hb
      exact hpasses.2 b (mem_collects.mpr ⟨f,hf,hcollected,not_mem_nil,htest⟩)

theorem restarted_recorded (hfull : requiresFullPytest changed = true) (lives : List (ℕ × ℕ)) :
    Recorded 1 (w.stages changed 0) (w.restarted changed lives) := by
  have hdebt : ∀ debt, w.stages changed debt = w.stages changed 0 := fun debt => by simp [Workspace.stages,hfull]
  unfold Workspace.restarted
  induction lives using List.reverseRecOn with
  | nil => intro k o ho; cases ho
  | append_singleton lives life ih =>
    rw [foldl_append,foldl_cons,foldl_nil,Workspace.runDurableStagedPytestProfile,hdebt life.1]
    exact ih.kept

/-- Both profiles decide like a run of the whole suite exactly when the targeted tests split it. -/
theorem staged_like_whole_iff (w : Workspace) (changed : List String) (lives : List (ℕ × ℕ)) (debt left : ℕ)
    (hne : changed ≠ []) (hfull : requiresFullPytest changed = true)
    (hstructural : (w.structural changed).status = .success) (hleft : 4 ≤ left) :
    (((w.runStagedPytestProfile changed).status = .success ↔ w.Passes) ∧
      ((∃ o, (w.runDurableStagedPytestProfile changed debt left (w.restarted changed lives)).2 = some o ∧
        o.status = .success) ↔ w.Passes)) ↔ w.Splits (w.targetedTestPaths changed) := by
  have hrecorded := restarted_recorded (w := w) hfull lives
  have hdebt : w.stages changed debt = w.stages changed 0 := by simp [Workspace.stages,hfull]
  rw [Workspace.runDurableStagedPytestProfile,hdebt,durableStages_verdict hrecorded hleft,durable_verdict hfull]
  simp only [Option.some.injEq,exists_eq_left',and_self]
  rw [staged_success hne hfull hstructural,split_iff]

/-- A changed file of test helpers beside a test that passes. -/
def sampleWorkspace : Workspace where
  files := ["tests/conftest.py","tests/test_a.py"]
  glob _ := []
  tests f := if f = "tests/test_a.py" then [true] else []
  collected f := f = "tests/test_a.py"
  structural _ := Workspace.passed

/-- The helpers are run as if they were tests, and no test is found in them. -/
theorem helper_fails_the_stage : requiresFullPytest ["tests/conftest.py"] = true ∧
    (sampleWorkspace.structural ["tests/conftest.py"]).status = .success ∧ sampleWorkspace.Passes ∧
      (sampleWorkspace.runStagedPytestProfile ["tests/conftest.py"]).status = .failed := by
  unfold Workspace.Passes
  decide +kernel

theorem staged_like_whole_document :
    (((sampleWorkspace.runStagedPytestProfile ["README.md"]).status = .success ↔ sampleWorkspace.Passes) ∧
      ((∃ o, (sampleWorkspace.runDurableStagedPytestProfile ["README.md"] 0 4
        (sampleWorkspace.restarted ["README.md"] [(0,2)])).2 = some o ∧ o.status = .success) ↔ sampleWorkspace.Passes)) ↔
      sampleWorkspace.Splits (sampleWorkspace.targetedTestPaths ["README.md"]) :=
  staged_like_whole_iff sampleWorkspace ["README.md"] [(0,2)] 0 4 (by decide) (by decide +kernel) rfl (by decide)

end Bdb.Bridge.StagedValidation
