import Bdb.Base.Rereading
import Bdb.Project.PlanDiffs

/-! # Reading a plan again

The document of an accepted plan is accepted as the same plan: every field is stored in
the form its reader settles on, and optional fields and sections are stored exactly when
they were given. So a plan that the store wrote is the current plan it reads.
-/
namespace Bdb.Project

open List

/-! ## Fields -/

variable {maxLength : ℕ} {code k key : String} {s : TaskStatus} {raw : Fields}
    {seen milestoneIds : List String} {value : Json} {values : List Json} {p : ProjectPlan}
    {f : OptionalField} {expected : Option String}

variable {field : String} {fs : Fields} {rt : Runtime}

theorem planText_again : Rereads (fun v => planText v field maxLength) .str := by
  intro value s h
  obtain ⟨raw,rfl,rfl,hne,hlen⟩ := boundedText_ok h
  have hagain : planText (.str (strip (strip raw))) field maxLength = .ok (strip raw) := by
    rw [strip_strip]
    refine require_bind (by rwa [strip_strip]) ?_
    refine require_bind (by rwa [strip_strip]) ?_
    rw [strip_strip]
    rfl
  rwa [strip_strip] at hagain

theorem textItems_again {maxItems : ℕ} :
    Rereads (fun v => textItems code v field maxItems maxLength) strings := by
  intro value xs h
  cases value with
  | null =>
    obtain rfl := pure_ok.mp h
    exact require_bind (Nat.zero_le _) rfl
  | arr values =>
    obtain ⟨hlen,h⟩ := of_require h
    obtain ⟨hagain,hsame⟩ := planText_again.mapM h
    refine bind_ok.mpr ⟨(),require_of ?_ _ _,hagain⟩
    rw [length_map,hsame]
    exact hlen
  | _ => exact absurd h fail_ne_ok

theorem planText_of_matchesId {i : String} (h : matchesId 0 95 i = true) :
    planText (.str i) field 96 = .ok i := by
  have hstrip := strip_of_matchesId h
  have hbound : i ≠ "" ∧ i.length ≤ 96 := by
    unfold matchesId at h
    cases hi : i.toList with
    | nil => simp [hi] at h
    | cons c cs =>
      simp only [hi,Bool.and_eq_true,decide_eq_true_eq] at h
      refine ⟨?_,?_⟩
      · rintro rfl
        cases hi
      · rw [← String.length_toList,hi,length_cons]
        omega
  refine bind_ok.mpr ⟨(),require_of ?_ _ _,bind_ok.mpr ⟨(),require_of ?_ _ _,?_⟩⟩
  · rw [hstrip]
    exact fun _ => hbound.1
  · rw [hstrip]
    exact hbound.2
  · rw [hstrip]
    rfl

theorem integerVersion_again {message : String} : Rereads (fun v => integerVersion v code message) .str := by
  intro value v h
  have hstrip := strip_of_integerVersion h
  obtain ⟨text,-,h⟩ := bind_ok.mp h
  obtain ⟨digits,hdigits,h⟩ := bind_ok.mp h
  obtain rfl := pure_ok.mp h
  exact bind_ok.mpr ⟨text,by rw [numberOrText,hstrip]; rfl,bind_ok.mpr ⟨digits,hdigits,rfl⟩⟩

theorem rejectUnknownKeys_ok {allowed : List String} :
    rejectUnknownKeys fs allowed field = .ok () ↔ ∀ k ∈ fs.map (·.1), k ∈ allowed := by
  refine require_ok.trans ?_
  rw [sortedTexts,← length_eq_zero_iff,length_insertionSort,length_eq_zero_iff,
    filter_eq_nil_iff]
  simp only [keysOf,mem_dedup,decide_eq_true_eq,Decidable.not_not]

theorem hasKey_iff : hasKey fs k = true ↔ k ∈ fs.map (·.1) := Fields.isSome_lookup

theorem get_of_not_hasKey (h : hasKey fs k = false) : fs.get k = .null := by
  rw [hasKey,Option.isSome_eq_false_iff,Option.isNone_iff_eq_none] at h
  rw [Fields.get,h]
  rfl

/-! ## Records -/

theorem recordValue_again : Rereads (recordValue field key) id := by
  intro value j h
  unfold recordValue at h ⊢
  split_ifs at h ⊢ with hinterfaces hseverity
  · exact textItems_again.document h
  all_goals exact planText_again.document h

theorem sorted_keysOf {ks : List String} (hsorted : ks.Pairwise (· ≤ ·)) (hnodup : ks.Nodup)
    (hid : "id" ∉ ks) {item : Fields} (hkeys : item.map (·.1) = "id" :: ks) :
    sortedTexts ((keysOf item).filter (· ≠ "id")) = ks := by
  have hall : (keysOf item).filter (· ≠ "id") = ks := by
    rw [keysOf,hkeys,List.Nodup.dedup (nodup_cons.mpr ⟨hid,hnodup⟩),filter_cons_of_neg (by simp)]
    refine filter_eq_self.mpr fun k hk => ?_
    have hne : k ≠ "id" := ne_of_mem_of_not_mem hk hid
    exact decide_eq_true hne
  rw [hall,sortedTexts]
  exact hsorted.insertionSort_eq

section Records
variable {field : String} {required optional : List String}

variable {seen : List String} {index : ℕ}

theorem recordItem_again {raw : Json} {identifier : String} {item : Fields}
    (h : recordItem field required optional seen raw index = .ok (identifier,item)) :
    recordItem field required optional seen (.obj item) index = .ok (identifier,item) := by
  obtain ⟨fs,-,h⟩ := bind_ok.mp h
  obtain ⟨_,hallowed,h⟩ := bind_ok.mp h
  obtain ⟨hmissing,h⟩ := of_require h
  obtain ⟨i,hi,h⟩ := bind_ok.mp h
  obtain ⟨_,hfresh,h⟩ := bind_ok.mp h
  obtain ⟨values,hvalues,h⟩ := bind_ok.mp h
  obtain ⟨rfl,rfl⟩ := Prod.mk.inj (pure_ok.mp h)
  have hkeys : values.map (·.1) = sortedTexts ((keysOf fs).filter (· ≠ "id")) := readKeys_keys hvalues
  have hmem : ∀ k, k ∈ values.map (·.1) ↔ k ∈ fs.map (·.1) ∧ k ≠ "id" := by
    intro k
    rw [hkeys,sortedTexts,mem_insertionSort,mem_filter,keysOf,mem_dedup,decide_eq_true_eq]
  have hnodup : (values.map (·.1)).Nodup := by
    rw [hkeys]
    exact (perm_insertionSort _ _).nodup_iff.mpr ((nodup_dedup _).filter _)
  have hid : "id" ∉ values.map (·.1) := fun hk => ((hmem "id").mp hk).2 rfl
  have hsorted : (values.map (·.1)).Pairwise (· ≤ ·) := by
    rw [hkeys]
    exact pairwise_insertionSort _ _
  -- the record that was read names its identifier
  have hgiven : "id" ∈ fs.map (·.1) := by
    rw [← hasKey_iff]
    by_contra hno
    rw [get_of_not_hasKey (Bool.not_eq_true _ ▸ hno)] at hi
    exact absurd hi fail_ne_ok
  have hsame : ∀ k, k ∈ (("id",Json.str i) :: values).map (·.1) ↔ k ∈ fs.map (·.1) := by
    intro k
    rw [map_cons,mem_cons,hmem]
    grind
  have hget : Fields.get (("id",Json.str i) :: values) "id" = Json.str i := rfl
  refine bind_of rfl ?_
  refine bind_ok.mpr ⟨(),rejectUnknownKeys_ok.mpr ?_,bind_ok.mpr ⟨(),require_of ?_ _ _, bind_ok.mpr ⟨i,?_,bind_ok.mpr ⟨(),hfresh,bind_ok.mpr ⟨values,?_,rfl⟩⟩⟩⟩⟩
  · intro k hk
    exact rejectUnknownKeys_ok.mp hallowed k ((hsame k).mp hk)
  · have hnone := hmissing
    rw [filter_eq_nil_iff] at hnone ⊢
    intro k hk
    have hhas := hnone k hk
    simp only [Bool.not_eq_true',Bool.not_eq_false,hasKey_iff] at hhas ⊢
    exact (hsame k).mpr hhas
  · rw [hget]
    exact planText_again hi
  · rw [sorted_keysOf hsorted hnodup hid rfl]
    rw [← hkeys] at hvalues
    have hread : ∀ k, Rereads (recordValue (field ++ "[" ++ index.repr ++ "]") k) id :=
      fun k _ _ => recordValue_again
    refine readKeys_again hread hvalues fun p hp => ?_
    have hall : ((("id",Json.str i) :: values).map (·.1)).Nodup := nodup_cons.mpr ⟨hid,hnodup⟩
    exact Fields.get_of_mem hall (mem_cons_of_mem _ hp)

theorem recordItems_again {values : List Json} {items : List Fields}
    (h : recordItems field required optional seen index values = .ok items) :
    recordItems field required optional seen index (items.map .obj) = .ok items ∧
      items.length = values.length := by
  induction values generalizing seen index items with
  | nil =>
    obtain rfl := pure_ok.mp h
    exact ⟨rfl,rfl⟩
  | cons raw rest ih =>
    obtain ⟨⟨identifier,item⟩,hitem,h⟩ := bind_ok.mp h
    obtain ⟨later,hlater,h⟩ := bind_ok.mp h
    obtain rfl := pure_ok.mp h
    obtain ⟨hagain,hlen⟩ := ih hlater
    exact ⟨bind_ok.mpr ⟨(identifier,item),recordItem_again hitem,bind_ok.mpr ⟨later,hagain,rfl⟩⟩,
      congrArg (· + 1) hlen⟩

theorem recordList_again : Rereads (fun v => recordList v field required optional) records := by
  intro value items h
  cases value with
  | null =>
    obtain rfl := pure_ok.mp h
    exact require_bind (Nat.zero_le _) rfl
  | arr values =>
    obtain ⟨hlen,h⟩ := of_require h
    obtain ⟨hagain,hsame⟩ := recordItems_again h
    refine bind_ok.mpr ⟨(),require_of ?_ _ _,hagain⟩
    rw [length_map,hsame]
    exact hlen
  | _ => exact absurd h fail_ne_ok

end Records

/-! ## The planning context -/

def Lasting (key : String) (read : Fields → Outcome Fields) : Prop :=
  ∃ value, Rereads value id ∧ ∀ fs, read fs = part fs key value

/-- Several parts of one mapping, in their order. -/
def readParts (fs : Fields) : List (String × (Fields → Outcome Fields)) → Outcome Fields
  | [] => pure []
  | (_,read) :: rest => do
    let head ← read fs
    let tail ← readParts fs rest
    pure (head ++ tail)

theorem part_ok {out : Fields} {read : Json → Outcome Json} (h : part fs key read = .ok out) :
    (fs.lookup key = none ∧ out = []) ∨
      ∃ value j, fs.lookup key = some value ∧ read value = .ok j ∧ out = [(key,j)] := by
  unfold part at h
  cases hk : fs.lookup key with
  | none =>
    rw [hk] at h
    exact .inl ⟨rfl,(pure_ok.mp h).symm⟩
  | some value =>
    rw [hk] at h
    obtain ⟨j,hj,h⟩ := bind_ok.mp h
    exact .inr ⟨value,j,rfl,hj,(pure_ok.mp h).symm⟩

section Parts
variable {sections : List (String × (Fields → Outcome Fields))} {fs out : Fields}

theorem readParts_keys (hlasting : ∀ s ∈ sections, Lasting s.1 s.2) (h : readParts fs sections = .ok out) :
    ∀ k ∈ out.map (·.1), k ∈ sections.map (·.1) := by
  induction sections generalizing out with
  | nil =>
    obtain rfl := pure_ok.mp h
    simp
  | cons s rest ih =>
    obtain ⟨head,hhead,h⟩ := bind_ok.mp h
    obtain ⟨tail,htail,h⟩ := bind_ok.mp h
    obtain rfl := pure_ok.mp h
    obtain ⟨value,-,hpart⟩ := hlasting s mem_cons_self
    have hkeys := ih (fun s hs => hlasting s (mem_cons_of_mem _ hs)) htail
    rw [hpart] at hhead
    intro k hk
    rw [map_append,mem_append] at hk
    rcases hk with hk | hk
    · rcases part_ok hhead with ⟨-,rfl⟩ | ⟨_,j,-,-,rfl⟩
      · cases hk
      · rw [map_singleton,mem_singleton] at hk
        exact hk ▸ mem_cons_self
    · exact mem_cons_of_mem _ (hkeys k hk)

theorem readParts_again (hlasting : ∀ s ∈ sections, Lasting s.1 s.2) (hnodup : (sections.map (·.1)).Nodup)
    (h : readParts fs sections = .ok out) {gs : Fields}
    (hgs : ∀ k ∈ sections.map (·.1), gs.lookup k = out.lookup k) : readParts gs sections = .ok out := by
  induction sections generalizing out with
  | nil => exact h
  | cons s rest ih =>
    obtain ⟨head,hhead,h⟩ := bind_ok.mp h
    obtain ⟨tail,htail,h⟩ := bind_ok.mp h
    obtain rfl := pure_ok.mp h
    obtain ⟨value,hvalue,hpart⟩ := hlasting s mem_cons_self
    have hrest : ∀ s ∈ rest, Lasting s.1 s.2 := fun s hs => hlasting s (mem_cons_of_mem _ hs)
    obtain ⟨hfresh,hnodup⟩ := nodup_cons.mp hnodup
    have habsent : tail.lookup s.1 = none :=
      Fields.lookup_eq_none.mpr fun hk => hfresh (readParts_keys hrest htail _ hk)
    have hs := hgs s.1 mem_cons_self
    rw [lookup_append] at hs
    rw [hpart] at hhead
    have hagain : part gs s.1 value = .ok head ∧ ∀ k ≠ s.1, head.lookup k = none := by
      rcases part_ok hhead with ⟨-,rfl⟩ | ⟨_,j,-,hj,rfl⟩
      · rw [lookup_nil,Option.none_or,habsent] at hs
        exact ⟨by rw [part,hs]; rfl,fun k _ => rfl⟩
      · rw [Json.lookup_cons_ite,if_pos rfl,Option.some_or] at hs
        refine ⟨?_,fun k hk => by rw [Json.lookup_cons_ite,if_neg hk]; rfl⟩
        rw [part,hs]
        exact bind_of (hvalue hj) rfl
    have htail' : readParts gs rest = .ok tail := by
      refine ih hrest hnodup htail fun k hk => ?_
      have hne : k ≠ s.1 := ne_of_mem_of_not_mem hk hfresh
      rw [hgs k (mem_cons_of_mem _ hk),lookup_append,hagain.2 k hne,Option.none_or]
    refine bind_of ((hpart gs).trans hagain.1) ?_
    exact bind_of htail' rfl

end Parts

theorem lasting_textPart (key : String) : Lasting key (fun c => textPart c key) :=
  ⟨_,textItems_again.document,fun _ => rfl⟩

theorem lasting_recordPart (key : String) (required optional : List String) :
    Lasting key (fun c => recordPart c key required optional) :=
  ⟨_,recordList_again.document,fun _ => rfl⟩

theorem lasting_textSection (key : String) {names : List String} (hnames : names.Nodup) :
    Lasting key (fun c => textSection c key names) := by
  refine ⟨_,?_,fun _ => rfl⟩
  intro value j h
  obtain ⟨fs,-,h⟩ := bind_ok.mp h
  obtain ⟨_,h⟩ := rest_ok h
  obtain ⟨lists,hlists,h⟩ := bind_ok.mp h
  obtain rfl := pure_ok.mp h
  have hread : readKeys (fun name v => strings <$> boundedTextList v
      ("planning_context." ++ key ++ "." ++ name) 128 2000) fs (names.filter (hasKey fs)) = .ok lists := by
    rw [← hlists,readKeys]
    simp only [map_eq_pure_bind,bind_assoc,pure_bind]
  have hkeys : lists.map (·.1) = names.filter (hasKey fs) := readKeys_keys hread
  have hnodup : (lists.map (·.1)).Nodup := hkeys ▸ hnames.filter _
  have hsame : names.filter (hasKey lists) = names.filter (hasKey fs) := by
    refine filter_congr fun name hname => ?_
    rw [Bool.eq_iff_iff,hasKey_iff,hkeys,mem_filter]
    exact and_iff_right hname
  refine bind_of rfl ?_
  refine bind_ok.mpr ⟨(),rejectUnknownKeys_ok.mpr ?_, bind_ok.mpr ⟨lists,?_,rfl⟩⟩
  · intro k hk
    rw [hkeys] at hk
    exact mem_of_mem_filter hk
  · rw [hsame]
    have hreader : ∀ name, Rereads (fun v => strings <$> boundedTextList v
        ("planning_context." ++ key ++ "." ++ name) 128 2000) id := fun _ => textItems_again.document
    have hagain := readKeys_again hreader hread (fun p hp => Fields.get_of_mem hnodup hp)
    rw [← hagain,readKeys]
    simp only [map_eq_pure_bind,bind_assoc,pure_bind]

theorem lasting_decisions : Lasting "decisions" decisionsPart := by
  refine ⟨_,?_,fun _ => rfl⟩
  intro value j h
  obtain ⟨items,hitems,h⟩ := bind_ok.mp h
  obtain ⟨_,hcheck,h⟩ := bind_ok.mp h
  obtain rfl := pure_ok.mp h
  refine bind_of (recordList_again hitems) ?_
  exact bind_of hcheck rfl

theorem lasting_specifications : Lasting "specifications" specificationsPart := by
  refine ⟨_,?_,fun _ => rfl⟩
  intro value j h
  obtain ⟨items,hitems,h⟩ := bind_ok.mp h
  obtain ⟨_,hcheck,h⟩ := bind_ok.mp h
  obtain rfl := pure_ok.mp h
  refine bind_of (recordList_again hitems) ?_
  exact bind_of hcheck rfl

def architectureParts : List (String × (Fields → Outcome Fields)) :=
  [("summary",fun fs => part fs "summary" (fun v =>
      .str <$> planText v "planning_context.architecture.summary" 8000)),
    ("components",fun fs => part fs "components" (fun v =>
      records <$> recordList v "planning_context.architecture.components"
        ["id","name","responsibility"] ["interfaces"])),
    ("interfaces",fun fs => part fs "interfaces" (fun v =>
      records <$> recordList v "planning_context.architecture.interfaces"
        ["id","name","responsibility"] ["interfaces"])),
    ("patterns",fun fs => part fs "patterns" (fun v =>
      strings <$> boundedTextList v "planning_context.architecture.patterns" 128 2000))]

theorem lasting_architectureParts : ∀ s ∈ architectureParts, Lasting s.1 s.2 := by
  simp only [architectureParts,forall_mem_cons]
  exact ⟨⟨_,planText_again.document,fun _ => rfl⟩,⟨_,recordList_again.document,fun _ => rfl⟩,
    ⟨_,recordList_again.document,fun _ => rfl⟩,⟨_,textItems_again.document,fun _ => rfl⟩,nofun⟩

theorem lasting_architecture : Lasting "architecture" architecturePart := by
  refine ⟨fun v => do
    let fs ← requireMapping v "planning_context.architecture"
    rejectUnknownKeys fs (architectureParts.map (·.1)) "planning_context.architecture"
    let parts ← readParts fs architectureParts
    pure (.obj parts),?_,fun fs => ?_⟩
  · intro value j h
    obtain ⟨_,_,h⟩ := rest₂ h
    obtain ⟨parts,hparts,h⟩ := bind_ok.mp h
    obtain rfl := pure_ok.mp h
    have hkeys := readParts_keys lasting_architectureParts hparts
    have hagain := readParts_again lasting_architectureParts (by decide) hparts (fun k _ => rfl)
    refine bind_of rfl ?_
    refine bind_of (rejectUnknownKeys_ok.mpr hkeys) ?_
    exact bind_of hagain rfl
  · unfold architecturePart
    congr 1
    funext v
    simp only [architectureParts,readParts,bind_assoc,pure_bind,append_assoc,append_nil,
      map_cons,map_nil]

def contextParts : List (String × (Fields → Outcome Fields)) :=
  [("objective",fun c => part c "objective" (fun v =>
      .str <$> planText v "planning_context.objective" 8000)),
    ("requirements",fun c => textSection c "requirements" ["functional","quality"]),
    ("scope",fun c => textSection c "scope" ["in_scope","out_of_scope"]),
    ("assumptions",fun c => textPart c "assumptions"),
    ("decisions",decisionsPart),
    ("open_questions",fun c => recordPart c "open_questions" ["id","question"]
      ["recommended_default","owner","deadline","blocking_effect"]),
    ("specifications",specificationsPart),
    ("architecture",architecturePart),
    ("test_strategy",fun c => textSection c "test_strategy"
      ["unit","integration","e2e","manual","automation"]),
    ("risks",fun c => recordPart c "risks" ["id","title","description","severity","mitigation"] []),
    ("gates",fun c => recordPart c "gates" ["id","title","criteria"] []),
    ("acceptance_scenarios",fun c => recordPart c "acceptance_scenarios"
      ["id","title","given","when","then"] []),
    ("definition_of_done",fun c => textPart c "definition_of_done")]

theorem lasting_contextParts : ∀ s ∈ contextParts, Lasting s.1 s.2 := by
  simp only [contextParts,forall_mem_cons]
  exact ⟨⟨_,planText_again.document,fun _ => rfl⟩,lasting_textSection _ (by decide),
    lasting_textSection _ (by decide),lasting_textPart _,lasting_decisions,lasting_recordPart _ _ _,
    lasting_specifications,lasting_architecture,lasting_textSection _ (by decide),lasting_recordPart _ _ _,
    lasting_recordPart _ _ _,lasting_recordPart _ _ _,lasting_textPart _,nofun⟩

theorem planningContext_obj (context : Fields) :
    planningContext (.obj context) = (do
      rejectUnknownKeys context planningContextKeys "planning_context"
      let parts ← readParts context contextParts
      pure (some parts)) := by
  simp only [planningContext,requireMapping,contextParts,readParts,bind_assoc,pure_bind,append_assoc,
    append_nil]

/-- The planning context as a plan document stores it. -/
def contextJson (context : Option Fields) : Json := (context.map .obj).getD .null

theorem planningContext_again : Rereads planningContext contextJson := by
  intro value context h
  cases value with
  | null =>
    obtain rfl := pure_ok.mp h
    rfl
  | obj fs =>
    rw [planningContext_obj] at h
    obtain ⟨_,h⟩ := rest_ok h
    obtain ⟨parts,hparts,h⟩ := bind_ok.mp h
    obtain rfl := pure_ok.mp h
    have hkeys : ∀ k ∈ parts.map (·.1), k ∈ planningContextKeys :=
      readParts_keys lasting_contextParts hparts
    have hagain := readParts_again lasting_contextParts (by decide) hparts (fun k _ => rfl)
    change planningContext (.obj parts) = _
    rw [planningContext_obj]
    refine bind_of (rejectUnknownKeys_ok.mpr hkeys) ?_
    exact bind_of hagain rfl
  | _ => exact absurd h fail_ne_ok

/-! ## Milestones and tasks -/

theorem text_of_ofText {text : String} (h : TaskStatus.ofText text = some s) : s.text = text := by
  simpa using List.find?_some h

theorem readStatus_again {again : Fields}
    (h : readStatus raw field = .ok s) (hagain : again.lookup "status" = some (.str s.text)) :
    readStatus again field = .ok s := by
  obtain ⟨text,htext,h⟩ := bind_ok.mp h
  have hs := need_ok.mp h
  have hsame := text_of_ofText hs
  refine bind_ok.mpr ⟨text,?_,h⟩
  rw [Fields.getOr,hagain,hsame]
  exact planText_again htext

theorem readMilestone_again {m : ProjectMilestone}
    (h : readMilestone seen value = .ok m) : readMilestone seen (.obj m.toDict) = .ok m := by
  obtain ⟨_,_,h⟩ := rest₂ h
  obtain ⟨identifier,hid,h⟩ := bind_ok.mp h
  obtain ⟨_,hfresh,h⟩ := bind_ok.mp h
  obtain ⟨status,hstatus,h⟩ := bind_ok.mp h
  obtain ⟨title,htitle,h⟩ := bind_ok.mp h
  obtain ⟨description,hdescription,h⟩ := bind_ok.mp h
  obtain rfl := pure_ok.mp h
  refine bind_of rfl ?_
  refine bind_of (rejectUnknownKeys_ok.mpr fun _ hk => hk) ?_
  refine bind_of (planText_again hid) ?_
  refine bind_of hfresh ?_
  refine bind_of (readStatus_again hstatus rfl) ?_
  refine bind_of (planText_again htitle) ?_
  exact bind_of (planText_again hdescription) rfl

theorem readMilestones_again {ms : List ProjectMilestone} (h : readMilestones seen values = .ok ms) :
    readMilestones seen (ms.map (fun m => .obj m.toDict)) = .ok ms ∧ ms.length = values.length := by
  induction values generalizing seen ms with
  | nil =>
    obtain rfl := pure_ok.mp h
    exact ⟨rfl,rfl⟩
  | cons value rest ih =>
    obtain ⟨m,hm,h⟩ := bind_ok.mp h
    obtain ⟨later,hlater,h⟩ := bind_ok.mp h
    obtain rfl := pure_ok.mp h
    obtain ⟨hagain,hlen⟩ := ih hlater
    exact ⟨bind_ok.mpr ⟨m,readMilestone_again hm,bind_ok.mpr ⟨later,hagain,rfl⟩⟩,congrArg (· + 1) hlen⟩

theorem lookup_shown {p : OptionalField → Bool} {g : OptionalField → Json} {fields : List OptionalField}
    (hf : f ∈ fields) :
    ((fields.filter p).map (fun f => (f.key,g f))).lookup f.key = if p f = true then some (g f) else none := by
  induction fields with
  | nil => cases hf
  | cons e rest ih =>
    by_cases heq : f = e
    · subst heq
      by_cases hp : p f = true
      · simp [hp]
      · rw [filter_cons_of_neg hp,if_neg hp,Fields.lookup_eq_none]
        intro hk
        obtain ⟨q,hq,hkey⟩ := mem_map.mp hk
        obtain ⟨e,he,rfl⟩ := mem_map.mp hq
        obtain rfl := OptionalField.key_inj.mp hkey
        exact hp (of_mem_filter he)
    · have hrest := ih ((mem_cons.mp hf).resolve_left heq)
      have hne : f.key ≠ e.key := fun hkey => heq (OptionalField.key_inj.mp hkey)
      rw [filter_cons]
      split_ifs at hrest ⊢ with he hf
      · rw [map_cons,Json.lookup_cons_ite,if_neg hne,hrest]
      · rw [map_cons,Json.lookup_cons_ite,if_neg hne,hrest]
      all_goals exact hrest

theorem ProjectTask.lookup_optional (t : ProjectTask) (f : OptionalField) :
    t.toDict.lookup f.key = if t.shows f = true then some (strings (t.optional f)) else none := by
  have hshown := lookup_shown (p := t.shows) (g := fun f => strings (t.optional f)) f.mem_all
  have hhead : ∀ fs : Fields, ([("id",.str t.taskId),("milestone_id",.str t.milestoneId),
      ("title",.str t.title),("description",.str t.description),("status",.str t.status.text),
      ("dependencies",strings t.dependencies),
      ("acceptance_criteria",strings t.acceptanceCriteria)] ++ fs).lookup f.key = fs.lookup f.key := by
    intro fs
    cases f <;> simp [Json.lookup_cons_ite,OptionalField.key]
  rw [ProjectTask.toDict,hhead]
  exact hshown

theorem ProjectTask.toDict_keys (t : ProjectTask) : ∀ k ∈ t.toDict.map (·.1),
    k ∈ ["id","milestone_id","title","description","status","dependencies","acceptance_criteria"] ++
      OptionalField.all.map OptionalField.key := by
  intro k hk
  rw [ProjectTask.toDict,map_append,map_map,mem_append] at hk
  refine mem_append.mpr (hk.imp id fun hk => ?_)
  obtain ⟨f,hf,rfl⟩ := mem_map.mp hk
  exact mem_map.mpr ⟨f,mem_of_mem_filter hf,rfl⟩

theorem optional_again {t : ProjectTask}
    (hfields : t.optionalFields = OptionalField.all.filter (fun f => hasKey raw f.key))
    (h : textItems code (raw.get f.key) field 64 maxLength = .ok (t.optional f)) :
    textItems code (t.toDict.get f.key) field 64 maxLength = .ok (t.optional f) ∧
      hasKey t.toDict f.key = hasKey raw f.key := by
  have hmem : f ∈ t.optionalFields ↔ hasKey raw f.key = true := by
    simp [hfields,OptionalField.mem_all]
  have hshows : t.shows f = hasKey raw f.key := by
    cases hraw : hasKey raw f.key with
    | true => simp [ProjectTask.shows,hmem.mpr hraw]
    | false =>
      rw [get_of_not_hasKey hraw] at h
      have hempty : t.optional f = [] := (pure_ok.mp h).symm
      have hnot : f ∉ t.optionalFields := fun hf => by simp [hraw] at hmem; exact hmem hf
      simp [ProjectTask.shows,hempty,hnot]
  rw [← hshows,hasKey,Fields.get,t.lookup_optional f]
  cases hs : t.shows f with
  | true => exact ⟨textItems_again h,rfl⟩
  | false =>
    rw [hs] at hshows
    rw [get_of_not_hasKey hshows.symm] at h
    exact ⟨h,rfl⟩

theorem readTask_again {t : ProjectTask}
    (h : readTask milestoneIds seen value = .ok t) : readTask milestoneIds seen (.obj t.toDict) = .ok t := by
  obtain ⟨raw,-,h⟩ := bind_ok.mp h
  obtain ⟨_,h⟩ := rest_ok h
  obtain ⟨identifier,hid,h⟩ := bind_ok.mp h
  obtain ⟨milestoneId,hmilestone,h⟩ := bind_ok.mp h
  obtain ⟨_,hfresh,h⟩ := bind_ok.mp h
  obtain ⟨status,hstatus,h⟩ := bind_ok.mp h
  obtain ⟨dependencies,hdependencies,h⟩ := bind_ok.mp h
  obtain ⟨acceptance,hacceptance,h⟩ := bind_ok.mp h
  obtain ⟨_,hsafe,h⟩ := bind_ok.mp h
  obtain ⟨deliverables,hdeliverables,h⟩ := bind_ok.mp h
  obtain ⟨verification,hverification,h⟩ := bind_ok.mp h
  obtain ⟨tests,htests,h⟩ := bind_ok.mp h
  obtain ⟨decisionIds,hdecisions,h⟩ := bind_ok.mp h
  obtain ⟨specificationIds,hspecifications,h⟩ := bind_ok.mp h
  obtain ⟨riskIds,hrisks,h⟩ := bind_ok.mp h
  obtain ⟨_,hsafeDecisions,h⟩ := bind_ok.mp h
  obtain ⟨_,hsafeSpecifications,h⟩ := bind_ok.mp h
  obtain ⟨_,hsafeRisks,h⟩ := bind_ok.mp h
  obtain ⟨title,htitle,h⟩ := bind_ok.mp h
  obtain ⟨description,hdescription,h⟩ := bind_ok.mp h
  have ht := pure_ok.mp h
  have hfields : t.optionalFields = OptionalField.all.filter (fun f => hasKey raw f.key) := ht ▸ rfl
  have h1 := optional_again (t := t) (f := .deliverables) hfields (by rw [← ht]; exact hdeliverables)
  have h2 := optional_again (t := t) (f := .verification) hfields (by rw [← ht]; exact hverification)
  have h3 := optional_again (t := t) (f := .tests) hfields (by rw [← ht]; exact htests)
  have h4 := optional_again (t := t) (f := .decisionIds) hfields (by rw [← ht]; exact hdecisions)
  have h5 := optional_again (t := t) (f := .specificationIds) hfields (by rw [← ht]; exact hspecifications)
  have h6 := optional_again (t := t) (f := .riskIds) hfields (by rw [← ht]; exact hrisks)
  have hkeys : ∀ f : OptionalField, hasKey t.toDict f.key = hasKey raw f.key := by
    intro f
    cases f
    exacts [h1.2,h2.2,h3.2,h4.2,h5.2,h6.2]
  subst ht
  refine bind_of rfl ?_
  refine bind_of (rejectUnknownKeys_ok.mpr (ProjectTask.toDict_keys _)) ?_
  refine bind_of (planText_again hid) ?_
  refine bind_of (planText_again hmilestone) ?_
  refine bind_of hfresh ?_
  refine bind_of (readStatus_again hstatus rfl) ?_
  refine bind_of (textItems_again hdependencies) ?_
  refine bind_of (textItems_again hacceptance) ?_
  refine bind_of hsafe ?_
  refine bind_of h1.1 ?_
  refine bind_of h2.1 ?_
  refine bind_of h3.1 ?_
  refine bind_of h4.1 ?_
  refine bind_of h5.1 ?_
  refine bind_of h6.1 ?_
  refine bind_of hsafeDecisions ?_
  refine bind_of hsafeSpecifications ?_
  refine bind_of hsafeRisks ?_
  refine bind_of (planText_again htitle) ?_
  refine bind_of (planText_again hdescription) ?_
  exact congrArg pure (congrArg _ (filter_congr fun f _ => hkeys f))

theorem readTasks_again {ts : List ProjectTask} (h : readTasks milestoneIds seen values = .ok ts) :
    readTasks milestoneIds seen (ts.map (fun t => .obj t.toDict)) = .ok ts ∧ ts.length = values.length := by
  induction values generalizing seen ts with
  | nil =>
    obtain rfl := pure_ok.mp h
    exact ⟨rfl,rfl⟩
  | cons value rest ih =>
    obtain ⟨t,ht,h⟩ := bind_ok.mp h
    obtain ⟨later,hlater,h⟩ := bind_ok.mp h
    obtain rfl := pure_ok.mp h
    obtain ⟨hagain,hlen⟩ := ih hlater
    exact ⟨bind_ok.mpr ⟨t,readTask_again ht,bind_ok.mpr ⟨later,hagain,rfl⟩⟩,congrArg (· + 1) hlen⟩

/-! ## Moments and optional fields -/

/-- A moment as the runtime writes it, which it reads as itself. -/
structure TimeText (rt : Runtime) (t : String) : Prop where
  stripped : strip t = t
  short : t.length ≤ 64
  zulu : t.toList.getLast? = some 'Z'
  again : rt.fromIsoFormat (String.ofList t.toList.dropLast ++ "+00:00") = some (.utc t)

/-- Whatever moment the runtime reads, it writes in its own form. -/
def TimesLast (rt : Runtime) : Prop := ∀ s t, rt.fromIsoFormat s = some (.utc t) → TimeText rt t

section Optional
variable {rt : Runtime} {field t : String}

theorem timestamp_of_timeText (h : TimeText rt t) : timestamp rt (.str t) field = .ok t := by
  have hne : t ≠ "" := by
    rintro rfl
    exact absurd h.zulu (by decide)
  have htext : planText (.str t) field 64 = .ok t := by
    refine bind_ok.mpr ⟨(),require_of ?_ _ _,bind_ok.mpr ⟨(),require_of ?_ _ _,?_⟩⟩
    · exact fun _ => h.stripped.symm ▸ hne
    · exact h.stripped.symm ▸ h.short
    · rw [h.stripped]
      rfl
  refine bind_of htext ?_
  refine require_bind h.zulu ?_
  rw [h.again]
  rfl

theorem timestamp_again (hrt : TimesLast rt) : Rereads (fun v => timestamp rt v field) .str := by
  intro value t h
  obtain ⟨text,-,h⟩ := bind_ok.mp h
  obtain ⟨_,h⟩ := rest_ok h
  cases hread : rt.fromIsoFormat (String.ofList text.toList.dropLast ++ "+00:00") with
  | none =>
    rw [hread] at h
    exact absurd h fail_ne_ok
  | some parsed =>
    rw [hread] at h
    cases parsed with
    | naive => exact absurd h fail_ne_ok
    | utc u =>
      obtain rfl := pure_ok.mp h
      exact timestamp_of_timeText (hrt _ _ hread)

variable {read : Json → Outcome String}

theorem optionalValue_text (h : read (.str t) = .ok t) :
    optionalValue (nullableText (some t)) read = .ok (some t) :=
  map_ok.mpr ⟨t,h,rfl⟩

theorem optionalValue_again (h : Rereads read .str) :
    Rereads (fun v => optionalValue v read) nullableText := by
  intro value o ho
  cases value with
  | null =>
    obtain rfl := pure_ok.mp ho
    rfl
  | _ =>
    obtain ⟨t,ht,rfl⟩ := map_ok.mp ho
    exact optionalValue_text (h ht)

theorem currentTaskOf_again {value : Json} {tasks : List ProjectTask} {current : Option String}
    (hsafe : ∀ t ∈ tasks, matchesId 0 95 t.taskId = true) (h : currentTaskOf value tasks = .ok current) :
    currentTaskOf (nullableText current) tasks = .ok current := by
  have hnamed : ∀ i, i ∈ tasks.map (·.taskId) → currentTaskOf (.str i) tasks = .ok (some i) := by
    intro i hi
    obtain ⟨t,ht,rfl⟩ := mem_map.mp hi
    refine bind_of (planText_of_matchesId (hsafe t ht)) ?_
    exact require_bind hi rfl
  cases current with
  | none =>
    cases value with
    | null => exact h
    | _ =>
      obtain ⟨i,-,h⟩ := bind_ok.mp h
      obtain ⟨_,h⟩ := rest_ok h
      cases h
  | some i =>
    refine hnamed i ?_
    cases value with
    | null =>
      -- the current task is the active one
      obtain ⟨t,ht,rfl⟩ := Option.map_eq_some_iff.mp (pure_ok.mp h)
      exact mem_map_of_mem (mem_of_mem_filter (mem_of_mem_head? ht))
    | _ =>
      obtain ⟨_,h⟩ := rest_ok h
      obtain ⟨hj,h⟩ := of_require h
      obtain rfl := Option.some.inj (pure_ok.mp h)
      exact hj

end Optional

/-! ## The whole plan -/

/-- Every field of the plan is in the form that its reader settles on. -/
structure RereadPlan (rt : Runtime) (p : ProjectPlan) : Prop where
  projectId : planText (.str p.projectId) "project_id" 96 = .ok p.projectId
  safe : matchesId 0 95 p.projectId = true
  projectName : planText (.str p.projectName) "project_name" 200 = .ok p.projectName
  planVersion : integerVersion (.str p.planVersion) "plan_version_invalid"
    "plan_version must be an integer version" = .ok p.planVersion
  supersedes : optionalValue (nullableText p.supersedesVersion) (fun v => integerVersion v
    "plan_supersedes_invalid" "supersedes_version must be an integer version") = .ok p.supersedesVersion
  createdAt : optionalValue (nullableText p.createdAt) (fun v => timestamp rt v "created_at") = .ok p.createdAt
  revisionReason : optionalValue (nullableText p.revisionReason) (fun v =>
    planText v "revision_reason" 1000) = .ok p.revisionReason
  revisionSummary : optionalValue (nullableText p.revisionSummary) (fun v =>
    planText v "revision_summary" 4000) = .ok p.revisionSummary
  bounds : p.milestones.length ≤ 512 ∧ p.tasks.length ≤ 2048
  milestones : readMilestones [] (p.milestones.map (fun m => .obj m.toDict)) = .ok p.milestones
  context : planningContext (contextJson p.planningContext) = .ok p.planningContext
  tasks : readTasks (p.milestones.map (·.milestoneId)) [] (p.tasks.map (fun t => .obj t.toDict)) = .ok p.tasks
  dependencies : (p.tasks.flatMap (·.dependencies)).forM (checkDependency (p.tasks.map (·.taskId))
    (contextRecordIds p.planningContext "gates") (contextRecordIds p.planningContext "open_questions")) = .ok ()
  acyclic : checkCycles p.tasks = .ok ()
  active : (p.tasks.filter (fun t => t.status == .active)).length ≤ 1
  current : currentTaskOf (nullableText p.currentTaskId) p.tasks = .ok p.currentTaskId
  references : checkReferences p.planningContext p.tasks = .ok ()

theorem reread_of_validated (hrt : TimesLast rt) {document : Json}
    (h : validateProjectPlan rt document expected = .ok p) : RereadPlan rt p := by
  have hp := readFrom_of_validated h
  obtain ⟨milestonesRaw,tasksRaw,harrays,hmilestones,htasks⟩ := hp.lists
  obtain ⟨hmilestones,hmlen⟩ := readMilestones_again hmilestones
  have hids := (readTasks_ok htasks).1
  obtain ⟨htasks,htlen⟩ := readTasks_again htasks
  have hbounds : milestonesRaw.length ≤ 512 ∧ tasksRaw.length ≤ 2048 := by
    unfold planArrays at harrays
    split at harrays
    · obtain ⟨hlen,harrays⟩ := of_require harrays
      obtain ⟨rfl,rfl⟩ := Prod.mk.inj (pure_ok.mp harrays)
      exact hlen
    · exact absurd harrays fail_ne_ok
  have hoptional : ∀ {field : String} {maxLength : ℕ}, Rereads (fun v => optionalValue v (fun v =>
      planText v field maxLength)) nullableText := optionalValue_again (@planText_again _ _)
  have htime : Rereads (fun v => optionalValue v (fun v => timestamp rt v "created_at")) nullableText :=
    optionalValue_again (@timestamp_again _ _ hrt)
  have hinteger : Rereads (fun v => optionalValue v (fun v => integerVersion v "plan_supersedes_invalid"
      "supersedes_version must be an integer version")) nullableText := optionalValue_again (@integerVersion_again _ _)
  exact {
    projectId := planText_again hp.projectId
    safe := hp.safe
    projectName := planText_again hp.projectName
    planVersion := integerVersion_again hp.planVersion
    supersedes := hinteger hp.supersedes
    createdAt := htime hp.createdAt
    revisionReason := hoptional hp.revisionReason
    revisionSummary := hoptional hp.revisionSummary
    bounds := by rwa [hmlen,htlen]
    milestones := hmilestones
    context := planningContext_again hp.context
    tasks := htasks
    dependencies := hp.dependencies
    acyclic := hp.acyclic
    active := hp.active
    current := currentTaskOf_again (fun t ht => (hids t ht).1) hp.current
    references := hp.references }

/-! ## The document of a plan -/

theorem lookup_optionalText (key k : String) (o : Option String) :
    (optionalText key o).lookup k = if k = key then o.map .str else none := by
  cases o <;> simp [optionalText,Json.lookup_cons_ite]

theorem ProjectPlan.get_toDict (p : ProjectPlan) :
    p.toDict.get "supersedes_version" = nullableText p.supersedesVersion ∧
      p.toDict.get "created_at" = nullableText p.createdAt ∧
      p.toDict.get "revision_reason" = nullableText p.revisionReason ∧
      p.toDict.get "revision_summary" = nullableText p.revisionSummary ∧
      p.toDict.get "planning_context" = contextJson p.planningContext := by
  have htext : ∀ o : Option String, (o.map Json.str).getD .null = nullableText o := by
    intro o
    cases o <;> rfl
  unfold ProjectPlan.toDict Fields.get contextJson
  cases p.planningContext <;>
    simp [lookup_append,Json.lookup_cons_ite,lookup_optionalText,htext]

theorem ProjectPlan.toDict_keys (p : ProjectPlan) : ∀ k ∈ p.toDict.map (·.1), k ∈ planKeys := by
  have htext : ∀ {key k : String} {o : Option String}, k ∈ (optionalText key o).map (·.1) → k = key := by
    intro key k o hk
    cases o with
    | none => cases hk
    | some s => exact mem_singleton.mp hk
  intro k hk
  simp only [ProjectPlan.toDict,map_append,mem_append] at hk
  rcases hk with ((((hk | hk) | hk) | hk) | hk) | hk
  · have hhead : ["schema","project_id","project_name","plan_version","milestones","tasks","current_task_id"] ⊆
        planKeys := by decide
    exact hhead hk
  · exact htext hk ▸ by decide
  · exact htext hk ▸ by decide
  · exact htext hk ▸ by decide
  · exact htext hk ▸ by decide
  · cases hc : p.planningContext with
    | none =>
      rw [hc] at hk
      cases hk
    | some context =>
      rw [hc] at hk
      have hkey : "planning_context" ∈ planKeys := by decide
      exact mem_singleton.mp hk ▸ hkey

theorem RereadPlan.validated (h : RereadPlan rt p) (hexpected : ∀ i ∈ expected, p.projectId = i) :
    validateProjectPlan rt (.obj p.toDict) expected = .ok p := by
  obtain ⟨hsupersedes,hcreated,hreason,hsummary,hcontext⟩ := p.get_toDict
  have harrays : planArrays p.toDict = .ok (p.milestones.map (fun m => .obj m.toDict),
      p.tasks.map (fun t => .obj t.toDict)) := by
    refine bind_ok.mpr ⟨(),require_of ?_ _ _,rfl⟩
    rw [length_map,length_map]
    exact h.bounds
  refine require_bind rfl ?_
  refine bind_of (rejectUnknownKeys_ok.mpr p.toDict_keys) ?_
  refine bind_of h.projectId ?_
  refine require_bind h.safe ?_
  refine require_bind hexpected ?_
  refine bind_of h.projectName ?_
  refine bind_of h.planVersion ?_
  refine bind_ok.mpr ⟨p.supersedesVersion,?_, bind_ok.mpr ⟨p.createdAt,?_,bind_ok.mpr ⟨p.revisionReason,?_,bind_ok.mpr ⟨p.revisionSummary,?_, bind_ok.mpr ⟨_,harrays,bind_ok.mpr ⟨p.milestones,h.milestones,bind_ok.mpr ⟨p.planningContext,?_, bind_ok.mpr ⟨p.tasks,h.tasks,bind_ok.mpr ⟨(),h.dependencies,bind_ok.mpr ⟨(),h.acyclic, bind_ok.mpr ⟨(),require_of h.active _ _,bind_ok.mpr ⟨p.currentTaskId,h.current, bind_ok.mpr ⟨(),h.references,rfl⟩⟩⟩⟩⟩⟩⟩⟩⟩⟩⟩⟩⟩
  · exact hsupersedes ▸ h.supersedes
  · exact hcreated ▸ h.createdAt
  · exact hreason ▸ h.revisionReason
  · exact hsummary ▸ h.revisionSummary
  · exact hcontext ▸ h.context

end Bdb.Project
