import Bdb.Queue.LaunchQueue

/-! # Queue documents that the reader takes

The reader takes exactly the documents whose launch and claim meet its checks. What it
has read it reads again after it was written back, so only a new launch can spoil the
document.
-/
namespace Bdb.Queue

open List

variable {rt : QueueRuntime}

/-! ## Fields of written records -/

theorem get_append (fs gs : Fields) (k : String) (h : fs.lookup k = none) :
    Fields.get (fs ++ gs) k = gs.get k := by
  have hlookup : (fs ++ gs).lookup k = gs.lookup k := by
    rw [lookup_append,h,Option.none_or]
  simp only [Fields.get,hlookup]

def optionalText : Option String → Json
  | some s => .str s
  | none => .null

variable {k field : String} {o : Option String} {fs : Fields} {v : Json} {l : ProjectLaunch} {t : DateTime}
    {c : ProjectLaunchClaim} {α : Type} {state : QueueState}

variable {vs : List (String × Option String)} {m : LaunchMetadata} {s : String} {read : Json → Outcome α}
    {a : α}

theorem lookup_optionalFields_none
    (h : k ∉ vs.map Prod.fst) : (vs.flatMap optionalField).lookup k = none := by
  induction vs with
  | nil => rfl
  | cons p rest ih =>
    obtain ⟨l,o⟩ := p
    simp only [map_cons,mem_cons,not_or] at h
    cases o with
    | none => simpa [optionalField] using ih h.2
    | some s => simpa [optionalField,Json.lookup_cons_ite,h.1] using ih h.2

theorem get_optionalFields (hnd : (vs.map Prod.fst).Nodup)
     (h : (k,o) ∈ vs) :
    Fields.get (vs.flatMap optionalField) k = optionalText o := by
  induction vs with
  | nil => cases h
  | cons p rest ih =>
    obtain ⟨l,v⟩ := p
    obtain ⟨hl,hrest⟩ := nodup_cons.mp hnd
    rcases mem_cons.mp h with heq | hmem
    · cases heq
      cases o with
      | none =>
        have hnone := lookup_optionalFields_none hl
        simp only [flatMap_cons,optionalField,nil_append,Fields.get]
        rw [hnone]
        rfl
      | some s => simp [optionalField,Fields.get,optionalText]
    · have hne : k ≠ l := by
        rintro rfl
        exact hl (mem_map.mpr ⟨(k,o),hmem,rfl⟩)
      cases v with
      | none => simpa [optionalField] using ih hrest hmem
      | some s =>
        have hrec := ih hrest hmem
        simp only [flatMap_cons,optionalField,cons_append,nil_append,Fields.get,
          Json.lookup_cons_ite,if_neg hne] at hrec ⊢
        exact hrec

theorem get_toDict_metadata (l : ProjectLaunch)
    (h : (k,o) ∈ l.metadata.values) : Fields.get l.toDict.fields k = optionalText o := by
  have hnd : (l.metadata.values.map Prod.fst).Nodup := by
    simp [LaunchMetadata.values]
  have hbase : ([("schema",.str projectLaunchSchema),("launch_id",.str l.launchId),
      ("repo_alias",.str l.repoAlias),("prompt",.str l.prompt),("auto_send",.bool l.autoSend),
      ("created_at",.str l.createdAt),("expires_at",.str l.expiresAt)] : Fields).lookup k = none := by
    have hkey : k ∈ l.metadata.values.map Prod.fst := mem_map_of_mem (f := Prod.fst) h
    simp only [LaunchMetadata.values,map_cons,map_nil,mem_cons,not_mem_nil,or_false] at hkey
    rcases hkey with rfl | rfl | rfl | rfl | rfl | rfl | rfl <;> simp [lookup_cons]
  exact (get_append _ _ k hbase).trans (get_optionalFields hnd h)

/-! ## Checked values -/

/-- A text that is absent or passes the check on identity fields. -/
def BoundedText (o : Option String) : Prop := ∀ s, o = some s → s ≠ "" ∧ s.length ≤ 256

theorem metadataField_of (h : fs.get k = optionalText o)
    {v : Option String} : metadataField fs k = .ok v ↔ v = o ∧ BoundedText o := by
  unfold metadataField BoundedText
  rw [h]
  cases o with
  | none => simp [optionalText,eq_comm]
  | some s =>
    simp only [optionalText,Option.some.injEq,forall_eq']
    split
    · rename_i hs
      simp [hs,eq_comm]
    · rename_i hs
      simp [hs]

theorem metadataField_ok {v : Option String} (h : metadataField fs k = .ok v) : BoundedText v := by
  unfold metadataField at h
  split at h
  · cases h
    intro s hs
    cases hs
  · rename_i s _
    split at h
    · rename_i hs
      cases h
      intro t ht
      cases ht
      exact hs
    · cases h
  · cases h

def LaunchMetadata.Bounded (m : LaunchMetadata) : Prop := ∀ p ∈ m.values, BoundedText p.2

theorem metadataFrom_ok (h : metadataFrom fs = .ok m) : m.Bounded := by
  unfold metadataFrom at h
  obtain ⟨_,h1,h⟩ := bind_ok.mp h
  obtain ⟨_,h2,h⟩ := bind_ok.mp h
  obtain ⟨_,h3,h⟩ := bind_ok.mp h
  obtain ⟨_,h4,h⟩ := bind_ok.mp h
  obtain ⟨_,h5,h⟩ := bind_ok.mp h
  obtain ⟨_,h6,h⟩ := bind_ok.mp h
  obtain ⟨_,h7,h⟩ := bind_ok.mp h
  obtain rfl := pure_ok.mp h
  intro p hp
  simp only [LaunchMetadata.values,mem_cons,not_mem_nil,or_false] at hp
  rcases hp with rfl | rfl | rfl | rfl | rfl | rfl | rfl
  · exact metadataField_ok h1
  · exact metadataField_ok h2
  · exact metadataField_ok h3
  · exact metadataField_ok h4
  · exact metadataField_ok h5
  · exact metadataField_ok h6
  · exact metadataField_ok h7

theorem metadataFrom_toDict (l : ProjectLaunch) (h : l.metadata.Bounded) :
    metadataFrom l.toDict.fields = .ok l.metadata := by
  have hread : ∀ k o, (k,o) ∈ l.metadata.values → metadataField l.toDict.fields k = .ok o :=
    fun k o hmem => (metadataField_of (get_toDict_metadata l hmem)).mpr ⟨rfl,h (k,o) hmem⟩
  unfold metadataFrom
  rw [hread "project_id" l.metadata.projectId (by simp [LaunchMetadata.values]),ok_bind,
    hread "plan_version" l.metadata.planVersion (by simp [LaunchMetadata.values]),ok_bind,
    hread "task_id" l.metadata.taskId (by simp [LaunchMetadata.values]),ok_bind,
    hread "execution_binding_id" l.metadata.executionBindingId (by simp [LaunchMetadata.values]),ok_bind,
    hread "correlation_id" l.metadata.correlationId (by simp [LaunchMetadata.values]),ok_bind,
    hread "command_id" l.metadata.commandId (by simp [LaunchMetadata.values]),ok_bind,
    hread "expected_repo_head_before" l.metadata.expectedRepoHeadBefore (by simp [LaunchMetadata.values]),ok_bind]
  rfl

theorem bounded_of_metadataFrom (h : metadataFrom l.toDict.fields = .ok m) : l.metadata.Bounded := by
  unfold metadataFrom at h
  obtain ⟨_,h1,h⟩ := bind_ok.mp h
  obtain ⟨_,h2,h⟩ := bind_ok.mp h
  obtain ⟨_,h3,h⟩ := bind_ok.mp h
  obtain ⟨_,h4,h⟩ := bind_ok.mp h
  obtain ⟨_,h5,h⟩ := bind_ok.mp h
  obtain ⟨_,h6,h⟩ := bind_ok.mp h
  obtain ⟨_,h7,-⟩ := bind_ok.mp h
  intro p hp
  have hget : Fields.get l.toDict.fields p.1 = optionalText p.2 := get_toDict_metadata l hp
  simp only [LaunchMetadata.values,mem_cons,not_mem_nil,or_false] at hp
  rcases hp with rfl | rfl | rfl | rfl | rfl | rfl | rfl
  · exact ((metadataField_of hget).mp h1).2
  · exact ((metadataField_of hget).mp h2).2
  · exact ((metadataField_of hget).mp h3).2
  · exact ((metadataField_of hget).mp h4).2
  · exact ((metadataField_of hget).mp h5).2
  · exact ((metadataField_of hget).mp h6).2
  · exact ((metadataField_of hget).mp h7).2

theorem parseUtc_ok (h : parseUtc rt v field = .ok t) : ∃ s, v = .str s := by
  cases v with
  | str s => exact ⟨s,rfl⟩
  | _ => cases h

theorem getLast?_writeFields (ns : List ℕ) (h : ns.length = 7) :
    (writeFields utcLayout ns).getLast? = some 'Z' := by
  match ns, h with
  | [a,b,c,d,e,f,g], _ => simp [writeFields,utcLayout,List.getLast?_append,List.getLast?_cons]

theorem parseUtc_utcText (t : DateTime) (field : String) :
    parseUtc rt (.str (utcText t)) field = .ok t := by
  have hlast : (utcText t).toList.getLast? = some 'Z' := by
    rw [utcText,String.toList_ofList]
    exact getLast?_writeFields (utcFields t) rfl
  simp only [parseUtc]
  rw [if_pos hlast,readUtc_utcText]

theorem uuidText_ok (h : uuidText rt v field = .ok s) : v = .str s ∧ isUuidText rt.uuidTable s = true := by
  unfold uuidText at h
  split at h
  · rename_i s'
    split at h
    · rename_i hs
      cases h
      exact ⟨rfl,hs⟩
    · cases h
  · cases h

theorem uuidText_of (h : isUuidText rt.uuidTable s = true) (field : String) :
    uuidText rt (.str s) field = .ok s := if_pos h

theorem textOf_str (s : String) : textOf rt (.str s) = s := by
  unfold textOf
  split
  · rfl
  · rename_i h
    simpa [Json.truthy] using Eq.symm (by simpa [Json.truthy] using h : s = "")

/-! ## Launches and claims the reader takes -/

/-- Two timestamps the reader takes, in this order. -/
def Ordered (rt : QueueRuntime) (early late : String) : Prop :=
  ∃ t u, (∀ field, parseUtc rt (.str early) field = .ok t) ∧
    (∀ field, parseUtc rt (.str late) field = .ok u) ∧ t < u

structure ProjectLaunch.Sound (rt : QueueRuntime) (l : ProjectLaunch) : Prop where
  launchId : isUuidText rt.uuidTable l.launchId = true
  repoAlias : matchesAlias l.repoAlias = true
  prompt : l.prompt ≠ "" ∧ l.prompt.length ≤ maxProjectPromptChars
  times : Ordered rt l.createdAt l.expiresAt
  metadata : l.metadata.Bounded

structure ProjectLaunchClaim.Sound (rt : QueueRuntime) (c : ProjectLaunchClaim) : Prop where
  claimId : isUuidText rt.uuidTable c.claimId = true
  launchId : isUuidText rt.uuidTable c.launchId = true
  times : Ordered rt c.claimedAt c.expiresAt

theorem parseUtc_field (h : parseUtc rt v field = .ok t) (other : String) : parseUtc rt v other = .ok t := by
  obtain ⟨s,rfl⟩ := parseUtc_ok h
  simp only [parseUtc] at h ⊢
  split at h
  · rename_i hz
    rw [if_pos hz]
    cases hr : readUtc s with
    | some u =>
      rw [hr] at h
      exact h
    | none =>
      rw [hr] at h
      simp only [otherUtc] at h ⊢
      split at h
      · exact h
      · cases h
      · cases h
  · cases h

theorem ordered_of {early late : Json} {field' : String} {u : DateTime}
    (ht : parseUtc rt early field = .ok t) (hu : parseUtc rt late field' = .ok u) (hlt : t < u) :
    Ordered rt (rt.runtime.str early) (rt.runtime.str late) := by
  obtain ⟨s,rfl⟩ := parseUtc_ok ht
  obtain ⟨s',rfl⟩ := parseUtc_ok hu
  exact ⟨t,u,parseUtc_field ht,parseUtc_field hu,hlt⟩

theorem launchFromFields_ok (h : launchFromFields rt fs = .ok l) : l.Sound rt := by
  unfold launchFromFields at h
  obtain ⟨_,h⟩ := rest_ok h
  obtain ⟨_,hid,h⟩ := bind_ok.mp h
  obtain ⟨halias,h⟩ := of_require h
  obtain ⟨hprompt,h⟩ := of_require h
  obtain ⟨_,h⟩ := rest_ok h
  obtain ⟨t,hcreated,h⟩ := bind_ok.mp h
  obtain ⟨u,hexpires,h⟩ := bind_ok.mp h
  obtain ⟨hlt,h⟩ := of_require h
  obtain ⟨_,hmeta,h⟩ := bind_ok.mp h
  obtain rfl := pure_ok.mp h
  exact ⟨(uuidText_ok hid).2,halias,hprompt,
    ordered_of hcreated hexpires hlt,metadataFrom_ok hmeta⟩

theorem launchFromDict_ok (h : launchFromDict rt v = .ok l) : l.Sound rt := by
  cases v with
  | obj fs => exact launchFromFields_ok h
  | _ => cases h

theorem launchFromDict_toDict (h : l.Sound rt) : launchFromDict rt l.toDict = .ok l := by
  obtain ⟨t,u,ht,hu,hlt⟩ := h.times
  change launchFromFields rt l.toDict.fields = .ok l
  have hschema : Fields.get l.toDict.fields "schema" = .str projectLaunchSchema := rfl
  have hid : Fields.get l.toDict.fields "launch_id" = .str l.launchId := rfl
  have halias : Fields.get l.toDict.fields "repo_alias" = .str l.repoAlias := rfl
  have hprompt : Fields.get l.toDict.fields "prompt" = .str l.prompt := rfl
  have hauto : Fields.get l.toDict.fields "auto_send" = .bool l.autoSend := rfl
  have hcreated : Fields.get l.toDict.fields "created_at" = .str l.createdAt := rfl
  have hexpires : Fields.get l.toDict.fields "expires_at" = .str l.expiresAt := rfl
  unfold launchFromFields
  rw [hschema,hid,halias,hprompt,hauto,hcreated,hexpires,textOf_str,textOf_str]
  rw [require_of rfl,ok_bind,uuidText_of h.launchId,ok_bind]
  dsimp only
  rw [require_of h.repoAlias,ok_bind,require_of h.prompt,ok_bind]
  simp only [boolField,ok_bind]
  rw [ht,ok_bind,hu,ok_bind,require_of hlt,ok_bind,metadataFrom_toDict l h.metadata]
  rfl

theorem claimFromFields_ok (h : claimFromFields rt fs = .ok c) : c.Sound rt := by
  unfold claimFromFields at h
  obtain ⟨_,h⟩ := rest_ok h
  obtain ⟨_,hclaim,h⟩ := bind_ok.mp h
  obtain ⟨_,hid,h⟩ := bind_ok.mp h
  obtain ⟨t,hclaimed,h⟩ := bind_ok.mp h
  obtain ⟨u,hexpires,h⟩ := bind_ok.mp h
  obtain ⟨hlt,h⟩ := of_require h
  obtain rfl := pure_ok.mp h
  exact ⟨(uuidText_ok hclaim).2,(uuidText_ok hid).2,ordered_of hclaimed hexpires hlt⟩

theorem claimFromDict_ok (h : claimFromDict rt v = .ok c) : c.Sound rt := by
  cases v with
  | obj fs => exact claimFromFields_ok h
  | _ => cases h

theorem claimFromDict_toDict (h : c.Sound rt) : claimFromDict rt c.toDict = .ok c := by
  obtain ⟨t,u,ht,hu,hlt⟩ := h.times
  change claimFromFields rt c.toDict.fields = .ok c
  have hschema : Fields.get c.toDict.fields "schema" = .str projectLaunchClaimSchema := rfl
  have hclaim : Fields.get c.toDict.fields "claim_id" = .str c.claimId := rfl
  have hid : Fields.get c.toDict.fields "launch_id" = .str c.launchId := rfl
  have hclaimed : Fields.get c.toDict.fields "claimed_at" = .str c.claimedAt := rfl
  have hexpires : Fields.get c.toDict.fields "expires_at" = .str c.expiresAt := rfl
  unfold claimFromFields
  rw [hschema,hclaim,hid,hclaimed,hexpires,require_of rfl,ok_bind,uuidText_of h.claimId,ok_bind,
    uuidText_of h.launchId,ok_bind,ht,ok_bind,hu,ok_bind,require_of hlt]
  rfl

/-! ## States the reader returns -/

structure StateSound (rt : QueueRuntime) (state : QueueState) : Prop where
  pending : ∀ l, state.1 = some l → l.Sound rt
  claim : ∀ c, state.2 = some c → c.Sound rt
  fits : claimFits state = true

theorem StateSound.empty : StateSound rt (none,none) := by
  refine ⟨?_,?_,rfl⟩
  · intro l hl
    cases hl
  · intro c hc
    cases hc

theorem readPart_ok {o : Option α} (h : readPart read v = .ok o) (ha : o = some a) : read v = .ok a := by
  subst ha
  unfold readPart at h
  split at h
  · cases h
  · cases hr : read v with
    | error e =>
      rw [hr] at h
      cases h
    | ok b =>
      rw [hr] at h
      cases h
      rfl

theorem recode_ok {x : Outcome α} {code message : String} : recode x code message = .ok a ↔ x = .ok a := by
  cases x <;> simp [recode]

theorem readDocument_ok (h : readDocument rt fs = .ok state) : StateSound rt state := by
  unfold readDocument at h
  obtain ⟨_,h⟩ := rest_ok h
  obtain ⟨_,hparts,h⟩ := bind_ok.mp h
  obtain ⟨hfits,h⟩ := of_require h
  obtain rfl := pure_ok.mp h
  obtain ⟨pending,hpending,hrest⟩ := bind_ok.mp (recode_ok.mp hparts)
  obtain ⟨claim,hclaim,hpair⟩ := bind_ok.mp hrest
  obtain rfl := pure_ok.mp hpair
  exact ⟨fun l hl => launchFromDict_ok (readPart_ok hpending hl),
    fun c hc => claimFromDict_ok (readPart_ok hclaim hc),hfits⟩

theorem readState_ok {file : QueueFile} (h : readState rt file = .ok state) : StateSound rt state := by
  cases file with
  | none =>
    cases h
    exact .empty
  | some doc =>
    cases doc with
    | obj fs => exact readDocument_ok h
    | _ => cases h

theorem readPart_written {write : α → Json} {o : Option α}
    (hobj : ∀ a, (write a).isObject = true) (h : ∀ a, o = some a → read (write a) = .ok a) :
    readPart read ((o.map write).getD .null) = .ok o := by
  cases o with
  | none => rfl
  | some a =>
    have ha := h a rfl
    have hw := hobj a
    simp only [Option.map_some,Option.getD_some]
    unfold readPart
    cases hv : write a with
    | null =>
      rw [hv] at hw
      cases hw
    | _ =>
      rw [hv] at ha
      simp only [ha]
      rfl

theorem readState_written (h : StateSound rt state) :
    readState rt (some (stateDocument state)) = .ok state := by
  have hpending : readPart (launchFromDict rt) ((state.1.map ProjectLaunch.toDict).getD .null) = .ok state.1 :=
    readPart_written (fun _ => rfl) (fun l hl => launchFromDict_toDict (h.pending l hl))
  have hclaim : readPart (claimFromDict rt) ((state.2.map ProjectLaunchClaim.toDict).getD .null) = .ok state.2 :=
    readPart_written (fun _ => rfl) (fun c hc => claimFromDict_toDict (h.claim c hc))
  change readDocument rt (stateDocument state).fields = .ok state
  have hschema : Fields.get (stateDocument state).fields "schema" = .str projectLaunchQueueSchema := rfl
  have hp : Fields.get (stateDocument state).fields "pending" =
      (state.1.map ProjectLaunch.toDict).getD .null := rfl
  have hc : Fields.get (stateDocument state).fields "claim" =
      (state.2.map ProjectLaunchClaim.toDict).getD .null := rfl
  have hparts : readParts rt (stateDocument state).fields = .ok state := by
    unfold readParts
    rw [hp,hc,hpending,ok_bind,hclaim]
    rfl
  unfold readDocument
  rw [hschema,require_of rfl,ok_bind,recode_ok.mpr hparts,ok_bind,require_of h.fits]
  rfl

end Bdb.Queue
