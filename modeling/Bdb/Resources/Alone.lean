import Bdb.Resources.Publishers

/-! # Calls that have the store to themselves

A call that nobody interrupts finds what the files say. A valid publication then succeeds if and only if the lock file of
its directory is not there.
-/
namespace Bdb.Resources

open List

variable {w : Setting} {disk : Disk} {d : Directory} {rule : SharingRule} {key : SharedResourceKey}
  {payload : Bytes} {α : Type} {q : FileStep}

/-! ## Calls made alone -/

abbrev aloneOn (s : ResourceScript α) (disk : Disk) : Disk × α := s.alone FileStep.perform disk

theorem alone_ask (f : q.Answer → ResourceScript α) (disk : Disk) :
    aloneOn (ask q >>= f) disk = aloneOn (f (q.perform disk).2) (q.perform disk).1 := rfl

theorem alone_then {β : Type} {s : ResourceScript α} {disk' : Disk} {a : α} (h : aloneOn s disk = (disk',a))
    (f : α → ResourceScript β) : aloneOn (s >>= f) disk = aloneOn (f a) disk' := by
  have hbind := Script.alone_bind FileStep.perform s f disk
  rw [show s.alone FileStep.perform disk = (disk',a) from h] at hbind
  exact hbind

/-- What a look at an entry finds at once. -/
def Disk.examined (w : Setting) (disk : Disk) (rule : SharingRule) (key : SharedResourceKey) : Lookup :=
  let d := w.directory rule key
  if (disk.files d).manifest.isSome = false ∨ (disk.files d).payload.isSome = false then .missing
  else
    match disk.readManifest d, disk.readPayload d with
    | .ok m, .ok payload => if w.exact rule key m payload then .hit m payload else .poisoned "poisoned_entry"
    | .ok _, .error code => .poisoned code
    | .error code, _ => .poisoned code

theorem examine_alone (rule : SharingRule) (key : SharedResourceKey) (disk : Disk) :
    aloneOn (examine w rule key) disk = (disk,disk.examined w rule key) := by
  have hmissing : ((disk.files (w.directory rule key)).manifest.isSome = false ∨
      (disk.files (w.directory rule key)).payload.isSome = false) → disk.examined w rule key = .missing := fun h => if_pos h
  refine (alone_ask _ _).trans ?_
  cases hmanifest : ((FileStep.manifestExists (w.directory rule key)).perform disk).2 with
  | false => exact congrArg (Prod.mk disk) (hmissing (.inl hmanifest)).symm
  | true =>
    refine (alone_ask _ _).trans ?_
    cases hpayload : ((FileStep.payloadExists (w.directory rule key)).perform
        ((FileStep.manifestExists (w.directory rule key)).perform disk).1).2 with
    | false => exact congrArg (Prod.mk disk) (hmissing (.inr hpayload)).symm
    | true =>
      have hread : disk.examined w rule key =
          match disk.readManifest (w.directory rule key), disk.readPayload (w.directory rule key) with
          | .ok m, .ok payload => if w.exact rule key m payload then .hit m payload else .poisoned "poisoned_entry"
          | .ok _, .error code => .poisoned code
          | .error code, _ => .poisoned code := by
        refine if_neg ?_
        rintro (hnone | hnone)
        · cases hmanifest.symm.trans hnone
        · cases hpayload.symm.trans hnone
      rw [hread]
      change aloneOn (ask (.readManifest (w.directory rule key)) >>= _) disk = _
      refine (alone_ask _ _).trans ?_
      cases hm : ((FileStep.readManifest (w.directory rule key)).perform disk).2 with
      | error code =>
        rw [show disk.readManifest (w.directory rule key) = .error code from hm]
        rfl
      | ok m =>
        rw [show disk.readManifest (w.directory rule key) = .ok m from hm]
        refine (alone_ask _ _).trans ?_
        cases hp : ((FileStep.readPayload (w.directory rule key)).perform
            ((FileStep.readManifest (w.directory rule key)).perform disk).1).2 with
        | error code =>
          rw [show disk.readPayload (w.directory rule key) = .error code from hp]
          rfl
        | ok payload =>
          rw [show disk.readPayload (w.directory rule key) = .ok payload from hp]
          rfl

theorem examined_hit (hrule : w.ruleFor key = some rule) :
    (∃ m payload, disk.examined w rule key = .hit m payload) ↔ disk.served w (w.directory rule key) = some key := by
  constructor
  · rintro ⟨m,payload,h⟩
    unfold Disk.examined at h
    dsimp only at h
    split at h
    · cases h
    · split at h
      · rename_i m' payload' hm hp
        split at h
        · rename_i hexact
          exact served_iff.mpr ⟨rule,m',payload',hrule,rfl,hm,hp,hexact⟩
        · cases h
      · cases h
      · cases h
  · intro h
    obtain ⟨rule',m,payload,hrule',-,hm,hp,hexact⟩ := served_iff.mp h
    obtain rfl := Option.some.inj (hrule.symm.trans hrule')
    refine ⟨m,payload,?_⟩
    unfold Disk.examined
    simp only [hm,hp,hexact,if_true,readManifest_ok hm,(readPayload_ok hp).1,Option.isSome_some,Bool.true_eq_false,or_self,if_false]

/-- The size of a payload as `_area_bytes` counts it. -/
def Disk.payloadSize (disk : Disk) (d : Directory) : ℕ :=
  match disk.readPayload d with
  | .ok payload => payload.length
  | .error _ => 0

def Disk.areaTotal (disk : Disk) (area : String) (exclude : Directory) : ℕ :=
  (((disk.manifests area).filter (· ≠ exclude)).map disk.payloadSize).sum

theorem areaBytes_alone (area : String) (exclude : Directory) (disk : Disk) :
    aloneOn (areaBytes area exclude) disk = (disk,disk.areaTotal area exclude) := by
  have hsizes : ∀ ds, aloneOn (payloadSizes ds) disk = (disk,(ds.map disk.payloadSize).sum) := by
    intro ds
    induction ds with
    | nil => rfl
    | cons d rest ih =>
      rw [map_cons,sum_cons]
      refine (alone_ask _ _).trans ?_
      cases hp : ((FileStep.readPayload d).perform disk).2 with
      | error code =>
        have hsize : disk.payloadSize d = 0 := by
          unfold Disk.payloadSize
          rw [show disk.readPayload d = .error code from hp]
        rw [hsize,Nat.zero_add]
        exact ih
      | ok payload =>
        have hsize : disk.payloadSize d = payload.length := by
          unfold Disk.payloadSize
          rw [show disk.readPayload d = .ok payload from hp]
        rw [hsize]
        exact alone_then ih _
  exact hsizes _

theorem payloadSize_congr {disk' : Disk} (h : (disk'.files d).payload = (disk.files d).payload) :
    disk'.payloadSize d = disk.payloadSize d := by
  unfold Disk.payloadSize
  rw [readPayload_congr h]

theorem areaTotal_change {f : Files → Files} (hf : ∀ x, (f x).manifest = x.manifest) (area : String) :
    (disk.change d f).areaTotal area d = disk.areaTotal area d := by
  have hmanifests : (disk.change d f).manifests area = disk.manifests area := by
    unfold Disk.manifests Disk.change
    dsimp only
    rw [filter_map,map_map]
    have hkeep : ((fun e : Directory × Files => e.1.area == area && e.2.manifest.isSome) ∘
        fun e => if e.1 = d then (e.1,f e.2) else e) = fun e => e.1.area == area && e.2.manifest.isSome := by
      funext e
      simp only [Function.comp]
      split
      · rw [hf]
      · rfl
    have hname : ((·.1) ∘ fun e : Directory × Files => if e.1 = d then (e.1,f e.2) else e) = (·.1) := by
      funext e
      simp only [Function.comp]
      split <;> rfl
    rw [hkeep,hname]
  unfold Disk.areaTotal
  rw [hmanifests]
  congr 1
  refine map_congr_left fun e he => payloadSize_congr ?_
  have hne : e ≠ d := by simpa using (mem_filter.mp he).2
  rw [files_change_other disk f hne]

theorem areaTotal_makeDirectory (disk : Disk) (d : Directory) (area : String) (exclude : Directory) :
    (disk.makeDirectory d).areaTotal area exclude = disk.areaTotal area exclude := by
  have hmanifests : (disk.makeDirectory d).manifests area = disk.manifests area := by
    unfold Disk.makeDirectory
    split
    · rfl
    · unfold Disk.manifests
      dsimp only
      rw [filter_append]
      simp [Files.none]
  unfold Disk.areaTotal
  rw [hmanifests]
  congr 1
  refine map_congr_left fun e he => payloadSize_congr ?_
  rw [files_makeDirectory]

theorem get_makeDirectory (disk : Disk) (d : Directory) : (disk.makeDirectory d).get d ≠ none := by
  unfold Disk.makeDirectory
  split
  · rename_i f hf
    rw [hf]
    nofun
  · rename_i hnone
    unfold Disk.get at hnone ⊢
    rw [List.find?_append,Option.map_eq_none_iff.mp hnone]
    simp

theorem acquire_taken {l : LockFile} (h : (disk.files d).lock = some l) (owner tries : ℕ) :
    aloneOn (acquire d owner tries) disk = (disk,.taken) := by
  have hcreate : (FileStep.createLock d owner).perform disk = (disk,.taken) := by
    obtain ⟨f,hf⟩ := Option.ne_none_iff_exists'.mp (get_ne_none_of_lock h)
    unfold Disk.files at h
    rw [hf] at h
    change disk.createLock d owner = _
    unfold Disk.createLock
    rw [hf]
    dsimp only
    rw [show f.lock = some l from h]
    rfl
  have htry : ∀ onTaken : ResourceScript Disk.Locking, aloneOn (tryLock d owner onTaken) disk = aloneOn onTaken disk := by
    intro onTaken
    refine (alone_ask _ _).trans ?_
    rw [hcreate]
  induction tries with
  | zero => exact htry _
  | succ n ih => exact (htry _).trans ih

theorem acquire_free (hlock : (disk.files d).lock = none) (hget : disk.get d ≠ none) (owner tries : ℕ) :
    ∃ f : Files → Files, (∀ x, (f x).manifest = x.manifest) ∧ (∀ x, (f x).payload = x.payload) ∧ (disk.change d f).get d ≠ none ∧
      aloneOn (acquire d owner tries) disk = (disk.change d f,.created) := by
  obtain ⟨x,hx⟩ := Option.ne_none_iff_exists'.mp hget
  have hcreate : (FileStep.createLock d owner).perform disk =
      (disk.change d fun f => { f with lock := some ⟨owner,false⟩ },.created) := by
    have hfree : x.lock = none := by
      unfold Disk.files at hlock
      rw [hx] at hlock
      exact hlock
    change disk.createLock d owner = _
    unfold Disk.createLock
    rw [hx]
    dsimp only
    rw [hfree]
    rfl
  have hchange : (disk.change d fun f => { f with lock := some ⟨owner,false⟩ }).change d
      (fun f => { f with lock := some ⟨owner,true⟩ }) = disk.change d fun f => { f with lock := some ⟨owner,true⟩ } := by
    unfold Disk.change
    simp only [map_map,Disk.mk.injEq,and_true]
    refine map_congr_left fun e _ => ?_
    by_cases he : e.1 = d <;> simp [he]
  refine ⟨fun f => { f with lock := some ⟨owner,true⟩ },fun _ => rfl,fun _ => rfl,?_,?_⟩
  · rw [get_change,if_pos rfl,hx]
    nofun
  · have htry : ∀ onTaken : ResourceScript Disk.Locking, aloneOn (tryLock d owner onTaken) disk =
        (disk.change d fun f => { f with lock := some ⟨owner,true⟩ },.created) := by
      intro onTaken
      refine (alone_ask _ _).trans ?_
      rw [hcreate,← hchange]
      rfl
    cases tries with
    | zero | succ n => exact htry _

/-- The arguments of a publication are valid, and the quota of its area has room for it. -/
structure Publishable (w : Setting) (disk : Disk) (c : PublishCall) (rule : SharingRule) : Prop where
  ruleFor : w.ruleFor c.key = some rule
  shared : rule.sharedAllowed = true
  notLocal : rule.projectLocalRequired = false
  mutability : rule.mutability ≠ .mutableDisallowed
  allowWrite : c.allowWrite = true
  digest : w.sha256 c.payload = c.key.contentDigest
  noFault : c.fault = none
  size : c.payload.length ≤ maxEntryBytes
  quota : disk.areaTotal rule.area (w.directory rule c.key) + c.payload.length ≤ w.limitFor rule.area

theorem publishOpen_alone (hrule : w.ruleFor key = some rule) (hget : disk.get (w.directory rule key) ≠ none)
    (hsize : payload.length ≤ maxEntryBytes)
    (hquota : disk.areaTotal rule.area (w.directory rule key) + payload.length ≤ w.limitFor rule.area) (owner : ℕ)
    (existing : Lookup) : ∃ p, (aloneOn (publishOpen w owner rule key payload none existing) disk).2 = .publication key p ∧
      p.accepted = true := by
  let d := w.directory rule key
  let m : Manifest := ⟨key,rule.area,rule.mutability,w.sha256 payload,payload.length⟩
  let disk₁ := disk.change d fun f => { f with partials := owner :: f.partials }
  let disk₂ := disk₁.change d fun f => { f with payload := some payload, partials := f.partials.erase owner }
  let disk₃ := disk₂.change d fun f => { f with partials := owner :: f.partials }
  let disk₄ := disk₃.change d fun f => { f with manifest := some (.ok m), partials := f.partials.erase owner }
  have hgets : ∀ (disk : Disk) (f : Files → Files), disk.get d ≠ none → (disk.change d f).get d ≠ none := by
    intro disk f h
    rw [get_change,if_pos rfl]
    simpa using h
  have hserved : disk₄.served w d = some key := by
    have h₁ : disk₁.get d ≠ none := hgets _ _ hget
    have h₂ : disk₂.get d ≠ none := hgets _ _ h₁
    have h₃ : disk₃.get d ≠ none := hgets _ _ h₂
    have hmanifest : (disk₄.files d).manifest = some (.ok m) := by
      rw [show disk₄.files d = _ from files_change_self disk₃ _ h₃]
    have hpayload : (disk₄.files d).payload = some payload := by
      rw [show disk₄.files d = _ from files_change_self disk₃ _ h₃,show disk₃.files d = _ from files_change_self disk₂ _ h₂,
        show disk₂.files d = _ from files_change_self disk₁ _ h₁]
    refine served_iff.mpr ⟨rule,m,payload,hrule,rfl,?_,?_,exact_iff.mpr ⟨rfl,rfl,rfl,rfl⟩⟩
    · unfold Disk.readManifest
      rw [hmanifest]
    · unfold Disk.readPayload
      rw [hpayload]
      exact if_neg (Nat.not_lt.mpr hsize)
  obtain ⟨m',payload',hhit⟩ := (examined_hit hrule).mpr hserved
  have hlast := examine_alone (w := w) rule key disk₄
  rw [hhit] at hlast
  have hopen : ∃ status, aloneOn (publishOpen w owner rule key payload none existing) disk =
      (disk₄,.publication key ⟨status,true,payload.length,"SEALED_SHARED_ENTRY_READY"⟩) := by
    apply Exists.intro
    unfold publishOpen
    dsimp only
    rw [if_neg (by rintro ⟨⟩)]
    refine (alone_then (areaBytes_alone rule.area d disk) _).trans ?_
    rw [if_neg (Nat.not_lt.mpr hquota),if_neg (Nat.not_lt.mpr hsize)]
    exact alone_then hlast _
  obtain ⟨status,hopen⟩ := hopen
  exact ⟨_,congrArg Prod.snd hopen,rfl⟩

theorem publish_eq {c : PublishCall} (h : Publishable w disk c rule) (owner : ℕ) : publish w owner c = (do
    ask (.makeDirectory (w.directory rule c.key))
    underLock w owner rule c (← acquire (w.directory rule c.key) owner c.tries)) := by
  unfold publish
  rw [h.ruleFor]
  dsimp only
  rw [if_neg (by simp [h.shared,h.notLocal,h.mutability]),if_neg (by simp [h.allowWrite]),if_neg (not_not.mpr h.digest)]

theorem publish_alone {c : PublishCall} (h : Publishable w disk c rule) (owner : ℕ) :
    (∃ p, (aloneOn (publish w owner c) disk).2 = .publication c.key p ∧ p.accepted = true) ↔
      (disk.files (w.directory rule c.key)).lock = none := by
  let d := w.directory rule c.key
  have hfiles : (disk.makeDirectory d).files d = disk.files d := files_makeDirectory disk d d
  rw [publish_eq h]
  constructor
  · rintro ⟨p,hresult,haccepted⟩
    cases hlock : (disk.files d).lock with
    | none => rfl
    | some l =>
      have htaken := acquire_taken (l := l) (show ((disk.makeDirectory d).files d).lock = _ from hfiles ▸ hlock) owner c.tries
      have hrun : aloneOn (ask (.makeDirectory d) >>= fun _ => acquire d owner c.tries >>= underLock w owner rule c) disk =
          (disk.makeDirectory d,.publication c.key ⟨.lockBusy,false,0,"FOREIGN_OR_BUSY_LOCK"⟩) :=
        alone_then htaken (underLock w owner rule c)
      obtain ⟨-,rfl⟩ := Result.publication.inj ((congrArg Prod.snd hrun).symm.trans hresult)
      cases haccepted
  · intro hlock
    obtain ⟨f,hmanifest,hpayload,hget,hacquire⟩ := acquire_free (show ((disk.makeDirectory d).files d).lock = none from
      hfiles ▸ hlock) (get_makeDirectory disk d) owner c.tries
    have hquota : ((disk.makeDirectory d).change d f).areaTotal rule.area d + c.payload.length ≤ w.limitFor rule.area := by
      rw [areaTotal_change hmanifest,areaTotal_makeDirectory]
      exact h.quota
    have hlocked : ∃ p, (aloneOn (publishLocked w owner rule c.key c.payload c.fault) ((disk.makeDirectory d).change d f)).2 =
        .publication c.key p ∧ p.accepted = true := by
      rw [h.noFault]
      have hexamine := examine_alone (w := w) rule c.key ((disk.makeDirectory d).change d f)
      have hrest := alone_then hexamine (publishOver w owner rule c.key c.payload none)
      change ∃ p, (aloneOn (examine w rule c.key >>= publishOver w owner rule c.key c.payload none) _).2 = _ ∧ _
      rw [hrest]
      cases ((disk.makeDirectory d).change d f).examined w rule c.key with
      | hit m payload => exact ⟨_,rfl,rfl⟩
      | blocked | missing | poisoned _ =>
        rw [publishOver_of rfl]
        exact publishOpen_alone h.ruleFor hget h.size hquota owner _
    obtain ⟨p,hp,haccepted⟩ := hlocked
    refine ⟨p,?_,haccepted⟩
    have hrun : aloneOn (ask (.makeDirectory d) >>= fun _ => acquire d owner c.tries >>= underLock w owner rule c) disk =
        aloneOn (underLock w owner rule c .created) ((disk.makeDirectory d).change d f) :=
      alone_then hacquire (underLock w owner rule c)
    refine (congrArg Prod.snd hrun).trans ?_
    have hpublished : aloneOn (publishLocked w owner rule c.key c.payload c.fault) ((disk.makeDirectory d).change d f) =
        ((aloneOn (publishLocked w owner rule c.key c.payload c.fault) ((disk.makeDirectory d).change d f)).1,
          .publication c.key p) := Prod.ext rfl hp
    have hunder := alone_then hpublished fun result => release d owner >>= fun _ => pure result
    refine (congrArg Prod.snd hunder).trans ?_
    have hreleased : ∀ disk', aloneOn (release d owner) disk' = ((aloneOn (release d owner) disk').1,()) := fun _ => rfl
    exact congrArg Prod.snd (alone_then (hreleased _) fun _ => (pure (Result.publication c.key p) : ResourceScript Result))

end Bdb.Resources
