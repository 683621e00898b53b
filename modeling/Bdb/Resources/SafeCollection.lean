import Bdb.Resources.AreaSizes

/-! # Quotas and collections

Publishers that do not overlap in an area keep it within its quota, and a collection takes no entry that is referenced,
active or being published and tells of all that it takes, as long as nobody comes between its looks at an entry and the
removal of it.
-/
namespace Bdb.Resources

open List

variable {w : Setting} {disk disk' : Disk} {d : Directory} {rule : SharingRule} {key : SharedResourceKey} {m : Manifest}
  {payload : Bytes} {α : Type} {r r' : ResourceRecord} {i n base : ℕ} {q : FileStep} {c : CollectCall} {area : String}

/-! ## Runs in which nobody comes between -/

def lists (area : String) : FileStep → Bool
  | .manifests area' => area' = area
  | _ => false

def looksAtLock (d : Directory) : FileStep → Bool
  | .lockExists e => e = d
  | _ => false

def asksActive (inst : ℕ) (keyDigest : String) : FileStep → Bool
  | .isActive inst' keyDigest' => inst' = inst && keyDigest' = keyDigest
  | _ => false

def listing (area : String) : Entry FileStep.Answer → Option (List Directory)
  | ⟨.manifests area',(ds : List Directory)⟩ => if area' = area then some ds else none
  | _ => none

def markedIn (keyDigest : String) : FileStep → Option ℕ
  | .markActive inst keyDigest' _ => if keyDigest' = keyDigest then some inst else none
  | _ => none

/-- The publisher has summed up its area with all the payloads that are there besides its own, for each had its manifest,
and nobody has put a payload there since. -/
def CountsAll (r : ResourceRecord) (i : ℕ) (d : Directory) : Prop :=
  Untouched i (lists d.area) (putsInto d.area) r ∧
    ∀ x ∈ r.log, x.1 = i → ∀ ds ∈ listing d.area x.2, ∀ e ∈ r.store.directories.map (·.1), e.area = d.area → e ≠ d →
      r.store.size e ≠ 0 → e ∈ ds

instance (r : ResourceRecord) (i : ℕ) (d : Directory) : Decidable (CountsAll r i d) := by
  unfold CountsAll
  have : ∀ x : ℕ × Entry FileStep.Answer, Decidable (∀ ds ∈ listing d.area x.2, ∀ e ∈ r.store.directories.map (·.1),
    e.area = d.area → e ≠ d → r.store.size e ≠ 0 → e ∈ ds) := fun x => Option.decidableForallMem _
  infer_instance

/-- Since the collection looked at the entry nobody has locked it or marked its key as active, and no other instance has
the key active. -/
def Undisturbed (r : ResourceRecord) (i : ℕ) (d : Directory) (c : CollectCall) : Prop :=
  Untouched i (looksAtLock d) (locks d) r ∧
    Untouched i (asksActive c.inst d.keyDigest) (marks c.inst d.keyDigest) r ∧
    ∀ x ∈ r.log, ∀ inst ∈ markedIn d.keyDigest x.2.1, inst ≠ c.inst → r.store.isActive inst d.keyDigest = false

instance (r : ResourceRecord) (i : ℕ) (d : Directory) (c : CollectCall) : Decidable (Undisturbed r i d c) := by
  unfold Undisturbed
  have : ∀ x : ℕ × Entry FileStep.Answer, Decidable (∀ inst ∈ markedIn d.keyDigest x.2.1, inst ≠ c.inst →
    r.store.isActive inst d.keyDigest = false) := fun x => Option.decidableForallMem _
  infer_instance

/-- Nobody comes between the looks of a client and its steps; the system refuses a collection nothing, and it finds no
other files in a directory that it removes. -/
def Orderly (w : Setting) (r : ResourceRecord) (i : ℕ) (q : FileStep) : Prop :=
  InOrder w r i q ∧ match q with
    | .replacePayload d _ _ _ => CountsAll r i d
    | .unlinkPayload d c => Undisturbed r i d c ∧ c.refuses d = none
    | .unlinkManifest d c => Undisturbed r i d c
    | .removeDirectory d c => Undisturbed r i d c ∧ (r.store.get d).any Files.isEmpty = true
    | _ => True

instance (w : Setting) (r : ResourceRecord) (i : ℕ) : (q : FileStep) → Decidable (Orderly w r i q)
  | .replacePayload d owner key payload =>
    inferInstanceAs (Decidable (InOrder w r i (.replacePayload d owner key payload) ∧ CountsAll r i d))
  | .unlinkPayload d c =>
    inferInstanceAs (Decidable (InOrder w r i (.unlinkPayload d c) ∧ Undisturbed r i d c ∧ c.refuses d = none))
  | .unlinkManifest d c => inferInstanceAs (Decidable (InOrder w r i (.unlinkManifest d c) ∧ Undisturbed r i d c))
  | .removeDirectory d c => inferInstanceAs (Decidable (InOrder w r i (.removeDirectory d c) ∧ Undisturbed r i d c ∧
      (r.store.get d).any Files.isEmpty = true))
  | .replaceManifest d owner m => inferInstanceAs (Decidable (InOrder w r i (.replaceManifest d owner m) ∧ True))
  | .makeDirectory _ | .createLock _ _ | .writeLock _ _ | .lockExists _ | .readLock _ | .unlinkLock _ | .manifestExists _
  | .payloadExists _ | .readManifest _ | .readPayload _ | .stage _ _ | .manifests _ | .isActive _ _ | .markActive _ _ _
  | .releaseActive _ _ _ => .isTrue ⟨trivial,trivial⟩

/-! ## What such runs keep -/

/-- The areas keep to their quotas, and the manifests to their directories. -/
structure Tidy (w : Setting) (disk : Disk) : Prop where
  within : ∀ area, disk.areaSize area ≤ w.limitFor area
  sizes : ∀ d, disk.size d ≤ maxEntryBytes
  home : ∀ d m, (disk.files d).manifest = some (.ok m) → w.keyDigest m.key = d.keyDigest

/-- What holds after so many calls were started. -/
structure Kempt (w : Setting) (n : ℕ) (r : ResourceRecord) : Prop where
  tidy : Tidy w r.store
  marked : ∀ inst keyDigest, r.store.isActive inst keyDigest = true → ∃ x ∈ r.log, marks inst keyDigest x.2.1 = true
  clients : ∀ x ∈ r.log, x.1 < n

/-- An entry that no collection may take. -/
def Guarded (r : ResourceRecord) (d : Directory) (c : CollectCall) : Prop :=
  d.keyDigest ∈ c.referenced ∨ (∃ inst, r.store.isActive inst d.keyDigest = true) ∨ (r.store.files d).lock ≠ none

/-- What the calls promise of their steps. -/
def Spares (w : Setting) (r : ResourceRecord) : FileStep → Prop
  | .unlinkPayload d c | .unlinkManifest d c | .removeDirectory d c => ¬ Guarded r d c
  | .replacePayload d _ _ payload => payload.length ≤ maxEntryBytes ∧
    ∑ e ∈ (r.store.inArea d.area).erase d, r.store.size e + payload.length ≤ w.limitFor d.area
  | .replaceManifest d _ m => w.keyDigest m.key = d.keyDigest
  | _ => True

theorem size_perform (q : FileStep) (disk : Disk) (d : Directory) : (q.perform disk).1.size d ≤ disk.size d ∨
    ∃ owner key payload, q = .replacePayload d owner key payload ∧ (q.perform disk).1.size d ≤ payload.length := by
  rcases payload_perform q disk d with h | h | ⟨owner,key,payload,rfl,h⟩
  · exact .inl (size_congr h).le
  · exact .inl ((size_of_none h).trans_le (Nat.zero_le _))
  · refine .inr ⟨owner,key,payload,rfl,?_⟩
    unfold Disk.size
    rw [h]
    exact le_rfl

theorem tidy_after (h : Tidy w r.store) (hq : Spares w r q) : Tidy w (after i q r).store where
  within area := by
    by_cases hgrown : ∃ d owner key payload, q = .replacePayload d owner key payload ∧ d.area = area ∧
        r.store.size d < (after i q r).store.size d
    · obtain ⟨d,owner,key,payload,rfl,rfl,hlarger⟩ := hgrown
      refine le_trans (areaSize_le_others fun e he _ => ?_) (le_trans (Nat.add_le_add_left ?_ _) hq.2)
      · rcases size_perform (.replacePayload d owner key payload) r.store e with h | ⟨_,_,_,hq,-⟩
        · exact h
        · exact absurd (FileStep.replacePayload.inj hq).1.symm he
      · rcases size_perform (.replacePayload d owner key payload) r.store d with h | ⟨_,_,_,hq,h⟩
        · exact absurd h (Nat.not_le.mpr hlarger)
        · exact (FileStep.replacePayload.inj hq).2.2.2 ▸ h
    · refine (areaSize_le fun e harea => Nat.le_of_not_lt fun hlarger => hgrown ?_).trans (h.within area)
      rcases size_perform q r.store e with h | ⟨owner,key,payload,hq,-⟩
      · exact absurd h (Nat.not_le.mpr hlarger)
      · exact ⟨e,owner,key,payload,hq,harea,hlarger⟩
  sizes d := by
    rcases size_perform q r.store d with hsize | ⟨owner,key,payload,rfl,hsize⟩
    · exact hsize.trans (h.sizes d)
    · exact hsize.trans hq.1
  home d m hm := by
    have hsame : ∀ f : Files, (q.perform r.store).1.files d = f → f.manifest = (r.store.files d).manifest →
        w.keyDigest m.key = d.keyDigest := by
      rintro f rfl hmanifest
      exact h.home d m (hmanifest.symm.trans hm)
    rcases files_perform q r.store d with h | ⟨owner,-,-,h⟩ | ⟨owner,-,h⟩ | ⟨-,h⟩ | ⟨owner,-,h⟩ | ⟨owner,key,payload,-,h⟩ |
      ⟨owner,m',rfl,h⟩ | ⟨c,-,h⟩ | ⟨c,rfl,h⟩
    · exact hsame _ h rfl
    · exact hsame _ h rfl
    · exact hsame _ h rfl
    · exact hsame _ h rfl
    · exact hsame _ h rfl
    · exact hsame _ h rfl
    · rw [show (after i (.replaceManifest d owner m') r).store.files d = _ from h] at hm
      obtain rfl := Except.ok.inj (Option.some.inj hm)
      exact hq
    · exact hsame _ h rfl
    · cases (congrArg Files.manifest h).symm.trans hm

theorem kempt_after (h : Kempt w n r) (hi : i < n) (hq : Spares w r q) : Kempt w n (after i q r) where
  tidy := tidy_after h.tidy hq
  marked inst keyDigest hactive := by
    change ∃ x ∈ r.log ++ [(i,⟨q,(q.perform r.store).2⟩)], _
    cases hbefore : r.store.isActive inst keyDigest with
    | true =>
      obtain ⟨x,hx,hmarks⟩ := h.marked inst keyDigest hbefore
      exact ⟨x,mem_append_left _ hx,hmarks⟩
    | false =>
      rcases active_perform q r.store inst keyDigest hbefore with hsame | hmarks
      · cases hactive.symm.trans hsame
      · exact ⟨_,mem_append_right _ (mem_singleton_self _),hmarks⟩
  clients x hx := by
    rcases mem_append.mp hx with hx | hx
    · exact h.clients x hx
    · exact mem_singleton.mp hx ▸ hi

theorem Kempt.more (h : Kempt w n r) : Kempt w (n + 1) r where
  tidy := h.tidy
  marked := h.marked
  clients x hx := Nat.lt_succ_of_lt (h.clients x hx)

/-! ## What the calls promise -/

/-- A client that does as promised in such runs. -/
abbrev Tending (w : Setting) (i : ℕ) (Post : ResourceRecord → α → Prop) (s : ResourceScript α) (r : ResourceRecord) : Prop :=
  s.Promises (Crowd.performAs FileStep.perform i) (Evolves i) (fun r q => (∃ n, Kempt w n r) ∧ Orderly w r i q)
    (fun r q => Spares w r q) Post r

variable {Post : ResourceRecord → α → Prop}

theorem tending_ask {f : q.Answer → ResourceScript α} : Tending w i Post (ask q >>= f) r ↔
    ∀ r', Evolves i r r' → (∃ n, Kempt w n r') ∧ Orderly w r' i q →
      Spares w r' q ∧ Tending w i Post (f (q.perform r'.store).2) (after i q r') :=
  Iff.rfl

theorem tending_done {x : α} (h : Post r x) : Tending w i Post (pure x) r := h

variable {s : ResourceScript α} {bytes : ℕ} {moves : List (Move ResourceCall)}

theorem tending_bind {β : Type} {Post' : ResourceRecord → β → Prop} {f : α → ResourceScript β}
    (h : Tending w i Post s r) (hf : ∀ r' a, Post r' a → Tending w i Post' (f a) r') : Tending w i Post' (s >>= f) r :=
  Script.Promises.bind h hf

/-- A step of which nothing is promised. -/
def Mild (w : Setting) (q : FileStep) : Prop := ∀ r, Spares w r q

theorem Looks.mild (h : Looks q) : Mild w q := by
  intro r
  cases q <;> trivial

theorem tending_mild (h : s.AsksOnly (Mild w)) : Tending w i (fun _ _ => True) s r :=
  Script.Promises.of_asksOnly (S := fun _ => True) (fun _ _ _ _ => trivial) (fun a _ hq _ _ => ⟨hq a,trivial⟩) h trivial

/-! ### Publishing -/

theorem tending_payloadSizes {a : ResourceRecord} {ds ds' : List Directory} (harea : ∀ d ∈ ds ++ ds', d.area = area)
    (hlog : a.log <+: r.log) (h : Stays a.log.length (putsInto area) (fun disk => (ds.map disk.size).sum ≤ bytes) r) :
    Tending w i (fun r more => a.log <+: r.log ∧
      Stays a.log.length (putsInto area) (fun disk => ((ds ++ ds').map disk.size).sum ≤ bytes + more) r) (payloadSizes ds') r := by
  induction ds' generalizing ds bytes r with
  | nil =>
    refine tending_done ⟨hlog,?_⟩
    rw [append_nil]
    exact h
  | cons d ds' ih =>
    refine tending_ask.mpr fun r₁ h₁ hr₁ => ⟨trivial,?_⟩
    obtain ⟨⟨n,hkempt⟩,-⟩ := hr₁
    have hread : r₁.store.payloadSize d = r₁.store.size d := payloadSize_eq (hkempt.tidy.sizes d)
    have hstays₁ := h.grows (sizes_grow (fun e he => harea e (mem_append_left _ he)) h₁.toGrows) hlog.length_le h₁.toGrows
    have hcount : Stays a.log.length (putsInto area)
        (fun disk => ((ds ++ [d]).map disk.size).sum ≤ bytes + r₁.store.size d) r₁ := by
      refine hstays₁.imp_left fun hsum => ?_
      change ((ds ++ [d]).map r₁.store.size).sum ≤ _
      rw [map_append,sum_append,map_singleton,sum_singleton]
      exact Nat.add_le_add_right hsum _
    have hlog₁ : a.log <+: (after i (.readPayload d) r₁).log := (hlog.trans h₁.log).trans (log_after ..)
    have harea' : ∀ e ∈ (ds ++ [d]) ++ ds', e.area = area := by simpa using harea
    have hsame := fun (more : ℕ) (h : Stays a.log.length (putsInto area)
      (fun disk => ((ds ++ [d]).map disk.size).sum ≤ bytes + more) r₁) =>
        (h.grows .inl (hlog.trans h₁.log).length_le (grows_after i _ r₁) : Stays _ _ _ (after i (.readPayload d) r₁))
    have hrest := fun (more : ℕ) (h : Stays a.log.length (putsInto area)
      (fun disk => ((ds ++ [d]).map disk.size).sum ≤ bytes + more) (after i (.readPayload d) r₁)) => ih harea' hlog₁ h
    have hsplit : ds ++ d :: ds' = (ds ++ [d]) ++ ds' := by simp
    rw [hsplit]
    cases hpayload : ((FileStep.readPayload d).perform r₁.store).2 with
    | error code =>
      have hzero : r₁.store.size d = 0 := by
        rw [← hread]
        unfold Disk.payloadSize
        rw [show r₁.store.readPayload d = .error code from hpayload]
      rw [hzero] at hcount
      exact hrest 0 (hsame 0 hcount)
    | ok payload =>
      have hsize : r₁.store.size d = payload.length := by
        rw [← hread]
        unfold Disk.payloadSize
        rw [show r₁.store.readPayload d = .ok payload from hpayload]
      rw [hsize] at hcount
      refine tending_bind (hrest payload.length (hsame payload.length hcount)) fun r₂ more ⟨hlog₂,hstays⟩ => tending_done ⟨hlog₂,?_⟩
      rw [Nat.add_assoc] at hstays
      exact hstays

/-- The publisher has listed the area of its directory, and summed up the other payloads in the list. -/
def Summed (i : ℕ) (d : Directory) (bytes : ℕ) (r : ResourceRecord) : Prop :=
  ∃ a : ResourceRecord, (after i (.manifests d.area) a).log <+: r.log ∧
    Stays (a.log.length + 1) (putsInto d.area)
      (fun disk => (((a.store.manifests d.area).filter (· ≠ d)).map disk.size).sum ≤ bytes) r

theorem area_of_mem_manifests {e : Directory} (h : e ∈ disk.manifests area) : e.area = area := by
  obtain ⟨x,hx,rfl⟩ := mem_map.mp h
  have hboth := (mem_filter.mp hx).2
  simp only [Bool.and_eq_true,beq_iff_eq] at hboth
  exact hboth.1

theorem Summed.grows (h : Summed i d bytes r) (hr : Grows r r') : Summed i d bytes r' := by
  obtain ⟨a,hlog,hstays⟩ := h
  have hlen : a.log.length + 1 ≤ r.log.length := length_after i _ a ▸ hlog.length_le
  refine ⟨a,hlog.trans hr.log,hstays.grows (sizes_grow (fun e he => ?_) hr) hlen hr⟩
  exact area_of_mem_manifests (mem_of_mem_filter he)

theorem tending_areaBytes (d : Directory) : Tending w i (fun r bytes => Summed i d bytes r) (areaBytes d.area d) r := by
  refine tending_ask.mpr fun r₁ h₁ _ => ⟨trivial,?_⟩
  have hstart : Stays (after i (.manifests d.area) r₁).log.length (putsInto d.area)
      (fun disk => (([] : List Directory).map disk.size).sum ≤ 0) (after i (.manifests d.area) r₁) := .inl le_rfl
  have harea : ∀ e ∈ [] ++ (r₁.store.manifests d.area).filter (· ≠ d), e.area = d.area := fun e he =>
    area_of_mem_manifests (mem_of_mem_filter he)
  have hsizes := tending_payloadSizes (w := w) (i := i) harea prefix_rfl hstart
  refine Script.Promises.weaken hsizes (fun _ _ h => h) fun r bytes ⟨hlog,hstays⟩ => ⟨r₁,hlog,?_⟩
  rw [length_after,Nat.zero_add] at hstays
  exact hstays

theorem Summed.others_le (h : Summed i d bytes r) (hcounts : CountsAll r i d) :
    ∑ e ∈ (r.store.inArea d.area).erase d, r.store.size e ≤ bytes := by
  obtain ⟨a,hlog,hstays⟩ := h
  obtain ⟨hu,hlisted⟩ := hcounts
  have hlooked : Looked i a.log.length (lists d.area) r := (looked_after (decide_eq_true rfl) i a).grow hlog
  have hsum := hstays.untouched hlooked hu
  refine le_trans (Finset.sum_le_sum_of_ne_zero fun e he hsize => ?_)
    ((sum_toFinset_le ((a.store.manifests d.area).filter (· ≠ d)) r.store.size).trans hsum)
  obtain ⟨hne,hmem⟩ := Finset.mem_erase.mp he
  obtain ⟨hpresent,harea⟩ := Finset.mem_filter.mp hmem
  refine mem_toFinset.mpr (mem_filter.mpr ⟨?_,decide_eq_true hne⟩)
  have hentry : (i,⟨.manifests d.area,a.store.manifests d.area⟩) ∈ r.log :=
    hlog.subset (mem_append_right _ (mem_singleton_self _))
  exact hlisted _ hentry rfl _ (if_pos rfl) e (mem_toFinset.mp hpresent) harea hne hsize

def Result.isCollected : Result → Bool
  | .collected _ => true
  | _ => false

theorem tending_publishOpen (rule : SharingRule) (key : SharedResourceKey) (payload : Bytes) (fault : Option Fault)
    (existing : Lookup) :
    Tending w i (fun _ x => x.isCollected = false) (publishOpen w i rule key payload fault existing) r := by
  unfold publishOpen
  dsimp only
  split
  · exact tending_done rfl
  · refine tending_bind (tending_areaBytes (w.directory rule key)) fun r₁ bytes hsummed => ?_
    split
    · exact tending_done rfl
    · split
      · exact tending_done rfl
      · rename_i hquota hsize
        refine tending_ask.mpr fun r₂ h₂ _ => ⟨trivial,?_⟩
        have hsummed₂ := (hsummed.grows h₂.toGrows).grows (grows_after i (.stage (w.directory rule key) i) r₂)
        refine tending_ask.mpr fun r₃ h₃ hr₃ => ⟨⟨Nat.le_of_not_lt hsize,?_⟩,?_⟩
        · have hothers := (hsummed₂.grows h₃.toGrows).others_le hr₃.2.2
          exact (Nat.add_le_add_right hothers _).trans (Nat.le_of_not_lt hquota)
        · split
          · exact tending_done rfl
          · split
            · exact tending_done rfl
            · refine tending_ask.mpr fun r₄ _ _ => ⟨trivial,?_⟩
              refine tending_ask.mpr fun r₅ _ _ => ⟨rfl,?_⟩
              split
              · exact tending_done rfl
              · refine tending_bind (tending_mild ((asksOnly_examine rule key).mono fun _ h => h.mild)) fun r₆ l _ => ?_
                cases l with
                | hit m payload' | blocked | missing | poisoned _ => exact tending_done rfl

theorem tending_publishLocked (rule : SharingRule) (key : SharedResourceKey) (payload : Bytes) (fault : Option Fault) :
    Tending w i (fun _ x => x.isCollected = false) (publishLocked w i rule key payload fault) r := by
  refine tending_bind (tending_mild ((asksOnly_examine rule key).mono fun _ h => h.mild)) fun r₁ l _ => ?_
  cases l with
  | hit m payload' => exact tending_done rfl
  | blocked | missing | poisoned _ =>
    rw [publishOver_of rfl]
    exact tending_publishOpen rule key payload fault _

theorem asksOnly_acquire (d : Directory) (owner tries : ℕ) : (acquire d owner tries).AsksOnly (Mild w) := by
  have htry : ∀ onTaken : ResourceScript Disk.Locking, onTaken.AsksOnly (Mild w) → (tryLock d owner onTaken).AsksOnly (Mild w) := by
    intro onTaken honTaken
    refine asksOnly_ask (fun _ => trivial) fun x => ?_
    cases x with
    | created => exact asksOnly_ask (fun _ => trivial) fun _ => .done _
    | taken => exact honTaken
    | failed => exact .done _
  induction tries with
  | zero => exact htry _ (.done _)
  | succ n ih => exact htry _ ih

theorem asksOnly_release (d : Directory) (owner : ℕ) : (release d owner).AsksOnly (Mild w) := by
  refine asksOnly_ask (fun _ => trivial) fun exist => ?_
  cases exist with
  | false => exact .done _
  | true =>
    refine asksOnly_ask (fun _ => trivial) fun l => ?_
    cases l with
    | none => exact .done _
    | some f =>
      dsimp only
      split
      · exact asksOnly_ask (fun _ => trivial) fun _ => .done _
      · exact .done _

theorem tending_publish (c : PublishCall) : Tending w i (fun _ x => x.isCollected = false) (publish w i c) r := by
  unfold publish
  cases w.ruleFor c.key with
  | none => exact tending_done rfl
  | some rule =>
    dsimp only
    split
    · exact tending_done rfl
    · split
      · exact tending_done rfl
      · split
        · exact tending_done rfl
        · refine tending_ask.mpr fun r₁ _ _ => ⟨trivial,?_⟩
          refine tending_bind (tending_mild (asksOnly_acquire (w.directory rule c.key) i c.tries)) fun r₂ x _ => ?_
          cases x with
          | failed => exact tending_done rfl
          | taken => exact tending_done rfl
          | created =>
            refine tending_bind (tending_publishLocked rule c.key c.payload c.fault) fun r₃ x hx => ?_
            exact tending_bind (tending_mild (asksOnly_release _ i)) fun r₄ _ _ => tending_done hx

/-! ### Collecting -/

/-- A collection has found its entry neither active nor locked, and not referenced. -/
structure Cleared (i : ℕ) (d : Directory) (c : CollectCall) (r : ResourceRecord) : Prop where
  referenced : d.keyDigest ∉ c.referenced
  active : ∃ base < r.log.length, Looked i base (asksActive c.inst d.keyDigest) r ∧
    Stays (base + 1) (marks c.inst d.keyDigest) (fun disk => disk.isActive c.inst d.keyDigest = false) r
  lock : ∃ base < r.log.length, Looked i base (looksAtLock d) r ∧
    Stays (base + 1) (locks d) (fun disk => (disk.files d).lock = none) r

theorem Cleared.grows (h : Cleared i d c r) (hr : Grows r r') : Cleared i d c r' where
  referenced := h.referenced
  active := by
    obtain ⟨base,hlt,hlooked,hstays⟩ := h.active
    exact ⟨base,hlt.trans_le hr.log.length_le,hlooked.grow hr.log,hstays.grows (hr.active _ _) hlt hr⟩
  lock := by
    obtain ⟨base,hlt,hlooked,hstays⟩ := h.lock
    exact ⟨base,hlt.trans_le hr.log.length_le,hlooked.grow hr.log,hstays.grows (hr.lock _) hlt hr⟩

theorem Cleared.spares (h : Cleared i d c r) (hr : Kempt w n r) (hu : Undisturbed r i d c) : ¬ Guarded r d c := by
  obtain ⟨hlock,hactive,helsewhere⟩ := hu
  rintro (hreferenced | ⟨inst,hinst⟩ | hlocked)
  · exact h.referenced hreferenced
  · have hinactive : r.store.isActive inst d.keyDigest = false := by
      by_cases hsame : inst = c.inst
      · obtain ⟨base,-,hlooked,hstays⟩ := h.active
        exact hsame ▸ hstays.untouched hlooked hactive
      · obtain ⟨x,hx,hmarks⟩ := hr.marked inst d.keyDigest hinst
        refine helsewhere x hx inst ?_ hsame
        unfold marks at hmarks
        split at hmarks
        · rename_i inst' keyDigest' token hq
          obtain ⟨hi,hk⟩ := Bool.and_eq_true_iff.mp hmarks
          rw [hq,← of_decide_eq_true hi]
          exact if_pos (of_decide_eq_true hk)
        · cases hmarks
    cases hinactive.symm.trans hinst
  · obtain ⟨base,-,hlooked,hstays⟩ := h.lock
    exact hlocked (hstays.untouched hlooked hlock)

def empties : FileStep → Option Directory
  | .unlinkPayload d _ => some d
  | _ => none

/-- The keys of all entries that the client has emptied are among these. -/
def Emptied (i : ℕ) (keyDigests : List String) (r : ResourceRecord) : Prop :=
  ∀ x ∈ r.log, x.1 = i → ∀ d ∈ empties x.2.1, d.keyDigest ∈ keyDigests

theorem Emptied.evolves {keyDigests : List String} (h : Emptied i keyDigests r) (hr : Evolves i r r') :
    Emptied i keyDigests r' := by
  intro x hx hi
  obtain ⟨more,hmore⟩ := hr.log
  rw [← hmore] at hx
  rcases mem_append.mp hx with hx | hx
  · exact h x hx hi
  · refine absurd hi (hr.others x ?_)
    rw [← hmore,drop_left]
    exact hx

theorem Emptied.after {keyDigests : List String} (h : Emptied i keyDigests r) {q : FileStep}
    (hq : ∀ d ∈ empties q, d.keyDigest ∈ keyDigests) : Emptied i keyDigests (after i q r) := by
  intro x hx hi
  rcases mem_append.mp hx with hx | hx
  · exact h x hx hi
  · exact mem_singleton.mp hx ▸ hq

theorem Emptied.mono {keyDigests keyDigests' : List String} (h : Emptied i keyDigests r)
    (hsub : ∀ k ∈ keyDigests, k ∈ keyDigests') : Emptied i keyDigests' r :=
  fun x hx hi d hd => hsub _ (h x hx hi d hd)

theorem removed_of_empty (h : (disk.get d).any Files.isEmpty = true) : (disk.removeDirectory d).2 = true := by
  unfold Disk.removeDirectory
  cases hget : disk.get d with
  | none =>
    rw [hget] at h
    cases h
  | some f =>
    rw [hget] at h
    dsimp only
    rw [if_pos (show f.isEmpty = true from h)]

theorem tending_collectEntry {keyDigests : List String} (c : CollectCall) (d : Directory) (h : Emptied i keyDigests r) :
    Tending w i (fun r x => Emptied i (keyDigests ++ x.toList) r) (collectEntry w c d) r := by
  have hnone : ∀ {r : ResourceRecord}, Emptied i keyDigests r → Emptied i (keyDigests ++ (none : Option String).toList) r :=
    fun h => h.mono fun k hk => mem_append_left _ hk
  refine tending_ask.mpr fun r₁ h₁ hr₁ => ⟨trivial,?_⟩
  have hemptied₁ := (h.evolves h₁).after (q := .readManifest d) nofun
  cases hm : ((FileStep.readManifest d).perform r₁.store).2 with
  | error code => exact tending_done (hnone hemptied₁)
  | ok m =>
    obtain ⟨⟨n₁,hkempt₁⟩,-⟩ := hr₁
    have hkey : w.keyDigest m.key = d.keyDigest := hkempt₁.tidy.home d m (readManifest_ok hm)
    dsimp only
    rw [hkey]
    split
    · exact tending_done (hnone hemptied₁)
    · rename_i hreferenced
      refine tending_ask.mpr fun r₂ h₂ _ => ⟨trivial,?_⟩
      have hemptied₂ := (hemptied₁.evolves h₂).after (q := .isActive c.inst d.keyDigest) nofun
      cases hactive : ((FileStep.isActive c.inst d.keyDigest).perform r₂.store).2 with
      | true => exact tending_done (hnone hemptied₂)
      | false =>
        refine tending_ask.mpr fun r₃ h₃ _ => ⟨trivial,?_⟩
        have hemptied₃ := (hemptied₂.evolves h₃).after (q := .lockExists d) nofun
        cases hlock : ((FileStep.lockExists d).perform r₃.store).2 with
        | true => exact tending_done (hnone hemptied₃)
        | false =>
          have hgrows₃ := h₃.toGrows.trans (grows_after i (.lockExists d) r₃)
          have hlen₂ := length_after i (.isActive c.inst d.keyDigest) r₂
          have hcleared : Cleared i d c (after i (.lockExists d) r₃) := by
            refine ⟨hreferenced,⟨r₂.log.length,?_,?_,?_⟩,r₃.log.length,?_,looked_after (decide_eq_true rfl) i r₃,.inl ?_⟩
            · exact (hlen₂ ▸ Nat.lt_succ_self _ : r₂.log.length < (after i _ r₂).log.length).trans_le hgrows₃.log.length_le
            · exact (looked_after (by simp [asksActive]) i r₂).grow hgrows₃.log
            · refine Stays.grows (r := after i (.isActive c.inst d.keyDigest) r₂) (.inl hactive) (hgrows₃.active _ _) hlen₂.ge hgrows₃
            · exact length_after i _ r₃ ▸ Nat.lt_succ_self _
            · exact Option.not_isSome_iff_eq_none.mp (Bool.eq_false_iff.mp hlock)
          rw [if_neg Bool.false_ne_true]
          split
          · exact tending_done (hnone hemptied₃)
          · refine tending_ask.mpr fun r₄ h₄ hr₄ => ?_
            obtain ⟨⟨n₄,hkempt₄⟩,-,hu₄,hrefuses⟩ := hr₄
            have hcleared₄ := hcleared.grows h₄.toGrows
            refine ⟨hcleared₄.spares hkempt₄ hu₄,?_⟩
            rw [hrefuses,if_neg nofun]
            have hemptied₄ : Emptied i (keyDigests ++ [d.keyDigest]) (after i (.unlinkPayload d c) r₄) := by
              refine ((hemptied₃.evolves h₄).mono fun k hk => mem_append_left _ hk).after ?_
              rintro e ⟨⟩
              exact mem_append_right _ (mem_singleton_self _)
            refine tending_ask.mpr fun r₅ h₅ hr₅ => ?_
            obtain ⟨⟨n₅,hkempt₅⟩,-,hu₅⟩ := hr₅
            have hcleared₅ := (hcleared₄.grows (grows_after i (.unlinkPayload d c) r₄)).grows h₅.toGrows
            refine ⟨hcleared₅.spares hkempt₅ hu₅,?_⟩
            rw [if_neg nofun]
            have hemptied₅ := (hemptied₄.evolves h₅).after (q := .unlinkManifest d c) nofun
            refine tending_ask.mpr fun r₆ h₆ hr₆ => ?_
            obtain ⟨⟨n₆,hkempt₆⟩,-,hu₆,hempty⟩ := hr₆
            have hcleared₆ := (hcleared₅.grows (grows_after i (.unlinkManifest d c) r₅)).grows h₆.toGrows
            refine ⟨hcleared₆.spares hkempt₆ hu₆,?_⟩
            rw [show ((FileStep.removeDirectory d c).perform r₆.store).2 = true from removed_of_empty hempty]
            exact tending_done ((hemptied₅.evolves h₆).after nofun)

theorem tending_collectEntries {keyDigests : List String} (c : CollectCall) (ds : List Directory) (h : Emptied i keyDigests r) :
    Tending w i (fun r x => Emptied i (keyDigests ++ x) r) (collectEntries w c ds) r := by
  induction ds generalizing keyDigests r with
  | nil => exact tending_done (h.mono fun k hk => mem_append_left _ hk)
  | cons d rest ih =>
    refine tending_bind (tending_collectEntry c d h) fun r₁ x h₁ => tending_bind (ih h₁) fun r₂ xs h₂ => tending_done ?_
    rw [← append_assoc]
    exact h₂

theorem tending_collectAreas {keyDigests : List String} (c : CollectCall) (areas : List String) (h : Emptied i keyDigests r) :
    Tending w i (fun r x => Emptied i (keyDigests ++ x) r) (collectAreas w c areas) r := by
  induction areas generalizing keyDigests r with
  | nil => exact tending_done (h.mono fun k hk => mem_append_left _ hk)
  | cons area rest ih =>
    refine tending_ask.mpr fun r₁ h₁ _ => ⟨trivial,?_⟩
    have hemptied₁ := (h.evolves h₁).after (q := .manifests area) nofun
    refine tending_bind (tending_collectEntries c _ hemptied₁) fun r₂ xs h₂ => ?_
    refine tending_bind (ih h₂) fun r₃ xs' h₃ => tending_done ?_
    rw [← append_assoc]
    exact h₃

def Tells (i : ℕ) (r : ResourceRecord) (x : Result) : Prop := ∀ keyDigests, x = .collected keyDigests → Emptied i keyDigests r

theorem tending_call (call : ResourceCall) (h : Emptied i [] r) : Tending w i (Tells i) (call.script w i) r := by
  have hother : ∀ {r : ResourceRecord} {x : Result}, x.isCollected = false → Tells i r x := by
    rintro r x hx keyDigests rfl
    cases hx
  cases call with
  | lookup key =>
    exact tending_bind (tending_mild ((asksOnly_lookup key).mono fun _ h => h.mild)) fun r₁ l _ => tending_done (hother rfl)
  | publish c => exact Script.Promises.weaken (tending_publish c) (fun _ _ h => h) fun _ _ hx => hother hx
  | garbageCollect c =>
    refine tending_bind (tending_collectAreas c w.areas h) fun r₁ xs h₁ => tending_done ?_
    rintro keyDigests ⟨⟩
    exact h₁.mono fun k hk => (mem_insertionSort _).mpr hk
  | markActive inst key token =>
    dsimp only [ResourceCall.script]
    cases w.ruleFor key with
    | none => exact tending_done (hother rfl)
    | some rule => exact tending_ask.mpr fun r₁ _ _ => ⟨trivial,tending_done (hother rfl)⟩
  | releaseActive inst key token => exact tending_ask.mpr fun r₁ _ _ => ⟨trivial,tending_done (hother rfl)⟩

/-! ## Publishers under way -/

def Disk.Locking.isCreated : Disk.Locking → Bool
  | .created => true
  | _ => false

def creates (d : Directory) : Entry FileStep.Answer → Bool
  | ⟨.createLock e _,(answer : Disk.Locking)⟩ => e = d && answer.isCreated
  | _ => false

def unlocks (d : Directory) : FileStep → Bool
  | .unlinkLock e => e = d
  | _ => false

/-- A publisher has created the lock file of a directory, and has not removed it yet. -/
def Publishing (i : ℕ) (d : Directory) (r : ResourceRecord) : Prop :=
  (∃ x ∈ r.log, x.1 = i ∧ creates d x.2 = true) ∧ ∀ x ∈ r.log, x.1 = i → unlocks d x.2.1 = false

instance (i : ℕ) (d : Directory) (r : ResourceRecord) : Decidable (Publishing i d r) := by
  unfold Publishing
  infer_instance

theorem Owns.stays {j : ℕ} (h : Owns j d r) (hrests : Rests w i r q) (hq : j = i → unlocks d q = false) :
    Owns j d (after i q r) := by
  obtain ⟨l,hl,hj⟩ := h
  have hsame : ∀ f : Files, (q.perform r.store).1.files d = f → f.lock = (r.store.files d).lock → Owns j d (after i q r) := by
    rintro f rfl hlock
    exact ⟨l,hlock.trans hl,hj⟩
  rcases files_perform q r.store d with h | ⟨owner,-,hnone,-⟩ | ⟨owner,rfl,h⟩ | ⟨rfl,-⟩ | ⟨owner,-,h⟩ |
    ⟨owner,key',payload,-,h⟩ | ⟨owner,m,-,h⟩ | ⟨c,-,h⟩ | ⟨c,-,h⟩
  · exact hsame _ h rfl
  · cases hnone.symm.trans hl
  · obtain ⟨rfl,howns⟩ := hrests
    refine ⟨⟨owner,true⟩,?_,howns.unique ⟨l,hl,hj⟩⟩
    rw [show (after owner (.writeLock d owner) r).store.files d = _ from h]
  · have hunlocks := hq (Owns.unique ⟨l,hl,hj⟩ hrests)
    cases (decide_eq_true rfl : unlocks d (.unlinkLock d) = true).symm.trans hunlocks
  all_goals exact hsame _ h rfl

theorem owns_of_creates {r : ResourceRecord} (hrests : Rests w i r q) (h : creates d ⟨q,(q.perform r.store).2⟩ = true) :
    Owns i d (after i q r) := by
  cases q with
  | createLock e owner =>
    obtain ⟨hd,hcreated⟩ := Bool.and_eq_true_iff.mp h
    obtain rfl := of_decide_eq_true hd
    refine ⟨⟨owner,false⟩,createLock_created ?_,hrests⟩
    cases hlocking : ((FileStep.createLock e owner).perform r.store).2 with
    | created => exact hlocking
    | taken | failed =>
      rw [hlocking] at hcreated
      cases hcreated
  | makeDirectory _ | writeLock _ _ | lockExists _ | readLock _ | unlinkLock _ | manifestExists _ | payloadExists _
  | readManifest _ | readPayload _ | stage _ _ | replacePayload _ _ _ _ | replaceManifest _ _ _ | manifests _ | isActive _ _
  | unlinkPayload _ _ | unlinkManifest _ _ | removeDirectory _ _ | markActive _ _ _ | releaseActive _ _ _ => cases h

def Locking (r : ResourceRecord) : Prop := ∀ j d, Publishing j d r → Owns j d r

theorem Locking.after (h : Locking r) (hrests : Rests w i r q) : Locking (after i q r) := by
  rintro j d ⟨⟨x,hx,hj,hcreates⟩,hkept⟩
  have hquiet : j = i → unlocks d q = false := by
    rintro rfl
    exact hkept _ (mem_append_right _ (mem_singleton_self _)) rfl
  rcases mem_append.mp hx with hx | hx
  · refine (h j d ⟨⟨x,hx,hj,hcreates⟩,fun y hy => ?_⟩).stays hrests hquiet
    exact hkept y (mem_append_left _ hy)
  · rw [mem_singleton.mp hx] at hj hcreates
    subst hj
    exact owns_of_creates hrests hcreates

/-! ## Whole runs -/

/-- A disk that is in order, with no key active yet. -/
structure Prepared (w : Setting) (disk : Disk) : Prop extends Tidy w disk where
  inactive : ∀ inst keyDigest, disk.isActive inst keyDigest = false

theorem run_tending (h : Prepared w disk)
    (hmoves : Along (Crowd.next FileStep.perform (ResourceCall.script w)) (Crowd.Admits (Orderly w)) (Crowd.begin disk) moves) :
    Kempt w (resourceRun w disk moves).clients.length (resourceRun w disk moves).record ∧
      (∀ i x, (resourceRun w disk moves).clients[i]? = some (Script.done x) → Tells i (resourceRun w disk moves).record x) ∧
      Along (Crowd.next FileStep.perform (ResourceCall.script w)) (Crowd.Admits fun r _ q => Spares w r q) (Crowd.begin disk)
        moves := by
  have hpost : ∀ i (a b : ResourceRecord) x, Evolves i a b → Tells i a x → Tells i b x :=
    fun i a b x hr hx keyDigests hcollected => (hx keyDigests hcollected).evolves hr
  have hadmits : ∀ n (r : ResourceRecord) i q, Kempt w n r → Orderly w r i q → (∃ n, Kempt w n r) ∧ Orderly w r i q :=
    fun n r i q hr hq => ⟨⟨n,hr⟩,hq⟩
  have hstep : ∀ n (r : ResourceRecord) i q, i < n → Kempt w n r → Orderly w r i q → Spares w r q →
      Kempt w n (after i q r) ∧ ∀ j, j ≠ i → Evolves j r (after i q r) :=
    fun n r i q hi hr _ hq => ⟨kempt_after hr hi hq,fun j hj => evolves_after i q r hj⟩
  have hprogram : ∀ n call (r : ResourceRecord), Kempt w n r → Tending w n (Tells n) (ResourceCall.script w n call) r :=
    fun n call r hr => tending_call call fun x hx hi => absurd hi (hr.clients x hx).ne
  have hbegin : Crowd.Promised FileStep.perform Evolves (fun i r q => (∃ n, Kempt w n r) ∧ Orderly w r i q)
      (fun _ r q => Spares w r q) Tells (fun n r => Kempt w n r) (Crowd.begin disk : ResourceState) := by
    refine ⟨⟨h.toTidy,fun inst keyDigest hactive => ?_,fun x hx => by cases hx⟩,fun i p hp => by cases hp⟩
    cases (h.inactive inst keyDigest).symm.trans hactive
  obtain ⟨⟨hkempt,hclients⟩,halong,-⟩ := Crowd.run_promised (R := Evolves) (P := fun _ r q => Spares w r q)
    (fun i a => .refl i a) (fun i a b c => Evolves.trans) hpost hadmits (fun _ _ hr => hr.more) hstep hprogram hbegin hmoves
  exact ⟨hkempt,fun i x hx => hclients i _ hx,halong⟩

theorem run_locking
    (h : Along (Crowd.next FileStep.perform (ResourceCall.script w)) (Crowd.Admits (InOrder w)) (Crowd.begin disk) moves) :
    Locking (resourceRun w disk moves).record := by
  have hstart : Locking ⟨disk,[]⟩ := fun j d ⟨⟨x,hx,_⟩,_⟩ => by cases hx
  have hbegin : Going w disk Locking (fun _ _ _ _ => True) (Crowd.begin disk) := going_begin w disk hstart
  obtain ⟨hgoing,-⟩ := run_going (fun _ _ _ _ _ _ _ => trivial) (fun i a q ha _ hrests => ha.after hrests)
    (fun i key r => Script.Promises.weaken (promising_lookup key) (fun _ _ h => h) fun _ _ _ => trivial) hbegin h
  exact hgoing.1.2

def Spared (r : ResourceRecord) : FileStep → Prop
  | .unlinkPayload d c | .unlinkManifest d c | .removeDirectory d c =>
    d.keyDigest ∉ c.referenced ∧ (∀ inst, r.store.isActive inst d.keyDigest = false) ∧ ∀ i, ¬ Publishing i d r
  | _ => True

theorem Spares.spared (h : Spares w r q) (hlocking : Locking r) : Spared r q := by
  have hguarded : ∀ d c, ¬ Guarded r d c →
      d.keyDigest ∉ c.referenced ∧ (∀ inst, r.store.isActive inst d.keyDigest = false) ∧ ∀ i, ¬ Publishing i d r := by
    intro d c hnot
    refine ⟨fun hreferenced => hnot (.inl hreferenced),fun inst => ?_,fun i hpublishing => ?_⟩
    · exact Bool.eq_false_iff.mpr fun hactive => hnot (.inr (.inl ⟨inst,hactive⟩))
    · obtain ⟨l,hl,-⟩ := hlocking i d hpublishing
      exact hnot (.inr (.inr (by rw [hl]; nofun)))
  cases q with
  | unlinkPayload d c | unlinkManifest d c | removeDirectory d c => exact hguarded d c h
  | makeDirectory _ | createLock _ _ | writeLock _ _ | lockExists _ | readLock _ | unlinkLock _ | manifestExists _
  | payloadExists _ | readManifest _ | readPayload _ | stage _ _ | replacePayload _ _ _ _ | replaceManifest _ _ _
  | manifests _ | isActive _ _ | markActive _ _ _ | releaseActive _ _ _ => trivial

/-- The areas are within their quotas, collections spare what they must, and tell what they have emptied. -/
structure Safe (w : Setting) (disk : Disk) (moves : List (Move ResourceCall)) : Prop where
  quota : ∀ area, (resourceRun w disk moves).record.store.areaSize area ≤ w.limitFor area
  spared : ∀ made m rest, moves = made ++ m :: rest →
    Crowd.Admits (fun r _ q => Spared r q) (resourceRun w disk made) m
  told : ∀ i keyDigests, result (resourceRun w disk moves) i = some (.collected keyDigests) →
    Emptied i keyDigests (resourceRun w disk moves).record

/-- Every run in which nobody comes between is safe. -/
theorem safe_collection (w : Setting) (disk : Disk) (moves : List (Move ResourceCall)) (hdisk : Prepared w disk)
    (h : Along (Crowd.next FileStep.perform (ResourceCall.script w)) (Crowd.Admits (Orderly w)) (Crowd.begin disk) moves) :
    Safe w disk moves := by
  obtain ⟨hkempt,htells,halong⟩ := run_tending hdisk h
  refine ⟨hkempt.tidy.within,fun made m rest hsplit x hx => ?_,fun i keyDigests hresult => ?_⟩
  · have hmade := (hsplit ▸ h).left.mono fun s m hm x hx => (hm x hx).1
    exact (halong.at hsplit x hx).spared (run_locking hmade)
  · exact htells i _ (client_of_result hresult) keyDigests rfl

/-! ## A safe run, and unsafe ones -/

theorem prepared_empty (w : Setting) : Prepared w emptyDisk where
  within _ := Nat.zero_le _
  sizes _ := Nat.zero_le _
  home _ _ h := by cases h
  inactive _ _ := rfl

def sampleCollect : CollectCall := ⟨0,[],fun _ => none⟩

def collectedEntry : List (Move ResourceCall) :=
  callAtOnce (.publish (samplePublish none)) 0 17 ++ callAtOnce (.garbageCollect sampleCollect) 1 10

theorem safe_collection_collected : Safe sampleSetting emptyDisk collectedEntry :=
  safe_collection _ _ _ (prepared_empty _) (by decide +kernel)

def otherKey : SharedResourceKey :=
  ⟨"python","wheel_cache","any","1","sha256:3e23e8160039594a33894f6564e1b1348bbd7a0088d42c4acb73eeaed59c009d"⟩

def tightSetting : Setting := { sampleSetting with limitFor := fun _ => 1 }

/-- Two publishers sum up the area, and then both put their payloads there. -/
def overlappingPublishers : List (Move ResourceCall) :=
  callAtOnce (.publish (samplePublish none)) 0 5 ++ callAtOnce (.publish ⟨otherKey,[98],true,none,0⟩) 1 7 ++
    List.replicate 2 (.advance 0)

/-- A publisher locks an entry after a collection has looked at its lock. -/
def lockedLate : List (Move ResourceCall) :=
  callAtOnce (.publish (samplePublish none)) 0 17 ++ callAtOnce (.garbageCollect sampleCollect) 1 4 ++
    callAtOnce (.publish (samplePublish none)) 2 2

def sampleDirectory : Directory :=
  ⟨"Cache","python","wheel_cache","sha256:6962bee4308d1146429cd0b57c69bbd1f301ea7622e3dfb226fd35466c4f2356"⟩

def activeElsewhere : List (Move ResourceCall) :=
  callAtOnce (.publish (samplePublish none)) 0 17 ++ callAtOnce (.markActive 1 sampleKey "worker") 1 1 ++
    callAtOnce (.garbageCollect sampleCollect) 2 10

/-- The keys that a collection tells of. -/
def Result.keyDigests : Result → Option (List String)
  | .collected keyDigests => some keyDigests
  | _ => none

/-- Overlapping publishers exceed the quota, and a collection empties an entry that is being published and does not tell,
and one that is active in another instance. -/
theorem collection_unsafe :
    (resourceRun tightSetting emptyDisk overlappingPublishers).record.store.areaSize "Cache" = 2 ∧
    (Publishing 2 sampleDirectory (resourceRun sampleSetting emptyDisk lockedLate).record ∧
      ((resourceRun sampleSetting emptyDisk lockedLate).record.store.files sampleDirectory).payload = some [97] ∧
      ((resourceRun sampleSetting emptyDisk (lockedLate ++ [.advance 1])).record.store.files sampleDirectory).payload = none ∧
      (result (resourceRun sampleSetting emptyDisk (lockedLate ++ List.replicate 6 (.advance 1))) 1).bind Result.keyDigests =
        some []) ∧
    ((resourceRun sampleSetting emptyDisk activeElsewhere).record.store.isActive 1 sampleDirectory.keyDigest = true ∧
      (result (resourceRun sampleSetting emptyDisk activeElsewhere) 2).bind Result.keyDigests =
        some [sampleDirectory.keyDigest]) := by
  refine ⟨?_,⟨?_,?_,?_,?_⟩,?_,?_⟩
  all_goals decide +kernel

end Bdb.Resources
