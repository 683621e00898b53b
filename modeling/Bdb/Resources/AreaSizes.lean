import Bdb.Resources.ExactHits
import Mathlib.Algebra.Order.BigOperators.Group.Finset

/-! # How the store grows

The payloads of an area take up more room only by a step that puts a payload there, a lock file appears only by a step that
locks its directory, and a key becomes active only by a step that marks it. What a client has found out therefore holds as
long as nobody makes such a step.
-/
namespace Bdb.Resources

variable {w : Setting} {disk disk' : Disk} {d : Directory} {r r' : ResourceRecord} {i j base : ℕ} {q : FileStep}
  {area : String} {S : Finset Directory}

/-! ## The size of an area -/

def Disk.size (disk : Disk) (d : Directory) : ℕ := ((disk.files d).payload.map List.length).getD 0

def Disk.inArea (disk : Disk) (area : String) : Finset Directory := (disk.directories.map (·.1)).toFinset.filter (·.area = area)

def Disk.areaSize (disk : Disk) (area : String) : ℕ := ∑ d ∈ disk.inArea area, disk.size d

theorem size_congr (h : (disk'.files d).payload = (disk.files d).payload) : disk'.size d = disk.size d := by
  unfold Disk.size
  rw [h]

theorem size_of_none (h : (disk.files d).payload = none) : disk.size d = 0 := by
  unfold Disk.size
  rw [h]
  rfl

theorem mem_inArea (h : disk.get d ≠ none) (harea : d.area = area) : d ∈ disk.inArea area := by
  obtain ⟨f,hf⟩ := Option.ne_none_iff_exists'.mp h
  obtain ⟨e,he,-⟩ := Option.map_eq_some_iff.mp hf
  have hname : e.1 = d := by simpa using List.find?_some he
  exact Finset.mem_filter.mpr ⟨List.mem_toFinset.mpr (hname ▸ List.mem_map_of_mem (List.mem_of_find?_eq_some he)),harea⟩

theorem get_of_size (h : disk.size d ≠ 0) : disk.get d ≠ none := by
  intro hnone
  refine h (size_of_none ?_)
  unfold Disk.files
  rw [hnone]
  rfl

theorem sum_le_sum (area : String) (h : ∀ e ∈ S, disk.size e ≠ 0 → e.area = area → disk.size e ≤ disk'.size e) (hS : ∀ e ∈ S, e.area = area)
    {S' : Finset Directory} (hS' : ∀ e ∈ S, disk.size e ≠ 0 → e ∈ S') :
    ∑ e ∈ S, disk.size e ≤ ∑ e ∈ S', disk'.size e := by
  have hnonzero : ∑ e ∈ S, disk.size e = ∑ e ∈ S.filter (disk.size · ≠ 0), disk.size e := (Finset.sum_filter_ne_zero S).symm
  rw [hnonzero]
  calc ∑ e ∈ S.filter (disk.size · ≠ 0), disk.size e ≤ ∑ e ∈ S.filter (disk.size · ≠ 0), disk'.size e := by
        refine Finset.sum_le_sum fun e he => ?_
        obtain ⟨hmem,hsize⟩ := Finset.mem_filter.mp he
        exact h e hmem hsize (hS e hmem)
    _ ≤ ∑ e ∈ S', disk'.size e := by
        refine Finset.sum_le_sum_of_ne_zero fun e he _ => ?_
        obtain ⟨hmem,hsize⟩ := Finset.mem_filter.mp he
        exact hS' e hmem hsize

theorem areaSize_le_others (h : ∀ e, e ≠ d → e.area = d.area → disk'.size e ≤ disk.size e) :
    disk'.areaSize d.area ≤ ∑ e ∈ (disk.inArea d.area).erase d, disk.size e + disk'.size d := by
  have hothers : ∑ e ∈ (disk'.inArea d.area).erase d, disk'.size e ≤ ∑ e ∈ (disk.inArea d.area).erase d, disk.size e := by
    refine sum_le_sum d.area (fun e he _ harea => h e (Finset.ne_of_mem_erase he) harea)
      (fun e he => (Finset.mem_filter.mp (Finset.mem_of_mem_erase he)).2) fun e he hsize => ?_
    have hne := Finset.ne_of_mem_erase he
    have harea := (Finset.mem_filter.mp (Finset.mem_of_mem_erase he)).2
    refine Finset.mem_erase.mpr ⟨hne,mem_inArea (get_of_size fun hzero => hsize ?_) harea⟩
    exact Nat.le_zero.mp (hzero ▸ h e hne harea)
  unfold Disk.areaSize
  by_cases hd : d ∈ disk'.inArea d.area
  · rw [← Finset.sum_erase_add _ _ hd]
    omega
  · rw [← Finset.erase_eq_of_notMem hd]
    omega

theorem areaSize_le (h : ∀ e, e.area = area → disk'.size e ≤ disk.size e) : disk'.areaSize area ≤ disk.areaSize area := by
  refine sum_le_sum area (fun e _ _ harea => h e harea) (fun e he => (Finset.mem_filter.mp he).2) fun e he hsize => ?_
  have harea := (Finset.mem_filter.mp he).2
  exact mem_inArea (get_of_size fun hzero => hsize (Nat.le_zero.mp (hzero ▸ h e harea))) harea

/-! ## Kinds of steps -/

def putsInto (area : String) : FileStep → Bool
  | .replacePayload d _ _ _ => d.area = area
  | _ => false

def locks (d : Directory) : FileStep → Bool
  | .createLock e _ | .writeLock e _ => e = d
  | _ => false

def marks (inst : ℕ) (keyDigest : String) : FileStep → Bool
  | .markActive inst' keyDigest' _ => inst' = inst && keyDigest' = keyDigest
  | _ => false

/-- What the steps of a run change from a record to a later one. -/
structure Grows (a b : ResourceRecord) : Prop where
  log : a.log <+: b.log
  payload : ∀ d, (b.store.files d).payload = (a.store.files d).payload ∨ (b.store.files d).payload = none ∨
    Asked a.log.length (putsInto d.area) b
  lock : ∀ d, (a.store.files d).lock = none → (b.store.files d).lock = none ∨ Asked a.log.length (locks d) b
  active : ∀ inst keyDigest, a.store.isActive inst keyDigest = false →
    b.store.isActive inst keyDigest = false ∨ Asked a.log.length (marks inst keyDigest) b

theorem Grows.refl (a : ResourceRecord) : Grows a a where
  log := List.prefix_rfl
  payload _ := .inl rfl
  lock _ h := .inl h
  active _ _ h := .inl h

variable {a b c : ResourceRecord} {touches looks : FileStep → Bool} {fact : Disk → Prop}

theorem Grows.trans (hab : Grows a b) (hbc : Grows b c) : Grows a c where
  log := hab.log.trans hbc.log
  payload d := by
    rcases hbc.payload d with hc | hc | hc
    · rw [hc]
      exact (hab.payload d).imp_right (Or.imp_right fun h => h.grow hbc.log)
    · exact .inr (.inl hc)
    · exact .inr (.inr (hc.mono hab.log.length_le))
  lock d h := by
    rcases hab.lock d h with hb | hb
    · exact (hbc.lock d hb).imp_right fun hc => hc.mono hab.log.length_le
    · exact .inr (hb.grow hbc.log)
  active inst keyDigest h := by
    rcases hab.active inst keyDigest h with hb | hb
    · exact (hbc.active inst keyDigest hb).imp_right fun hc => hc.mono hab.log.length_le
    · exact .inr (hb.grow hbc.log)

theorem payload_perform (q : FileStep) (disk : Disk) (d : Directory) :
    ((q.perform disk).1.files d).payload = (disk.files d).payload ∨ ((q.perform disk).1.files d).payload = none ∨
      ∃ owner key payload, q = .replacePayload d owner key payload ∧ ((q.perform disk).1.files d).payload = some payload := by
  rcases files_perform q disk d with h | ⟨owner,-,-,h⟩ | ⟨owner,-,h⟩ | ⟨-,h⟩ | ⟨owner,-,h⟩ | ⟨owner,key,payload,hq,h⟩ |
    ⟨owner,m,-,h⟩ | ⟨c,-,h⟩ | ⟨c,-,h⟩
  · exact .inl (by rw [h])
  · exact .inl (by rw [h])
  · exact .inl (by rw [h])
  · exact .inl (by rw [h])
  · exact .inl (by rw [h])
  · exact .inr (.inr ⟨owner,key,payload,hq,by rw [h]⟩)
  · exact .inl (by rw [h])
  · exact .inr (.inl (by rw [h]))
  · exact .inl (by rw [h])

theorem lock_perform (q : FileStep) (disk : Disk) (d : Directory) (hnone : (disk.files d).lock = none) :
    ((q.perform disk).1.files d).lock = none ∨ locks d q = true := by
  rcases files_perform q disk d with h | ⟨owner,rfl,-,-⟩ | ⟨owner,rfl,-⟩ | ⟨-,h⟩ | ⟨owner,-,h⟩ | ⟨owner,key,payload,-,h⟩ |
    ⟨owner,m,-,h⟩ | ⟨c,-,h⟩ | ⟨c,-,h⟩
  · exact .inl (by rw [h,hnone])
  · exact .inr (decide_eq_true rfl)
  · exact .inr (decide_eq_true rfl)
  · exact .inl (by rw [h])
  all_goals exact .inl (by rw [h]; exact hnone)

theorem active_perform (q : FileStep) (disk : Disk) (inst : ℕ) (keyDigest : String)
    (hactive : disk.isActive inst keyDigest = false) :
    (q.perform disk).1.isActive inst keyDigest = false ∨ marks inst keyDigest q = true := by
  have hsame : (q.perform disk).1.active = disk.active →
      (q.perform disk).1.isActive inst keyDigest = false ∨ marks inst keyDigest q = true := by
    intro h
    left
    unfold Disk.isActive at hactive ⊢
    rw [h]
    exact hactive
  cases q with
  | markActive inst' keyDigest' token =>
    by_cases hmarks : marks inst keyDigest (.markActive inst' keyDigest' token) = true
    · exact .inr hmarks
    · left
      change (disk.markActive inst' keyDigest' token).1.isActive inst keyDigest = false
      unfold Disk.markActive
      split
      · exact hactive
      · unfold Disk.isActive at hactive ⊢
        dsimp only
        split
        · rename_i hinst
          subst hinst
          simp only [marks,Bool.and_eq_true,decide_eq_true_eq,true_and] at hmarks
          simp [List.any_append,hactive,hmarks]
        · exact hactive
  | releaseActive inst' keyDigest' token =>
    left
    change (disk.releaseActive inst' keyDigest' token).1.isActive inst keyDigest = false
    unfold Disk.releaseActive
    split
    · unfold Disk.isActive at hactive ⊢
      dsimp only
      split
      · refine List.any_eq_false.mpr fun x hx => List.any_eq_false.mp hactive x ?_
        exact (List.mem_filter.mp hx).1
      · exact hactive
    · exact hactive
  | makeDirectory d =>
    refine hsame ?_
    change (disk.makeDirectory d).active = _
    unfold Disk.makeDirectory
    split <;> rfl
  | createLock d owner =>
    refine hsame ?_
    change (disk.createLock d owner).1.active = _
    unfold Disk.createLock
    split
    · rfl
    · split <;> rfl
  | removeDirectory d c =>
    refine hsame ?_
    change (disk.removeDirectory d).1.active = _
    unfold Disk.removeDirectory
    split
    · split <;> rfl
    · rfl
  | writeLock _ _ | lockExists _ | readLock _ | unlinkLock _ | manifestExists _ | payloadExists _ | readManifest _
  | readPayload _ | stage _ _ | replacePayload _ _ _ _ | replaceManifest _ _ _ | manifests _ | isActive _ _
  | unlinkPayload _ _ | unlinkManifest _ _ => exact hsame rfl

theorem grows_after (i : ℕ) (q : FileStep) (r : ResourceRecord) : Grows r (after i q r) where
  log := log_after i q r
  payload d := by
    rcases payload_perform q r.store d with h | h | ⟨owner,key,payload,rfl,-⟩
    · exact .inl h
    · exact .inr (.inl h)
    · exact .inr (.inr (asked_after (decide_eq_true rfl) i r))
  lock d h := (lock_perform q r.store d h).imp_right fun hq => asked_after hq i r
  active inst keyDigest h := (active_perform q r.store inst keyDigest h).imp_right fun hq => asked_after hq i r

/-- What the other clients do between the steps of a client. -/
structure Evolves (i : ℕ) (a b : ResourceRecord) : Prop extends Grows a b where
  others : ∀ x ∈ b.log.drop a.log.length, x.1 ≠ i

theorem Evolves.refl (i : ℕ) (a : ResourceRecord) : Evolves i a a where
  toGrows := .refl a
  others x hx := by
    rw [List.drop_length] at hx
    cases hx

theorem Evolves.trans (hab : Evolves i a b) (hbc : Evolves i b c) : Evolves i a c where
  toGrows := hab.toGrows.trans hbc.toGrows
  others x hx := by
    obtain ⟨more,hmore⟩ := hbc.log
    rw [← hmore,List.drop_append_of_le_length hab.log.length_le] at hx
    rcases List.mem_append.mp hx with hx | hx
    · exact hab.others x hx
    · refine hbc.others x ?_
      rw [← hmore,List.drop_left]
      exact hx

theorem evolves_after (i : ℕ) (q : FileStep) (r : ResourceRecord) (hji : j ≠ i) : Evolves j r (after i q r) where
  toGrows := grows_after i q r
  others x hx := by
    change x ∈ (r.log ++ [(i,_)]).drop r.log.length at hx
    rw [List.drop_left] at hx
    rw [List.mem_singleton.mp hx]
    exact hji.symm

/-! ## What a client has found out -/

/-- A fact about the store holds, unless somebody has made a step of some kind since the log had a length. -/
def Stays (base : ℕ) (touches : FileStep → Bool) (fact : Disk → Prop) (r : ResourceRecord) : Prop :=
  fact r.store ∨ Asked base touches r

theorem Stays.grows (h : Stays base touches fact r)
    (hfact : fact r.store → fact r'.store ∨ Asked r.log.length touches r') (hbase : base ≤ r.log.length) (hr : Grows r r') :
    Stays base touches fact r' := by
  rcases h with h | h
  · exact (hfact h).imp_right fun hasked => hasked.mono hbase
  · exact .inr (h.grow hr.log)

theorem sizes_grow {ds : List Directory} (hds : ∀ d ∈ ds, d.area = area) (hr : Grows r r') {bytes : ℕ}
    (h : (ds.map r.store.size).sum ≤ bytes) :
    (ds.map r'.store.size).sum ≤ bytes ∨ Asked r.log.length (putsInto area) r' := by
  by_cases hput : Asked r.log.length (putsInto area) r'
  · exact .inr hput
  · refine .inl (le_trans (List.sum_le_sum fun d hd => ?_) h)
    rcases hr.payload d with hsame | hnone | hasked
    · exact (size_congr hsame).le
    · rw [size_of_none hnone]
      exact Nat.zero_le _
    · exact absurd (hds d hd ▸ hasked) hput

theorem sum_toFinset_le (ds : List Directory) (f : Directory → ℕ) : ∑ d ∈ ds.toFinset, f d ≤ (ds.map f).sum := by
  induction ds with
  | nil => exact le_rfl
  | cons d ds ih =>
    rw [List.toFinset_cons,List.map_cons,List.sum_cons]
    by_cases hd : d ∈ ds.toFinset
    · rw [Finset.insert_eq_of_mem hd]
      exact ih.trans (Nat.le_add_left _ _)
    · rw [Finset.sum_insert hd]
      exact Nat.add_le_add_left ih _

theorem payloadSize_eq (h : disk.size d ≤ maxEntryBytes) : disk.payloadSize d = disk.size d := by
  unfold Disk.payloadSize Disk.readPayload
  cases hpayload : (disk.files d).payload with
  | none => exact (size_of_none hpayload).symm
  | some payload =>
    have hsize : disk.size d = payload.length := by
      unfold Disk.size
      rw [hpayload]
      rfl
    dsimp only
    rw [if_neg (Nat.not_lt.mpr (hsize ▸ h))]
    exact hsize.symm

/-- Nobody has made a step that touches something after a look of the client at it. -/
def Untouched (i : ℕ) (looks touches : FileStep → Bool) (r : ResourceRecord) : Prop :=
  r.log.Pairwise fun x y => ¬ (x.1 = i ∧ looks x.2.1 = true ∧ touches y.2.1 = true)

instance (i : ℕ) (looks touches : FileStep → Bool) (r : ResourceRecord) : Decidable (Untouched i looks touches r) :=
  inferInstanceAs (Decidable (List.Pairwise _ _))

/-- The client has made a look as the next step after the log had a length. -/
def Looked (i base : ℕ) (looks : FileStep → Bool) (r : ResourceRecord) : Prop :=
  ∃ x, r.log[base]? = some x ∧ x.1 = i ∧ looks x.2.1 = true

theorem Looked.grow (h : Looked i base looks r) (hlog : r.log <+: r'.log) : Looked i base looks r' := by
  obtain ⟨x,hx,hlooks⟩ := h
  obtain ⟨more,hmore⟩ := hlog
  refine ⟨x,?_,hlooks⟩
  obtain ⟨hlt,-⟩ := List.getElem?_eq_some_iff.mp hx
  rw [← hmore,List.getElem?_append_left hlt]
  exact hx

theorem looked_after (h : looks q = true) (i : ℕ) (r : ResourceRecord) :
    Looked i r.log.length looks (after i q r) :=
  ⟨_,List.getElem?_concat_length,rfl,h⟩

theorem Stays.untouched (h : Stays (base + 1) touches fact r)
    (hlooked : Looked i base looks r) (hu : Untouched i looks touches r) : fact r.store := by
  rcases h with h | ⟨y,hy,htouches⟩
  · exact h
  · obtain ⟨x,hx,hi,hlooks⟩ := hlooked
    obtain ⟨hlt,hget⟩ := List.getElem?_eq_some_iff.mp hx
    obtain ⟨k,hk,rfl⟩ := List.getElem_of_mem hy
    rw [List.length_drop] at hk
    rw [List.getElem_drop] at htouches
    have hpair := List.pairwise_iff_getElem.mp hu base (base + 1 + k) hlt (by omega) (by omega)
    exact absurd ⟨hget ▸ hi,hget ▸ hlooks,htouches⟩ hpair

end Bdb.Resources
