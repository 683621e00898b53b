import Bdb.Resources.Store

/-! # Directories and what they serve

A file step changes the files of one directory at most. A directory serves a key when a look at it finds an exact hit.
-/
namespace Bdb.Resources

variable {w : Setting} {disk : Disk} {d e : Directory} {rule : SharingRule} {key : SharedResourceKey} {m : Manifest}
  {payload : Bytes}

/-! ## Directories -/

theorem get_change (disk : Disk) (d : Directory) (f : Files → Files) (e : Directory) :
    (disk.change d f).get e = if e = d then (disk.get d).map f else disk.get e := by
  unfold Disk.change Disk.get
  rw [List.find?_map]
  have hkeys : ((fun x : Directory × Files => decide (x.1 = e)) ∘ fun x => if x.1 = d then (x.1,f x.2) else x) =
      fun x => decide (x.1 = e) := by
    funext x
    simp only [Function.comp]
    split <;> rfl
  rw [hkeys]
  by_cases he : e = d
  · subst he
    rw [if_pos rfl]
    cases hfind : disk.directories.find? (fun x => decide (x.1 = e)) with
    | none => rfl
    | some x =>
      have hx : x.1 = e := by simpa using List.find?_some hfind
      simp [hx]
  · rw [if_neg he]
    cases hfind : disk.directories.find? (fun x => decide (x.1 = e)) with
    | none => rfl
    | some x =>
      have hx : x.1 = e := by simpa using List.find?_some hfind
      have hxd : x.1 ≠ d := fun h => he (hx.symm.trans h)
      simp [hxd]

theorem files_change_other (disk : Disk) (f : Files → Files) (h : e ≠ d) : (disk.change d f).files e = disk.files e := by
  unfold Disk.files
  rw [get_change,if_neg h]

theorem files_change_self (disk : Disk) (f : Files → Files) (h : disk.get d ≠ none) :
    (disk.change d f).files d = f (disk.files d) := by
  obtain ⟨x,hx⟩ := Option.ne_none_iff_exists'.mp h
  unfold Disk.files
  rw [get_change,if_pos rfl,hx]
  rfl

theorem get_ne_none_of_lock {l : LockFile} (h : (disk.files d).lock = some l) : disk.get d ≠ none := by
  intro hnone
  unfold Disk.files at h
  rw [hnone] at h
  cases h

theorem files_change_cases (disk : Disk) (d : Directory) (f : Files → Files) (e : Directory) :
    (disk.change d f).files e = disk.files e ∨ (e = d ∧ (disk.change d f).files e = f (disk.files e)) := by
  by_cases he : e = d
  · subst he
    cases hget : disk.get e with
    | none =>
      left
      unfold Disk.files
      rw [get_change,if_pos rfl,hget]
      rfl
    | some x => exact .inr ⟨rfl,files_change_self disk f (hget ▸ nofun)⟩
  · exact .inl (files_change_other disk f he)

theorem files_makeDirectory (disk : Disk) (d e : Directory) : (disk.makeDirectory d).files e = disk.files e := by
  unfold Disk.makeDirectory
  split
  · rfl
  · rename_i hnone
    unfold Disk.get at hnone
    unfold Disk.files Disk.get
    rw [List.find?_append]
    cases hfind : disk.directories.find? (fun x => decide (x.1 = e)) with
    | some x => rfl
    | none =>
      by_cases he : d = e
      · simp [he]
      · simp [he]

theorem get_removeDirectory (disk : Disk) (d e : Directory) :
    (disk.removeDirectory d).1.get e = disk.get e ∨ (e = d ∧ (disk.removeDirectory d).1.get e = none ∧ (disk.files d).isEmpty = true) := by
  unfold Disk.removeDirectory
  split
  · rename_i f hf
    split
    · rename_i hempty
      by_cases he : e = d
      · subst he
        refine .inr ⟨rfl,?_,?_⟩
        · unfold Disk.get
          rw [Option.map_eq_none_iff,List.find?_eq_none]
          intro x hx
          simpa using (List.mem_filter.mp hx).2
        · unfold Disk.files
          rw [hf]
          exact hempty
      · left
        unfold Disk.get
        rw [List.find?_filter]
        congr 2
        funext x
        by_cases hx : x.1 = e
        · simp [hx,he]
        · simp [hx]
    · exact .inl rfl
  · exact .inl rfl

theorem files_removeDirectory (disk : Disk) (d e : Directory) : (disk.removeDirectory d).1.files e = disk.files e := by
  rcases get_removeDirectory disk d e with hsame | ⟨rfl,hnone,hempty⟩
  · unfold Disk.files
    rw [hsame]
  · have hfiles : (disk.removeDirectory e).1.files e = .none := by
      unfold Disk.files
      rw [hnone]
      rfl
    rw [hfiles]
    unfold Files.isEmpty at hempty
    simp only [Bool.and_eq_true,Option.isNone_iff_eq_none,List.isEmpty_iff] at hempty
    obtain ⟨⟨⟨hpayload,hmanifest⟩,hlock⟩,hpartials⟩ := hempty
    unfold Files.none
    rw [← hpayload,← hmanifest,← hlock,← hpartials]

theorem files_createLock (disk : Disk) (d : Directory) (owner : ℕ) (e : Directory) :
    (disk.createLock d owner).1.files e = disk.files e ∨
      (e = d ∧ (disk.files d).lock = none ∧ (disk.createLock d owner).1.files e = { disk.files e with lock := some ⟨owner,false⟩ }) := by
  unfold Disk.createLock
  cases hget : disk.get d with
  | none => exact .inl rfl
  | some f =>
    dsimp only
    cases hlock : f.lock with
    | some l => exact .inl rfl
    | none =>
      have hfiles : (disk.files d).lock = none := by
        unfold Disk.files
        rw [hget]
        exact hlock
      rcases files_change_cases disk d (fun f => { f with lock := some ⟨owner,false⟩ }) e with hsame | ⟨rfl,hchange⟩
      · exact .inl hsame
      · exact .inr ⟨rfl,hfiles,hchange⟩

variable {owner : ℕ} {disk' : Disk}

theorem createLock_created (h : (disk.createLock d owner).2 = .created) :
    ((disk.createLock d owner).1.files d).lock = some ⟨owner,false⟩ := by
  unfold Disk.createLock at h ⊢
  cases hget : disk.get d with
  | none =>
    rw [hget] at h
    cases h
  | some f =>
    rw [hget] at h
    dsimp only at h ⊢
    cases hlock : f.lock with
    | some l =>
      rw [hlock] at h
      cases h
    | none =>
      dsimp only
      rw [files_change_self disk _ (hget ▸ nofun)]

theorem createLock_not_created (h : (disk.createLock d owner).2 ≠ .created) :
    (disk.createLock d owner).1 = disk := by
  unfold Disk.createLock at h ⊢
  cases hget : disk.get d with
  | none => rfl
  | some f =>
    rw [hget] at h
    dsimp only at h ⊢
    cases hlock : f.lock with
    | some l => rfl
    | none =>
      rw [hlock] at h
      exact absurd rfl h

/-! ## What a directory serves -/

def Disk.served (w : Setting) (disk : Disk) (d : Directory) : Option SharedResourceKey :=
  match disk.readManifest d, disk.readPayload d with
  | .ok m, .ok payload =>
    match w.ruleFor m.key with
    | some rule => if w.directory rule m.key = d ∧ w.exact rule m.key m payload = true then some m.key else none
    | none => none
  | _, _ => none

theorem exact_iff : w.exact rule key m payload = true ↔
    m.key = key ∧ m.area = rule.area ∧ m.payloadDigest = w.sha256 payload ∧ m.sizeBytes = payload.length := by
  simp [Setting.exact,and_assoc]

theorem served_iff : disk.served w d = some key ↔ ∃ rule m payload, w.ruleFor key = some rule ∧ d = w.directory rule key ∧
    disk.readManifest d = .ok m ∧ disk.readPayload d = .ok payload ∧ w.exact rule key m payload = true := by
  constructor
  · intro h
    unfold Disk.served at h
    split at h
    · rename_i m payload hm hpayload
      split at h
      · rename_i rule hrule
        split at h
        · rename_i hexact
          cases h
          exact ⟨rule,m,payload,hrule,hexact.1.symm,hm,hpayload,hexact.2⟩
        · cases h
      · cases h
    · cases h
  · rintro ⟨rule,m,payload,hrule,rfl,hm,hpayload,hexact⟩
    have hkey := (exact_iff.mp hexact).1
    unfold Disk.served
    simp only [hm,hpayload,hkey,hrule,hexact,and_self,if_true]

theorem readManifest_congr (h : (disk'.files d).manifest = (disk.files d).manifest) :
    disk'.readManifest d = disk.readManifest d := by
  unfold Disk.readManifest
  rw [h]

theorem readPayload_congr (h : (disk'.files d).payload = (disk.files d).payload) :
    disk'.readPayload d = disk.readPayload d := by
  unfold Disk.readPayload
  rw [h]

theorem served_congr (hmanifest : (disk'.files d).manifest = (disk.files d).manifest)
    (hpayload : (disk'.files d).payload = (disk.files d).payload) : disk'.served w d = disk.served w d := by
  unfold Disk.served
  rw [readManifest_congr hmanifest,readPayload_congr hpayload]

theorem readManifest_ok (h : disk.readManifest d = .ok m) : (disk.files d).manifest = some (.ok m) := by
  unfold Disk.readManifest at h
  split at h
  · rename_i content hcontent
    rw [hcontent,h]
  · cases h

theorem readPayload_ok (h : disk.readPayload d = .ok payload) :
    (disk.files d).payload = some payload ∧ payload.length ≤ maxEntryBytes := by
  unfold Disk.readPayload at h
  split at h
  · rename_i content hcontent
    split at h
    · cases h
    · cases h
      exact ⟨hcontent,Nat.le_of_not_lt ‹_›⟩
  · cases h

theorem served_of_removed (hpayload : (disk'.files d).payload = (disk.files d).payload ∨ (disk'.files d).payload = none)
    (hmanifest : (disk'.files d).manifest = (disk.files d).manifest ∨ (disk'.files d).manifest = none)
    (h : disk'.served w d = some key) : disk.served w d = some key := by
  obtain ⟨rule,m,payload,hrule,hd,hm,hp,hexact⟩ := served_iff.mp h
  rcases hpayload with hpayload | hpayload
  · rcases hmanifest with hmanifest | hmanifest
    · rw [← served_congr (w := w) hmanifest hpayload]
      exact h
    · rw [readManifest_ok hm] at hmanifest
      cases hmanifest
  · rw [(readPayload_ok hp).1] at hpayload
    cases hpayload

end Bdb.Resources
