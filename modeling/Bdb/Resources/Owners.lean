import Bdb.Resources.Directories

/-! # Publishers own their directories

While a publisher has the lock of a directory, the others only remove its files, and only by a collection. So a
publisher knows whether its key is a hit, and an entry that is a hit stays one until a collection removes a file of it.
-/
namespace Bdb.Resources

open List

variable {w : Setting} {disk : Disk} {d : Directory} {rule : SharingRule} {key : SharedResourceKey} {m : Manifest}
  {payload : Bytes} {α : Type}

/-! ## What the clients own -/

abbrev ResourceRecord := Record Disk FileStep.Answer

variable {r r' : ResourceRecord} {i j base : ℕ} {q : FileStep}

/-- A step of some kind was made since the log had a length. -/
def Asked (base : ℕ) (kind : FileStep → Bool) (r : ResourceRecord) : Prop := ∃ x ∈ r.log.drop base, kind x.2.1 = true

variable {kind : FileStep → Bool}

theorem Asked.mono {base' : ℕ} (h : Asked base' kind r) (hbase : base ≤ base') : Asked base kind r := by
  obtain ⟨x,hx,hkind⟩ := h
  exact ⟨x,drop_subset_drop_left r.log hbase hx,hkind⟩

theorem Asked.grow (h : Asked base kind r) (hlog : r.log <+: r'.log) : Asked base kind r' := by
  obtain ⟨x,hx,hkind⟩ := h
  obtain ⟨more,hmore⟩ := hlog
  refine ⟨x,?_,hkind⟩
  rw [← hmore,drop_append]
  exact mem_append_left _ hx

def collects (d : Directory) : FileStep → Bool
  | .unlinkPayload e _ | .unlinkManifest e _ => e = d
  | _ => false

/-- A collection has removed a file of the directory since the log had a length. -/
abbrev Collected (base : ℕ) (d : Directory) (r : ResourceRecord) : Prop := Asked base (collects d) r

def Owns (i : ℕ) (d : Directory) (r : ResourceRecord) : Prop := ∃ l, (r.store.files d).lock = some l ∧ l.owner = i

/-- What the other clients do to the directories of a client: they leave its lock files alone, and only collections remove
its files. -/
structure Leaves (i : ℕ) (a b : ResourceRecord) : Prop where
  log : a.log <+: b.log
  others : ∀ x ∈ b.log.drop a.log.length, x.1 ≠ i
  frees : ∀ d, Owns i d b → Owns i d a
  lock : ∀ d l, (a.store.files d).lock = some l → l.owner = i → (b.store.files d).lock = some l
  files : ∀ d, Owns i d a → ((b.store.files d).payload = (a.store.files d).payload ∧
      (b.store.files d).manifest = (a.store.files d).manifest) ∨
    (Collected a.log.length d b ∧
      ((b.store.files d).payload = (a.store.files d).payload ∨ (b.store.files d).payload = none) ∧
      ((b.store.files d).manifest = (a.store.files d).manifest ∨ (b.store.files d).manifest = none))

/-- What was a hit is one with the same payload, unless a collection has removed a file of it. -/
def Serves (w : Setting) (a b : ResourceRecord) : Prop :=
  ∀ d key, a.store.served w d = some key → (b.store.served w d = some key ∧
    (b.store.files d).payload = (a.store.files d).payload) ∨ Collected a.log.length d b

theorem Serves.trans {a b c : ResourceRecord} (hab : Serves w a b) (hlog : a.log <+: b.log) (hlog' : b.log <+: c.log)
    (hbc : Serves w b c) : Serves w a c := by
  intro d key h
  rcases hab d key h with ⟨hb,hpayload⟩ | hb
  · rcases hbc d key hb with ⟨hc,hpayload'⟩ | hc
    · exact .inl ⟨hc,hpayload'.trans hpayload⟩
    · exact .inr (hc.mono hlog.length_le)
  · exact .inr (hb.grow hlog')

structure Relies (w : Setting) (i : ℕ) (a b : ResourceRecord) : Prop extends Leaves i a b where
  serves : Serves w a b

theorem Relies.refl (a : ResourceRecord) : Relies w i a a where
  log := prefix_rfl
  others x hx := by
    rw [drop_length] at hx
    cases hx
  frees _ h := h
  lock _ _ h _ := h
  files _ _ := .inl ⟨rfl,rfl⟩
  serves _ _ h := .inl ⟨h,rfl⟩

theorem Relies.owns (h : Relies w i r r') (howns : Owns i d r) : Owns i d r' := by
  obtain ⟨l,hl,hi⟩ := howns
  exact ⟨l,h.lock d l hl hi,hi⟩

theorem Relies.trans {a b c : ResourceRecord} (hab : Relies w i a b) (hbc : Relies w i b c) : Relies w i a c where
  log := hab.log.trans hbc.log
  others x hx := by
    obtain ⟨more,hmore⟩ := hbc.log
    rw [← hmore,drop_append_of_le_length hab.log.length_le] at hx
    rcases mem_append.mp hx with hx | hx
    · exact hab.others x hx
    · refine hbc.others x ?_
      rw [← hmore,drop_left]
      exact hx
  frees d h := hab.frees d (hbc.frees d h)
  lock d l hl hi := hbc.lock d l (hab.lock d l hl hi) hi
  files d howns := by
    rcases hab.files d howns with ⟨hp,hm⟩ | ⟨hcollected,hp,hm⟩
    · rcases hbc.files d (hab.owns howns) with ⟨hp',hm'⟩ | ⟨hcollected,hp',hm'⟩
      · exact .inl ⟨hp'.trans hp,hm'.trans hm⟩
      · exact .inr ⟨hcollected.mono hab.log.length_le,hp ▸ hp',hm ▸ hm'⟩
    · refine .inr ⟨hcollected.grow hbc.log,?_,?_⟩
      · rcases hbc.files d (hab.owns howns) with ⟨hp',-⟩ | ⟨-,hp' | hp',-⟩
        · exact hp'.symm ▸ hp
        · exact hp'.symm ▸ hp
        · exact .inr hp'
      · rcases hbc.files d (hab.owns howns) with ⟨-,hm'⟩ | ⟨-,-,hm' | hm'⟩
        · exact hm'.symm ▸ hm
        · exact hm'.symm ▸ hm
        · exact .inr hm'
  serves := hab.serves.trans hab.log hbc.log hbc.serves

/-- A publication goes over no hit of another key; two such keys have the same digest. -/
def InOrder (w : Setting) (r : ResourceRecord) (_ : ℕ) : FileStep → Prop
  | .replacePayload d _ key _ => ∀ k ∈ r.store.served w d, k = key
  | .replaceManifest d _ m => ∀ k ∈ r.store.served w d, k = m.key
  | _ => True

instance (r : ResourceRecord) (i : ℕ) : (q : FileStep) → Decidable (InOrder w r i q)
  | .replacePayload d _ _ _ => Option.decidableForallMem (r.store.served w d)
  | .replaceManifest d _ _ => Option.decidableForallMem (r.store.served w d)
  | .makeDirectory _ | .createLock _ _ | .writeLock _ _ | .lockExists _ | .readLock _ | .unlinkLock _ | .manifestExists _
  | .payloadExists _ | .readManifest _ | .readPayload _ | .stage _ _ | .manifests _ | .isActive _ _ | .unlinkPayload _ _
  | .unlinkManifest _ _ | .removeDirectory _ _ | .markActive _ _ _ | .releaseActive _ _ _ => .isTrue trivial

def Fits (w : Setting) (d : Directory) (m : Manifest) (disk : Disk) : Prop :=
  m.payloadDigest = m.key.contentDigest ∧ ∃ rule, w.ruleFor m.key = some rule ∧ d = w.directory rule m.key ∧
    m.area = rule.area ∧ ∀ payload, disk.readPayload d = .ok payload → w.exact rule m.key m payload = true

/-- A client changes only the directories whose lock it has, and publishes over no hit of its key. -/
def Rests (w : Setting) (i : ℕ) (r : ResourceRecord) : FileStep → Prop
  | .createLock _ owner => owner = i
  | .writeLock d owner => owner = i ∧ Owns i d r
  | .unlinkLock d => Owns i d r
  | .replacePayload d _ key _ => Owns i d r ∧ r.store.served w d ≠ some key
  | .replaceManifest d _ m => Owns i d r ∧ Fits w d m r.store
  | _ => True

theorem Owns.unique (hi : Owns i d r) (hj : Owns j d r) : i = j := by
  obtain ⟨l,hl,rfl⟩ := hi
  obtain ⟨l',hl',rfl⟩ := hj
  rw [Option.some.inj (hl.symm.trans hl')]

/-! ## File steps -/

theorem files_perform (q : FileStep) (disk : Disk) (d : Directory) :
    (q.perform disk).1.files d = disk.files d ∨
    (∃ owner, q = .createLock d owner ∧ (disk.files d).lock = none ∧
      (q.perform disk).1.files d = { disk.files d with lock := some ⟨owner,false⟩ }) ∨
    (∃ owner, q = .writeLock d owner ∧ (q.perform disk).1.files d = { disk.files d with lock := some ⟨owner,true⟩ }) ∨
    (q = .unlinkLock d ∧ (q.perform disk).1.files d = { disk.files d with lock := none }) ∨
    (∃ owner, q = .stage d owner ∧
      (q.perform disk).1.files d = { disk.files d with partials := owner :: (disk.files d).partials }) ∨
    (∃ owner key payload, q = .replacePayload d owner key payload ∧ (q.perform disk).1.files d =
      { disk.files d with payload := some payload, partials := (disk.files d).partials.erase owner }) ∨
    (∃ owner m, q = .replaceManifest d owner m ∧ (q.perform disk).1.files d =
      { disk.files d with manifest := some (.ok m), partials := (disk.files d).partials.erase owner }) ∨
    (∃ c, q = .unlinkPayload d c ∧ (q.perform disk).1.files d = { disk.files d with payload := none }) ∨
    (∃ c, q = .unlinkManifest d c ∧ (q.perform disk).1.files d = { disk.files d with manifest := none }) := by
  cases q with
  | makeDirectory e => exact .inl (files_makeDirectory disk e d)
  | createLock e owner =>
    rcases files_createLock disk e owner d with h | ⟨rfl,hlock,h⟩
    · exact .inl h
    · exact .inr (.inl ⟨owner,rfl,hlock,h⟩)
  | writeLock e owner =>
    rcases files_change_cases disk e (fun f => { f with lock := some ⟨owner,true⟩ }) d with h | ⟨rfl,h⟩
    · exact .inl h
    · exact .inr (.inr (.inl ⟨owner,rfl,h⟩))
  | unlinkLock e =>
    rcases files_change_cases disk e (fun f => { f with lock := none }) d with h | ⟨rfl,h⟩
    · exact .inl h
    · exact .inr (.inr (.inr (.inl ⟨rfl,h⟩)))
  | stage e owner =>
    rcases files_change_cases disk e (fun f => { f with partials := owner :: f.partials }) d with h | ⟨rfl,h⟩
    · exact .inl h
    · exact .inr (.inr (.inr (.inr (.inl ⟨owner,rfl,h⟩))))
  | replacePayload e owner key payload =>
    rcases files_change_cases disk e (fun f => { f with payload := some payload, partials := f.partials.erase owner }) d with
      h | ⟨rfl,h⟩
    · exact .inl h
    · exact .inr (.inr (.inr (.inr (.inr (.inl ⟨owner,key,payload,rfl,h⟩)))))
  | replaceManifest e owner m =>
    rcases files_change_cases disk e (fun f => { f with manifest := some (.ok m), partials := f.partials.erase owner }) d with
      h | ⟨rfl,h⟩
    · exact .inl h
    · exact .inr (.inr (.inr (.inr (.inr (.inr (.inl ⟨owner,m,rfl,h⟩))))))
  | unlinkPayload e c =>
    rcases files_change_cases disk e (fun f => { f with payload := none }) d with h | ⟨rfl,h⟩
    · exact .inl h
    · exact .inr (.inr (.inr (.inr (.inr (.inr (.inr (.inl ⟨c,rfl,h⟩)))))))
  | unlinkManifest e c =>
    rcases files_change_cases disk e (fun f => { f with manifest := none }) d with h | ⟨rfl,h⟩
    · exact .inl h
    · exact .inr (.inr (.inr (.inr (.inr (.inr (.inr (.inr ⟨c,rfl,h⟩)))))))
  | removeDirectory e c => exact .inl (files_removeDirectory disk e d)
  | markActive inst keyDigest token =>
    left
    change (disk.markActive inst keyDigest token).1.files d = _
    unfold Disk.markActive
    split <;> rfl
  | releaseActive inst keyDigest token =>
    left
    change (disk.releaseActive inst keyDigest token).1.files d = _
    unfold Disk.releaseActive
    split <;> rfl
  | lockExists _ | readLock _ | manifestExists _ | payloadExists _ | readManifest _ | readPayload _ | manifests _ | isActive _ _ =>
    exact .inl rfl

abbrev after (i : ℕ) (q : FileStep) (r : ResourceRecord) : ResourceRecord := (Crowd.performAs FileStep.perform i q r).1

theorem log_after (i : ℕ) (q : FileStep) (r : ResourceRecord) : r.log <+: (after i q r).log := prefix_append ..

theorem length_after (i : ℕ) (q : FileStep) (r : ResourceRecord) : (after i q r).log.length = r.log.length + 1 :=
  length_append

theorem asked_after (h : kind q = true) (i : ℕ) (r : ResourceRecord) : Asked r.log.length kind (after i q r) := by
  refine ⟨(i,⟨q,(q.perform r.store).2⟩),?_,h⟩
  change _ ∈ (r.log ++ [(i,_)]).drop r.log.length
  rw [drop_left]
  exact mem_singleton_self _

theorem serves_after (horder : InOrder w r i q) (hrests : Rests w i r q) : Serves w r (after i q r) := by
  intro d key hserved
  have hsame : ∀ f : Files, (q.perform r.store).1.files d = f → f.manifest = (r.store.files d).manifest →
      f.payload = (r.store.files d).payload → ((after i q r).store.served w d = some key ∧
        ((after i q r).store.files d).payload = (r.store.files d).payload) ∨ Collected r.log.length d (after i q r) := by
    rintro f rfl hmanifest hpayload
    have hsame : (after i q r).store.served w d = r.store.served w d := served_congr hmanifest hpayload
    exact .inl ⟨hsame.trans hserved,hpayload⟩
  rcases files_perform q r.store d with h | ⟨owner,-,-,h⟩ | ⟨owner,-,h⟩ | ⟨-,h⟩ | ⟨owner,-,h⟩ | ⟨owner,key',payload,rfl,h⟩ |
    ⟨owner,m,rfl,h⟩ | ⟨c,rfl,h⟩ | ⟨c,rfl,h⟩
  · exact hsame _ h rfl rfl
  · exact hsame _ h rfl rfl
  · exact hsame _ h rfl rfl
  · exact hsame _ h rfl rfl
  · exact hsame _ h rfl rfl
  · exact absurd (horder key hserved ▸ hserved) hrests.2
  · left
    obtain ⟨-,-,rule,hrule,hd,harea,hfits⟩ := hrests
    obtain ⟨rule',m',payload,hrule',hd',-,hpayload,-⟩ := served_iff.mp hserved
    have hkey : key = m.key := horder key hserved
    subst hkey
    have hsame : ((after i (.replaceManifest d owner m) r).store.files d).payload = (r.store.files d).payload := by
      rw [show (after i (.replaceManifest d owner m) r).store.files d = _ from h]
    refine ⟨served_iff.mpr ⟨rule,m,payload,hrule,hd,?_,(readPayload_congr hsame).trans hpayload,hfits payload hpayload⟩,hsame⟩
    unfold Disk.readManifest
    rw [show (after i (.replaceManifest d owner m) r).store.files d = _ from h]
  all_goals exact .inr (asked_after (decide_eq_true rfl) i r)

theorem owns_after (hrests : Rests w i r q) (h : Owns j d (after i q r)) :
    Owns j d r ∨ (j = i ∧ ∃ owner, q = .createLock d owner) := by
  obtain ⟨l,hl,rfl⟩ := h
  have hsame : ∀ f : Files, (q.perform r.store).1.files d = f → f.lock = (r.store.files d).lock → Owns l.owner d r := by
    rintro f rfl hlock
    exact ⟨l,hlock.symm.trans hl,rfl⟩
  rcases files_perform q r.store d with h | ⟨owner,rfl,-,h⟩ | ⟨owner,rfl,h⟩ | ⟨rfl,h⟩ | ⟨owner,-,h⟩ |
    ⟨owner,key',payload,-,h⟩ | ⟨owner,m,-,h⟩ | ⟨c,-,h⟩ | ⟨c,-,h⟩
  · exact .inl (hsame _ h rfl)
  · have hlock : some (⟨owner,false⟩ : LockFile) = some l := (congrArg Files.lock h).symm.trans hl
    cases hlock
    exact .inr ⟨hrests,owner,rfl⟩
  · have hlock : some (⟨owner,true⟩ : LockFile) = some l := (congrArg Files.lock h).symm.trans hl
    cases hlock
    obtain ⟨rfl,howns⟩ := hrests
    exact .inl howns
  · cases (congrArg Files.lock h).symm.trans hl
  all_goals exact .inl (hsame _ h rfl)

theorem relies_after (horder : InOrder w r i q) (hrests : Rests w i r q) (hji : j ≠ i) : Relies w j r (after i q r) where
  log := log_after i q r
  others x hx := by
    change x ∈ (r.log ++ [(i,_)]).drop r.log.length at hx
    rw [drop_left] at hx
    rw [mem_singleton.mp hx]
    exact hji.symm
  frees d h := (owns_after hrests h).resolve_right fun hcreated => hji hcreated.1
  lock d l hl hj := by
    have howns : Owns j d r := ⟨l,hl,hj⟩
    have hsame : ∀ f : Files, (q.perform r.store).1.files d = f → f.lock = (r.store.files d).lock →
        ((after i q r).store.files d).lock = some l := by
      rintro f rfl hlock
      exact hlock.trans hl
    rcases files_perform q r.store d with h | ⟨owner,-,hnone,-⟩ | ⟨owner,rfl,-⟩ | ⟨rfl,-⟩ | ⟨owner,-,h⟩ |
      ⟨owner,key',payload,rfl,h⟩ | ⟨owner,m,rfl,h⟩ | ⟨c,rfl,h⟩ | ⟨c,rfl,h⟩
    · exact hsame _ h rfl
    · rw [hnone] at hl
      cases hl
    · exact absurd (howns.unique hrests.2) hji
    · exact absurd (howns.unique hrests) hji
    all_goals exact hsame _ h rfl
  files d howns := by
    have hsame : ∀ f : Files, (q.perform r.store).1.files d = f → f.payload = (r.store.files d).payload →
        f.manifest = (r.store.files d).manifest →
        ((after i q r).store.files d).payload = (r.store.files d).payload ∧
          ((after i q r).store.files d).manifest = (r.store.files d).manifest := by
      rintro f rfl hpayload hmanifest
      exact ⟨hpayload,hmanifest⟩
    rcases files_perform q r.store d with h | ⟨owner,-,-,h⟩ | ⟨owner,-,h⟩ | ⟨-,h⟩ | ⟨owner,-,h⟩ | ⟨owner,key',payload,rfl,h⟩ |
      ⟨owner,m,rfl,h⟩ | ⟨c,rfl,h⟩ | ⟨c,rfl,h⟩
    · exact .inl (hsame _ h rfl rfl)
    · exact .inl (hsame _ h rfl rfl)
    · exact .inl (hsame _ h rfl rfl)
    · exact .inl (hsame _ h rfl rfl)
    · exact .inl (hsame _ h rfl rfl)
    · exact absurd (howns.unique hrests.1) hji
    · exact absurd (howns.unique hrests.1) hji
    · refine .inr ⟨asked_after (decide_eq_true rfl) i r,.inr ?_,.inl ?_⟩ <;>
        rw [show (after i (.unlinkPayload d c) r).store.files d = _ from h]
    · refine .inr ⟨asked_after (decide_eq_true rfl) i r,.inl ?_,.inr ?_⟩ <;>
        rw [show (after i (.unlinkManifest d c) r).store.files d = _ from h]
  serves := serves_after horder hrests

/-! ## What a client knows of its lock and its entry -/

/-- The client has written its token into the lock file of the directory. -/
def Owned (i : ℕ) (d : Directory) (r : ResourceRecord) : Prop := (r.store.files d).lock = some ⟨i,true⟩

theorem Owned.owns (h : Owned i d r) : Owns i d r := ⟨_,h,rfl⟩

theorem Owned.relies (h : Owned i d r) (hr : Relies w i r r') : Owned i d r' := hr.lock d _ h rfl

/-- The client has locks of these directories at most. -/
def Only (i : ℕ) (D : Set Directory) (r : ResourceRecord) : Prop := ∀ d, Owns i d r → d ∈ D

theorem Only.relies {D : Set Directory} (h : Only i D r) (hr : Relies w i r r') : Only i D r' :=
  fun d howns => h d (hr.frees d howns)

def Looks : FileStep → Prop
  | .lockExists _ | .readLock _ | .manifestExists _ | .payloadExists _ | .readManifest _ | .readPayload _ | .manifests _ => True
  | _ => False

theorem Looks.store (h : Looks q) (i : ℕ) (r : ResourceRecord) : (after i q r).store = r.store := by
  cases q <;> first | rfl | cases h

theorem Looks.rests (h : Looks q) (i : ℕ) (r : ResourceRecord) : Rests w i r q := by
  cases q <;> trivial

/-- Steps with which a publisher verifies its entry and gives its lock back. -/
def Quiet (q : FileStep) : Prop := Looks q ∨ ∃ d, q = .unlinkLock d

/-- Since the log had a length, the client has only verified its entry and given back its lock. -/
structure QuietSince (i base : ℕ) (r : ResourceRecord) : Prop where
  base_le : base ≤ r.log.length
  quiet : ∀ x ∈ r.log.drop base, x.1 = i → Quiet x.2.1

theorem QuietSince.now (i : ℕ) (r : ResourceRecord) : QuietSince i r.log.length r where
  base_le := le_rfl
  quiet x hx := by
    rw [drop_length] at hx
    cases hx

theorem QuietSince.grow (h : QuietSince i base r) (hlog : r.log <+: r'.log)
    (hmore : ∀ x ∈ r'.log.drop r.log.length, x.1 = i → Quiet x.2.1) : QuietSince i base r' where
  base_le := h.base_le.trans hlog.length_le
  quiet x hx hi := by
    obtain ⟨more,hlog⟩ := hlog
    rw [← hlog,drop_append_of_le_length h.base_le] at hx
    rcases mem_append.mp hx with hx | hx
    · exact h.quiet x hx hi
    · refine hmore x ?_ hi
      rw [← hlog,drop_left]
      exact hx

theorem QuietSince.relies (h : QuietSince i base r) (hr : Relies w i r r') : QuietSince i base r' :=
  h.grow hr.log fun x hx hi => absurd hi (hr.others x hx)

theorem QuietSince.after (h : QuietSince i base r) (hq : Quiet q) : QuietSince i base (after i q r) := by
  refine h.grow (log_after i q r) fun x hx _ => ?_
  change x ∈ (r.log ++ [(i,_)]).drop r.log.length at hx
  rw [drop_left] at hx
  rw [mem_singleton.mp hx]
  exact hq

/-- The key is a hit, unless a collection has removed a file of it since the client wrote to the store the last time. -/
def Stands (w : Setting) (i : ℕ) (d : Directory) (key : SharedResourceKey) (r : ResourceRecord) : Prop :=
  ∃ base, QuietSince i base r ∧ (r.store.served w d = some key ∨ Collected base d r)

theorem Stands.serves (h : Stands w i d key r) (hlog : r.log <+: r'.log) (hserves : Serves w r r')
    (hquiet : ∀ base, QuietSince i base r → QuietSince i base r') : Stands w i d key r' := by
  obtain ⟨base,hsince,hserved⟩ := h
  refine ⟨base,hquiet base hsince,?_⟩
  rcases hserved with hserved | hcollected
  · rcases hserves d key hserved with ⟨hserved,-⟩ | hcollected
    · exact .inl hserved
    · exact .inr (hcollected.mono hsince.base_le)
  · exact .inr (hcollected.grow hlog)

theorem not_served_relies (howned : Owned i d r) (h : r.store.served w d ≠ some key) (hr : Relies w i r r') :
    r'.store.served w d ≠ some key := by
  intro hserved
  rcases hr.files d howned.owns with ⟨hpayload,hmanifest⟩ | ⟨-,hpayload,hmanifest⟩
  · exact h (served_of_removed (.inl hpayload) (.inl hmanifest) hserved)
  · exact h (served_of_removed hpayload hmanifest hserved)

end Bdb.Resources
