import Bdb.Resources.Owners

/-! # What the calls of the store promise

Whatever the others do between its file steps, a publisher changes only its own directory and publishes over no hit. An
entry that it accepted is a hit, and when it is done it has no lock.
-/
namespace Bdb.Resources

variable {w : Setting} {disk : Disk} {d : Directory} {rule : SharingRule} {key : SharedResourceKey} {m : Manifest}
  {payload : Bytes} {α : Type} {r r' : ResourceRecord} {i base : ℕ} {q : FileStep} {K : ResourceRecord → Prop}
  {Obs : ResourceRecord → SharedResourceKey → Lookup → Prop} {D : Set Directory}

/-- A client does as promised as long as a property holds whenever it makes a step. -/
abbrev Promising (w : Setting) (K : ResourceRecord → Prop) (i : ℕ) (Post : ResourceRecord → α → Prop) (s : ResourceScript α)
    (r : ResourceRecord) : Prop :=
  s.Promises (Crowd.performAs FileStep.perform i) (Relies w i) (fun r q => K r ∧ InOrder w r i q) (Rests w i) Post r

variable {Post : ResourceRecord → α → Prop}

variable {f : q.Answer → ResourceScript α} {x : Result} {s : ResourceScript α}

theorem promising_ask : Promising w K i Post (ask q >>= f) r ↔
    ∀ r', Relies w i r r' → K r' ∧ InOrder w r' i q →
      Rests w i r' q ∧ Promising w K i Post (f (q.perform r'.store).2) (after i q r') :=
  Iff.rfl

theorem promising_done {x : α} (h : Post r x) : Promising w K i Post (pure x) r := h

theorem promising_bind {β : Type} {Post' : ResourceRecord → β → Prop} {f : α → ResourceScript β}
    (h : Promising w K i Post s r) (hf : ∀ r' a, Post r' a → Promising w K i Post' (f a) r') :
    Promising w K i Post' (s >>= f) r :=
  Script.Promises.bind h hf

/-! ### Looking up -/

def Describes (w : Setting) (K : ResourceRecord → Prop) (rule : SharingRule) (key : SharedResourceKey) : Lookup → Prop
  | .hit m payload => w.exact rule key m payload = true ∧
    ∃ r, K r ∧ (r.store.files (w.directory rule key)).manifest = some (.ok m)
  | _ => True

theorem promising_examine (rule : SharingRule) (key : SharedResourceKey) :
    Promising w K i (fun _ l => Describes w K rule key l) (examine w rule key) r := by
  refine promising_ask.mpr fun r₁ _ _ => ⟨trivial,?_⟩
  cases ((FileStep.manifestExists (w.directory rule key)).perform r₁.store).2 with
  | false => exact promising_done trivial
  | true =>
    refine promising_ask.mpr fun r₂ _ _ => ⟨trivial,?_⟩
    cases ((FileStep.payloadExists (w.directory rule key)).perform r₂.store).2 with
    | false => exact promising_done trivial
    | true =>
      refine promising_ask.mpr fun r₃ _ h₃ => ⟨trivial,?_⟩
      cases hm : ((FileStep.readManifest (w.directory rule key)).perform r₃.store).2 with
      | error code => exact promising_done trivial
      | ok m =>
        refine promising_ask.mpr fun r₄ _ _ => ⟨trivial,?_⟩
        cases ((FileStep.readPayload (w.directory rule key)).perform r₄.store).2 with
        | error code => exact promising_done trivial
        | ok payload =>
          refine promising_done ?_
          split
          · exact ⟨‹_›,r₃,h₃.1,readManifest_ok hm⟩
          · trivial

theorem not_served_of_manifest (h : (disk.files d).manifest.isSome = false) : disk.served w d ≠ some key := by
  intro hserved
  obtain ⟨rule,m,payload,-,-,hm,-,-⟩ := served_iff.mp hserved
  rw [readManifest_ok hm] at h
  cases h

theorem not_served_of_payload (h : (disk.files d).payload.isSome = false) : disk.served w d ≠ some key := by
  intro hserved
  obtain ⟨rule,m,payload,-,-,-,hp,-⟩ := served_iff.mp hserved
  rw [(readPayload_ok hp).1] at h
  cases h

/-- What the owner of the lock learns of its entry when it looks it up. -/
def Examined (w : Setting) (i : ℕ) (d : Directory) (key : SharedResourceKey) (r : ResourceRecord) : Lookup → Prop
  | .hit _ _ => Stands w i d key r
  | _ => r.store.served w d ≠ some key

theorem promising_examine_owned (hrule : w.ruleFor key = some rule) (howned : Owned i (w.directory rule key) r) :
    Promising w K i (fun r l => Owned i (w.directory rule key) r ∧ Examined w i (w.directory rule key) key r l)
      (examine w rule key) r := by
  refine promising_ask.mpr fun r₁ h₁ _ => ⟨trivial,?_⟩
  have howned₁ := howned.relies h₁
  cases hmanifest : ((FileStep.manifestExists (w.directory rule key)).perform r₁.store).2 with
  | false => exact promising_done ⟨howned₁,not_served_of_manifest hmanifest⟩
  | true =>
    refine promising_ask.mpr fun r₂ h₂ _ => ⟨trivial,?_⟩
    have howned₂ := Owned.relies (r := after i _ r₁) howned₁ h₂
    cases hpayload : ((FileStep.payloadExists (w.directory rule key)).perform r₂.store).2 with
    | false => exact promising_done ⟨howned₂,not_served_of_payload hpayload⟩
    | true =>
      refine promising_ask.mpr fun r₃ h₃ _ => ⟨trivial,?_⟩
      have howned₃ := Owned.relies (r := after i _ r₂) howned₂ h₃
      cases hm : ((FileStep.readManifest (w.directory rule key)).perform r₃.store).2 with
      | error code =>
        refine promising_done ⟨howned₃,fun hserved => ?_⟩
        obtain ⟨-,m,-,-,-,hm',-,-⟩ := served_iff.mp hserved
        cases hm.symm.trans hm'
      | ok m =>
        refine promising_ask.mpr fun r₄ h₄ _ => ⟨trivial,?_⟩
        have howned₄ := Owned.relies (r := after i _ r₃) howned₃ h₄
        have hmanifest₃ : (r₃.store.files (w.directory rule key)).manifest = some (.ok m) := readManifest_ok hm
        have hkept : (r₄.store.files (w.directory rule key)).manifest = some (.ok m) ∨
            (Collected (after i (.readManifest (w.directory rule key)) r₃).log.length (w.directory rule key) r₄ ∧
              (r₄.store.files (w.directory rule key)).manifest = none) := by
          rw [← hmanifest₃]
          rcases h₄.files (w.directory rule key) (Owned.owns (r := after i _ r₃) howned₃) with ⟨-,hsame⟩ | ⟨hcollected,-,hkept⟩
          · exact .inl hsame
          · rcases hkept with hsame | hnone
            · exact .inl hsame
            · exact .inr ⟨hcollected,hnone⟩
        cases hp : ((FileStep.readPayload (w.directory rule key)).perform r₄.store).2 with
        | error code =>
          refine promising_done ⟨howned₄,fun hserved => ?_⟩
          obtain ⟨-,-,payload,-,-,-,hp',-⟩ := served_iff.mp hserved
          cases hp.symm.trans hp'
        | ok payload =>
          refine promising_done ⟨howned₄,?_⟩
          split
          · rename_i hexact
            have hsince : QuietSince i (after i (.readManifest (w.directory rule key)) r₃).log.length r₄ :=
              (QuietSince.now i _).relies h₄
            have hstands : Stands w i (w.directory rule key) key r₄ := by
              refine ⟨_,hsince,?_⟩
              rcases hkept with hsame | ⟨hcollected,-⟩
              · left
                refine served_iff.mpr ⟨rule,m,payload,hrule,rfl,?_,hp,hexact⟩
                unfold Disk.readManifest
                rw [hsame]
              · exact .inr hcollected
            exact hstands.serves (log_after i (.readPayload (w.directory rule key)) r₄) (fun d' key' h' => .inl ⟨h',rfl⟩)
              fun _ h => h.after (.inl trivial)
          · rename_i hexact
            intro hserved
            obtain ⟨rule',m',payload',hrule',-,hm',hp',hexact'⟩ := served_iff.mp hserved
            obtain rfl := Option.some.inj (hrule.symm.trans hrule')
            obtain rfl := Except.ok.inj (hp.symm.trans hp')
            have hm₄ : (r₄.store.files (w.directory rule key)).manifest = some (.ok m') := readManifest_ok hm'
            rcases hkept with hsame | ⟨-,hnone⟩
            · obtain rfl := Except.ok.inj (Option.some.inj (hsame.symm.trans hm₄))
              exact hexact hexact'
            · cases hnone.symm.trans hm₄

/-! ### Publishing -/

theorem asksOnly_ask {A : FileStep → Prop} (hq : A q) (h : ∀ a, (f a).AsksOnly A) :
    (ask q >>= f).AsksOnly A := .ask hq h

theorem asksOnly_payloadSizes (ds : List Directory) : (payloadSizes ds).AsksOnly Looks := by
  induction ds with
  | nil => exact .done _
  | cons d rest ih =>
    refine .ask trivial fun answer => ?_
    cases answer with
    | error code => exact ih
    | ok payload => exact ih.bind fun n => .done _

theorem asksOnly_areaBytes (area : String) (exclude : Directory) : (areaBytes area exclude).AsksOnly Looks :=
  .ask trivial fun _ => asksOnly_payloadSizes _

def Open (w : Setting) (i : ℕ) (d : Directory) (key : SharedResourceKey) (r : ResourceRecord) : Prop :=
  Owned i d r ∧ r.store.served w d ≠ some key

theorem Open.relies (h : Open w i d key r) (hr : Relies w i r r') : Open w i d key r' :=
  ⟨h.1.relies hr,not_served_relies h.1 h.2 hr⟩

theorem promising_areaBytes (h : Open w i d key r) (area : String) :
    Promising w K i (fun r _ => Open w i d key r) (areaBytes area d) r := by
  refine Script.Promises.of_asksOnly (S := Open w i d key) (fun a b hr ha => ha.relies hr) ?_ (asksOnly_areaBytes area d) h
  intro a q hq _ ha
  refine ⟨hq.rests i a,?_⟩
  have hstore : (after i q a).store = a.store := hq.store i a
  unfold Open Owned at ha ⊢
  rw [show ((Crowd.performAs FileStep.perform i q a).1).store = a.store from hstore]
  exact ha

theorem owned_after (h : Owned i d r) {f : Files → Files} (hq : (q.perform r.store).1 = r.store.change d f)
    (hlock : (f (r.store.files d)).lock = (r.store.files d).lock) :
    Owned i d (after i q r) ∧ (after i q r).store.files d = f (r.store.files d) := by
  have hfiles : (after i q r).store.files d = f (r.store.files d) := by
    rw [show (after i q r).store = r.store.change d f from hq]
    exact files_change_self r.store f (get_ne_none_of_lock h)
  refine ⟨?_,hfiles⟩
  unfold Owned
  rw [hfiles,hlock]
  exact h

def Holding (i : ℕ) (d : Directory) (payload : Bytes) (r : ResourceRecord) : Prop :=
  Owned i d r ∧ ((r.store.files d).payload = some payload ∨ (r.store.files d).payload = none)

theorem Holding.relies (h : Holding i d payload r) (hr : Relies w i r r') : Holding i d payload r' := by
  refine ⟨h.1.relies hr,?_⟩
  rcases hr.files d h.1.owns with ⟨hpayload,-⟩ | ⟨-,hpayload | hpayload,-⟩
  · exact hpayload ▸ h.2
  · exact hpayload ▸ h.2
  · exact .inr hpayload

theorem Holding.fits (h : Holding i d payload r) (hrule : w.ruleFor key = some rule) (hd : d = w.directory rule key)
    (hdigest : w.sha256 payload = key.contentDigest) :
    Fits w d ⟨key,rule.area,rule.mutability,w.sha256 payload,payload.length⟩ r.store := by
  refine ⟨hdigest,rule,hrule,hd,rfl,fun payload' hpayload' => ?_⟩
  rcases h.2 with hsome | hnone
  · obtain rfl := Option.some.inj ((readPayload_ok hpayload').1.symm.trans hsome)
    exact exact_iff.mpr ⟨rfl,rfl,rfl,rfl⟩
  · cases (readPayload_ok hpayload').1.symm.trans hnone

def Kept (w : Setting) (Obs : ResourceRecord → SharedResourceKey → Lookup → Prop) (i : ℕ) (r : ResourceRecord) : Result → Prop
  | .lookup key l => Obs r key l
  | .publication key p => p.accepted = true → ∃ rule, w.ruleFor key = some rule ∧ Stands w i (w.directory rule key) key r
  | _ => True

theorem Kept.mono {Obs' : ResourceRecord → SharedResourceKey → Lookup → Prop} (h : Kept w Obs i r x)
    (hObs : ∀ key l, Obs r key l → Obs' r' key l) (hlog : r.log <+: r'.log) (hserves : Serves w r r')
    (hquiet : ∀ base, QuietSince i base r → QuietSince i base r') : Kept w Obs' i r' x := by
  cases x with
  | publication key p =>
    intro haccepted
    obtain ⟨rule,hrule,hstands⟩ := h haccepted
    exact ⟨rule,hrule,hstands.serves hlog hserves hquiet⟩
  | lookup key l => exact hObs key l h
  | raised _ | collected _ | active _ => trivial

/-- What the result of a publisher says; it is never that of a lookup. -/
abbrev Published (w : Setting) (i : ℕ) (r : ResourceRecord) (x : Result) : Prop := Kept w (fun _ _ _ => False) i r x

theorem Published.relies (h : Published w i r x) (hr : Relies w i r r') : Published w i r' x :=
  h.mono (fun _ _ => id) hr.log hr.serves fun _ hsince => hsince.relies hr

theorem Published.after (h : Published w i r x) (hq : Quiet q) (horder : InOrder w r i q)
    (hrests : Rests w i r q) : Published w i (after i q r) x :=
  h.mono (fun _ _ => id) (log_after i q r) (serves_after horder hrests) fun _ hsince => hsince.after hq

theorem promising_publishOpen (hrule : w.ruleFor key = some rule) (hopen : Open w i (w.directory rule key) key r)
    (hdigest : w.sha256 payload = key.contentDigest) (fault : Option Fault) (existing : Lookup) :
    Promising w K i (fun r x => Owned i (w.directory rule key) r ∧ Published w i r x)
      (publishOpen w i rule key payload fault existing) r := by
  unfold publishOpen
  dsimp only
  split
  · exact promising_done ⟨hopen.1,trivial⟩
  · refine promising_bind (promising_areaBytes hopen rule.area) fun r₁ others hopen₁ => ?_
    split
    · exact promising_done ⟨hopen₁.1,nofun⟩
    · split
      · exact promising_done ⟨hopen₁.1,trivial⟩
      · refine promising_ask.mpr fun r₂ h₂ _ => ⟨trivial,?_⟩
        obtain ⟨howned₂,hserved₂⟩ := hopen₁.relies h₂
        obtain ⟨howned₂',hfiles₂⟩ := owned_after (q := .stage (w.directory rule key) i)
          (f := fun f => { f with partials := i :: f.partials }) howned₂ rfl rfl
        have hopen₂ : Open w i (w.directory rule key) key (after i (.stage (w.directory rule key) i) r₂) := by
          have hsame : (after i (.stage (w.directory rule key) i) r₂).store.served w (w.directory rule key) =
              r₂.store.served w (w.directory rule key) := served_congr (by rw [hfiles₂]) (by rw [hfiles₂])
          exact ⟨howned₂',hsame ▸ hserved₂⟩
        refine promising_ask.mpr fun r₃ h₃ _ => ?_
        obtain ⟨howned₃,hserved₃⟩ := hopen₂.relies h₃
        refine ⟨⟨howned₃.owns,hserved₃⟩,?_⟩
        obtain ⟨howned₃',hfiles₃⟩ := owned_after (q := .replacePayload (w.directory rule key) i key payload)
          (f := fun f => { f with payload := some payload, partials := f.partials.erase i }) howned₃ rfl rfl
        have hholding₃ : Holding i (w.directory rule key) payload
            (after i (.replacePayload (w.directory rule key) i key payload) r₃) := ⟨howned₃',.inl (congrArg Files.payload hfiles₃)⟩
        split
        · exact promising_done ⟨howned₃',trivial⟩
        · split
          · exact promising_done ⟨howned₃',trivial⟩
          · refine promising_ask.mpr fun r₄ h₄ _ => ⟨trivial,?_⟩
            have hholding₄ := hholding₃.relies h₄
            obtain ⟨howned₄',hfiles₄⟩ := owned_after (q := .stage (w.directory rule key) i)
              (f := fun f => { f with partials := i :: f.partials }) hholding₄.1 rfl rfl
            have hholding₄' : Holding i (w.directory rule key) payload (after i (.stage (w.directory rule key) i) r₄) :=
              ⟨howned₄',(congrArg Files.payload hfiles₄).symm ▸ hholding₄.2⟩
            refine promising_ask.mpr fun r₅ h₅ _ => ?_
            have hholding₅ := hholding₄'.relies h₅
            refine ⟨⟨hholding₅.1.owns,hholding₅.fits hrule rfl hdigest⟩,?_⟩
            let m : Manifest := ⟨key,rule.area,rule.mutability,w.sha256 payload,payload.length⟩
            obtain ⟨howned₅',-⟩ := owned_after (q := .replaceManifest (w.directory rule key) i m)
              (f := fun f => { f with manifest := some (.ok m), partials := f.partials.erase i }) hholding₅.1 rfl rfl
            split
            · exact promising_done ⟨howned₅',trivial⟩
            · refine promising_bind (promising_examine_owned hrule howned₅') fun r₆ l ⟨howned₆,hexamined⟩ => ?_
              cases l with
              | hit m payload' => exact promising_done ⟨howned₆,fun _ => ⟨rule,hrule,hexamined⟩⟩
              | blocked | missing | poisoned _ => exact promising_done ⟨howned₆,nofun⟩

def Lookup.isHit : Lookup → Bool
  | .hit _ _ => true
  | _ => false

theorem publishOver_of {owner : ℕ} {fault : Option Fault} {l : Lookup} (h : l.isHit = false) :
    publishOver w owner rule key payload fault l = publishOpen w owner rule key payload fault l := by
  cases l with
  | hit m payload' => cases h
  | blocked | missing | poisoned _ => rfl

theorem promising_publishLocked (hrule : w.ruleFor key = some rule) (howned : Owned i (w.directory rule key) r)
    (hdigest : w.sha256 payload = key.contentDigest) (fault : Option Fault) :
    Promising w K i (fun r x => Owned i (w.directory rule key) r ∧ Published w i r x)
      (publishLocked w i rule key payload fault) r := by
  refine promising_bind (promising_examine_owned hrule howned) fun r₁ l ⟨howned₁,hexamined⟩ => ?_
  cases l with
  | hit m payload' => exact promising_done ⟨howned₁,fun _ => ⟨rule,hrule,hexamined⟩⟩
  | blocked | missing | poisoned _ =>
    rw [publishOver_of rfl]
    exact promising_publishOpen hrule ⟨howned₁,hexamined⟩ hdigest fault _

def LocksNothing (q : FileStep) : Prop := ∀ d owner, q ≠ .createLock d owner

theorem Looks.locksNothing (h : Looks q) : LocksNothing q := by
  rintro d owner rfl
  exact h

theorem Only.after (h : Only i D r) (hq : LocksNothing q) (hrests : Rests w i r q) : Only i D (after i q r) := by
  intro d howns
  rcases owns_after hrests howns with howns | ⟨-,owner,hcreated⟩
  · exact h d howns
  · exact absurd hcreated (hq d owner)

theorem promising_keeps_only (h : Promising w K i Post s r) (hs : s.AsksOnly LocksNothing)
    (honly : Only i D r) : Promising w K i (fun r x => Post r x ∧ Only i D r) s r := by
  have hrely : ∀ a b : ResourceRecord, Relies w i a b → Only i D a → Only i D b := fun _ _ hr ha => ha.relies hr
  have hown : ∀ (a : ResourceRecord) (q : FileStep), LocksNothing q → Rests w i a q → Only i D a →
    Only i D (Crowd.performAs FileStep.perform i q a).1 := fun _ _ hq hrests ha => ha.after hq hrests
  exact Script.Promises.and (S := Only i D) hrely hown h hs honly

theorem asksOnly_examine (rule : SharingRule) (key : SharedResourceKey) : (examine w rule key).AsksOnly Looks := by
  refine asksOnly_ask trivial fun hasManifest => ?_
  cases hasManifest with
  | false => exact .done _
  | true =>
    refine asksOnly_ask trivial fun hasPayload => ?_
    cases hasPayload with
    | false => exact .done _
    | true =>
      refine asksOnly_ask trivial fun manifest => ?_
      cases manifest with
      | error code => exact .done _
      | ok m =>
        refine asksOnly_ask trivial fun content => ?_
        cases content with
        | error code => exact .done _
        | ok payload => exact .done _

theorem asksOnly_lookup (key : SharedResourceKey) : (lookup w key).AsksOnly Looks := by
  unfold lookup
  cases w.ruleFor key with
  | none => exact .done _
  | some rule => exact asksOnly_examine rule key

theorem asksOnly_publishOpen (owner : ℕ) (rule : SharingRule) (key : SharedResourceKey) (payload : Bytes) (fault : Option Fault)
    (existing : Lookup) : (publishOpen w owner rule key payload fault existing).AsksOnly LocksNothing := by
  unfold publishOpen
  dsimp only
  split
  · exact .done _
  · refine ((asksOnly_areaBytes rule.area (w.directory rule key)).mono fun _ h => h.locksNothing).bind fun others => ?_
    split
    · exact .done _
    · split
      · exact .done _
      · refine asksOnly_ask nofun fun _ => asksOnly_ask nofun fun _ => ?_
        split
        · exact .done _
        · split
          · exact .done _
          · refine asksOnly_ask nofun fun _ => asksOnly_ask nofun fun _ => ?_
            split
            · exact .done _
            · refine ((asksOnly_examine rule key).mono fun _ h => h.locksNothing).bind fun l => ?_
              cases l with
              | hit m payload' => exact .done _
              | blocked | missing | poisoned _ => exact .done _

theorem asksOnly_publishLocked (owner : ℕ) (rule : SharingRule) (key : SharedResourceKey) (payload : Bytes)
    (fault : Option Fault) : (publishLocked w owner rule key payload fault).AsksOnly LocksNothing := by
  refine ((asksOnly_examine rule key).mono fun _ h => h.locksNothing).bind fun l => ?_
  cases l with
  | hit m payload' => exact .done _
  | blocked | missing | poisoned _ =>
    rw [publishOver_of rfl]
    exact asksOnly_publishOpen owner rule key payload fault _

/-- What getting the lock leaves: the lock of the directory if it was created, and none more otherwise. -/
def Acquired (i : ℕ) (d : Directory) (D : Set Directory) (r : ResourceRecord) : Disk.Locking → Prop
  | .created => Owned i d r ∧ Only i (insert d D) r
  | .taken | .failed => Only i D r

theorem promising_acquire (d : Directory) (tries : ℕ) (h : Only i D r) :
    Promising w K i (Acquired i d D) (acquire d i tries) r := by
  have htry : ∀ (onTaken : ResourceScript Disk.Locking) (r : ResourceRecord), Only i D r →
      (∀ r, Only i D r → Promising w K i (Acquired i d D) onTaken r) →
      Promising w K i (Acquired i d D) (tryLock d i onTaken) r := by
    intro onTaken r honly honTaken
    refine promising_ask.mpr fun r₁ h₁ _ => ⟨rfl,?_⟩
    have honly₁ := honly.relies h₁
    have hsame : ((FileStep.createLock d i).perform r₁.store).2 ≠ .created → Only i D (after i (.createLock d i) r₁) := by
      intro hnot e howns
      refine honly₁ e ?_
      have hstore : ((FileStep.createLock d i).perform r₁.store).1 = r₁.store := createLock_not_created hnot
      unfold Owns at howns ⊢
      rwa [show (after i (.createLock d i) r₁).store = r₁.store from hstore] at howns
    cases hlocking : ((FileStep.createLock d i).perform r₁.store).2 with
    | created =>
      have honly₂ : Only i (insert d D) (after i (.createLock d i) r₁) := by
        intro e howns
        rcases owns_after (w := w) (q := .createLock d i) rfl howns with howns | ⟨-,owner,hcreated⟩
        · exact .inr (honly₁ e howns)
        · exact .inl (FileStep.createLock.inj hcreated).1.symm
      refine promising_ask.mpr fun r₂ h₂ _ => ?_
      have hlock := h₂.lock d ⟨i,false⟩ (createLock_created hlocking) rfl
      have hrests : Rests w i r₂ (.writeLock d i) := ⟨rfl,_,hlock,rfl⟩
      refine ⟨hrests,promising_done ⟨?_,(honly₂.relies h₂).after nofun hrests⟩⟩
      unfold Owned
      change ((r₂.store.change d fun f => { f with lock := some ⟨i,true⟩ }).files d).lock = _
      rw [files_change_self r₂.store _ (get_ne_none_of_lock hlock)]
    | taken => exact honTaken _ (hsame fun h => by cases hlocking.symm.trans h)
    | failed => exact promising_done (hsame fun h => by cases hlocking.symm.trans h)
  induction tries generalizing r with
  | zero => exact htry _ r h fun _ honly => promising_done honly
  | succ n ih => exact htry _ r h fun _ honly => ih honly

theorem promising_release (howned : Owned i d r) (honly : Only i (insert d D) r) (hpublished : Published w i r x) :
    Promising w K i (fun r _ => Only i D r ∧ Published w i r x) (release d i) r := by
  have hfreed : ∀ r : ResourceRecord, (r.store.files d).lock = none → Only i (insert d D) r → Only i D r := by
    intro r hnone honly e howns
    rcases honly e howns with rfl | he
    · obtain ⟨l,hl,-⟩ := howns
      cases hnone.symm.trans hl
    · exact he
  refine promising_ask.mpr fun r₁ h₁ _ => ⟨trivial,?_⟩
  have howned₁ := howned.relies h₁
  have honly₁ := (honly.relies h₁).after (q := .lockExists d) nofun (w := w) trivial
  have hpublished₁ := (hpublished.relies h₁).after (q := .lockExists d) (.inl trivial) trivial trivial
  cases hexists : ((FileStep.lockExists d).perform r₁.store).2 with
  | false =>
    have hsome : (r₁.store.files d).lock.isSome = false := hexists
    rw [howned₁] at hsome
    cases hsome
  | true =>
    refine promising_ask.mpr fun r₂ h₂ _ => ⟨trivial,?_⟩
    have howned₂ := Owned.relies (r := after i (.lockExists d) r₁) howned₁ h₂
    have honly₂ := (honly₁.relies h₂).after (q := .readLock d) nofun (w := w) trivial
    have hpublished₂ := (hpublished₁.relies h₂).after (q := .readLock d) (.inl trivial) trivial trivial
    rw [show ((FileStep.readLock d).perform r₂.store).2 = some ⟨i,true⟩ from howned₂]
    dsimp only
    rw [if_pos ⟨rfl,rfl⟩]
    refine promising_ask.mpr fun r₃ h₃ _ => ?_
    have howned₃ := Owned.relies (r := after i (.readLock d) r₂) howned₂ h₃
    have hrests : Rests w i r₃ (.unlinkLock d) := howned₃.owns
    refine ⟨hrests,promising_done ⟨?_,(hpublished₂.relies h₃).after (.inr ⟨d,rfl⟩) trivial hrests⟩⟩
    refine hfreed _ ?_ ((honly₂.relies h₃).after nofun hrests)
    change ((r₃.store.change d fun f => { f with lock := none }).files d).lock = none
    rw [files_change_self r₃.store _ (get_ne_none_of_lock howned₃)]

theorem promising_publish (c : PublishCall) (honly : Only i D r) :
    Promising w K i (fun r x => Only i D r ∧ Published w i r x) (publish w i c) r := by
  unfold publish
  cases hrule : w.ruleFor c.key with
  | none => exact promising_done ⟨honly,trivial⟩
  | some rule =>
    dsimp only
    split
    · exact promising_done ⟨honly,nofun⟩
    · split
      · exact promising_done ⟨honly,nofun⟩
      · split
        · exact promising_done ⟨honly,nofun⟩
        · rename_i hdigest
          refine promising_ask.mpr fun r₁ h₁ _ => ⟨trivial,?_⟩
          have honly₁ := (honly.relies h₁).after (q := .makeDirectory (w.directory rule c.key)) nofun (w := w) trivial
          refine promising_bind (promising_acquire (w.directory rule c.key) c.tries honly₁) fun r₂ x hacquired => ?_
          cases x with
          | failed => exact promising_done ⟨hacquired,trivial⟩
          | taken => exact promising_done ⟨hacquired,nofun⟩
          | created =>
            obtain ⟨howned,honly₂⟩ := hacquired
            have hlocked := promising_keeps_only (promising_publishLocked (K := K) hrule howned (of_not_not hdigest) c.fault)
              (asksOnly_publishLocked i rule c.key c.payload c.fault) honly₂
            refine promising_bind hlocked fun r₃ x ⟨⟨howned₃,hpublished⟩,honly₃⟩ => ?_
            exact promising_bind (promising_release howned₃ honly₃ hpublished) fun r₄ _ hdone => promising_done hdone

/-! ### Collecting -/

def Harmless (w : Setting) (q : FileStep) : Prop := LocksNothing q ∧ ∀ i (r : ResourceRecord), Rests w i r q

theorem asksOnly_collectEntry (c : CollectCall) (d : Directory) : (collectEntry w c d).AsksOnly (Harmless w) := by
  refine asksOnly_ask ⟨nofun,fun _ _ => trivial⟩ fun answer => ?_
  cases answer with
  | error code => exact .done _
  | ok m =>
    dsimp only
    split
    · exact .done _
    · refine asksOnly_ask ⟨nofun,fun _ _ => trivial⟩ fun active => ?_
      split
      · exact .done _
      · refine asksOnly_ask ⟨nofun,fun _ _ => trivial⟩ fun locked => ?_
        split
        · exact .done _
        · split
          · exact .done _
          · refine asksOnly_ask ⟨nofun,fun _ _ => trivial⟩ fun _ => ?_
            split
            · exact .done _
            · refine asksOnly_ask ⟨nofun,fun _ _ => trivial⟩ fun _ => ?_
              split
              · exact .done _
              · exact asksOnly_ask ⟨nofun,fun _ _ => trivial⟩ fun removed => .done _

theorem asksOnly_collectEntries (c : CollectCall) (ds : List Directory) : (collectEntries w c ds).AsksOnly (Harmless w) := by
  induction ds with
  | nil => exact .done _
  | cons d rest ih => exact (asksOnly_collectEntry c d).bind fun keyDigest => ih.bind fun keyDigests => .done _

theorem asksOnly_collectAreas (c : CollectCall) (areas : List String) : (collectAreas w c areas).AsksOnly (Harmless w) := by
  induction areas with
  | nil => exact .done _
  | cons area rest ih =>
    exact asksOnly_ask ⟨nofun,fun _ _ => trivial⟩ fun ds => (asksOnly_collectEntries c ds).bind fun _ => ih.bind fun _ => .done _

theorem promising_call (call : ResourceCall) (r : ResourceRecord) (honly : Only i D r)
    (hlookup : ∀ key, call = .lookup key → Promising w K i (fun r l => Obs r key l) (lookup w key) r) :
    Promising w K i (fun r x => Kept w Obs i r x ∧ Only i D r) (call.script w i) r := by
  cases call with
  | lookup key =>
    exact promising_bind (promising_keeps_only (hlookup key rfl) ((asksOnly_lookup key).mono fun _ h => h.locksNothing) honly)
      fun r₁ l hl => promising_done hl
  | publish c =>
    refine Script.Promises.weaken (promising_publish (K := K) c honly) (fun _ _ h => h) fun r x ⟨honly,hpublished⟩ => ⟨?_,honly⟩
    exact hpublished.mono (fun _ _ => False.elim) List.prefix_rfl (fun _ _ h => .inl ⟨h,rfl⟩) fun _ h => h
  | garbageCollect c =>
    have hcollect : Promising w K i (fun r _ => Only i D r) (collectAreas w c w.areas) r :=
      Script.Promises.of_asksOnly (fun a b hr ha => Only.relies ha hr)
        (fun a q hq _ ha => ⟨hq.2 i a,ha.after hq.1 (hq.2 i a)⟩) (asksOnly_collectAreas c w.areas) honly
    exact promising_bind hcollect fun r₁ keyDigests honly₁ => promising_done ⟨trivial,honly₁⟩
  | markActive inst key token =>
    dsimp only [ResourceCall.script]
    cases w.ruleFor key with
    | none => exact promising_done ⟨trivial,honly⟩
    | some rule =>
      exact promising_ask.mpr fun r₁ h₁ _ => ⟨trivial,promising_done ⟨trivial,(honly.relies h₁).after nofun (w := w) trivial⟩⟩
  | releaseActive inst key token =>
    exact promising_ask.mpr fun r₁ h₁ _ => ⟨trivial,promising_done ⟨trivial,(honly.relies h₁).after nofun (w := w) trivial⟩⟩

end Bdb.Resources
