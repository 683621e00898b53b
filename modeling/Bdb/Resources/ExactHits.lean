import Bdb.Resources.Alone

/-! # Hits are exact

In every run, from any contents of the files, a hit serves what its manifest describes, an accepted entry stays a hit
until a collection removes it, and a valid publication is accepted unless a lock file is there. A hit is what its key
names if and only if its manifest is; a lock file stays as long as its publisher makes no step.
-/
namespace Bdb.Resources

variable {w : Setting} {disk : Disk} {d : Directory} {rule : SharingRule} {key : SharedResourceKey} {m : Manifest}
  {payload : Bytes} {α : Type} {r r' : ResourceRecord} {i n base : ℕ} {q : FileStep}

/-! ## What holds in every run -/

def Locked (disk : Disk) (i : ℕ) : Set Directory := fun d => ∃ l, (disk.files d).lock = some l ∧ l.owner = i

/-- What holds of the store after so many calls were started on a disk: manifests that were not on it name the content of
their keys, and locks that were not on it are those of the calls. -/
structure Grown (w : Setting) (disk : Disk) (n : ℕ) (r : ResourceRecord) : Prop where
  named : ∀ d m, (r.store.files d).manifest = some (.ok m) →
    m.payloadDigest = m.key.contentDigest ∨ (disk.files d).manifest = some (.ok m)
  owners : ∀ i d, Owns i d r → i < n ∨ d ∈ Locked disk i

theorem Grown.begin (w : Setting) (disk : Disk) (n : ℕ) : Grown w disk n ⟨disk,[]⟩ where
  named _ _ h := .inr h
  owners _ _ h := .inr h

theorem Grown.more (h : Grown w disk n r) : Grown w disk (n + 1) r where
  named := h.named
  owners i d howns := (h.owners i d howns).imp_left Nat.lt_succ_of_lt

theorem Grown.after (h : Grown w disk n r) (hi : i < n) (hrests : Rests w i r q) : Grown w disk n (after i q r) where
  named d m hm := by
    have hsame : ∀ f : Files, (q.perform r.store).1.files d = f → f.manifest = (r.store.files d).manifest →
        m.payloadDigest = m.key.contentDigest ∨ (disk.files d).manifest = some (.ok m) := by
      rintro f rfl hmanifest
      exact h.named d m (hmanifest.symm.trans hm)
    rcases files_perform q r.store d with h | ⟨owner,-,-,h⟩ | ⟨owner,-,h⟩ | ⟨-,h⟩ | ⟨owner,-,h⟩ | ⟨owner,key',payload,-,h⟩ |
      ⟨owner,m',rfl,h⟩ | ⟨c,-,h⟩ | ⟨c,rfl,h⟩
    · exact hsame _ h rfl
    · exact hsame _ h rfl
    · exact hsame _ h rfl
    · exact hsame _ h rfl
    · exact hsame _ h rfl
    · exact hsame _ h rfl
    · rw [show (Resources.after i (.replaceManifest d owner m') r).store.files d = _ from h] at hm
      obtain rfl := Except.ok.inj (Option.some.inj hm)
      exact .inl hrests.2.1
    · exact hsame _ h rfl
    · cases (congrArg Files.manifest h).symm.trans hm
  owners j d howns := by
    rcases owns_after hrests howns with howns | ⟨rfl,-⟩
    · exact h.owners j d howns
    · exact .inl hi

def Hits (w : Setting) (disk : Disk) (key : SharedResourceKey) (l : Lookup) : Prop :=
  ∀ m payload, l = .hit m payload → ∃ rule, w.ruleFor key = some rule ∧ w.exact rule key m payload = true ∧
    (m.payloadDigest = key.contentDigest ∨ (disk.files (w.directory rule key)).manifest = some (.ok m))

/-- What a client of a run can count on when it makes a step. -/
def Reached (w : Setting) (disk : Disk) (I : ResourceRecord → Prop) (r : ResourceRecord) : Prop :=
  (∃ n, Grown w disk n r) ∧ I r

variable {I : ResourceRecord → Prop} {Obs : ℕ → ResourceRecord → SharedResourceKey → Lookup → Prop} {s : ResourceState}

theorem promising_lookup (key : SharedResourceKey) :
    Promising w (Reached w disk I) i (fun _ l => Hits w disk key l) (lookup w key) r := by
  unfold lookup
  cases hrule : w.ruleFor key with
  | none => exact promising_done nofun
  | some rule =>
    refine Script.Promises.weaken (promising_examine rule key) (fun _ _ h => h) fun r l hl => ?_
    rintro m payload rfl
    obtain ⟨hexact,r',⟨⟨n,hgrown⟩,-⟩,hm⟩ := hl
    refine ⟨rule,hrule,hexact,?_⟩
    have hkey : m.key = key := (exact_iff.mp hexact).1
    have hnamed := hgrown.named _ m hm
    rwa [hkey] at hnamed

/-- A state of a run in which all calls go on as promised, with the observations of the lookups. -/
def Going (w : Setting) (disk : Disk) (I : ResourceRecord → Prop)
    (Obs : ℕ → ResourceRecord → SharedResourceKey → Lookup → Prop) : ResourceState → Prop :=
  Crowd.Promised FileStep.perform (Relies w) (fun i r q => Reached w disk I r ∧ InOrder w r i q) (Rests w)
    (fun i r x => Kept w (Obs i) i r x ∧ Only i (Locked disk i) r) fun n r => Grown w disk n r ∧ I r

theorem run_going (hobs : ∀ i a b key l, Relies w i a b → Obs i a key l → Obs i b key l)
    (hkeep : ∀ i a q, I a → InOrder w a i q → Rests w i a q → I (after i q a))
    (hlookup : ∀ i key r, Promising w (Reached w disk I) i (fun r l => Obs i r key l) (lookup w key) r)
    (hs : Going w disk I Obs s) {moves : List (Move ResourceCall)}
    (h : Along (Crowd.next FileStep.perform (ResourceCall.script w)) (Crowd.Admits (InOrder w)) s moves) :
    Going w disk I Obs (Crowd.run FileStep.perform (ResourceCall.script w) s moves) ∧ ∀ j, .advance j ∉ moves →
      Relies w j s.record (Crowd.run FileStep.perform (ResourceCall.script w) s moves).record := by
  have hpost : ∀ i (a b : ResourceRecord) x, Relies w i a b → Kept w (Obs i) i a x ∧ Only i (Locked disk i) a →
      Kept w (Obs i) i b x ∧ Only i (Locked disk i) b := by
    rintro i a b x hr ⟨hkept,honly⟩
    exact ⟨hkept.mono (fun key l => hobs i a b key l hr) hr.log hr.serves fun _ hsince => hsince.relies hr,honly.relies hr⟩
  have hadmits : ∀ n (r : ResourceRecord) i q, Grown w disk n r ∧ I r → InOrder w r i q →
      Reached w disk I r ∧ InOrder w r i q := fun n r i q hr horder => ⟨⟨⟨n,hr.1⟩,hr.2⟩,horder⟩
  have hstep : ∀ n (r : ResourceRecord) i q, i < n → Grown w disk n r ∧ I r → InOrder w r i q → Rests w i r q →
      (Grown w disk n (after i q r) ∧ I (after i q r)) ∧ ∀ j, j ≠ i → Relies w j r (after i q r) := by
    rintro n r i q hi ⟨hgrown,hI⟩ horder hrests
    exact ⟨⟨hgrown.after hi hrests,hkeep i r q hI horder hrests⟩,fun j hj => relies_after horder hrests hj⟩
  have hprogram : ∀ n call (r : ResourceRecord), Grown w disk n r ∧ I r → Promising w (Reached w disk I) n
      (fun r x => Kept w (Obs n) n r x ∧ Only n (Locked disk n) r) (ResourceCall.script w n call) r := by
    rintro n call r ⟨hgrown,-⟩
    refine promising_call call r (fun d howns => ?_) fun key _ => hlookup n key r
    exact (hgrown.owners n d howns).resolve_left (Nat.lt_irrefl n)
  obtain ⟨hgoing,-,hothers⟩ := Crowd.run_promised (R := Relies w) (P := Rests w) (fun i a => Relies.refl a)
    (fun i a b c => Relies.trans) hpost hadmits (fun _ _ hr => ⟨hr.1.more,hr.2⟩) hstep hprogram hs h
  exact ⟨hgoing,hothers⟩

/-! ## Hits that stay -/

/-- What was a hit in a record still is one with the same payload, unless a collection has removed a file of it. -/
def Lasting (w : Setting) (a r : ResourceRecord) : Prop := a.log <+: r.log ∧ Serves w a r

def Follows (w : Setting) (a r : ResourceRecord) (key : SharedResourceKey) (l : Lookup) : Prop :=
  ∀ rule, w.ruleFor key = some rule → a.store.served w (w.directory rule key) = some key →
    l.isHit = true ∨ Collected a.log.length (w.directory rule key) r

theorem collected_look (h : Collected base d r) (i : ℕ) (q : FileStep) : Collected base d (after i q r) :=
  h.grow (log_after i q r)

theorem promising_lookup_lasting (a : ResourceRecord) (key : SharedResourceKey) :
    Promising w (Reached w disk (Lasting w a)) i (fun r l => Follows w a r key l) (lookup w key) r := by
  unfold lookup
  cases hrule : w.ruleFor key with
  | none =>
    refine promising_done fun rule hrule' => ?_
    cases hrule.symm.trans hrule'
  | some rule =>
    by_cases hserved : a.store.served w (w.directory rule key) = some key
    · have hlasting : ∀ r : ResourceRecord, Reached w disk (Lasting w a) r →
          (r.store.served w (w.directory rule key) = some key ∧
            (r.store.files (w.directory rule key)).payload = (a.store.files (w.directory rule key)).payload) ∨
          Collected a.log.length (w.directory rule key) r := fun r hr => hr.2.2 _ key hserved
      have hfollows : ∀ (r : ResourceRecord) (l : Lookup), Collected a.log.length (w.directory rule key) r →
          Follows w a r key l := by
        intro r l hcollected rule' hrule' _
        obtain rfl := Option.some.inj (hrule.symm.trans hrule')
        exact .inr hcollected
      refine promising_ask.mpr fun r₁ _ h₁ => ⟨trivial,?_⟩
      cases hmanifest : ((FileStep.manifestExists (w.directory rule key)).perform r₁.store).2 with
      | false =>
        refine promising_done (hfollows _ _ (collected_look ?_ i _))
        exact (hlasting r₁ h₁.1).resolve_left fun hs => not_served_of_manifest hmanifest hs.1
      | true =>
        refine promising_ask.mpr fun r₂ _ h₂ => ⟨trivial,?_⟩
        cases hpayload : ((FileStep.payloadExists (w.directory rule key)).perform r₂.store).2 with
        | false =>
          refine promising_done (hfollows _ _ (collected_look ?_ i _))
          exact (hlasting r₂ h₂.1).resolve_left fun hs => not_served_of_payload hpayload hs.1
        | true =>
          refine promising_ask.mpr fun r₃ _ h₃ => ⟨trivial,?_⟩
          cases hm : ((FileStep.readManifest (w.directory rule key)).perform r₃.store).2 with
          | error code =>
            refine promising_done (hfollows _ _ (collected_look ?_ i _))
            refine (hlasting r₃ h₃.1).resolve_left fun hs => ?_
            obtain ⟨-,m,-,-,-,hm',-,-⟩ := served_iff.mp hs.1
            cases hm.symm.trans hm'
          | ok m =>
            refine promising_ask.mpr fun r₄ h h₄ => ⟨trivial,?_⟩
            rcases hlasting r₃ h₃.1 with ⟨hs₃,hp₃⟩ | hcollected
            · rcases hlasting r₄ h₄.1 with ⟨hs₄,hp₄⟩ | hcollected
              · -- the manifest read describes the payload read, for that has not changed in between
                obtain ⟨rule₃,m₃,payload,hrule₃,-,hm₃,hpayload₃,hexact⟩ := served_iff.mp hs₃
                obtain rfl := Option.some.inj (hrule.symm.trans hrule₃)
                obtain rfl := Except.ok.inj (hm.symm.trans hm₃)
                have hpayload₄ : ((FileStep.readPayload (w.directory rule key)).perform r₄.store).2 = .ok payload :=
                  (readPayload_congr (hp₄.trans hp₃.symm)).trans hpayload₃
                rw [hpayload₄]
                dsimp only
                rw [if_pos hexact]
                exact promising_done fun _ _ _ => .inl rfl
              · cases ((FileStep.readPayload (w.directory rule key)).perform r₄.store).2 with
                | error code => exact promising_done (hfollows _ _ (collected_look hcollected i _))
                | ok payload => exact promising_done (hfollows _ _ (collected_look hcollected i _))
            · have hcollected₄ := collected_look (collected_look hcollected i (.readManifest (w.directory rule key)) |>.grow h.log) i
                (.readPayload (w.directory rule key))
              cases ((FileStep.readPayload (w.directory rule key)).perform r₄.store).2 with
              | error code => exact promising_done (hfollows _ _ hcollected₄)
              | ok payload => exact promising_done (hfollows _ _ hcollected₄)
    · refine Script.Promises.weaken (promising_examine rule key) (fun _ _ h => h) fun r l _ rule' hrule' hserved' => ?_
      obtain rfl := Option.some.inj (hrule.symm.trans hrule')
      exact absurd hserved' hserved

/-! ## Whole runs -/

theorem going_begin (w : Setting) (disk : Disk) (hI : I ⟨disk,[]⟩) : Going w disk I Obs (Crowd.begin disk) :=
  ⟨⟨Grown.begin w disk 0,hI⟩,fun _ _ hp => by cases hp⟩

theorem Going.onwards (h : Going w disk (fun _ => True) (fun _ _ key l => Hits w disk key l) s) :
    Going w disk (Lasting w s.record) (fun i r key l => s.clients.length ≤ i → Follows w s.record r key l) s := by
  obtain ⟨⟨hgrown,-⟩,hclients⟩ := h
  refine ⟨⟨hgrown,List.prefix_rfl,fun d key hserved => .inl ⟨hserved,rfl⟩⟩,fun i p hp => ?_⟩
  obtain ⟨hi,-⟩ := List.getElem?_eq_some_iff.mp hp
  refine Script.Promises.weaken (hclients i p hp) (fun r q hq => ⟨⟨hq.1.1,trivial⟩,hq.2⟩) fun r x hx => ⟨?_,hx.2⟩
  exact hx.1.mono (fun key l _ hlen => absurd hi (Nat.not_lt.mpr hlen)) List.prefix_rfl (fun _ _ h => .inl ⟨h,rfl⟩) fun _ h => h

theorem Lasting.after (a : ResourceRecord) (i : ℕ) (q : FileStep) (h : Lasting w a r) (horder : InOrder w r i q)
    (hrests : Rests w i r q) : Lasting w a (after i q r) :=
  ⟨h.1.trans (log_after i q r),h.2.trans h.1 (log_after i q r) (serves_after horder hrests)⟩

theorem run_onwards (h : Going w disk (fun _ => True) (fun _ _ key l => Hits w disk key l) s) {more : List (Move ResourceCall)}
    (hmore : Along (Crowd.next FileStep.perform (ResourceCall.script w)) (Crowd.Admits (InOrder w)) s more) :
    Going w disk (Lasting w s.record) (fun i r key l => s.clients.length ≤ i → Follows w s.record r key l)
        (Crowd.run FileStep.perform (ResourceCall.script w) s more) ∧ ∀ j, .advance j ∉ more →
      Relies w j s.record (Crowd.run FileStep.perform (ResourceCall.script w) s more).record := by
  refine run_going ?_ ?_ ?_ h.onwards hmore
  · intro i a b key l hr hobs hlen rule hrule hserved
    exact (hobs hlen rule hrule hserved).imp_right fun hcollected => hcollected.grow hr.log
  · exact fun i a q ha horder hrests => ha.after _ i q horder hrests
  · intro i key r
    exact Script.Promises.weaken (promising_lookup_lasting s.record key) (fun _ _ h => h) fun _ _ h _ => h

def result (s : ResourceState) (i : ℕ) : Option Result :=
  match s.clients[i]? with
  | some (.done x) => some x
  | _ => none

theorem client_of_result {x : Result} (h : result s i = some x) : s.clients[i]? = some (.done x) := by
  unfold result at h
  split at h
  · rename_i x' hclient
    rw [hclient,Option.some.inj h]
  · cases h

/-- What the store gives its callers after some moves from a disk, and after more of them. -/
structure Exact (w : Setting) (disk : Disk) (moves more : List (Move ResourceCall)) : Prop where
  hits : ∀ i key m payload, result (resourceRun w disk moves) i = some (.lookup key (.hit m payload)) →
    ∃ rule, w.ruleFor key = some rule ∧ w.exact rule key m payload = true ∧
      (w.sha256 payload = key.contentDigest ↔ m.payloadDigest = key.contentDigest) ∧
      (m.payloadDigest = key.contentDigest ∨ (disk.files (w.directory rule key)).manifest = some (.ok m))
  accepted : ∀ i key p, result (resourceRun w disk moves) i = some (.publication key p) → p.accepted = true →
    ∃ rule, w.ruleFor key = some rule ∧ Stands w i (w.directory rule key) key (resourceRun w disk moves).record
  lasts : ∀ d key, (resourceRun w disk moves).record.store.served w d = some key →
    (resourceRun w disk (moves ++ more)).record.store.served w d = some key ∨
      Collected (resourceRun w disk moves).record.log.length d (resourceRun w disk (moves ++ more)).record
  followed : ∀ i key l, (resourceRun w disk moves).clients.length ≤ i →
    result (resourceRun w disk (moves ++ more)) i = some (.lookup key l) →
    Follows w (resourceRun w disk moves).record (resourceRun w disk (moves ++ more)).record key l
  locked : ∀ d l, ((resourceRun w disk moves).record.store.files d).lock = some l → d ∈ Locked disk l.owner ∨
    ∃ q k, (resourceRun w disk moves).clients[l.owner]? = some (Script.ask q k)
  crashed : ∀ d l, ((resourceRun w disk moves).record.store.files d).lock = some l → .advance l.owner ∉ more →
    ((resourceRun w disk (moves ++ more)).record.store.files d).lock = some l
  accepts : ∀ owner rule c, Publishable w (resourceRun w disk moves).record.store c rule →
    ((∃ p, (aloneOn (publish w owner c) (resourceRun w disk moves).record.store).2 = .publication c.key p ∧ p.accepted = true) ↔
      ((resourceRun w disk moves).record.store.files (w.directory rule c.key)).lock = none)

/-- Hits are exact and stay, and valid publications are accepted, as far as manifests and lock files allow. -/
theorem exact_hits (w : Setting) (disk : Disk) (moves more : List (Move ResourceCall))
    (h : Along (Crowd.next FileStep.perform (ResourceCall.script w)) (Crowd.Admits (InOrder w)) (Crowd.begin disk)
      (moves ++ more)) : Exact w disk moves more := by
  obtain ⟨hmoves,hmore⟩ := along_append.mp h
  obtain ⟨hgoing,-⟩ := run_going (fun _ _ _ _ _ _ => id) (fun _ _ _ _ _ _ => trivial) (fun _ key _ => promising_lookup key)
    (going_begin (I := fun _ => True) w disk trivial) hmoves
  change Going w disk _ _ (resourceRun w disk moves) at hgoing
  have hrun : resourceRun w disk (moves ++ more) =
      Crowd.run FileStep.perform (ResourceCall.script w) (resourceRun w disk moves) more := List.foldl_append ..
  obtain ⟨hlater,hothers⟩ := run_onwards hgoing hmore
  rw [← hrun] at hlater hothers
  have hfinished : ∀ i x, (resourceRun w disk moves).clients[i]? = some (Script.done x) →
      Kept w (fun _ key l => Hits w disk key l) i (resourceRun w disk moves).record x ∧
        Only i (Locked disk i) (resourceRun w disk moves).record := fun i x hx => hgoing.2 i _ hx
  constructor
  case hits =>
    intro i key m payload hresult
    obtain ⟨rule,hrule,hexact,hnamed⟩ := (hfinished i _ (client_of_result hresult)).1 m payload rfl
    refine ⟨rule,hrule,hexact,?_,hnamed⟩
    obtain ⟨-,-,hdigest,-⟩ := exact_iff.mp hexact
    rw [hdigest]
  case accepted => exact fun i key p hresult haccepted => (hfinished i _ (client_of_result hresult)).1 haccepted
  case lasts =>
    intro d key hserved
    exact (hlater.1.2.2 d key hserved).imp_left And.left
  case followed => exact fun i key l hlen hresult => (hlater.2 i _ (client_of_result hresult)).1 hlen
  case locked =>
    intro d l hl
    have howns : Owns l.owner d (resourceRun w disk moves).record := ⟨l,hl,rfl⟩
    rcases hgoing.1.1.owners l.owner d howns with hlt | hlocked
    · cases hclient : (resourceRun w disk moves).clients[l.owner]? with
      | none => exact absurd hlt (Nat.not_lt.mpr (List.getElem?_eq_none_iff.mp hclient))
      | some p =>
        cases p with
        | done x => exact .inl ((hfinished l.owner x hclient).2 d howns)
        | ask q k => exact .inr ⟨q,k,rfl⟩
    · exact .inl hlocked
  case crashed => exact fun d l hl hnot => (hothers l.owner hnot).lock d l hl rfl
  case accepts => exact fun owner rule c hc => publish_alone hc owner

/-! ## A publication that is served, and stores that fail -/

def sampleSetting : Setting where
  rules := defaultRules
  limitFor area := if area ∈ ["Cache","Environment","PackageStores","Toolchains"] then 1024 * 1024 else 0
  areas := ["Cache","Environment","PackageStores","Toolchains"]
  sha256 payload := if payload = [97] then "sha256:ca978112ca1bbdcafac231b39a23dc4da786eff8147c4e72b9807785afee48bb"
    else "sha256:3e23e8160039594a33894f6564e1b1348bbd7a0088d42c4acb73eeaed59c009d"
  keyDigest key :=
    if key.contentDigest = "sha256:ca978112ca1bbdcafac231b39a23dc4da786eff8147c4e72b9807785afee48bb"
    then "sha256:6962bee4308d1146429cd0b57c69bbd1f301ea7622e3dfb226fd35466c4f2356"
    else "sha256:5f7ae9bb4f0156225bcd6f6c23351a640c28e3dfbfef03b25d200e5b09ab574f"

def sampleKey : SharedResourceKey :=
  ⟨"python","wheel_cache","any","1","sha256:ca978112ca1bbdcafac231b39a23dc4da786eff8147c4e72b9807785afee48bb"⟩

def samplePublish (fault : Option Fault) : PublishCall := ⟨sampleKey,[97],true,fault,0⟩

def emptyDisk : Disk := ⟨[],fun _ => []⟩

def callAtOnce (call : ResourceCall) (client requests : ℕ) : List (Move ResourceCall) :=
  .start call :: List.replicate requests (.advance client)

theorem exact_hits_published :
    Exact sampleSetting emptyDisk (callAtOnce (.publish (samplePublish none)) 0 17) (callAtOnce (.lookup sampleKey) 1 4) :=
  exact_hits _ _ _ _ (by decide +kernel)

/-- A manifest of another program gives the key the payload "b". -/
def foreignManifest : Manifest :=
  ⟨sampleKey,"Cache",.appendOnlyCache,"sha256:3e23e8160039594a33894f6564e1b1348bbd7a0088d42c4acb73eeaed59c009d",1⟩

def foreignDisk : Disk :=
  ⟨[(sampleSetting.directory ⟨"python","wheel_cache","Cache",.appendOnlyCache,true,false,notProjectLocal⟩ sampleKey,
    ⟨some [98],some (.ok foreignManifest),none,[]⟩)],fun _ => []⟩

/-- A publisher has created its lock file, and is not advanced any more. -/
def crashedPublisher : List (Move ResourceCall) := callAtOnce (.publish (samplePublish none)) 0 2

/-- A foreign manifest makes a hit of a payload that the key does not name, and the lock file of a publisher that crashed
keeps all later ones out. -/
theorem hits_fail :
    (result (resourceRun sampleSetting foreignDisk (callAtOnce (.lookup sampleKey) 0 4)) 0 =
        some (.lookup sampleKey (.hit foreignManifest [98])) ∧ sampleSetting.sha256 [98] ≠ sampleKey.contentDigest) ∧
    result (resourceRun sampleSetting emptyDisk (crashedPublisher ++ callAtOnce (.publish (samplePublish none)) 1 2)) 1 =
      some (.publication sampleKey ⟨.lockBusy,false,0,"FOREIGN_OR_BUSY_LOCK"⟩) := by
  refine ⟨⟨?_,by decide +kernel⟩,?_⟩
  · rfl
  · rfl

end Bdb.Resources
