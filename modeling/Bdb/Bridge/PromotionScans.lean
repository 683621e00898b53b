import Bdb.Bridge.PromotionOrder
import Bdb.Bridge.PromotionWatcher

/-! # Results are handed over once

While the record holds every result file, a scan hands over the results that it does not hold, each
once, and what it records is never handed over again. A result is recorded as blocked for good, also
when only its checkout stood in the way.
-/
namespace Bdb.Bridge.Promotion

open Script WatcherRequest List Option

variable {b : GitBehaviour} {cfg : PromoterConfig} {p : WatcherProcess} {w v : WatcherWorld}

/-! ## The record -/

def recordKeys (state : WatcherState) : List String := state.seen.map (·.1)

namespace WatcherWorld

def resultKeys (w : WatcherWorld) : List String := w.results.map (·.1)

def content (w : WatcherWorld) (key : String) : Option Fields := (w.results.lookup key).join

def seenKeys (w : WatcherWorld) : List String := (w.state.map recordKeys).getD []

end WatcherWorld

variable {state : WatcherState}

theorem trimState_of_le (h : state.seen.length ≤ maxStateEntries) : trimState state = state := if_pos h

theorem sortedKeys_perm (state : WatcherState) : (sortedKeys state).seen.Perm state.seen := perm_insertionSort _ _

variable {other : WatcherState} {key : String}

theorem recordKeys_perm (h : other.seen.Perm state.seen) : (recordKeys other).Perm (recordKeys state) :=
  h.map Prod.fst

theorem mem_sortedKeys : key ∈ recordKeys (sortedKeys state) ↔ key ∈ recordKeys state :=
  (recordKeys_perm (sortedKeys_perm state)).mem_iff

theorem listed_perm (w : WatcherWorld) : (listed w).Perm w.resultKeys := perm_insertionSort _ _

theorem records_iff : state.records key = true ↔ key ∈ recordKeys state :=
  contains_iff_mem

theorem foldl_setSeen (entry : String → SeenEntry) {keys : List String} (hkeys : keys.Nodup) (seen : List (String × SeenEntry))
    (hnew : ∀ key ∈ keys, key ∉ seen.map (·.1)) :
    keys.foldl (fun seen key => setSeen seen key (entry key)) seen = seen ++ keys.map fun key => (key,entry key) := by
  induction keys generalizing seen with
  | nil => exact (append_nil _).symm
  | cons key rest ih =>
    have hset : setSeen seen key (entry key) = seen ++ [(key,entry key)] := if_neg (hnew key mem_cons_self)
    rw [foldl_cons,hset,ih (nodup_cons.mp hkeys).2]
    · rw [append_assoc]
      rfl
    · intro k hk hmem
      rw [map_append,mem_append] at hmem
      rcases hmem with hmem | hmem
      · exact hnew k (mem_cons_of_mem _ hk) hmem
      · obtain rfl := mem_singleton.mp hmem
        exact (nodup_cons.mp hkeys).1 hk

/-! ## What is handed over -/

def handed (log : List (Entry Answer)) : List String :=
  log.filterMap fun e => match e.1 with
    | .readResult _ key => some key
    | _ => none

def recorded (log : List (Entry Answer)) : List String :=
  log.flatMap fun e => match e.1 with
    | .replaceState _ state => recordKeys state
    | _ => []

theorem handed_append (log more : List (Entry Answer)) : handed (log ++ more) = handed log ++ handed more := filterMap_append

theorem recorded_append (log more : List (Entry Answer)) : recorded (log ++ more) = recorded log ++ recorded more :=
  flatMap_append

/-- No checkout promotes the result. -/
def Refused (b : GitBehaviour) (cfg : PromoterConfig) (content : Option Fields) : Prop :=
  ∀ d, content = some d → ∀ (call : PromoteCall) (w : PromoterWorld), call.document = d →
    ∃ e, ((promoteFile b cfg call).alone (PromoterRequest.perform b) w).2 = .error e

theorem refused_of_invalid {content : Option Fields} (h : ∀ d, content = some d → ∃ e, validateResult cfg d = .error e) :
    Refused b cfg content := by
  rintro d hd call w rfl
  obtain ⟨e,he⟩ := h _ hd
  refine ⟨e,?_⟩
  unfold promoteFile
  rw [he]
  rfl

/-- The checkout is where the promotion of the result can begin or go on. -/
def Ready (b : GitBehaviour) (cfg : PromoterConfig) (pid : ℕ) (content : Option Fields) (w : PromoterWorld) : Prop :=
  ∀ d, content = some d → (∃ e, validateResult cfg d = .error e) ∨
    ∃ k : Workspace, k.document = d ∧ k.Promotable b cfg ∧ k.Listed b cfg ∧ k.Stage b cfg w ∧ k.Open cfg pid w

/-- The conditions on the steps: every result file fits the record, no temporary file is in the way, and
valid results find their checkout ready. -/
def Orderly (b : GitBehaviour) (cfg : PromoterConfig) (w : WatcherWorld) : WatcherRequest → Prop
  | .readResult pid key => Ready b cfg pid (w.content key) w.promoter
  | .openTemp pid => pid ∉ w.temps
  | .addResult _ _ => w.results.length < maxStateEntries
  | _ => True

/-! ## Sound records -/

variable (b cfg) in
structure SoundState (w : WatcherWorld) (state : WatcherState) : Prop where
  initialized : state.initialized = true
  nodup : (recordKeys state).Nodup
  known : ∀ key ∈ recordKeys state, key ∈ w.resultKeys
  blocked : ∀ key entry code detail, (key,entry) ∈ state.seen → entry.status = .blocked code detail → Refused b cfg (w.content key)

variable (b cfg) in
structure Sound (w : WatcherWorld) : Prop where
  nodup : w.resultKeys.Nodup
  bounded : w.results.length ≤ maxStateEntries
  state : ∀ state, w.state = some state → SoundState b cfg w state

theorem SoundState.perm (h : SoundState b cfg w state) (hinitialized : other.initialized = true)
    (hseen : other.seen.Perm state.seen) : SoundState b cfg w other where
  initialized := hinitialized
  nodup := (recordKeys_perm hseen).nodup_iff.mpr h.nodup
  known key hkey := h.known key ((recordKeys_perm hseen).mem_iff.mp hkey)
  blocked key entry code detail hmem := h.blocked key entry code detail (hseen.mem_iff.mp hmem)

theorem SoundState.of_results (h : SoundState b cfg v state) (hresults : w.results = v.results) :
    SoundState b cfg w state := by
  obtain ⟨promoter,results,saved,temps⟩ := w
  obtain rfl : results = v.results := hresults
  exact ⟨h.initialized,h.nodup,h.known,h.blocked⟩

theorem SoundState.fits (h : SoundState b cfg w state) (hw : Sound b cfg w) :
    state.seen.length ≤ maxStateEntries := by
  have hlength := (subperm_of_subset h.nodup h.known).length_le
  rw [recordKeys,length_map,WatcherWorld.resultKeys,length_map] at hlength
  exact hlength.trans hw.bounded

/-- What a call leaves of the state that it started with. -/
structure Scanned (b : GitBehaviour) (cfg : PromoterConfig) (w v : WatcherWorld) (log : List (Entry Answer)) : Prop where
  results : ∀ key ∈ w.resultKeys, key ∈ v.resultKeys
  sound : Sound b cfg v
  grown : ∀ key ∈ w.seenKeys, key ∈ v.seenKeys
  fresh : ∀ key ∈ handed log, key ∈ w.resultKeys ∧ key ∉ w.seenKeys
  once : (handed log).Nodup
  written : ∀ key ∈ recorded log, key ∈ v.seenKeys
  source : w.state.isSome = true → ∀ key ∈ v.seenKeys, key ∈ w.seenKeys ∨ key ∈ handed log
  kept : w.state.isSome = true → v.state.isSome = true

theorem Scanned.refl (h : Sound b cfg w) : Scanned b cfg w w [] where
  results _ h := h
  sound := h
  grown _ h := h
  fresh _ hkey := absurd hkey not_mem_nil
  once := nodup_nil
  written _ hkey := absurd hkey not_mem_nil
  source _ _ hkey := .inl hkey
  kept h := h

theorem Scanned.idle {u : WatcherWorld} {log more : List (Entry Answer)} (h : Scanned b cfg w v log) (hresults : u.results = v.results)
    (hstate : u.state = v.state) (hhanded : handed more = []) (hrecorded : recorded more = []) :
    Scanned b cfg w u (log ++ more) := by
  obtain ⟨promoter,results,state,temps⟩ := u
  obtain rfl : results = v.results := hresults
  obtain rfl : state = v.state := hstate
  have hlog : handed (log ++ more) = handed log := by rw [handed_append,hhanded,append_nil]
  have hlog' : recorded (log ++ more) = recorded log := by rw [recorded_append,hrecorded,append_nil]
  exact ⟨h.results,⟨h.sound.nodup,h.sound.bounded,fun st hst => ⟨(h.sound.state st hst).initialized,(h.sound.state st hst).nodup,
    (h.sound.state st hst).known,(h.sound.state st hst).blocked⟩⟩,h.grown,hlog ▸ h.fresh,hlog ▸ h.once,hlog' ▸ h.written,
    hlog ▸ h.source,h.kept⟩

/-! ## The programs -/

section Programs

variable {log : List (Entry Answer)} {Q : WatcherWorld → List (Entry Answer) → Outcome (List PromotionOutcome) → Prop}

variable (b cfg) in
/-- The result files of a scan stay as they are. -/
def Scanning (w : WatcherWorld) (v : WatcherWorld) (log : List (Entry Answer)) : Prop :=
  v.results = w.results ∧ Scanned b cfg w v log

theorem Scanning.idle {u : WatcherWorld} {more : List (Entry Answer)} (h : Scanning b cfg w v log) (hresults : u.results = v.results)
    (hstate : u.state = v.state) (hhanded : handed more = []) (hrecorded : recorded more = []) :
    Scanning b cfg w u (log ++ more) :=
  ⟨hresults.trans h.1,h.2.idle hresults hstate hhanded hrecorded⟩

variable {next : WatcherProgram} {key : String} {entry : SeenEntry}

variable {state : WatcherState}

theorem writeState_under (h : Scanning b cfg w v log) (hstate : SoundState b cfg v state)
    (hgrown : ∀ key ∈ v.seenKeys, key ∈ recordKeys state)
    (hsource : w.state.isSome = true → ∀ key ∈ recordKeys state, key ∈ w.seenKeys ∨ key ∈ handed log)
    (hnext : ∀ u log', Scanning b cfg w u log' → u.state = some (sortedKeys state) → handed log' = handed log →
      next.Under (perform b) (Orderly b cfg) (Scanning b cfg w) Q u log') :
    (writeState p.pid state next).Under (perform b) (Orderly b cfg) (Scanning b cfg w) Q v log := by
  refine ⟨h,fun hfree => ?_⟩
  have hopen : perform b (.openTemp p.pid) v = ({ v with temps := p.pid :: v.temps },.ok ()) := if_neg hfree
  have hopened : Scanning b cfg w { v with temps := p.pid :: v.temps } (log ++ [⟨.openTemp p.pid,.ok ()⟩]) := h.idle rfl rfl rfl rfl
  rw [hopen]
  refine ⟨hopened,fun _ => ?_⟩
  rw [trimState_of_le (hstate.fits h.2.sound)]
  have hperm := sortedKeys_perm state
  have hkeys (key : String) : key ∈ ((some (sortedKeys state)).map recordKeys).getD [] ↔ key ∈ recordKeys state := mem_sortedKeys
  have hhanded : handed ((log ++ [⟨.openTemp p.pid,.ok ()⟩]) ++ [⟨.replaceState p.pid (sortedKeys state),()⟩]) = handed log := by
    rw [handed_append,handed_append]
    exact (append_nil _).trans (append_nil _)
  refine hnext _ _ ⟨h.1,?_⟩ rfl hhanded
  have hwritten : Scanned b cfg w
      { v with temps := (p.pid :: v.temps).erase p.pid, state := some (sortedKeys state) }
      ((log ++ [⟨.openTemp p.pid,.ok ()⟩]) ++ [⟨.replaceState p.pid (sortedKeys state),()⟩]) := by
    refine ⟨h.2.results,⟨h.2.sound.nodup,h.2.sound.bounded,fun st hst => ?_⟩,fun key hkey => ?_,?_,?_,fun key hkey => ?_,
      fun hsome key hkey => ?_,fun _ => rfl⟩
    · cases hst
      have hsorted : SoundState b cfg v (sortedKeys state) :=
        hstate.perm (show (sortedKeys state).initialized = true from hstate.initialized) hperm
      exact ⟨hsorted.initialized,hsorted.nodup,hsorted.known,hsorted.blocked⟩
    · exact (hkeys key).mpr (hgrown key (h.2.grown key hkey))
    · rw [hhanded]
      exact h.2.fresh
    · rw [hhanded]
      exact h.2.once
    · rw [recorded_append,recorded_append] at hkey
      rcases mem_append.mp hkey with hkey | hkey
      · rcases mem_append.mp hkey with hkey | hkey
        · exact (hkeys key).mpr (hgrown key (h.2.written key hkey))
        · exact absurd hkey not_mem_nil
      · have hsame : recorded [⟨.replaceState p.pid (sortedKeys state),()⟩] = recordKeys (sortedKeys state) := append_nil _
        rw [hsame] at hkey
        exact (hkeys key).mpr (mem_sortedKeys.mp hkey)
    · rw [hhanded]
      exact hsource hsome key ((hkeys key).mp hkey)
  exact hwritten

theorem lift_under {program : PromoterProgram} {R : PromoterWorld → Outcome PromotionOutcome → Prop}
    (hprogram : program.Guarantees (PromoterRequest.perform b) (fun _ => True) R v.promoter) (h : Scanning b cfg w v log) :
    (program.lift WatcherRequest.promoter fun _ a => a : Script WatcherRequest Answer (Outcome PromotionOutcome)).Under (perform b) (Orderly b cfg) (Scanning b cfg w)
      (fun u log' answer => Scanning b cfg w u log' ∧ u.results = v.results ∧ u.state = v.state ∧ handed log' = handed log ∧
        R u.promoter answer) v log := by
  induction program generalizing v log with
  | done a => exact ⟨h,h,rfl,rfl,rfl,hprogram.2⟩
  | ask q k ih =>
    refine ⟨h,fun _ => ?_⟩
    have hstep : Scanning b cfg w (perform b (.promoter q) v).1 (log ++ [⟨.promoter q,(perform b (.promoter q) v).2⟩]) :=
      h.idle rfl rfl rfl rfl
    have hhanded : handed (log ++ [⟨.promoter q,(perform b (.promoter q) v).2⟩]) = handed log :=
      (handed_append _ _).trans (append_nil _)
    have hrest := ih (PromoterRequest.perform b q v.promoter).2 (v := (perform b (.promoter q) v).1) hprogram.2 hstep
    rw [hhanded] at hrest
    exact hrest

theorem promoteResult_under (hb : b.Acyclic) {content : Option Fields} (hready : Ready b cfg p.pid content v.promoter)
    (h : Scanning b cfg w v log) :
    (promoteResult b cfg p content).Under (perform b) (Orderly b cfg) (Scanning b cfg w)
      (fun u log' answer => Scanning b cfg w u log' ∧ u.results = v.results ∧ u.state = v.state ∧ handed log' = handed log ∧
        ∀ e, answer = .error e → Refused b cfg content) v log := by
  cases content with
  | none =>
    refine ⟨h,h,rfl,rfl,rfl,fun _ _ d hd => ?_⟩
    cases hd
  | some d =>
    refine lift_under (R := fun _ answer => ∀ e, answer = .error e → Refused b cfg (some d)) ?_ h
    rcases hready d rfl with ⟨e,he⟩ | ⟨k,hdoc,hpromotable,hlisted,hstage,hopen⟩
    · have hinvalid : Refused b cfg (some d) := by
        refine refused_of_invalid fun d' hd' => ⟨e,?_⟩
        cases hd'
        exact he
      unfold promoteFile
      rw [he]
      exact ⟨trivial,fun _ _ => hinvalid⟩
    · have hcall := Workspace.promoteFile_guarantees hb hpromotable hlisted
        (show (⟨d,p.pid,p.stamp⟩ : PromoteCall).document = _ from hdoc.symm) hstage
      refine hcall.mono (fun _ _ => trivial) fun u answer hanswer e he => ?_
      obtain ⟨c,n,status,-,-,-,-,hok⟩ := hanswer.1 hopen
      rw [hok] at he
      cases he

/-- Where a scan is before the results that are left. -/
structure Looping (b : GitBehaviour) (cfg : PromoterConfig) (w v : WatcherWorld) (log : List (Entry Answer)) (rest : List String)
    (state : WatcherState) : Prop where
  scanning : Scanning b cfg w v log
  sound : SoundState b cfg v state
  same : ∀ key, key ∈ v.seenKeys ↔ key ∈ recordKeys state
  known : ∀ key ∈ rest, key ∈ w.resultKeys
  covered : ∀ key ∈ w.resultKeys, key ∈ rest ∨ key ∈ recordKeys state
  finished : ∀ key ∈ handed log, key ∈ recordKeys state

theorem mem_adding {k : String} :
    k ∈ recordKeys (state.adding key entry) ↔ k ∈ recordKeys state ∨ k = key := by
  simp [recordKeys,WatcherState.adding]

theorem SoundState.adding (h : SoundState b cfg v state)
    (hkey : key ∈ v.resultKeys) (hnew : key ∉ recordKeys state)
    (hblocked : ∀ code detail, entry.status = .blocked code detail → Refused b cfg (v.content key)) :
    SoundState b cfg v (state.adding key entry) where
  initialized := h.initialized
  nodup := by
    have hkeys : recordKeys (state.adding key entry) = recordKeys state ++ [key] := by simp [recordKeys,WatcherState.adding]
    rw [hkeys]
    exact nodup_append.mpr ⟨h.nodup,nodup_singleton key,fun k hk k' hk' heq =>
      hnew (mem_singleton.mp hk' ▸ heq ▸ hk)⟩
  known k hk := by
    rcases mem_adding.mp hk with hk | rfl
    · exact h.known k hk
    · exact hkey
  blocked k e code detail hmem hstatus := by
    rcases mem_append.mp hmem with hmem | hmem
    · exact h.blocked k e code detail hmem hstatus
    · obtain ⟨rfl,rfl⟩ := Prod.mk.inj (mem_singleton.mp hmem)
      exact hblocked code detail hstatus

theorem entryOf_blocked {recordedAt code detail : String} {answer : Outcome PromotionOutcome}
    (h : (entryOf recordedAt answer).status = .blocked code detail) : ∃ e, answer = .error e := by
  cases answer with
  | error e => exact ⟨e,rfl⟩
  | ok outcome => cases h

theorem Looping.hand {rest : List String} (h : Looping b cfg w v log (key :: rest) state)
    (hnew : key ∉ recordKeys state) (content : Option Fields) :
    Scanning b cfg w v (log ++ [⟨.readResult p.pid key,content⟩]) := by
  have hscanned := h.scanning.2
  have hhanded : handed (log ++ [⟨.readResult p.pid key,content⟩]) = handed log ++ [key] := handed_append _ _
  have hrecorded : recorded (log ++ [⟨.readResult p.pid key,content⟩]) = recorded log :=
    (recorded_append _ _).trans (append_nil _)
  refine ⟨h.scanning.1,⟨hscanned.results,hscanned.sound,hscanned.grown,fun k hk => ?_,?_,?_,fun hsome k hk => ?_,hscanned.kept⟩⟩
  · rw [hhanded] at hk
    rcases mem_append.mp hk with hk | hk
    · exact hscanned.fresh k hk
    · obtain rfl := mem_singleton.mp hk
      exact ⟨h.known k mem_cons_self,fun hseen => hnew ((h.same k).mp (hscanned.grown k hseen))⟩
  · rw [hhanded]
    exact nodup_append.mpr ⟨hscanned.once,nodup_singleton key,fun k hk k' hk' heq =>
      hnew (mem_singleton.mp hk' ▸ heq ▸ h.finished k hk)⟩
  · rw [hrecorded]
    exact hscanned.written
  · rw [hhanded]
    exact (hscanned.source hsome k hk).imp_right (mem_append_left _)

theorem scanResults_under (hb : b.Acyclic) (rest : List String) {outcomes : List PromotionOutcome}
    (h : Looping b cfg w v log rest state) :
    (scanResults b cfg p rest state outcomes).Under (perform b) (Orderly b cfg) (Scanning b cfg w)
      (fun u _ _ => ∀ key ∈ w.resultKeys, key ∈ u.seenKeys) v log := by
  induction rest generalizing state outcomes v log with
  | nil =>
    refine ⟨h.scanning,fun key hkey => (h.same key).mpr ?_⟩
    exact (h.covered key hkey).resolve_left not_mem_nil
  | cons key rest ih =>
    unfold scanResults
    split
    · rename_i hrecords
      refine ih ⟨h.scanning,h.sound,h.same,fun k hk => h.known k (mem_cons_of_mem _ hk),fun k hk => ?_,h.finished⟩
      rcases h.covered k hk with hk | hk
      · rcases mem_cons.mp hk with rfl | hk
        · exact .inr (records_iff.mp hrecords)
        · exact .inl hk
      · exact .inr hk
    · rename_i hrecords
      have hnew : key ∉ recordKeys state := fun hmem => hrecords (records_iff.mpr hmem)
      refine ⟨h.scanning,fun hready => ?_⟩
      have hhanded := h.hand (p := p) hnew (v.content key)
      refine (promoteResult_under hb hready hhanded).bind fun u log' answer hu => ?_
      rintro ⟨-,hresults,hstate,hlog,hrefused⟩
      rw [handed_append] at hlog
      have hsame (k : String) : k ∈ u.seenKeys ↔ k ∈ recordKeys state := by
        rw [WatcherWorld.seenKeys,hstate]
        exact h.same k
      have hsound : SoundState b cfg u (state.adding key (entryOf (p.recordedAt key) answer)) := by
        refine SoundState.of_results (h.sound.adding ?_ hnew fun code detail hstatus => ?_) hresults
        · exact h.scanning.2.results key (h.known key mem_cons_self)
        · obtain ⟨e,he⟩ := entryOf_blocked hstatus
          exact hrefused e he
      have hfits : trimState (state.adding key (entryOf (p.recordedAt key) answer)) = state.adding key (entryOf (p.recordedAt key) answer) :=
        trimState_of_le (hsound.fits hu.2.sound)
      simp only [hfits]
      refine writeState_under hu hsound (fun k hk => mem_adding.mpr (.inl ((hsame k).mp hk))) (fun hsome k hk => ?_) ?_
      · rcases mem_adding.mp hk with hk | rfl
        · exact hu.2.source hsome k ((hsame k).mpr hk)
        · rw [hlog]
          exact .inr (mem_append_right _ (mem_singleton_self k))
      · intro t log'' ht hsaved hlog'
        have hkeys (k : String) : k ∈ t.seenKeys ↔ k ∈ recordKeys (state.adding key (entryOf (p.recordedAt key) answer)) := by
          rw [WatcherWorld.seenKeys,hsaved]
          exact mem_sortedKeys
        refine ih ⟨ht,hsound.of_results (ht.1.trans hu.1.symm),hkeys,fun k hk => h.known k (mem_cons_of_mem _ hk),
          fun k hk => ?_,fun k hk => ?_⟩
        · rcases h.covered k hk with hk | hk
          · rcases mem_cons.mp hk with rfl | hk
            · exact .inr (mem_adding.mpr (.inr rfl))
            · exact .inl hk
          · exact .inr (mem_adding.mpr (.inl hk))
        · rw [hlog',hlog] at hk
          rcases mem_append.mp hk with hk | hk
          · exact mem_adding.mpr (.inl (h.finished k hk))
          · exact mem_adding.mpr (.inr (mem_singleton.mp hk))

theorem initializeExisting_under (h : Scanning b cfg w v log)
    (hnext : ∀ u log', Scanning b cfg w u log' → u.state.isSome = true → handed log' = handed log →
      next.Under (perform b) (Orderly b cfg) (Scanning b cfg w) Q u log') :
    (initializeExisting p next).Under (perform b) (Orderly b cfg) (Scanning b cfg w) Q v log := by
  have hread : Scanning b cfg w v (log ++ [⟨.readState,v.state.getD ⟨false,[]⟩⟩]) := h.idle rfl rfl rfl rfl
  have hlog : handed (log ++ [⟨.readState,v.state.getD ⟨false,[]⟩⟩]) = handed log := (handed_append _ _).trans (append_nil _)
  refine ⟨h,fun _ => ?_⟩
  cases hstate : v.state with
  | some state =>
    have hinitialized := (h.2.sound.state state hstate).initialized
    simp only [perform,hstate,getD_some,hinitialized,if_true]
    rw [hstate,getD_some] at hread hlog
    exact hnext v _ hread (by rw [hstate]; rfl) hlog
  | none =>
    rw [hstate,getD_none] at hread hlog
    have hlisted : Scanning b cfg w v ((log ++ [⟨.readState,⟨false,[]⟩⟩]) ++ [⟨.listResults,listed v⟩]) := hread.idle rfl rfl rfl rfl
    have hlog' : handed ((log ++ [⟨.readState,⟨false,[]⟩⟩]) ++ [⟨.listResults,listed v⟩]) = handed log :=
      (handed_append _ _).trans ((append_nil _).trans hlog)
    have hnodup : (listed v).Nodup := (listed_perm v).nodup_iff.mpr h.2.sound.nodup
    have hseen := foldl_setSeen (fun key => ⟨.ignoredExisting,p.recordedAt key⟩) hnodup [] fun _ _ => not_mem_nil
    have hkeys : recordKeys ⟨true,(listed v).map fun key => (key,⟨.ignoredExisting,p.recordedAt key⟩)⟩ = listed v := by
      simp [recordKeys,Function.comp_def]
    simp only [perform,hstate,getD_none,Bool.false_eq_true,if_false]
    refine ⟨hread,fun _ => ?_⟩
    simp only [perform,hseen,nil_append]
    refine writeState_under hlisted ⟨rfl,?_,?_,?_⟩ (fun key hkey => ?_) (fun hsome => ?_) fun u log'' hu hsaved hlog'' => ?_
    · rw [hkeys]
      exact hnodup
    · rw [hkeys]
      exact fun key hkey => (listed_perm v).mem_iff.mp hkey
    · intro key entry code detail hmem hstatus
      obtain ⟨key',-,heq⟩ := mem_map.mp hmem
      cases heq
      cases hstatus
    · rw [WatcherWorld.seenKeys,hstate] at hkey
      exact absurd hkey not_mem_nil
    · have hkept := h.2.kept hsome
      rw [hstate] at hkept
      exact absurd hkept Bool.false_ne_true
    · exact hnext u log'' hu (by rw [hsaved]; rfl) (hlog''.trans hlog')

theorem scanListed_under (hb : b.Acyclic) (h : Scanning b cfg w v log) (hstate : v.state = some state)
    (hlog : handed log = []) :
    ((.ask .listResults fun keys => scanResults b cfg p keys state []) : WatcherProgram).Under (perform b) (Orderly b cfg) (Scanning b cfg w)
      (fun u _ _ => ∀ key ∈ w.resultKeys, key ∈ u.seenKeys) v log := by
  have hkeys (key : String) : key ∈ listed v ↔ key ∈ w.resultKeys := by
    have hsame : v.resultKeys = w.resultKeys := congrArg (List.map Prod.fst) h.1
    rw [(listed_perm v).mem_iff,hsame]
  have hlisted : Scanning b cfg w v (log ++ [⟨.listResults,listed v⟩]) := h.idle rfl rfl rfl rfl
  refine ⟨h,fun _ => ?_⟩
  refine scanResults_under hb (listed v) ⟨hlisted,h.2.sound.state state hstate,fun key => ?_,
    fun key hkey => (hkeys key).mp hkey,fun key hkey => .inl ((hkeys key).mpr hkey),fun key hkey => ?_⟩
  · change key ∈ v.seenKeys ↔ key ∈ recordKeys state
    rw [WatcherWorld.seenKeys,hstate]
    rfl
  · rw [handed_append,hlog] at hkey
    exact absurd hkey not_mem_nil

theorem scanOnce_under (hb : b.Acyclic) (h : Sound b cfg w) :
    (scanOnce b cfg p).Under (perform b) (Orderly b cfg) (Scanning b cfg w)
      (fun u _ _ => ∀ key ∈ w.resultKeys, key ∈ u.seenKeys) w [] := by
  have hstart : Scanning b cfg w w [] := ⟨rfl,.refl h⟩
  have hread : Scanning b cfg w w [⟨.readState,w.state.getD ⟨false,[]⟩⟩] := hstart.idle rfl rfl rfl rfl
  refine ⟨hstart,fun _ => ?_⟩
  cases hstate : w.state with
  | some state =>
    rw [hstate,getD_some] at hread
    simp only [perform,hstate,getD_some,(h.state state hstate).initialized,if_true]
    exact scanListed_under hb hread hstate rfl
  | none =>
    rw [hstate,getD_none] at hread
    simp only [perform,hstate,getD_none,Bool.false_eq_true,if_false]
    refine initializeExisting_under hread fun u log' hu hsome hlog' => ?_
    obtain ⟨state,hsaved⟩ := isSome_iff_exists.mp hsome
    have hagain : Scanning b cfg w u (log' ++ [⟨.readState,state⟩]) := hu.idle rfl rfl rfl rfl
    refine ⟨hu,fun _ => ?_⟩
    simp only [perform,hsaved,getD_some]
    refine scanListed_under hb hagain hsaved ?_
    rw [handed_append,hlog']
    rfl

/-! ### Calls -/

theorem lookup_append_known (h : key ∈ w.resultKeys) (more : List (String × Option Fields)) :
    (w.results ++ more).lookup key = w.results.lookup key := by
  have hfound : ∃ content, w.results.lookup key = some content := by
    obtain ⟨r,hr,rfl⟩ := mem_map.mp h
    exact isSome_iff_exists.mp (lookup_isSome_iff.mpr ⟨r,hr,beq_self_eq_true _⟩)
  obtain ⟨content,hcontent⟩ := hfound
  rw [lookup_append,hcontent]
  rfl

theorem add_scanned (h : Sound b cfg w) (key : String) (content : Option Fields) (hroom : w.results.length < maxStateEntries) :
    Scanned b cfg w (perform b (.addResult key content) w).1 [⟨.addResult key content,()⟩] := by
  have hscanned : Scanned b cfg w w [⟨.addResult key content,()⟩] := (Scanned.refl h).idle rfl rfl rfl rfl
  by_cases hkey : key ∈ w.resultKeys
  · have hsame : (perform b (.addResult key content) w).1 = w := if_pos hkey
    rw [hsame]
    exact hscanned
  · have hadded : (perform b (.addResult key content) w).1 = { w with results := w.results ++ [(key,content)] } := if_neg hkey
    have hkeys : WatcherWorld.resultKeys { w with results := w.results ++ [(key,content)] } = w.resultKeys ++ [key] := map_append
    rw [hadded]
    refine ⟨fun k hk => ?_,⟨?_,?_,fun state hstate => ⟨(h.state state hstate).initialized,(h.state state hstate).nodup,fun k hk => ?_,
      fun k entry code detail hmem hstatus => ?_⟩⟩,hscanned.grown,hscanned.fresh,hscanned.once,hscanned.written,hscanned.source,
      hscanned.kept⟩
    · rw [hkeys]
      exact mem_append_left _ hk
    · rw [hkeys]
      exact nodup_append.mpr ⟨h.nodup,nodup_singleton key,fun k hk k' hk' heq => hkey (mem_singleton.mp hk' ▸ heq ▸ hk)⟩
    · rw [length_append,length_singleton]
      exact hroom
    · rw [hkeys]
      exact mem_append_left _ ((h.state state hstate).known k hk)
    · have hknown := (h.state state hstate).known k (mem_map_of_mem hmem)
      unfold WatcherWorld.content
      rw [lookup_append_known hknown]
      exact (h.state state hstate).blocked k entry code detail hmem hstatus

/-- What a call comes to when it is not cut off. -/
def Finishes (w : WatcherWorld) (c : WatcherCall) (v : WatcherWorld) (log : List (Entry Answer)) : Prop :=
  (∀ key ∈ handed log, key ∈ v.seenKeys) ∧ ∀ p, c = .scan p → ∀ key ∈ w.resultKeys, key ∈ v.seenKeys

theorem call_under (hb : b.Acyclic) (h : Sound b cfg w) (c : WatcherCall) :
    (c.program b cfg).Under (perform b) (Orderly b cfg) (Scanned b cfg w) (fun v log _ => Finishes w c v log) w [] := by
  cases c with
  | initializing p =>
    have hinitialize : (initializeExisting p (.done (.ok []))).Under (perform b) (Orderly b cfg) (Scanning b cfg w)
        (fun _ log _ => handed log = []) w [] :=
      initializeExisting_under ⟨rfl,.refl h⟩ fun u log' hu _ hlog' => ⟨hu,hlog'⟩
    refine hinitialize.mono (fun _ _ hs => hs.2) fun v log _ _ hlog => ⟨fun key hkey => ?_,fun _ heq => ?_⟩
    · rw [hlog] at hkey
      exact absurd hkey not_mem_nil
    · cases heq
  | scan p =>
    refine (scanOnce_under hb h).mono (fun _ _ hs => hs.2) fun v log _ hs hall => ⟨fun key hkey => ?_,fun _ _ => hall⟩
    exact hall key (hs.2.fresh key hkey).1
  | add key content =>
    refine ⟨.refl h,fun hroom => ?_⟩
    refine ⟨add_scanned h key content hroom,fun k hk => absurd hk not_mem_nil,fun _ heq => ?_⟩
    cases heq
  | elsewhere commits branch source worktrees sessions =>
    refine ⟨.refl h,fun _ => ?_⟩
    refine ⟨(Scanned.refl h).idle rfl rfl rfl rfl,fun k hk => absurd hk not_mem_nil,fun _ heq => ?_⟩
    cases heq

end Programs

/-! ## Runs -/

section Runs

variable (b cfg) in
/-- The state and the log after calls of the watcher, new results, crashes, and whatever happens elsewhere. -/
def watched (w : WatcherWorld) (attempts : List (Attempt WatcherCall)) : Logged WatcherWorld Answer :=
  Logged.run (perform b) (WatcherCall.program b cfg) ⟨w,[]⟩ attempts

variable (b cfg) in
def segment (w : WatcherWorld) (a : Attempt WatcherCall) : List (Entry Answer) :=
  ((a.call.program b cfg).cutOff (perform b) a.cut w).2

variable (b cfg) in
def OrderlyRun (w : WatcherWorld) (attempts : List (Attempt WatcherCall)) : Prop :=
  Logged.Obeys (perform b) (WatcherCall.program b cfg) (Orderly b cfg) ⟨w,[]⟩ attempts

/-- What calls leave of the state that they started with. -/
structure Later (w v : WatcherWorld) (log : List (Entry Answer)) : Prop where
  grown : ∀ key ∈ w.seenKeys, key ∈ v.seenKeys
  fresh : ∀ key ∈ handed log, key ∉ w.seenKeys
  source : w.state.isSome = true → ∀ key ∈ v.seenKeys, key ∈ w.seenKeys ∨ key ∈ handed log
  kept : w.state.isSome = true → v.state.isSome = true

theorem Later.refl (w : WatcherWorld) : Later w w [] :=
  ⟨fun _ h => h,fun _ h => absurd h not_mem_nil,fun _ _ h => .inl h,fun h => h⟩

theorem Later.trans {u : WatcherWorld} {log more : List (Entry Answer)} (h : Later w v log) (h' : Later v u more) :
    Later w u (log ++ more) where
  grown key hkey := h'.grown key (h.grown key hkey)
  fresh key hkey := by
    rw [handed_append] at hkey
    rcases mem_append.mp hkey with hkey | hkey
    · exact h.fresh key hkey
    · exact fun hseen => h'.fresh key hkey (h.grown key hseen)
  source hsome key hkey := by
    rw [handed_append,mem_append]
    rcases h'.source (h.kept hsome) key hkey with hkey | hkey
    · exact (h.source hsome key hkey).imp_right .inl
    · exact .inr (.inr hkey)
  kept hsome := h'.kept (h.kept hsome)

theorem Scanned.later {log : List (Entry Answer)} (h : Scanned b cfg w v log) : Later w v log :=
  ⟨h.grown,fun key hkey => (h.fresh key hkey).2,h.source,h.kept⟩

variable {attempts : List (Attempt WatcherCall)}

theorem watched_concat (w : WatcherWorld) (attempts : List (Attempt WatcherCall)) (a : Attempt WatcherCall) :
    watched b cfg w (attempts ++ [a]) =
      ⟨((a.call.program b cfg).cutOff (perform b) a.cut (watched b cfg w attempts).store).1,
        (watched b cfg w attempts).log ++ segment b cfg (watched b cfg w attempts).store a⟩ := Logged.run_concat ..

variable {rest before between : List (Attempt WatcherCall)} {key : String}

theorem attempt_scanned (hb : b.Acyclic) {done : List (Attempt WatcherCall)} {a : Attempt WatcherCall}
    (hrun : OrderlyRun b cfg w (done ++ a :: rest)) (h : Sound b cfg (watched b cfg w done).store) :
    Scanned b cfg (watched b cfg w done).store (watched b cfg w (done ++ [a])).store (segment b cfg (watched b cfg w done).store a) := by
  rw [watched_concat]
  exact (call_under hb h a.call).cutOff (hrun done a rest rfl)

section

variable (hb : b.Acyclic) (h : Sound b cfg w)

include hb h

theorem watched_sound (hrun : OrderlyRun b cfg w attempts) :
    Sound b cfg (watched b cfg w attempts).store := by
  induction attempts using List.reverseRecOn with
  | nil => exact h
  | append_singleton attempts a ih => exact (attempt_scanned hb hrun (ih hrun.before)).sound

theorem watched_later (done : List (Attempt WatcherCall)) {more : List (Attempt WatcherCall)}
    (hrun : OrderlyRun b cfg w (done ++ more)) :
    ∃ log, (watched b cfg w (done ++ more)).log = (watched b cfg w done).log ++ log ∧
      Later (watched b cfg w done).store (watched b cfg w (done ++ more)).store log := by
  induction more using List.reverseRecOn with
  | nil =>
    rw [append_nil]
    exact ⟨[],(append_nil _).symm,.refl _⟩
  | append_singleton more a ih =>
    rw [← append_assoc] at hrun ⊢
    obtain ⟨log,hlog,hlater⟩ := ih hrun.before
    have hstep := attempt_scanned hb hrun (watched_sound hb h hrun.before)
    refine ⟨log ++ segment b cfg (watched b cfg w (done ++ more)).store a,?_,hlater.trans hstep.later⟩
    rw [watched_concat]
    exact (congrArg (fun l => l ++ _) hlog).trans (append_assoc _ _ _)

theorem handedAgain_crashed
    {a again : Attempt WatcherCall} (hrun : OrderlyRun b cfg w (before ++ a :: (between ++ again :: rest)))
    (hfirst : key ∈ handed (segment b cfg (watched b cfg w before).store a))
    (hsecond : key ∈ handed (segment b cfg (watched b cfg w (before ++ a :: between)).store again)) :
    a.cut ≠ none ∧ key ∉ recorded (segment b cfg (watched b cfg w before).store a) := by
  have hsplit : before ++ a :: (between ++ again :: rest) = (before ++ a :: between) ++ again :: rest := by simp
  have hstep := attempt_scanned hb hrun (watched_sound hb h hrun.before)
  have hagain := attempt_scanned hb (hsplit ▸ hrun) (watched_sound hb h (hsplit ▸ hrun).before)
  have hunseen : key ∉ (watched b cfg w (before ++ [a])).store.seenKeys := by
    have hprefix : OrderlyRun b cfg w ((before ++ [a]) ++ between) := by
      have hbefore := (hsplit ▸ hrun).before
      rwa [← append_cons before a between]
    obtain ⟨log,-,hlater⟩ := watched_later hb h (before ++ [a]) hprefix
    rw [← append_cons before a between] at hlater
    exact fun hseen => (hagain.fresh key hsecond).2 (hlater.grown key hseen)
  refine ⟨fun hcut => hunseen ?_,fun hrecorded => hunseen (hstep.written key hrecorded)⟩
  have hobeys := hrun before a _ rfl
  rw [hcut] at hobeys
  obtain ⟨answer,hfinishes⟩ := (call_under hb (watched_sound hb h hrun.before) a.call).final hobeys
  rw [segment,hcut] at hfirst
  rw [watched_concat,hcut]
  exact hfinishes.1 key hfirst

theorem added_handed {p : WatcherProcess}
    (hrun : OrderlyRun b cfg w (before ++ (between ++ ⟨.scan p,none⟩ :: rest)))
    (hrecorded : (watched b cfg w before).store.state.isSome = true)
    (hnew : key ∉ (watched b cfg w before).store.resultKeys)
    (hadded : key ∈ (watched b cfg w (before ++ between)).store.resultKeys) :
    key ∈ handed (watched b cfg w (before ++ (between ++ [⟨.scan p,none⟩]))).log := by
  have hsplit : before ++ (between ++ ⟨.scan p,none⟩ :: rest) = (before ++ between) ++ ⟨.scan p,none⟩ :: rest := by simp
  have hscan : before ++ (between ++ ⟨.scan p,none⟩ :: rest) = (before ++ (between ++ [⟨.scan p,none⟩])) ++ rest := by simp
  have hsound := watched_sound hb h (hsplit ▸ hrun).before
  obtain ⟨answer,-,hall⟩ := (call_under hb hsound (.scan p)).final ((hsplit ▸ hrun) (before ++ between) _ rest rfl)
  have hseen : key ∈ (watched b cfg w (before ++ (between ++ [⟨.scan p,none⟩]))).store.seenKeys := by
    rw [← append_assoc,watched_concat]
    exact hall p rfl key hadded
  have hbefore := watched_sound hb h hrun.before
  obtain ⟨log,hlog,hlater⟩ := watched_later hb h before (hscan ▸ hrun).before
  rw [hlog,handed_append]
  rcases hlater.source hrecorded key hseen with hold | hhanded
  · obtain ⟨state,hstate⟩ := isSome_iff_exists.mp hrecorded
    rw [WatcherWorld.seenKeys,hstate] at hold
    exact absurd ((hbefore.state state hstate).known key hold) hnew
  · exact mem_append_right _ hhanded

end

/-- While every result file fits the record, no temporary file is in the way and valid results find their checkout
ready, results are handed over once but for crashes, none is missed, and only results that no checkout takes are blocked. -/
theorem results_handedOnce (b : GitBehaviour) (cfg : PromoterConfig) (w : WatcherWorld) (attempts : List (Attempt WatcherCall))
    (hb : b.Acyclic) (hnodup : (w.results.map (·.1)).Nodup) (hbounded : w.results.length ≤ maxStateEntries) (hstart : w.state = none)
    (hrun : OrderlyRun b cfg w attempts) :
    (∀ before a between again rest key, attempts = before ++ a :: (between ++ again :: rest) →
      key ∈ handed (segment b cfg (watched b cfg w before).store a) →
      key ∈ handed (segment b cfg (watched b cfg w (before ++ a :: between)).store again) →
      a.cut ≠ none ∧ key ∉ recorded (segment b cfg (watched b cfg w before).store a)) ∧
    (∀ before a rest, attempts = before ++ a :: rest → (handed (segment b cfg (watched b cfg w before).store a)).Nodup) ∧
    (∀ before between p rest key, attempts = before ++ (between ++ ⟨.scan p,none⟩ :: rest) →
      (watched b cfg w before).store.state.isSome = true → key ∉ (watched b cfg w before).store.resultKeys →
      key ∈ (watched b cfg w (before ++ between)).store.resultKeys →
      key ∈ handed (watched b cfg w (before ++ (between ++ [⟨.scan p,none⟩]))).log) ∧
    ∀ before rest state key entry code detail, attempts = before ++ rest → (watched b cfg w before).store.state = some state →
      (key,entry) ∈ state.seen → entry.status = .blocked code detail →
      Refused b cfg ((watched b cfg w before).store.content key) := by
  have h : Sound b cfg w := by
    refine ⟨hnodup,hbounded,fun state hstate => ?_⟩
    rw [hstart] at hstate
    cases hstate
  refine ⟨?_,?_,?_,?_⟩
  · rintro before a between again rest key rfl hfirst hsecond
    exact handedAgain_crashed hb h hrun hfirst hsecond
  · rintro before a rest rfl
    exact (attempt_scanned hb hrun (watched_sound hb h hrun.before)).once
  · rintro before between p rest key rfl hrecorded hnew hadded
    exact added_handed hb h hrun hrecorded hnew hadded
  · rintro before rest state key entry code detail rfl hstate hmem hstatus
    exact ((watched_sound hb h hrun.before).state state hstate).blocked key entry code detail hmem hstatus

end Runs

/-! ### One result -/

def sampleProcess (pid : ℕ) : WatcherProcess := ⟨pid,"1",fun _ => "1"⟩

/-- The watcher is set up, a result is stored, and it is scanned. -/
def sampleScan : List (Attempt WatcherCall) :=
  [⟨.initializing (sampleProcess 1),none⟩, ⟨.add "k" (some sampleDocument),none⟩, ⟨.scan (sampleProcess 1),none⟩]

def sampleWatcher (source : WorkTree) : WatcherWorld := ⟨{ (sampleWorkspace false).start with source := source },[],none,[]⟩

theorem sampleScan_orderly :
    OrderlyRun sampleGit (sampleConfig false) (sampleWatcher (sampleWorkspace false).start.source) sampleScan := by
  have hready : Ready sampleGit (sampleConfig false) 1 (some sampleDocument) (sampleWorkspace false).start := by
    intro d hd
    cases hd
    refine .inr ⟨sampleWorkspace false,rfl,sampleWorkspace_promotable false,sampleWorkspace_listed false,
      Workspace.stage_start (sampleWorkspace_promotable false),.inr ⟨?_,nofun⟩⟩
    exact not_mem_nil
  refine .cons ?_ (.cons ?_ (.cons ?_ .nil))
  · exact ⟨trivial,trivial,not_mem_nil,trivial,trivial⟩
  · exact ⟨Nat.zero_lt_succ _,trivial⟩
  · -- the ten requests of the promotion have no condition of their own
    exact ⟨trivial,trivial,hready,trivial,trivial,trivial,trivial,trivial,trivial,trivial,trivial,trivial,trivial,
      not_mem_nil,trivial,trivial⟩

theorem sampleScan_hands :
    "k" ∈ handed (watched sampleGit (sampleConfig false) (sampleWatcher (sampleWorkspace false).start.source)
      (sampleScan.take 1 ++ ((sampleScan.drop 1).take 1 ++ [⟨.scan (sampleProcess 1),none⟩]))).log :=
  (results_handedOnce sampleGit (sampleConfig false) (sampleWatcher (sampleWorkspace false).start.source) sampleScan
    sampleGit_acyclic nodup_nil (Nat.zero_le _) rfl sampleScan_orderly).2.2.1 (sampleScan.take 1) ((sampleScan.drop 1).take 1)
      (sampleProcess 1) [] "k" rfl rfl not_mem_nil (mem_singleton_self "k")

/-- The source is cleaned up after the scan, and scanned again. -/
def sampleCleaned : List (Attempt WatcherCall) :=
  sampleScan ++ [⟨.elsewhere (sampleWorkspace false).start.commits (some "main") (sampleWorkspace false).start.source
    (sampleWorkspace false).start.worktrees (sampleWorkspace false).start.sessions,none⟩, ⟨.scan (sampleProcess 2),none⟩]

/-- A result that met a dirty source stays blocked once the source is clean, when it could be promoted. -/
theorem blockedResult_stays :
    let final := watched sampleGit (sampleConfig false) (sampleWatcher { sampleChanged with files := sampleTree [99] }) sampleCleaned
    final.store.state = some ⟨true,[("k",⟨.blocked "dirty_source_checkout" "Source checkout must be clean before promotion","1"⟩)]⟩ ∧
      handed final.log = ["k"] ∧
      ((promoteFile sampleGit (sampleConfig false) ⟨sampleDocument,3,"3"⟩).alone (PromoterRequest.perform sampleGit)
        final.store.promoter).2.isOk = true := by
  refine ⟨?_,?_,?_⟩ <;> decide +kernel

end Bdb.Bridge.Promotion
