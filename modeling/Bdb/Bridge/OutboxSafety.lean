import Bdb.Base.Dict
import Bdb.Base.Rely
import Bdb.Bridge.Outbox

/-! # Results are written once

Processors rely on one another: nobody changes a staged result, takes a file off the branch or pushes
anything but a staged result to its own path. A processor keeps to this, and it acknowledges only
results that it saw on the branch.
-/
namespace Bdb.Bridge.Outbox

open Script List AList

variable {sha256 : String → String} {w w' : OutboxWorld} {commandId : String} {row : OutboxRow} {result : ResultRow}

/-! ## The invariant -/

/-- Results, their outbox rows, their commands and the branch agree. -/
structure Sound (sha256 : String → String) (w : OutboxWorld) : Prop where
  named : ∀ id row, w.outbox.lookup id = some row → row.commandId = id
  row_result : ∀ id row, w.outbox.lookup id = some row →
    ∃ result, w.results.lookup id = some result ∧ result.sha = row.sha ∧ result.path = row.path
  result_row : ∀ id result, w.results.lookup id = some result → ∃ row, w.outbox.lookup id = some row
  hashed : ∀ id result, w.results.lookup id = some result → result.sha = sha256 result.json
  paths : ∀ id id' result result', w.results.lookup id = some result → w.results.lookup id' = some result' →
    result.path = result'.path → id = id'
  command : ∀ id row, w.outbox.lookup id = some row → ∃ command, w.commands.lookup id = some command ∧
    (row.state = .pending ∧ command.state = .resultStaged ∨ row.state = .published ∧ command.state = .resultPublished)
  command_row : ∀ id command, w.commands.lookup id = some command → hasResult command.state = true →
    ∃ row, w.outbox.lookup id = some row
  stored : ∀ file ∈ w.remote, ∃ id result, w.results.lookup id = some result ∧ (result.path,result.json) = file
  published : ∀ id row result, w.outbox.lookup id = some row → row.state = .published → w.results.lookup id = some result →
    (result.path,result.json) ∈ w.remote
  once : (w.remote.map (·.1)).Nodup

/-- What no request undoes. -/
structure Persists (w w' : OutboxWorld) : Prop where
  results : ∀ id result, w.results.lookup id = some result → w'.results.lookup id = some result
  rows : ∀ id row, w.outbox.lookup id = some row → row.state = .published → w'.outbox.lookup id = some row
  remote : w.remote <:+ w'.remote

theorem Persists.refl (w : OutboxWorld) : Persists w w := ⟨fun _ _ h => h,fun _ _ h _ => h,suffix_refl _⟩

theorem Persists.trans {w'' : OutboxWorld} (h : Persists w w') (h' : Persists w' w'') : Persists w w'' where
  results id result hresult := h'.results id result (h.results id result hresult)
  rows id row hrow hpublished := h'.rows id row (h.rows id row hrow hpublished) hpublished
  remote := h.remote.trans h'.remote

/-- What the processors rely on. -/
def Kept (sha256 : String → String) (w w' : OutboxWorld) : Prop := Sound sha256 w → Sound sha256 w' ∧ Persists w w'

theorem Kept.refl (w : OutboxWorld) : Kept sha256 w w := fun h => ⟨h,.refl w⟩

theorem Kept.trans (a b c : OutboxWorld) (h : Kept sha256 a b) (h' : Kept sha256 b c) : Kept sha256 a c := by
  intro ha
  obtain ⟨hb,hab⟩ := h ha
  obtain ⟨hc,hbc⟩ := h' hb
  exact ⟨hc,hab.trans hbc⟩

/-- Pushes are of staged results, and only a result on the branch is acknowledged. -/
def Proper (w : OutboxWorld) : OutboxRequest → Prop
  | .publish path content _ _ => ∃ id result, w.results.lookup id = some result ∧ result.path = path ∧ result.json = content
  | .markPublished id _ _ _ => ∃ result, w.results.lookup id = some result ∧ (result.path,result.json) ∈ w.remote
  | .markCollision _ _ _ => False
  | _ => True

/-! ## What a request does -/

variable {updated claimed : OutboxRow} {now : DateTime} {α : Type} {head : ℕ}

section

variable (h : Sound sha256 w) (hrow : w.outbox.lookup commandId = some row)
  (hpending : row.state = .pending) (hid : updated.commandId = row.commandId)
  (hsha : updated.sha = row.sha) (hpath : updated.path = row.path)

include h hrow hpending hid hsha hpath

/-- A pending row may be rewritten with its commands, as long as they agree with it. -/
theorem Sound.rewrite {commands : AList fun _ : String => CommandRow}
    (hself : ∃ command, commands.lookup commandId = some command ∧ (updated.state = .pending ∧ command.state = .resultStaged ∨
      updated.state = .published ∧ command.state = .resultPublished))
    (hothers : ∀ id, id ≠ commandId → commands.lookup id = w.commands.lookup id)
    (hpublished : updated.state = .published → ∀ result, w.results.lookup commandId = some result →
      (result.path,result.json) ∈ w.remote) :
    let w' := { w with outbox := w.outbox.insert commandId updated, commands := commands }
    Sound sha256 w' ∧ Persists w w' := by
  have hrows : ∀ id, (∃ row', w.outbox.lookup id = some row') →
      ∃ row', (w.outbox.insert commandId updated).lookup id = some row' := by
    rintro id ⟨row',hrow'⟩
    by_cases hsame : id = commandId
    · exact ⟨updated,hsame ▸ lookup_insert ..⟩
    · exact ⟨row',(lookup_insert_ne hsame).trans hrow'⟩
  refine ⟨⟨?_,?_,fun id result hr => hrows id (h.result_row id result hr),h.hashed,h.paths,?_,?_,h.stored,?_,h.once⟩,
    ⟨fun _ _ hr => hr,?_,suffix_refl _⟩⟩
  · intro id row' hrow'
    rcases lookup_insert_cases hrow' with ⟨rfl,rfl⟩ | ⟨-,hrow'⟩
    · exact hid.trans (h.named id row hrow)
    · exact h.named id row' hrow'
  · intro id row' hrow'
    rcases lookup_insert_cases hrow' with ⟨rfl,rfl⟩ | ⟨-,hrow'⟩
    · rw [hsha,hpath]
      exact h.row_result id row hrow
    · exact h.row_result id row' hrow'
  · intro id row' hrow'
    rcases lookup_insert_cases hrow' with ⟨rfl,rfl⟩ | ⟨hne,hrow'⟩
    · exact hself
    · simp only [hothers id hne]
      exact h.command id row' hrow'
  · intro id command hcommand hhas
    by_cases hsame : id = commandId
    · exact ⟨updated,hsame ▸ lookup_insert ..⟩
    · exact hrows id (h.command_row id command ((hothers id hsame).symm.trans hcommand) hhas)
  · intro id row' result hrow' hstate hresult
    rcases lookup_insert_cases hrow' with ⟨rfl,rfl⟩ | ⟨-,hrow'⟩
    · exact hpublished hstate result hresult
    · exact h.published id row' result hrow' hstate hresult
  · intro id row' hrow' hstate
    refine (lookup_insert_ne ?_).trans hrow'
    rintro rfl
    obtain rfl := some_unique hrow hrow'
    exact absurd (hpending.symm.trans hstate) (by decide)

theorem Sound.touch (hstate : updated.state = .pending) :
    Sound sha256 { w with outbox := w.outbox.insert commandId updated } ∧
      Persists w { w with outbox := w.outbox.insert commandId updated } := by
  obtain ⟨command,hcommand,hstates⟩ := h.command commandId row hrow
  rw [hpending] at hstates
  refine h.rewrite hrow hpending hid hsha hpath ⟨command,hcommand,.inl ⟨hstate,by simpa using hstates⟩⟩ (fun _ _ => rfl) ?_
  exact fun hpublished => absurd (hstate.symm.trans hpublished) (by decide)

end

theorem firstDue_found (h : firstDue now w = some row) :
    (∃ id, w.outbox.lookup id = some row) ∧ row.due now = true := by
  obtain ⟨hmem,hdue⟩ := mem_filter.mp ((mem_insertionSort _).mp (mem_of_mem_head? h))
  obtain ⟨entry,hentry,rfl⟩ := mem_map.mp hmem
  exact ⟨⟨entry.1,mem_lookup_iff.mpr hentry⟩,hdue⟩

theorem due_pending (h : row.due now = true) : row.state = .pending := by
  simp only [OutboxRow.due,decide_eq_true_eq] at h
  exact h.1

section

variable (h : Sound sha256 w)

include h

theorem Sound.setNext (hrow : w.outbox.lookup commandId = some row) (hpending : row.state = .pending)
    (next : DateTime) : Sound sha256 (setNext commandId next w) ∧ Persists w (setNext commandId next w) := by
  simp only [Outbox.setNext,hrow]
  exact h.touch hrow hpending rfl rfl rfl hpending

theorem Sound.claimDue (p : Processor) (now : DateTime) :
    Sound sha256 (claimDueRow p now w).1 ∧ Persists w (claimDueRow p now w).1 := by
  unfold claimDueRow
  cases reservationUntil p now with
  | error e => exact ⟨h,.refl w⟩
  | ok reservation =>
    cases hfirst : firstDue now w with
    | none => exact ⟨h,.refl w⟩
    | some row =>
      obtain ⟨⟨id,hid⟩,hdue⟩ := firstDue_found hfirst
      exact h.setNext (by rw [h.named id row hid]; exact hid) (due_pending hdue) reservation

theorem Sound.claimCommand (p : Processor) (commandId : String) (now : DateTime) :
    Sound sha256 (claimCommandRow p commandId now w).1 ∧ Persists w (claimCommandRow p commandId now w).1 := by
  unfold claimCommandRow
  cases reservationUntil p now with
  | error e => exact ⟨h,.refl w⟩
  | ok reservation =>
    cases hrow : w.outbox.lookup commandId with
    | none => exact ⟨h,.refl w⟩
    | some row =>
      simp only [ne_eq,ite_not]
      split
      · split
        · exact h.setNext hrow (due_pending ‹_›) reservation
        · exact ⟨h,.refl w⟩
      · exact ⟨h,.refl w⟩

theorem Sound.recordFailure (p : Processor) (claimed : OutboxRow) (now : DateTime) (diagnostic : String) :
    Sound sha256 (recordFailure p claimed now diagnostic w).1 ∧ Persists w (recordFailure p claimed now diagnostic w).1 := by
  unfold Outbox.recordFailure
  cases now.plus (p.delay claimed.attempts) with
  | error e => exact ⟨h,.refl w⟩
  | ok next =>
    cases hrow : w.outbox.lookup claimed.commandId with
    | none => exact ⟨h,.refl w⟩
    | some row =>
      simp only [ne_eq,ite_not]
      split
      · rename_i hpending
        split
        · split
          all_goals exact ⟨h,.refl w⟩
        · split
          · exact h.touch hrow hpending rfl rfl rfl hpending
          · exact ⟨h,.refl w⟩
      · exact ⟨h,.refl w⟩

theorem Sound.acknowledge (hrow : w.outbox.lookup commandId = some row)
    (hresult : w.results.lookup commandId = some result) (hpending : row.state = .pending)
    (hfile : (result.path,result.json) ∈ w.remote) {command : CommandRow}
    (hid : updated.commandId = row.commandId) (hsha : updated.sha = row.sha) (hpath : updated.path = row.path)
    (hstate : updated.state = .published) (hcommand : command.state = .resultPublished) :
    let w' := { w with outbox := w.outbox.insert commandId updated, commands := w.commands.insert commandId command }
    Sound sha256 w' ∧ Persists w w' := by
  refine h.rewrite hrow hpending hid hsha hpath ⟨command,lookup_insert ..,.inr ⟨hstate,hcommand⟩⟩
    (fun id hne => lookup_insert_ne hne) fun _ result' hresult' => ?_
  obtain rfl := some_unique hresult hresult'
  exact hfile

theorem Sound.markPublished (remoteSha : String) (commit : ℕ) (now : DateTime)
    (hresult : w.results.lookup commandId = some result) (hfile : (result.path,result.json) ∈ w.remote) :
    Sound sha256 (markPublished commandId remoteSha commit now w).1 ∧ Persists w (markPublished commandId remoteSha commit now w).1 := by
  have hsame : Sound sha256 w ∧ Persists w w := ⟨h,.refl w⟩
  unfold Outbox.markPublished
  cases hrow : w.outbox.lookup commandId with
  | none => simp only [hresult]; exact hsame
  | some row =>
    cases hcommand : w.commands.lookup commandId with
    | none => simp only [hresult]; exact hsame
    | some command =>
      simp only [hresult]
      split
      · exact hsame
      · split
        · split
          all_goals exact hsame
        · split
          · exact hsame
          · rename_i hstates
            exact h.acknowledge hrow hresult (by_contra fun hne => hstates (.inl hne)) hfile rfl rfl rfl rfl rfl

theorem Sound.stage (commandId : String) (d : StagedDocument) :
    Sound sha256 (stageResult sha256 commandId d w).1 ∧ Persists w (stageResult sha256 commandId d w).1 := by
  have hsame : Sound sha256 w ∧ Persists w w := ⟨h,.refl w⟩
  unfold stageResult
  cases hcommand : w.commands.lookup commandId with
  | none => exact hsame
  | some command =>
    cases hresult : w.results.lookup commandId with
    | some result =>
      cases hrow : w.outbox.lookup commandId with
      | none => exact hsame
      | some row =>
        dsimp only
        split
        · split
          all_goals exact hsame
        · exact hsame
    | none =>
      cases hrow : w.outbox.lookup commandId with
      | some row => exact hsame
      | none =>
        dsimp only
        split
        · exact hsame
        split
        · exact hsame
        rename_i hstate hfree
        simp only [not_or,any_eq_true,decide_eq_true_eq,not_exists,not_and] at hfree
        generalize hr : (⟨command.sessionId,command.sequence,d.status,d.errorCode,sha256 d.json,d.json,d.path⟩ : ResultRow) = result
        generalize ho : (⟨commandId,command.sessionId,command.sequence,sha256 d.json,d.path,.pending,0,none,none,none,none,d.now⟩ :
          OutboxRow) = row
        have hpath : ∀ id result', w.results.lookup id = some result' → result'.path ≠ d.path := by
          intro id result' hresult' hsamePath
          refine hfree.2.2 ⟨id,result'⟩ (mem_lookup_iff.mp hresult') hsamePath ?_
          rintro rfl
          exact absurd (hresult.symm.trans hresult') (by simp)
        have hrows : ∀ id row', w.outbox.lookup id = some row' → (w.outbox.insert commandId row).lookup id = some row' := by
          intro id row' hrow'
          refine (lookup_insert_ne ?_).trans hrow'
          rintro rfl
          exact absurd (hrow.symm.trans hrow') (by simp)
        have hkept : ∀ id result', w.results.lookup id = some result' →
            (w.results.insert commandId result).lookup id = some result' := by
          intro id result' hresult'
          refine (lookup_insert_ne ?_).trans hresult'
          rintro rfl
          exact absurd (hresult.symm.trans hresult') (by simp)
        refine ⟨⟨?_,?_,?_,?_,?_,?_,?_,?_,?_,h.once⟩,⟨hkept,fun id row' hrow' _ => hrows id row' hrow',suffix_refl _⟩⟩
        · intro id row' hrow'
          rcases lookup_insert_cases hrow' with ⟨rfl,rfl⟩ | ⟨-,hrow'⟩
          · exact ho ▸ rfl
          · exact h.named id row' hrow'
        · intro id row' hrow'
          rcases lookup_insert_cases hrow' with ⟨rfl,rfl⟩ | ⟨-,hrow'⟩
          · exact ⟨result,lookup_insert ..,by rw [← hr,← ho],by rw [← hr,← ho]⟩
          · obtain ⟨result',hresult',hagree⟩ := h.row_result id row' hrow'
            exact ⟨result',hkept id result' hresult',hagree⟩
        · intro id result' hresult'
          rcases lookup_insert_cases hresult' with ⟨rfl,-⟩ | ⟨-,hresult'⟩
          · exact ⟨row,lookup_insert ..⟩
          · obtain ⟨row',hrow'⟩ := h.result_row id result' hresult'
            exact ⟨row',hrows id row' hrow'⟩
        · intro id result' hresult'
          rcases lookup_insert_cases hresult' with ⟨rfl,rfl⟩ | ⟨-,hresult'⟩
          · rw [← hr]
          · exact h.hashed id result' hresult'
        · intro id id' r r' hr₁ hr₂ hsamePath
          rcases lookup_insert_cases hr₁ with ⟨rfl,rfl⟩ | ⟨-,hold₁⟩ <;>
            rcases lookup_insert_cases hr₂ with ⟨rfl,rfl⟩ | ⟨-,hold₂⟩
          · rfl
          · exact absurd (hsamePath.symm.trans (hr ▸ rfl)) (hpath id' r' hold₂)
          · exact absurd (hsamePath.trans (hr ▸ rfl)) (hpath id r hold₁)
          · exact h.paths id id' r r' hold₁ hold₂ hsamePath
        · intro id row' hrow'
          rcases lookup_insert_cases hrow' with ⟨rfl,rfl⟩ | ⟨hne,hrow'⟩
          · exact ⟨_,lookup_insert ..,.inl ⟨ho ▸ rfl,rfl⟩⟩
          · obtain ⟨command',hcommand',hstates⟩ := h.command id row' hrow'
            exact ⟨command',(lookup_insert_ne hne).trans hcommand',hstates⟩
        · intro id command' hcommand' hhas
          rcases lookup_insert_cases hcommand' with ⟨rfl,-⟩ | ⟨-,hcommand'⟩
          · exact ⟨row,lookup_insert ..⟩
          · obtain ⟨row',hrow'⟩ := h.command_row id command' hcommand' hhas
            exact ⟨row',hrows id row' hrow'⟩
        · intro file hfile
          obtain ⟨id,result',hresult',hfile'⟩ := h.stored file hfile
          exact ⟨id,result',hkept id result' hresult',hfile'⟩
        · intro id row' result' hrow' hpublished hresult'
          rcases lookup_insert_cases hrow' with ⟨rfl,rfl⟩ | ⟨hne,hrow'⟩
          · exact absurd ((ho ▸ rfl : OutboxState.pending = row'.state).trans hpublished) (by decide)
          · exact h.published id row' result' hrow' hpublished ((lookup_insert_ne hne).symm.trans hresult')

theorem Sound.push {id : String} (hresult : w.results.lookup id = some result) (head : ℕ) (moved : String) :
    let w' := { w with remote := (publishRemote sha256 result.path result.json head moved w.remote).1 }
    Sound sha256 w' ∧ Persists w w' := by
  have hsame : Sound sha256 w ∧ Persists w w := ⟨h,.refl w⟩
  unfold publishRemote
  cases hcontent : w.remote.content head result.path with
  | some existing =>
    dsimp only
    split
    · exact hsame
    · exact hsame
  | none =>
    dsimp only
    split
    · rename_i hhead
      have hfree : result.path ∉ w.remote.map (·.1) := by
        rw [hhead,Remote.content,Remote.at,Remote.head,Nat.sub_self,drop_zero,lookup_eq_none_iff] at hcontent
        intro hmem
        obtain ⟨file,hfile,hpath⟩ := mem_map.mp hmem
        exact absurd (hcontent file hfile) (by simp [hpath])
      refine ⟨⟨h.named,h.row_result,h.result_row,h.hashed,h.paths,h.command,h.command_row,?_,?_,?_⟩,
        ⟨fun _ _ hr => hr,fun _ _ hrow _ => hrow,suffix_cons ..⟩⟩
      · intro file hfile
        rcases mem_cons.mp hfile with rfl | hfile
        · exact ⟨id,result,hresult,rfl⟩
        · exact h.stored file hfile
      · exact fun id row result hrow hpublished hr => mem_cons_of_mem _ (h.published id row result hrow hpublished hr)
      · exact nodup_cons.mpr ⟨hfree,h.once⟩
    · exact hsame

theorem Sound.elsewhere (commandId : String) (command : CommandRow) (sessions : String → Option SessionState) :
    let w' := ((OutboxRequest.elsewhere commandId command sessions).perform sha256 w).1
    Sound sha256 w' ∧ Persists w w' := by
  simp only [OutboxRequest.perform]
  split
  · exact ⟨⟨h.named,h.row_result,h.result_row,h.hashed,h.paths,h.command,h.command_row,h.stored,h.published,h.once⟩,
      ⟨fun _ _ hr => hr,fun _ _ hrow _ => hrow,suffix_refl _⟩⟩
  · rename_i hkept
    simp only [Bool.or_eq_true,not_or,Bool.not_eq_true] at hkept
    have hcommands : ∀ id, id ≠ commandId → (w.commands.insert commandId command).lookup id = w.commands.lookup id :=
      fun id hid => lookup_insert_ne hid
    refine ⟨⟨h.named,h.row_result,h.result_row,h.hashed,h.paths,?_,?_,h.stored,h.published,h.once⟩,
      ⟨fun _ _ hr => hr,fun _ _ hrow _ => hrow,suffix_refl _⟩⟩
    · intro id row hrow
      obtain ⟨command',hcommand',hstates⟩ := h.command id row hrow
      refine ⟨command',(hcommands id ?_).trans hcommand',hstates⟩
      rintro rfl
      rw [hcommand',Option.any_some] at hkept
      rcases hstates with ⟨-,hstate⟩ | ⟨-,hstate⟩
      all_goals exact absurd hkept.2 (by rw [hstate]; decide)
    · intro id command' hcommand' hhas
      rcases lookup_insert_cases hcommand' with ⟨rfl,rfl⟩ | ⟨-,hcommand'⟩
      · exact absurd (hkept.1.symm.trans hhas) (by decide)
      · exact h.command_row id command' hcommand' hhas

theorem Sound.perform (q : OutboxRequest) (hq : Proper w q) :
    Sound sha256 (q.perform sha256 w).1 ∧ Persists w (q.perform sha256 w).1 := by
  have hsame : Sound sha256 w ∧ Persists w w := ⟨h,.refl w⟩
  cases q with
  | getCommand id | getOutbox id | getResult id => exact hsame
  | stage id d => exact h.stage id d
  | claimDue p now => exact h.claimDue p now
  | claimCommand p id now => exact h.claimCommand p id now
  | recordFailure p claimed now diagnostic => exact h.recordFailure p claimed now diagnostic
  | markPublished id remoteSha commit now =>
    obtain ⟨result,hresult,hfile⟩ := hq
    exact h.markPublished remoteSha commit now hresult hfile
  | markCollision id observedSha diagnostic => exact hq.elim
  | fetchHead fate | readResult head path fate => cases fate with | answered _ => exact hsame | unsent _ => exact hsame | lost _ => exact hsame
  | publish path content head fate =>
    obtain ⟨id,result,hresult,rfl,rfl⟩ := hq
    cases fate with
    | answered moved => exact h.push hresult head moved
    | unsent trouble => exact hsame
    | lost trouble => exact h.push hresult head ""
  | elsewhere id command sessions => exact h.elsewhere id command sessions

end

/-! ## What the processors do -/

/-- Whatever the others do, a program makes only proper requests. -/
def Keeps {α : Type} (sha256 : String → String) (p : OutboxScript α) (w : OutboxWorld) : Prop :=
  p.Relies (OutboxRequest.perform sha256) (Kept sha256) Proper w

theorem keeps_done (a : α) (w : OutboxWorld) : Keeps sha256 (.done a) w := trivial

theorem keeps_ask {q : OutboxRequest} {k : q.Answer → OutboxScript α} (h : Sound sha256 w)
    (hk : ∀ w', Sound sha256 w' → Persists w w' → Proper w' q ∧
      (Sound sha256 (q.perform sha256 w').1 → Persists w (q.perform sha256 w').1 →
        Keeps sha256 (k (q.perform sha256 w').2) (q.perform sha256 w').1)) :
    Keeps sha256 (.ask q k) w := by
  intro w' hkept
  obtain ⟨hsound,hpersists⟩ := hkept h
  obtain ⟨hproper,hrest⟩ := hk w' hsound hpersists
  obtain ⟨hsound',hpersists'⟩ := hsound.perform q hproper
  exact ⟨hproper,hrest hsound' (hpersists.trans hpersists')⟩

theorem Keeps.bind {β : Type} {p : OutboxScript α} {g : α → β} (h : Keeps sha256 p w) :
    Keeps sha256 (p.bind fun a => .done (g a)) w := by
  induction p generalizing w with
  | done a => trivial
  | ask q k ih => exact fun w' hkept => ⟨(h w' hkept).1,ih _ (h w' hkept).2⟩

def Held (claimed : OutboxRow) (result : ResultRow) (w : OutboxWorld) : Prop :=
  w.results.lookup claimed.commandId = some result ∧ result.sha = claimed.sha ∧ result.path = claimed.path

theorem Held.mono (h : Held claimed result w) (hpersists : Persists w w') : Held claimed result w' :=
  ⟨hpersists.results _ _ h.1,h.2⟩

theorem Sound.held (h : Sound sha256 w) (hrow : w.outbox.lookup commandId = some row) : ∃ result, Held row result w := by
  obtain ⟨result,hresult,hagree⟩ := h.row_result commandId row hrow
  exact ⟨result,by rw [h.named commandId row hrow]; exact hresult,hagree⟩

theorem mem_of_content {r : Remote} {path content : String} (h : r.content head path = some content) : (path,content) ∈ r := by
  obtain ⟨before,after,hsplit,-⟩ := lookup_eq_some_iff.mp h
  refine (drop_suffix (r.length - head) r).subset ?_
  rw [show r.drop (r.length - head) = before ++ (path,content) :: after from hsplit]
  simp

theorem Sound.content (h : Sound sha256 w) (hheld : Held claimed result w) {content : String}
    (hfile : (claimed.path,content) ∈ w.remote) : content = result.json := by
  obtain ⟨id,result',hresult',hfile'⟩ := h.stored _ hfile
  obtain ⟨hpath,hcontent⟩ := Prod.mk.injEq .. ▸ hfile'
  obtain rfl := h.paths id claimed.commandId result' result hresult' hheld.1 (hpath.trans hheld.2.2.symm)
  obtain rfl := some_unique hresult' hheld.1
  exact hcontent.symm

theorem failure_keeps (h : Sound sha256 w) (p : Processor) (claimed : OutboxRow) (now : DateTime) (diagnostic : String) :
    Keeps sha256 (failure p claimed now diagnostic) w := by
  refine keeps_ask h fun w' _ _ => ⟨trivial,fun _ _ => ?_⟩
  split <;> exact keeps_done _ _

section

variable (h : Sound sha256 w) (hheld : Held claimed result w)

include h hheld

theorem acknowledge_keeps
    (hfile : (result.path,result.json) ∈ w.remote) (remoteSha : String) (commit : ℕ) (now : DateTime) :
    Keeps sha256 (acknowledge claimed remoteSha commit now) w := by
  refine keeps_ask h fun w' _ hpersists => ⟨⟨result,hpersists.results _ _ hheld.1,hpersists.remote.subset hfile⟩,fun _ _ => ?_⟩
  split <;> exact keeps_done _ _

theorem Sound.read {fate : Fate} {content sha : String} {commit : ℕ}
    (hread : ((OutboxRequest.readResult head claimed.path fate).perform sha256 w).2 = RemoteResult.present content sha commit) :
    content = result.json ∧ sha = claimed.sha ∧
      (result.path,result.json) ∈ ((OutboxRequest.readResult head claimed.path fate).perform sha256 w).1.remote := by
  cases fate with
  | unsent t | lost t => cases hread
  | answered moved =>
    simp only [OutboxRequest.perform,readRemote] at hread
    split at hread
    · rename_i found hfound
      injection hread with hcontent hsha
      subst hcontent
      have hfile := mem_of_content hfound
      obtain rfl := h.content hheld hfile
      refine ⟨rfl,?_,hheld.2.2 ▸ hfile⟩
      rw [← hsha,← h.hashed _ _ hheld.1]
      exact hheld.2.1
    · cases hread

theorem verifyPush_keeps (p : Processor) (commit : ℕ)
    (now : DateTime) (f : Fates) : Keeps sha256 (verifyPush p claimed result.json commit now f) w := by
  refine keeps_ask h fun w' _ _ => ⟨trivial,fun hsound hpersists => ?_⟩
  split
  · exact failure_keeps hsound _ _ _ _
  rename_i freshHead _
  refine keeps_ask hsound fun w'' hsound'' hpersists'' => ⟨trivial,fun hsound' hpersists' => ?_⟩
  have hheld'' := (hheld.mono hpersists).mono hpersists''
  split
  · exact failure_keeps hsound' _ _ _ _
  · exact failure_keeps hsound' _ _ _ _
  · rename_i observed sha origin hread
    obtain ⟨rfl,rfl,hfile⟩ := hsound''.read hheld'' hread
    rw [if_neg (by simp)]
    exact acknowledge_keeps hsound' ((hheld.mono hpersists).mono hpersists') hfile _ _ _

theorem processClaimed_keeps (p : Processor)
    (now : DateTime) (f : Fates) : Keeps sha256 (processClaimed p claimed now f) w := by
  refine keeps_ask h fun w₁ _ hp₁ => ⟨trivial,fun hsound₁ _ => ?_⟩
  have hheld₁ := hheld.mono hp₁
  split
  · exact keeps_done _ _
  rename_i found hfound
  obtain rfl : result = found := some_unique hheld₁.1 hfound
  split
  · exact keeps_done _ _
  refine keeps_ask hsound₁ fun w₂ _ _ => ⟨trivial,fun hsound₂ hp₂ => ?_⟩
  have hheld₂ := hheld₁.mono hp₂
  split
  · exact failure_keeps hsound₂ _ _ _ _
  rename_i head _
  refine keeps_ask hsound₂ fun w₃ hsound₃ hp₃ => ⟨trivial,fun hsound₃' hp₃' => ?_⟩
  have hheld₃ := hheld₂.mono hp₃
  split
  · exact failure_keeps hsound₃' _ _ _ _
  · rename_i content sha commit hread
    obtain ⟨rfl,rfl,hfile⟩ := hsound₃.read hheld₃ hread
    rw [if_pos ⟨rfl,rfl⟩]
    exact acknowledge_keeps hsound₃' (hheld₂.mono hp₃') hfile _ _ _
  have hheld₃' := hheld₂.mono hp₃'
  refine keeps_ask hsound₃' fun w₄ hsound₄ hp₄ => ?_
  have hheld₄ := hheld₃'.mono hp₄
  refine ⟨⟨claimed.commandId,result,hheld₄.1,hheld₄.2.2,rfl⟩,fun hsound₅ hp₅ => ?_⟩
  split
  · -- nothing else is ever at the path
    rename_i sha diagnostic hpush
    cases hfate : f.publish with
    | unsent t | lost t => rw [hfate] at hpush; cases hpush
    | answered moved =>
      rw [hfate] at hpush
      simp only [OutboxRequest.perform,publishRemote] at hpush
      split at hpush
      · rename_i existing hexisting
        rw [if_pos (hsound₄.content hheld₄ (mem_of_content hexisting))] at hpush
        cases hpush
      · split at hpush <;> cases hpush
  · exact failure_keeps hsound₅ _ _ _ _
  · exact failure_keeps hsound₅ _ _ _ _
  all_goals exact verifyPush_keeps hsound₅ (hheld₃'.mono hp₅) _ _ _ _

end

theorem claimDueRow_ne_settled (p : Processor) (now : DateTime) (w : OutboxWorld) (row : OutboxRow) :
    (claimDueRow p now w).2 ≠ .ok (.settled row) := by
  unfold claimDueRow
  split
  · simp
  · split <;> simp

theorem claimCommandRow_settled {p : Processor} (h : (claimCommandRow p commandId now w).2 = .ok (.settled row)) :
    w.outbox.lookup commandId = some row := by
  unfold claimCommandRow at h
  split at h
  · cases h
  · split at h
    · cases h
    · rename_i found hfound
      split at h
      · injection h with h
        injection h with h
        rw [← h]
        exact hfound
      · split at h <;> cases h

section

variable (h : Sound sha256 w)

include h

theorem processOneDue_keeps (p : Processor) (now : DateTime) (f : Fates) :
    Keeps sha256 (processOneDue p now f) w := by
  refine keeps_ask h fun w' hsound' _ => ⟨trivial,fun hsound hpersists => ?_⟩
  split
  · exact keeps_done _ _
  · exact keeps_done _ _
  · rename_i row hclaim
    exact absurd hclaim (claimDueRow_ne_settled p now w' row)
  · refine keeps_ask hsound fun w'' hsound'' _ => ⟨trivial,fun hsound₂ _ => ?_⟩
    split
    · exact keeps_done _ _
    · rename_i claimed hclaimed
      obtain ⟨result,hheld⟩ := hsound''.held hclaimed
      exact processClaimed_keeps hsound₂ hheld p now f

theorem reconcile_keeps {record : OutboxRow} (hheld : Held record result w) (now : DateTime) (f : Fates) :
    Keeps sha256 (reconcileWithoutPush record now f) w := by
  refine keeps_ask h fun w₁ _ hp₁ => ⟨trivial,fun hsound₁ _ => ?_⟩
  have hheld₁ := hheld.mono hp₁
  split
  · exact keeps_done _ _
  rename_i found hfound
  obtain rfl : result = found := some_unique hheld₁.1 hfound
  refine keeps_ask hsound₁ fun w₂ _ _ => ⟨trivial,fun hsound₂ hp₂ => ?_⟩
  have hheld₂ := hheld₁.mono hp₂
  split
  · split <;> exact keeps_done _ _
  rename_i head _
  refine keeps_ask hsound₂ fun w₃ hsound₃ hp₃ => ⟨trivial,fun hsound₃' hp₃' => ?_⟩
  split
  · exact keeps_done _ _
  · exact keeps_done _ _
  · exact keeps_done _ _
  · rename_i content sha commit hread
    obtain ⟨rfl,rfl,hfile⟩ := hsound₃.read (hheld₂.mono hp₃) hread
    rw [if_pos ⟨rfl,rfl⟩]
    exact acknowledge_keeps hsound₃' (hheld₂.mono hp₃') hfile _ _ _

theorem unclaimed_keeps (commandId : String) (now : DateTime) (f : Fates) :
    Keeps sha256 (unclaimed commandId now f) w := by
  refine keeps_ask h fun w' hsound' _ => ⟨trivial,fun hsound _ => ?_⟩
  split
  · exact keeps_done _ _
  · rename_i current hcurrent
    obtain ⟨result,hheld⟩ := hsound'.held hcurrent
    split
    · exact reconcile_keeps hsound hheld now f
    · exact keeps_done _ _

theorem processClaim_keeps (hheld : Held claimed result w) (p : Processor)
    (now : DateTime) (f : Fates) : Keeps sha256 (processClaim p claimed now f) w := by
  unfold processClaim
  split
  · exact keeps_done _ _
  · exact keeps_done _ _
  · exact processClaimed_keeps h hheld p now f

theorem processCommand_keeps (p : Processor) (commandId : String) (now : DateTime) (f : Fates) :
    Keeps sha256 (processCommand p commandId now f) w := by
  refine keeps_ask h fun w₁ _ _ => ⟨trivial,fun hsound₁ _ => ?_⟩
  split
  · exact keeps_done _ _
  refine keeps_ask hsound₁ fun w₂ _ _ => ⟨trivial,fun hsound₂ _ => ?_⟩
  split
  · exact keeps_done _ _
  split
  · exact keeps_done _ _
  split
  · exact keeps_done _ _
  refine keeps_ask hsound₂ fun w₃ hsound₃ _ => ⟨trivial,fun hsound₃' _ => ?_⟩
  have hkept := hsound₃.perform (.claimCommand p commandId now) trivial
  split
  · exact keeps_done _ _
  · exact unclaimed_keeps hsound₃' commandId now f
  · rename_i row hclaim
    obtain ⟨result,hheld⟩ := hsound₃.held (claimCommandRow_settled hclaim)
    exact processClaim_keeps hsound₃' (hheld.mono hkept.2) p now f
  · refine keeps_ask hsound₃' fun w₄ hsound₄ _ => ⟨trivial,fun hsound₄' _ => ?_⟩
    split
    · exact unclaimed_keeps hsound₄' commandId now f
    · rename_i claimed hclaimed
      obtain ⟨result,hheld⟩ := hsound₄.held hclaimed
      exact processClaim_keeps hsound₄' hheld p now f

theorem program_keeps (call : OutboxCall) : Keeps sha256 (program call) w := by
  cases call with
  | processOneDue p now f => exact (processOneDue_keeps h p now f).bind
  | processCommand p commandId now f => exact (processCommand_keeps h p commandId now f).bind
  | stage commandId document | elsewhere commandId command sessions => exact keeps_ask h fun w' _ _ => ⟨trivial,fun _ _ => keeps_done _ _⟩

end

/-! ## Runs -/

/-- No result is staged yet, and the branch has none. -/
structure Fresh (w : OutboxWorld) : Prop where
  results : w.results = ∅
  outbox : w.outbox = ∅
  remote : w.remote = []
  commands : ∀ id command, w.commands.lookup id = some command → hasResult command.state = false

theorem Fresh.sound (h : Fresh w) : Sound sha256 w where
  named id row hrow := by rw [h.outbox] at hrow; cases hrow
  row_result id row hrow := by rw [h.outbox] at hrow; cases hrow
  result_row id result hresult := by rw [h.results] at hresult; cases hresult
  hashed id result hresult := by rw [h.results] at hresult; cases hresult
  paths id id' result result' hresult := by rw [h.results] at hresult; cases hresult
  command id row hrow := by rw [h.outbox] at hrow; cases hrow
  command_row id command hcommand hhas := absurd ((h.commands id command hcommand).symm.trans hhas) (by decide)
  stored file hfile := by rw [h.remote] at hfile; cases hfile
  published id row result hrow := by rw [h.outbox] at hrow; cases hrow
  once := by rw [h.remote]; exact nodup_nil

abbrev OutboxShared := Shared OutboxWorld OutboxRequest.Answer (Option (Outcome ProcessOutcome))

/-- Processors and others begun on a store without results. -/
def runFrom (sha256 : String → String) (w : OutboxWorld) (moves : List (Move OutboxCall)) : OutboxShared :=
  Shared.run (OutboxRequest.perform sha256) program (Shared.begin w) moves

/-- What all processors rely on in a state of a run. -/
def Relied (sha256 : String → String) (s : OutboxShared) : Prop :=
  Shared.Relied (OutboxRequest.perform sha256) (Kept sha256) Proper s

theorem run_sound {s : OutboxShared} (hrelied : Relied sha256 s) (h : Sound sha256 s.store) (moves : List (Move OutboxCall)) :
    let final := Shared.run (OutboxRequest.perform sha256) program s moves
    Relied sha256 final ∧ Sound sha256 final.store ∧ Persists s.store final.store := by
  obtain ⟨hfinal,hkept,-⟩ := Shared.run_relied Kept.refl Kept.trans
    (fun a q _ hq (ha : Sound sha256 a) => ha.perform q hq) (fun c a ha => program_keeps ha c) (fun a b hR ha => (hR ha).1)
    hrelied h moves
  exact ⟨hfinal,hkept h⟩

theorem runFrom_sound (h : Fresh w) (moves : List (Move OutboxCall)) :
    Relied sha256 (runFrom sha256 w moves) ∧ Sound sha256 (runFrom sha256 w moves).store := by
  obtain ⟨hrelied,hsound,-⟩ := run_sound (Shared.relied_begin w) h.sound moves
  exact ⟨hrelied,hsound⟩

end Bdb.Bridge.Outbox
