import Bdb.Waiting.SoundPolls

/-! # What a poll returns

A poll returns what its last write was answered, or an answer of its own that is never
`CONTINUE`. So the log of the writes tells which polls have returned `CONTINUE`.
-/
namespace Bdb.Waiting

open Shared Script

variable {T : Type} {w wait : CIWaitRecord T} {obs : CIObservation} {now : T}

/-- A poll that returns `CONTINUE` was answered so by its write. -/
def Tells (e : CIEntry T) (r : CIResult T) : Prop := ∀ d, r = .polled d → d.action = .continues → (continued e).isSome = true

variable {e : CIEntry T} {r : CIResult T} {ctl : CIWaitingController T}

theorem tells_of_quiet (h : ∀ d, r = .polled d → d.action ≠ .continues) : Tells e r :=
  fun d hr hd => absurd hd (h d hr)

theorem tells_raised (e : CIEntry T) (x : Raised) : Tells e (.raised x) := tells_of_quiet fun _ h => by cases h

theorem answerAfter_closes {d : CIPollDisposition T} (hd : d.action ≠ .continues)
    (answer : Except DatabaseError Unit) (h : answerAfter d answer = .done r) : Tells e r := by
  cases answer with
  | error x =>
    cases h
    exact tells_raised _ _
  | ok u =>
    cases h
    refine tells_of_quiet ?_
    intro d' heq
    cases heq
    exact hd

theorem answerOf_closes
    (answer : Except DatabaseError (CIPollDisposition T)) (h : answerOf answer = .done r) :
    Tells ⟨⟨ctl,.record wait obs now⟩,answer⟩ r := by
  cases answer with
  | error x =>
    cases h
    exact tells_raised _ _
  | ok d =>
    cases h
    intro d' heq hd
    cases heq
    simp [continued,hd]

theorem closes_of_last {q : ControllerRequest T} {k : q.Answer → CIProgram T} (hdone : ∀ b, ∃ r, k b = .done r)
    (htells : ∀ b r, k b = .done r → Tells ⟨q,b⟩ r) : Closes Tells (.ask q k) := by
  refine .ask htells ?_
  intro b
  obtain ⟨r,hr⟩ := hdone b
  rw [hr]
  exact .done r

theorem answerAfter_done (d : CIPollDisposition T) (answer : Except DatabaseError Unit) :
    ∃ r, answerAfter d answer = .done r := by
  cases answer <;> exact ⟨_,rfl⟩

theorem answerOf_done (answer : Except DatabaseError (CIPollDisposition T)) : ∃ r, answerOf answer = .done r := by
  cases answer <;> exact ⟨_,rfl⟩

variable [Timestamps T] {key : WaitKey}

theorem pollRecord_closes {args : PollCi T} :
    (pollRecord ctl args w).Closes Tells ∧ ∀ e r, pollRecord ctl args w = .done r → Tells e r := by
  have hpolled : ∀ d : CIPollDisposition T, d.action ≠ .continues →
      (Script.done (.polled d) : CIProgram T).Closes Tells ∧
        ∀ e r, (Script.done (.polled d) : CIProgram T) = .done r → Tells e r := by
    intro d hd
    refine ⟨.done _,?_⟩
    intro e r hr
    cases hr
    refine tells_of_quiet ?_
    intro d' heq
    cases heq
    exact hd
  have hasked : ∀ {q : ControllerRequest T} {k : q.Answer → CIProgram T}, Closes Tells (.ask q k) →
      Closes Tells (.ask q k) ∧ ∀ e r, (Script.ask q k : CIProgram T) = .done r → Tells e r := by
    intro q k h
    refine ⟨h,?_⟩
    intro e r hr
    cases hr
  unfold pollRecord
  split
  · split
    all_goals exact hpolled _ (by simp)
  · split
    · exact hasked (closes_of_last (answerAfter_done _) fun b r => answerAfter_closes (by simp) b)
    · split
      · exact hpolled _ (by simp)
      · unfold fetchAndRecord
        split
        · refine ⟨.done _,?_⟩
          intro e r hr
          cases hr
          exact tells_raised _ _
        · exact hasked (closes_of_last (answerAfter_done _) fun b r => answerAfter_closes (by simp) b)
        · exact hasked (closes_of_last answerOf_done fun b r => answerOf_closes b)

theorem program_closes (call : CICall T) : (call.program key).Closes Tells := by
  have hregistered : ∀ (e : CIEntry T) w, Tells e (.registered w) := fun e w => tells_of_quiet fun _ h => by cases h
  cases call with
  | registerCiWait ctl args =>
    have hload : ∀ answer, (loadRegistered ctl answer : CIProgram T).Closes Tells := by
      intro answer
      cases answer with
      | error x => exact .done _
      | ok u =>
        refine closes_of_last ?_ ?_
        · intro b
          cases b <;> exact ⟨_,rfl⟩
        · intro b r hr
          cases b with
          | none =>
            cases hr
            exact tells_raised _ _
          | some w =>
            cases hr
            exact hregistered _ _
    refine .ask ?_ ?_
    · intro existing r hr
      split at hr
      · cases hr
        exact hregistered _ _
      · cases hr
    · intro existing
      split
      · exact .done _
      · refine .ask ?_ hload
        intro answer r hr
        cases answer with
        | error x =>
          cases hr
          exact tells_raised _ _
        | ok u => cases hr
  | pollCi ctl args =>
    refine .ask ?_ ?_
    · intro wait r hr
      cases wait with
      | none =>
        cases hr
        refine tells_of_quiet ?_
        intro d hd
        cases hd
        simp
      | some w => exact pollRecord_closes.2 _ r hr
    · intro wait
      cases wait with
      | none => exact .done _
      | some w => exact pollRecord_closes.1

abbrev CIRun (T : Type) := Shared (Database T) (ControllerRequest.Answer (T := T)) (CIResult T)

def ContinueLogged (key : WaitKey) (s : CIRun T) (m : Move (CICall T)) :
    Prop :=
  ∀ d, answers (ControllerRequest.perform key) (CICall.program key) s m = some (.polled d) → d.action = .continues →
    ∃ i, continuations (next (ControllerRequest.perform key) (CICall.program key) s m).log = continuations s.log ++ [i]

theorem continueLogged {s : CIRun T} {m : Move (CICall T)}
    (hclients : ∀ p ∈ s.clients, p.Closes Tells) : ContinueLogged key s m := by
  intro d hanswer hd
  cases m with
  | start call =>
    simp only [answers] at hanswer
    cases call <;> cases hanswer
  | advance client =>
    simp only [answers] at hanswer
    split at hanswer
    · rename_i q k hclient
      have hlog : (next (ControllerRequest.perform key) (CICall.program key) s (.advance client)).log =
          s.log ++ [⟨q,(q.perform key s.store).2⟩] := log_next (by simp only [asked,hclient])
      cases hclients _ (List.mem_of_getElem? hclient) with
      | ask hlast hk =>
        split at hanswer
        · rename_i r hr
          cases hanswer
          obtain ⟨i,hi⟩ := Option.isSome_iff_exists.mp (hlast _ _ hr d rfl hd)
          refine ⟨i,?_⟩
          rw [hlog,continuations_append,hi,Option.toList_some]
        · cases hanswer
    · cases hanswer

theorem along_continueLogged (db : Database T) (moves : List (Move (CICall T))) :
    Along (next (ControllerRequest.perform key) (CICall.program key)) (ContinueLogged key) (begin db) moves := by
  induction moves using List.reverseRecOn with
  | nil => trivial
  | append_singleton moves m ih =>
    refine along_append.mpr ⟨ih,continueLogged ?_,trivial⟩
    refine clients_run program_closes ?_ db moves
    intro q k h b
    cases h with
    | ask hlast hk => exact hk b

end Bdb.Waiting
