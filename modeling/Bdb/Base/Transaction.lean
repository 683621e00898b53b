import Bdb.Base.Outcome

/-! # Transactions with early answers

The body of a transaction may answer early without a write, or raise. An early answer
leaves the state as it was. A raised error rolls the transaction back; a broken constraint
is turned into an answer by the caller, any other error is raised again.
-/
namespace Bdb

/-- Why a body ends before its write. -/
inductive Exit (ρ : Type) where
  | answer (r : ρ)
  | raised (f : Failure)

abbrev Step (ρ : Type) := Except (Exit ρ)

variable {ρ α β σ : Type}

namespace Step

def answer (r : ρ) : Step ρ α := .error (.answer r)

/-- Answers early when the condition fails. -/
def answerUnless (p : Prop) [Decidable p] (r : ρ) : Step ρ Unit := if p then .ok () else answer r

def orAnswer (invalid : String → String → ρ) (o : Outcome α) : Step ρ α :=
  match o with
  | .ok a => .ok a
  | .error f => answer (invalid f.code f.message)

def orRaise (o : Outcome α) : Step ρ α :=
  match o with
  | .ok a => .ok a
  | .error f => .error (.raised f)

/-- A value, or an early answer. -/
def needOr (o : Option α) (r : ρ) : Step ρ α :=
  match o with
  | some a => .ok a
  | none => answer r

variable {x : Step ρ α} {f : α → Step ρ β} {r : ρ} {a : α} {p : Prop} {invalid : String → String → ρ}
    {o : Outcome α}

theorem bind_answer : (x >>= f) = .error (.answer r) ↔
      x = .error (.answer r) ∨ ∃ a, x = .ok a ∧ f a = .error (.answer r) := by
  cases x with
  | error e | ok a => simp [bind,Except.bind]

@[simp] theorem answerUnless_ok [Decidable p] {u : Unit} : answerUnless p r = .ok u ↔ p := by
  unfold answerUnless
  split <;> simp_all [answer]

theorem answerUnless_bind [Decidable p] {g : Unit → Step ρ β} {b : β} (hp : p) (h : g () = .ok b) :
    (answerUnless p r >>= g) = .ok b :=
  bind_of (answerUnless_ok.mpr hp) h

theorem answerUnless_of [Decidable p] (h : p) (r : ρ) : answerUnless p r = .ok () := if_pos h

@[simp] theorem answerUnless_answer [Decidable p] {r' : ρ} :
    answerUnless p r = .error (.answer r') ↔ ¬ p ∧ r = r' := by
  unfold answerUnless
  split <;> simp_all [answer]

@[simp] theorem orAnswer_ok : orAnswer invalid o = .ok a ↔ o = .ok a := by
  cases o <;> simp [orAnswer,answer]

theorem orAnswer_answer :
    orAnswer invalid o = .error (.answer r) ↔ ∃ f, o = .error f ∧ invalid f.code f.message = r := by
  cases o <;> simp [orAnswer,answer]

@[simp] theorem orRaise_ok : (orRaise o : Step ρ α) = .ok a ↔ o = .ok a := by
  cases o <;> simp [orRaise]

@[simp] theorem orRaise_ne_answer : (orRaise o : Step ρ α) ≠ .error (.answer r) := by
  cases o <;> simp [orRaise]

@[simp] theorem needOr_ok {o : Option α} : needOr o r = .ok a ↔ o = some a := by
  cases o <;> simp [needOr,answer]

@[simp] theorem needOr_answer {o : Option α} {r' : ρ} :
    needOr o r = .error (.answer r') ↔ o = none ∧ r = r' := by
  cases o <;> simp [needOr,answer]

/-! ## Properties of every early answer -/

def Answers (P : ρ → Prop) (body : Step ρ α) : Prop := ∀ r, body = .error (.answer r) → P r

variable {P : ρ → Prop}

theorem of_answers {body : Step ρ α} (hbody : body = .error (.answer r)) (h : Answers P body) : P r :=
  h r hbody

theorem Answers.mono {P' : ρ → Prop} {body : Step ρ α} (h : Answers P body) (himp : ∀ r, P r → P' r) :
    Answers P' body :=
  fun r hr => himp r (h r hr)

theorem answers_bind (hx : Answers P x) (hf : ∀ a, x = .ok a → Answers P (f a)) : Answers P (x >>= f) := by
  intro r hr
  rcases bind_answer.mp hr with hr | ⟨a,ha,hr⟩
  · exact hx r hr
  · exact hf a ha r hr

theorem answers_pure (a : α) : Answers P (pure a : Step ρ α) := nofun

theorem answers_answerUnless [Decidable p] (h : ¬ p → P r) : Answers P (answerUnless p r) := by
  intro r' hr
  obtain ⟨hp,rfl⟩ := answerUnless_answer.mp hr
  exact h hp

theorem answers_check [Decidable p] {f : Unit → Step ρ β} (h : P r) (hf : Answers P (f ())) :
    Answers P (answerUnless p r >>= f) :=
  answers_bind (answers_answerUnless fun _ => h) fun _ _ => hf

theorem answers_orAnswer (h : ∀ code message, P (invalid code message)) : Answers P (orAnswer invalid o) := by
  intro r hr
  obtain ⟨f,-,rfl⟩ := orAnswer_answer.mp hr
  exact h f.code f.message

theorem answers_orRaise (o : Outcome α) : Answers P (orRaise o : Step ρ α) :=
  fun _ hr => absurd hr orRaise_ne_answer

theorem answers_raise {o : Outcome α} {f : α → Step ρ β} (hf : ∀ a, Answers P (f a)) :
    Answers P (orRaise o >>= f) :=
  answers_bind (answers_orRaise o) fun a _ => hf a

theorem answers_needOr {o : Option α} (h : P r) : Answers P (needOr o r) := by
  intro r' hr
  obtain ⟨-,rfl⟩ := needOr_answer.mp hr
  exact h

/-- Every early answer meets the first condition, and every value the second one. -/
structure Gives (P : ρ → Prop) (Q : α → Prop) (body : Step ρ α) : Prop where
  answers : Answers P body
  ok : ∀ a, body = .ok a → Q a

variable {Q : α → Prop} {R : β → Prop}

theorem gives_pure (h : Q a) : Gives P Q (pure a) :=
  ⟨answers_pure a,fun _ ha => pure_ok.mp ha ▸ h⟩

theorem gives_answer (h : P r) : Gives P Q (answer r) := by
  refine ⟨fun r' hr => ?_,nofun⟩
  cases hr
  exact h

theorem gives_bind (hx : Gives P Q x) (hf : ∀ a, Q a → Gives P R (f a)) : Gives P R (x >>= f) := by
  refine ⟨answers_bind hx.answers fun a ha => (hf a (hx.ok a ha)).answers,fun b hb => ?_⟩
  obtain ⟨a,ha,hb⟩ := bind_ok.mp hb
  exact (hf a (hx.ok a ha)).ok b hb

theorem gives_check [Decidable p] {f : Unit → Step ρ β} (h : ¬ p → P r) (hf : p → Gives P R (f ())) :
    Gives P R (answerUnless p r >>= f) :=
  gives_bind ⟨answers_answerUnless h,fun _ => answerUnless_ok.mp⟩ fun _ => hf

theorem gives_raise (hf : ∀ a, o = .ok a → Gives P R (f a)) : Gives P R (orRaise o >>= f) :=
  gives_bind ⟨answers_orRaise o,fun _ => orRaise_ok.mp⟩ hf

theorem gives_needOr {o : Option α} (h : P r) (hf : ∀ a, o = some a → Gives P R (f a)) : Gives P R (needOr o r >>= f) :=
  gives_bind ⟨answers_needOr h,fun _ => needOr_ok.mp⟩ hf

theorem gives_orAnswer (h : ∀ code message, P (invalid code message)) (hf : ∀ a, o = .ok a → Gives P R (f a)) :
    Gives P R (orAnswer invalid o >>= f) :=
  gives_bind ⟨answers_orAnswer h,fun _ => orAnswer_ok.mp⟩ hf

end Step

/-- Runs a body on the state; `failed` answers for a broken constraint. -/
def transaction (failed : Failure → ρ) (s : σ) (body : Step ρ (σ × ρ)) : σ × Outcome ρ :=
  match body with
  | .ok (t, r) => (t,.ok r)
  | .error (.answer r) => (s,.ok r)
  | .error (.raised f) => if f.code = "IntegrityError" then (s,.ok (failed f)) else (s,.error f)

variable {failed : Failure → ρ} {s : σ} {body : Step ρ (σ × ρ)}

variable {r : ρ}

theorem transaction_of_ok {t : σ} (h : body = .ok (t,r)) : transaction failed s body = (t,.ok r) := by
  rw [h]
  rfl

theorem transaction_of_answer (h : body = .error (.answer r)) : transaction failed s body = (s,.ok r) := by
  rw [h]
  rfl

/-- What holds of every way a transaction can end. -/
theorem transaction_ends {R : σ × Outcome ρ → Prop} (hfailed : ∀ f, R (s,.ok (failed f))) (herror : ∀ f, R (s,.error f))
    (h : Step.Gives (fun r => R (s,.ok r)) (fun done => R (done.1,.ok done.2)) body) : R (transaction failed s body) := by
  unfold transaction
  split
  · exact h.ok _ rfl
  · exact h.answers _ rfl
  · split
    · exact hfailed _
    · exact herror _

theorem transaction_state {Q : σ → Prop} (h : ∀ t r, body = .ok (t,r) → t = s ∨ Q t) :
    (transaction failed s body).1 = s ∨ Q (transaction failed s body).1 :=
  transaction_ends (R := fun out => out.1 = s ∨ Q out.1) (fun _ => .inl rfl) (fun _ => .inl rfl)
    ⟨fun _ _ => .inl rfl,fun done hdone => h done.1 done.2 hdone⟩

end Bdb
