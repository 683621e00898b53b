import Bdb.Base.Crashes

/-! # What the log of a run says about its states

Every entry of a log is a request that was performed in a state of the run, and a program that
makes only requests of one kind needs no earlier answer for them.
-/
namespace Bdb

open List

variable {Req : Type} {Ans : Req → Type} {α σ C : Type}

theorem Script.Informed.lift {Req' : Type} {Ans' : Req' → Type} {f : Req → Req'} {back : ∀ q, Ans' (f q) → Ans q}
    {P : List (Entry Ans) → Req → Prop} {P' : List (Entry Ans') → Req' → Prop}
    (himp : ∀ known known' q, P known q → (∀ e ∈ known, ∃ a, ⟨f e.1,a⟩ ∈ known' ∧ back e.1 a = e.2) → P' known' (f q))
    {p : Script Req Ans α} {known : List (Entry Ans)} {known' : List (Entry Ans')} (h : p.Informed P known)
    (hknown : ∀ e ∈ known, ∃ a, ⟨f e.1,a⟩ ∈ known' ∧ back e.1 a = e.2) : (p.lift f back).Informed P' known' := by
  induction p generalizing known known' with
  | done a => trivial
  | ask q k ih =>
    refine ⟨himp known known' q h.1 hknown,fun a => ih (back q a) (h.2 (back q a)) ?_⟩
    intro e he
    rcases mem_append.mp he with he | he
    · obtain ⟨b,hb,hback⟩ := hknown e he
      exact ⟨b,mem_append_left _ hb,hback⟩
    · obtain rfl := mem_singleton.mp he
      exact ⟨a,mem_append_right _ (mem_singleton_self _),rfl⟩

namespace Shared

variable {perform : (q : Req) → σ → σ × Ans q} {program : C → Script Req Ans α} {t : σ} {moves : List (Move C)}

theorem run_concat (s : Shared σ Ans α) (moves : List (Move C)) (m : Move C) :
    run perform program s (moves ++ [m]) = next perform program (run perform program s moves) m := foldl_concat ..

theorem run_append (s : Shared σ Ans α) (done rest : List (Move C)) :
    run perform program s (done ++ rest) = run perform program (run perform program s done) rest := foldl_append ..

theorem store_next {s : Shared σ Ans α} {q : Req} {m : Move C} (h : s.asked m = some q) :
    (next perform program s m).store = (perform q s.store).1 := by
  rcases next_cases perform program s m with ⟨-,hlog⟩ | ⟨q',hq',hstore,-⟩
  · rw [log_next h] at hlog
    exact absurd hlog (by simp)
  · obtain rfl := Option.some.inj (h.symm.trans hq')
    exact hstore

theorem next_idle (perform : (q : Req) → σ → σ × Ans q) (program : C → Script Req Ans α) {s : Shared σ Ans α} {m : Move C}
    (h : s.asked m = none) :
    (next perform program s m).store = s.store ∧ (next perform program s m).log = s.log := by
  rcases next_cases perform program s m with hsame | ⟨q,hq,-⟩
  · exact hsame
  · rw [h] at hq
    cases hq

theorem mem_log_concat {log : List (Entry Ans)} {q q' : Req} {s : σ} {answer : Ans q'}
    (h : (⟨q',answer⟩ : Entry Ans) ∈ log ++ [⟨q,(perform q s).2⟩]) :
    ⟨q',answer⟩ ∈ log ∨ q = q' ∧ (perform q' s).2 = answer := by
  rcases mem_append.mp h with h | h
  · exact .inl h
  · obtain ⟨rfl,hanswer⟩ := Sigma.ext_iff.mp (mem_singleton.mp h)
    exact .inr ⟨rfl,(eq_of_heq hanswer).symm⟩

variable (perform program) in
def Performed (t : σ) (moves : List (Move C)) (before : List (Entry Ans)) (e : Entry Ans) : Prop :=
  ∃ done m rest, moves = done ++ m :: rest ∧ (run perform program (begin t : Shared σ Ans α) done).log = before ∧
    (run perform program (begin t : Shared σ Ans α) done).asked m = some e.1 ∧
    e.2 = (perform e.1 (run perform program (begin t : Shared σ Ans α) done).store).2

theorem Performed.concat {before : List (Entry Ans)} {e : Entry Ans} (h : Performed perform program t moves before e)
    (m : Move C) : Performed perform program t (moves ++ [m]) before e := by
  obtain ⟨done,m',rest,hmoves,hfound⟩ := h
  exact ⟨done,m',rest ++ [m],by rw [hmoves,append_assoc,cons_append],hfound⟩

theorem entry_performed {before after : List (Entry Ans)} {e : Entry Ans}
    (h : (run perform program (begin t : Shared σ Ans α) moves).log = before ++ e :: after) :
    Performed perform program t moves before e := by
  induction moves using List.reverseRecOn generalizing after with
  | nil => exact absurd h.symm (append_ne_nil_of_right_ne_nil _ (cons_ne_nil _ _))
  | append_singleton moves m ih =>
    rw [run_concat] at h
    rcases next_cases perform program (run perform program (begin t) moves) m with ⟨-,hlog⟩ | ⟨q,hq,-,hlog⟩
    · exact (ih (hlog ▸ h)).concat m
    · rw [hlog] at h
      rcases split_concat h with ⟨rfl,rfl,-⟩ | ⟨rest,-,hrest⟩
      · exact ⟨moves,m,[],rfl,rfl,hq,rfl⟩
      · exact (ih hrest).concat m

theorem log_grows (s : Shared σ Ans α) (moves : List (Move C)) :
    ∃ more, (run perform program s moves).log = s.log ++ more := by
  induction moves using List.reverseRecOn with
  | nil => exact ⟨[],(append_nil _).symm⟩
  | append_singleton moves m ih =>
    obtain ⟨more,hmore⟩ := ih
    rw [run_concat]
    rcases next_cases perform program (run perform program s moves) m with ⟨-,hlog⟩ | ⟨q,-,-,hlog⟩
    · exact ⟨more,hlog.trans hmore⟩
    · exact ⟨more ++ [⟨q,_⟩],by rw [hlog,hmore,append_assoc]⟩

end Shared

/-! ## What a call guarantees -/

namespace Script

variable (perform : (q : Req) → σ → σ × Ans q) (J : σ → Prop) (Q : σ → α → Prop)

/-- The first holds before every request of a program and at its end, the second of its result. -/
def Guarantees : Script Req Ans α → σ → Prop
  | .done a, s => J s ∧ Q s a
  | .ask q k, s => J s ∧ Guarantees (k (perform q s).2) (perform q s).1

variable {perform J Q} {p : Script Req Ans α} {s : σ}

theorem Guarantees.step {q : Req} {k : Ans q → Script Req Ans α} {s' : σ} {a : Ans q} (hJ : J s) (hp : perform q s = (s',a))
    (h : (k a).Guarantees perform J Q s') : (Script.ask q k).Guarantees perform J Q s := by
  refine ⟨hJ,?_⟩
  rw [hp]
  exact h

theorem Guarantees.cutOff (h : p.Guarantees perform J Q s) (cut : Option ℕ) : J (p.cutOff perform cut s).1 := by
  induction p generalizing cut s with
  | done a =>
    rw [cutOff_done]
    exact h.1
  | ask q k ih =>
    match cut with
    | none => exact ih _ h.2 none
    | some 0 => exact h.1
    | some (n + 1) => exact ih _ h.2 (some n)

theorem Guarantees.alone (h : p.Guarantees perform J Q s) : Q (p.alone perform s).1 (p.alone perform s).2 := by
  induction p generalizing s with
  | done a => exact h.2
  | ask q k ih => exact ih _ h.2

theorem Guarantees.mono {J' : σ → Prop} {Q' : σ → α → Prop} (h : p.Guarantees perform J Q s) (hJ : ∀ s, J s → J' s)
    (hQ : ∀ s a, Q s a → Q' s a) : p.Guarantees perform J' Q' s := by
  induction p generalizing s with
  | done a => exact ⟨hJ s h.1,hQ s a h.2⟩
  | ask q k ih => exact ⟨hJ s h.1,ih _ h.2⟩

/-! ### Under a condition -/

section Conditions

variable (perform) (C : σ → Req → Prop)

/-- Every request that is performed meets a condition on the store before it. -/
def Obeys : Option ℕ → Script Req Ans α → σ → Prop
  | _, .done _, _ => True
  | some 0, .ask _ _, _ => True
  | some (n + 1), .ask q k, s => C s q ∧ Obeys (some n) (k (perform q s).2) (perform q s).1
  | none, .ask q k, s => C s q ∧ Obeys none (k (perform q s).2) (perform q s).1

/-- While its requests meet the condition, the first holds before each of them and at the end, and the
second of the result. -/
def Under (J : σ → List (Entry Ans) → Prop) (Q : σ → List (Entry Ans) → α → Prop) : Script Req Ans α → σ → List (Entry Ans) → Prop
  | .done a, s, log => J s log ∧ Q s log a
  | .ask q k, s, log =>
    J s log ∧ (C s q → Under J Q (k (perform q s).2) (perform q s).1 (log ++ [⟨q,(perform q s).2⟩]))

variable {perform C} {J : σ → List (Entry Ans) → Prop} {Q : σ → List (Entry Ans) → α → Prop} {log : List (Entry Ans)}

theorem Under.bind {β : Type} {Q' : σ → List (Entry Ans) → β → Prop} {p : Script Req Ans β} {f : β → Script Req Ans α}
    (h : p.Under perform C J Q' s log) (hf : ∀ s log a, J s log → Q' s log a → (f a).Under perform C J Q s log) :
    (p.bind f).Under perform C J Q s log := by
  induction p generalizing s log with
  | done a => exact hf s log a h.1 h.2
  | ask q k ih => exact ⟨h.1,fun hq => ih _ (h.2 hq)⟩

theorem Under.mono {J' : σ → List (Entry Ans) → Prop} {Q' : σ → List (Entry Ans) → α → Prop} (h : p.Under perform C J Q s log)
    (hJ : ∀ s log, J s log → J' s log) (hQ : ∀ s log a, J s log → Q s log a → Q' s log a) : p.Under perform C J' Q' s log := by
  induction p generalizing s log with
  | done a => exact ⟨hJ s log h.1,hQ s log a h.1 h.2⟩
  | ask q k ih => exact ⟨hJ s log h.1,fun hq => ih _ (h.2 hq)⟩

theorem Under.cutOff (h : p.Under perform C J Q s log) {cut : Option ℕ} (hobeys : p.Obeys perform C cut s) :
    J (p.cutOff perform cut s).1 (log ++ (p.cutOff perform cut s).2) := by
  induction p generalizing cut s log with
  | done a =>
    rw [cutOff_done,append_nil]
    exact h.1
  | ask q k ih =>
    match cut with
    | some 0 =>
      rw [cutOff_zero,append_nil]
      exact h.1
    | none | some (n + 1) =>
      have hrest := ih _ (h.2 hobeys.1) hobeys.2
      rw [append_assoc] at hrest
      exact hrest

theorem Under.final (h : p.Under perform C J Q s log) (hobeys : p.Obeys perform C none s) :
    ∃ a, Q (p.cutOff perform none s).1 (log ++ (p.cutOff perform none s).2) a := by
  induction p generalizing s log with
  | done a =>
    refine ⟨a,?_⟩
    rw [cutOff_done,append_nil]
    exact h.2
  | ask q k ih =>
    obtain ⟨a,ha⟩ := ih _ (h.2 hobeys.1) hobeys.2
    rw [append_assoc] at ha
    exact ⟨a,ha⟩

end Conditions

end Script

namespace Logged

variable (perform : (q : Req) → σ → σ × Ans q) (program : C → Script Req Ans α)

/-- Every request of a run meets the condition. -/
def Obeys (P : σ → Req → Prop) (s : Logged σ Ans) (attempts : List (Attempt C)) : Prop :=
  ∀ done a rest, attempts = done ++ a :: rest → (program a.call).Obeys perform P a.cut (run perform program s done).store

variable {perform program} {P : σ → Req → Prop} {s : Logged σ Ans}

theorem run_concat (s : Logged σ Ans) (attempts : List (Attempt C)) (a : Attempt C) :
    run perform program s (attempts ++ [a]) = next perform program (run perform program s attempts) a := foldl_concat ..

theorem Obeys.nil : Obeys perform program P s [] := fun done a rest h => absurd h (by simp)

theorem Obeys.cons {a : Attempt C} {rest : List (Attempt C)} (hcall : (program a.call).Obeys perform P a.cut s.store)
    (hrest : Obeys perform program P (next perform program s a) rest) : Obeys perform program P s (a :: rest) := by
  intro done a' rest' h
  cases done with
  | nil =>
    obtain ⟨rfl,-⟩ := List.cons.inj h
    exact hcall
  | cons first done =>
    obtain ⟨rfl,hrest'⟩ := List.cons.inj h
    exact hrest done a' rest' hrest'

theorem Obeys.before {done rest : List (Attempt C)} (h : Obeys perform program P s (done ++ rest)) :
    Obeys perform program P s done := by
  rintro done' a rest' rfl
  exact h done' a (rest' ++ rest) (by rw [append_assoc,cons_append])

end Logged

end Bdb
