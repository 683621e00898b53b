import Bdb.Base.Interleaving

/-! # Calls cut short by crashes

Calls are made one after another on a durable store. A crash cuts a call off after any of
its requests: what was performed stays, the rest of the call is never performed.
-/
namespace Bdb

variable {Req : Type} {Ans : Req → Type} {α σ C : Type}

/-- A call and the number of requests after which it crashes, if it does. -/
structure Attempt (C : Type) where
  call : C
  cut : Option ℕ

/-- A call that crashes, if it does, only after its first requests. -/
def Reaches (n : ℕ) (cut : Option ℕ) : Prop := ∀ k ∈ cut, n ≤ k

instance Reaches.decidable (n : ℕ) (cut : Option ℕ) : Decidable (Reaches n cut) :=
  inferInstanceAs (Decidable (∀ k ∈ cut, n ≤ k))

namespace Script

variable (perform : (q : Req) → σ → σ × Ans q)

/-- The store after a program that may be cut off, and the requests it performed. -/
def cutOff : Option ℕ → Script Req Ans α → σ → σ × List (Entry Ans)
  | _, .done _, s => (s,[])
  | some 0, .ask _ _, s => (s,[])
  | some (n + 1), .ask q k, s =>
    let rest := cutOff (some n) (k (perform q s).2) (perform q s).1
    (rest.1,⟨q,(perform q s).2⟩ :: rest.2)
  | none, .ask q k, s =>
    let rest := cutOff none (k (perform q s).2) (perform q s).1
    (rest.1,⟨q,(perform q s).2⟩ :: rest.2)

def trace (p : Script Req Ans α) (s : σ) : List (Entry Ans) := (p.cutOff perform none s).2

variable {perform} {q : Req} {k : Ans q → Script Req Ans α} {s : σ}

theorem trace_ask : (Script.ask q k).trace perform s =
    ⟨q,(perform q s).2⟩ :: (k (perform q s).2).trace perform (perform q s).1 := rfl

theorem cutOff_some (n : ℕ) (p : Script Req Ans α) (s : σ) :
    (p.cutOff perform (some n) s).2 = (p.trace perform s).take n := by
  induction p generalizing n s with
  | done a => simp [trace,cutOff]
  | ask q k ih =>
    cases n with
    | zero => rfl
    | succ n =>
      have hrest := ih (perform q s).2 n (perform q s).1
      simp [trace_ask,cutOff,hrest]

theorem cutOff_done (cut : Option ℕ) (a : α) (s : σ) : (Script.done a : Script Req Ans α).cutOff perform cut s = (s,[]) := by
  cases cut <;> rfl

theorem cutOff_zero (q : Req) (k : Ans q → Script Req Ans α) (s : σ) : (Script.ask q k).cutOff perform (some 0) s = (s,[]) := rfl

theorem cutOff_sublist (cut : Option ℕ) (p : Script Req Ans α) (s : σ) :
    (p.cutOff perform cut s).2.Sublist (p.trace perform s) := by
  cases cut with
  | none => exact List.Sublist.refl _
  | some n =>
    rw [cutOff_some]
    exact List.take_sublist n _

variable (perform) in
/-- What holds of store and log before every request of a program, and at its end. -/
def Throughout (J : σ → List (Entry Ans) → Prop) : Script Req Ans α → σ → List (Entry Ans) → Prop
  | .done _, s, log => J s log
  | .ask q k, s, log =>
    J s log ∧ Throughout J (k (perform q s).2) (perform q s).1 (log ++ [⟨q,(perform q s).2⟩])

variable {J : σ → List (Entry Ans) → Prop} {log : List (Entry Ans)}

variable {p : Script Req Ans α} {Q : σ → Prop}

theorem Throughout.cutOff (h : p.Throughout perform J s log) (cut : Option ℕ) :
    J (p.cutOff perform cut s).1 (log ++ (p.cutOff perform cut s).2) := by
  induction p generalizing cut s log with
  | done a =>
    rw [cutOff_done,List.append_nil]
    exact h
  | ask q k ih =>
    have hrest := ih _ h.2
    simp only [List.append_assoc] at hrest
    match cut with
    | none => exact hrest none
    | some 0 =>
      rw [cutOff_zero,List.append_nil]
      exact h.1
    | some (n + 1) => exact hrest (some n)

variable (perform) in
/-- What holds before every request of a program, and what it ends in. -/
def Concludes (J : σ → List (Entry Ans) → Prop) (Q : σ → Prop) : Script Req Ans α → σ → List (Entry Ans) → Prop
  | .done _, s, log => J s log ∧ Q s
  | .ask q k, s, log =>
    J s log ∧ Concludes J Q (k (perform q s).2) (perform q s).1 (log ++ [⟨q,(perform q s).2⟩])

theorem Concludes.throughout (h : p.Concludes perform J Q s log) :
    p.Throughout perform J s log := by
  induction p generalizing s log with
  | done a => exact h.1
  | ask q k ih => exact ⟨h.1,ih _ h.2⟩

theorem Concludes.final (h : p.Concludes perform J Q s log) :
    Q (p.cutOff perform none s).1 := by
  induction p generalizing s log with
  | done a => exact h.2
  | ask q k ih => exact ih _ h.2

end Script

/-- The store, and what was performed on it. -/
structure Logged (σ : Type) {Req : Type} (Ans : Req → Type) where
  store : σ
  log : List (Entry Ans)

namespace Logged

variable (perform : (q : Req) → σ → σ × Ans q) (program : C → Script Req Ans α)

def next (s : Logged σ Ans) (a : Attempt C) : Logged σ Ans :=
  let p := (program a.call).cutOff perform a.cut s.store
  ⟨p.1,s.log ++ p.2⟩

def run (s : Logged σ Ans) (attempts : List (Attempt C)) : Logged σ Ans :=
  attempts.foldl (next perform program) s

variable {perform program} {J : σ → List (Entry Ans) → Prop} {s : Logged σ Ans}

theorem run_keeps (hcall : ∀ c s log, J s log → (program c).Throughout perform J s log)
    (h : J s.store s.log) (attempts : List (Attempt C)) :
    J (run perform program s attempts).store (run perform program s attempts).log := by
  induction attempts generalizing s with
  | nil => exact h
  | cons a rest ih => exact ih ((hcall a.call s.store s.log h).cutOff a.cut)

end Logged

end Bdb
