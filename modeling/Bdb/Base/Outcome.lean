import Bdb.Base.Json

/-! # Fallible steps and programs over one stored state

A step either fails with a coded message or returns a value. A program runs steps
over a stored state: a committed step replaces the state, a failed one leaves it as
it was, and a later failure does not undo an earlier commit.
-/
namespace Bdb

structure Failure where
  code : String
  message : String
  details : Fields
deriving DecidableEq

abbrev Outcome := Except Failure

variable {α β σ : Type}

def fail (code message : String) : Outcome α := .error ⟨code,message,[]⟩

def require (p : Prop) [Decidable p] (code message : String) : Outcome Unit :=
  if p then .ok () else fail code message

def need (o : Option α) (code message : String) : Outcome α :=
  match o with
  | some a => .ok a
  | none => fail code message

section Bind

variable {ε γ δ : Type} {x : Except ε α} {f : α → Except ε β} {b : β}

theorem bind_ok : (x >>= f) = .ok b ↔ ∃ a, x = .ok a ∧ f a = .ok b := by
  cases x with
  | error e | ok a => simp [bind,Except.bind]

theorem bind_of {a : α} (hx : x = .ok a) (h : f a = .ok b) : (x >>= f) = .ok b := bind_ok.mpr ⟨a,hx,h⟩

/-- What follows a step that has been passed. -/
theorem rest_ok (h : (x >>= f) = .ok b) : ∃ a, f a = .ok b :=
  (bind_ok.mp h).imp fun _ => And.right

theorem rest₂ {y : α → Except ε γ} {f : α → γ → Except ε β} (h : (x >>= fun a => y a >>= f a) = .ok b) :
    ∃ a c, f a c = .ok b :=
  (rest_ok h).imp fun _ => rest_ok

theorem rest₃ {y : α → Except ε γ} {z : α → γ → Except ε δ} {f : α → γ → δ → Except ε β}
    (h : (x >>= fun a => y a >>= fun c => z a c >>= f a c) = .ok b) : ∃ a c d, f a c d = .ok b :=
  (rest_ok h).imp fun _ => rest₂

@[simp] theorem ok_bind (a : α) (f : α → Except ε β) : ((.ok a : Except ε α) >>= f) = f a := rfl

@[simp] theorem pure_ok {a b : α} : (pure a : Except ε α) = .ok b ↔ a = b := by
  simp [pure,Except.pure]

end Bind

variable {x : Outcome α} {code message : String} {a : α}

@[simp] theorem error_bind (e : Failure) (f : α → Outcome β) :
    ((.error e : Outcome α) >>= f) = .error e := rfl

@[simp] theorem require_ok {p : Prop} [Decidable p] {u : Unit} : require p code message = .ok u ↔ p := by
  unfold require
  split <;> simp_all [fail]

theorem require_of {p : Prop} [Decidable p] (h : p) (code message : String) :
    require p code message = .ok () := if_pos h

@[simp] theorem need_ok {o : Option α} : need o code message = .ok a ↔ o = some a := by
  cases o <;> simp [need,fail]

@[simp] theorem fail_ne_ok : (fail code message : Outcome α) ≠ .ok a :=
  nofun

section Checks

variable {p : Prop} [Decidable p] {o : Option α} {f : α → Outcome β} {g : Unit → Outcome β} {b : β}

theorem require_bind (hp : p) (h : g () = .ok b) : (require p code message >>= g) = .ok b :=
  bind_of (require_of hp code message) h

theorem of_require (h : (require p code message >>= g) = .ok b) : p ∧ g () = .ok b := by
  obtain ⟨_,hp,h⟩ := bind_ok.mp h
  exact ⟨require_ok.mp hp,h⟩

theorem of_need (h : (need o code message >>= f) = .ok b) : ∃ a, o = some a ∧ f a = .ok b := by
  obtain ⟨a,ha,h⟩ := bind_ok.mp h
  exact ⟨a,need_ok.mp ha,h⟩

end Checks

theorem some_unique {o : Option α} {b : α} (ha : o = some a) (hb : o = some b) : a = b :=
  Option.some.inj (ha.symm.trans hb)

theorem toOption_eq_some : x.toOption = some a ↔ x = .ok a := by
  cases x <;> simp [Except.toOption]

theorem ne_ok_of_isNone (h : x.toOption.isNone = true) (a : α) : x ≠ .ok a := by
  rintro rfl
  cases h

/-! ## Programs -/

abbrev Program (σ : Type) := ExceptT Failure (StateM σ)

namespace Program

def exec (p : Program σ α) (s : σ) : Except Failure α × σ := p.run s

/-- Runs a step on the stored state and stores its result. -/
def commit (step : σ → Outcome (σ × α)) : Program σ α := fun s =>
  match step s with
  | .ok (t,a) => (.ok a,t)
  | .error e => (.error e,s)

/-- Reads the stored state; the read itself may be refused. -/
def observe (view : σ → Outcome α) : Program σ α := fun s => (view s,s)

/-- A check that does not touch the stored state. -/
def lift (o : Outcome α) : Program σ α := observe (fun _ => o)

@[simp] theorem exec_pure (a : α) (s : σ) : (pure a : Program σ α).exec s = (.ok a,s) := rfl

@[simp] theorem exec_throw (e : Failure) (s : σ) : (throw e : Program σ α).exec s = (.error e,s) := rfl

theorem exec_bind (p : Program σ α) (f : α → Program σ β) (s : σ) :
    (p >>= f).exec s = match p.exec s with
      | (.ok a,t) => (f a).exec t
      | (.error e,t) => (.error e,t) := by
  change (ExceptT.bind p f).run s = _
  simp only [exec,ExceptT.run,ExceptT.bind,ExceptT.mk,bind,StateT.bind]
  rcases p s with ⟨r,t⟩
  cases r <;> rfl

theorem exec_commit (step : σ → Outcome (σ × α)) (s : σ) :
    (commit step).exec s = match step s with
      | .ok (t,a) => (.ok a,t)
      | .error e => (.error e,s) := rfl

@[simp] theorem exec_observe (view : σ → Outcome α) (s : σ) : (observe view).exec s = (view s,s) := rfl

theorem exec_map (p : Program σ α) (f : α → β) (s : σ) : ((f <$> p).exec s).2 = (p.exec s).2 := by
  rw [map_eq_pure_bind,exec_bind]
  rcases p.exec s with ⟨r,t⟩
  cases r <;> rfl

theorem exec_bind_observe (view : σ → Outcome α) (f : α → Program σ β) (s : σ) :
    (observe view >>= f).exec s = match view s with
      | .ok a => (f a).exec s
      | .error e => (.error e,s) := by
  rw [exec_bind,exec_observe]
  cases view s <;> rfl

/-- Goes on after checks that only read, or fails with them. -/
def resume (k : α → Program σ β) (s : σ) : Outcome α → Except Failure β × σ
  | .ok a => (k a).exec s
  | .error e => (.error e,s)

theorem exec_bind_commit (step : σ → Outcome (σ × α)) (f : α → Program σ β) (s : σ) :
    (commit step >>= f).exec s = match step s with
      | .ok (t,a) => (f a).exec t
      | .error e => (.error e,s) := by
  rw [exec_bind,exec_commit]
  rcases step s with e | ⟨t,a⟩ <;> rfl

/-- A property of the state a program leaves behind, whether it fails or not. -/
def Ends (p : Program σ α) (s : σ) (Q : σ → Prop) : Prop := Q (p.exec s).2

variable {Q : σ → Prop} {s : σ}

theorem ends_pure (a : α) (hs : Q s) : Ends (pure a : Program σ α) s Q := hs

theorem ends_throw (e : Failure) (hs : Q s) : Ends (throw e : Program σ α) s Q := hs

theorem ends_observe (view : σ → Outcome α) (hs : Q s) : Ends (observe view) s Q := hs

theorem Ends.discard {p : Program σ α} (h : Ends p s Q) : Ends (discard p) s Q := by
  unfold Ends
  rw [show (Functor.discard p : Program σ PUnit) = (fun _ => PUnit.unit) <$> p from rfl,exec_map]
  exact h

theorem ends_commit {step : σ → Outcome (σ × α)} (hs : Q s) (h : ∀ t a, step s = .ok (t,a) → Q t) :
    Ends (commit step) s Q := by
  unfold Ends
  rw [exec_commit]
  cases ht : step s with
  | error e => exact hs
  | ok p => exact h p.1 p.2 ht

variable {f : α → Program σ β}

theorem ends_bind {p : Program σ α} (hp : Ends p s Q)
    (hf : ∀ a t, Q t → Ends (f a) t Q) : Ends (p >>= f) s Q := by
  unfold Ends at hp ⊢
  rw [exec_bind]
  rcases he : p.exec s with ⟨r,t⟩
  rw [he] at hp
  cases r with
  | error e => exact hp
  | ok a => exact hf a t hp

theorem ends_bind_observe {view : σ → Outcome α} (hs : Q s)
    (h : ∀ a, view s = .ok a → Ends (f a) s Q) : Ends (observe view >>= f) s Q := by
  unfold Ends
  rw [exec_bind,exec_observe]
  cases hv : view s with
  | error e => exact hs
  | ok a => exact h a hv

theorem ends_bind_lift {o : Outcome α} (hs : Q s)
    (h : ∀ a, o = .ok a → Ends (f a) s Q) : Ends (lift o >>= f) s Q :=
  ends_bind_observe hs h

end Program

theorem invariant_of_steps {R : σ → σ → Prop} {I : σ → Prop} (hstep : ∀ s t, R s t → I s → I t)
    {s t : σ} (h : Relation.ReflTransGen R s t) (hs : I s) : I t := by
  induction h with
  | refl => exact hs
  | tail _ hst ih => exact hstep _ _ hst ih

end Bdb
