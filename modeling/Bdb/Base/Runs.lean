import Mathlib.Data.List.Induction

/-! # Runs of a deterministic machine

A machine moves from state to state under events. A condition on the single steps is
required along a whole run, and an invariant that every such step keeps holds in every
state of the run.
-/
namespace Bdb

variable {σ ε : Type} {next : σ → ε → σ} {P Q : σ → ε → Prop} {s : σ}

/-- Every event of the run meets the condition in the state it is taken in. -/
def Along (next : σ → ε → σ) (P : σ → ε → Prop) : σ → List ε → Prop
  | _, [] => True
  | s, e :: es => P s e ∧ Along next P (next s e) es

instance Along.decidable [∀ s e, Decidable (P s e)] : (s : σ) → (es : List ε) → Decidable (Along next P s es)
  | _, [] => .isTrue trivial
  | s, e :: es =>
    haveI := Along.decidable (next s e) es
    inferInstanceAs (Decidable (P s e ∧ Along next P (next s e) es))

variable {es fs : List ε} {I : σ → Prop}

theorem along_append :
    Along next P s (es ++ fs) ↔ Along next P s es ∧ Along next P (es.foldl next s) fs := by
  induction es generalizing s with
  | nil => exact ⟨fun h => ⟨trivial,h⟩,fun h => h.2⟩
  | cons e es ih =>
    constructor
    · intro h
      obtain ⟨hes,hfs⟩ := ih.mp h.2
      exact ⟨⟨h.1,hes⟩,hfs⟩
    · intro h
      exact ⟨h.1.1,ih.mpr ⟨h.1.2,h.2⟩⟩

theorem Along.at {done rest : List ε} {e : ε} (h : Along next P s es) (hsplit : es = done ++ e :: rest) :
    P (done.foldl next s) e := by
  subst hsplit
  exact (along_append.mp h).2.1

theorem Along.left (h : Along next P s (es ++ fs)) : Along next P s es :=
  (along_append.mp h).1

theorem Along.mono (h : Along next P s es) (himp : ∀ s e, P s e → Q s e) : Along next Q s es := by
  induction es generalizing s with
  | nil => exact trivial
  | cons e es ih => exact ⟨himp s e h.1,ih h.2⟩

theorem along_congr (hstep : ∀ s e, I s → (P s e ↔ Q s e)) (hkeep : ∀ s e, I s → Q s e → I (next s e))
    (hs : I s) : Along next P s es ↔ Along next Q s es := by
  induction es generalizing s with
  | nil => exact Iff.rfl
  | cons e es ih =>
    constructor
    · intro h
      have hfirst := (hstep s e hs).mp h.1
      exact ⟨hfirst,(ih (hkeep s e hs hfirst)).mp h.2⟩
    · intro h
      exact ⟨(hstep s e hs).mpr h.1,(ih (hkeep s e hs h.1)).mpr h.2⟩

theorem Along.invariant (hstep : ∀ s e, I s → P s e → I (next s e))
    (h : Along next P s es) (hs : I s) : I (es.foldl next s) := by
  induction es generalizing s with
  | nil => exact hs
  | cons e es ih => exact ih h.2 (hstep s e hs h.1)

theorem along_iff_of_invariant {J : σ → Prop} (hinv : ∀ s e, J s → J (next s e))
    (hstep : ∀ s e, J s → I s → (I (next s e) ↔ P s e)) (hlost : ∀ s e, I (next s e) → I s) {es : List ε}
    (hj : J s) (hs : I s) : I (es.foldl next s) ↔ Along next P s es := by
  have hback : ∀ (es : List ε) (s : σ), I (es.foldl next s) → I s := by
    intro es
    induction es with
    | nil => exact fun _ h => h
    | cons e es ih => exact fun s h => hlost s e (ih (next s e) h)
  induction es generalizing s with
  | nil => exact ⟨fun _ => trivial,fun _ => hs⟩
  | cons e es ih =>
    have hnext := hinv s e hj
    constructor
    · intro h
      have hkept := hback es (next s e) h
      exact ⟨(hstep s e hj hs).mp hkept,(ih hnext hkept).mp h⟩
    · intro h
      exact (ih hnext ((hstep s e hj hs).mpr h.1)).mpr h.2

end Bdb
