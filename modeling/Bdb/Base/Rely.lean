import Bdb.Base.Interleaving

/-! # Clients that rely on one another

A client relies on what the others may do to the store between its requests, and guarantees that
each of its own requests is one of these steps. A run of such clients keeps what all of them keep.
-/
namespace Bdb

variable {Req : Type} {Ans : Req → Type} {α β σ C : Type}

namespace Script

variable (perform : (q : Req) → σ → σ × Ans q) (R : σ → σ → Prop) (P : σ → Req → Prop)

/-- Whatever the others did before each of its requests, a program makes only requests of one kind. -/
def Relies : Script Req Ans α → σ → Prop
  | .done _, _ => True
  | .ask q k, s => ∀ s', R s s' → P s' q ∧ Relies (k (perform q s').2) (perform q s').1

variable {perform R P} {s s' : σ}

theorem Relies.mono (htrans : ∀ a b c, R a b → R b c → R a c) {p : Script Req Ans α} (h : p.Relies perform R P s) (hR : R s s') :
    p.Relies perform R P s' := by
  cases p with
  | done a => trivial
  | ask q k => exact fun t ht => h t (htrans s s' t hR ht)

end Script

namespace Shared

open Script

variable {perform : (q : Req) → σ → σ × Ans q} {program : C → Script Req Ans α} {R : σ → σ → Prop} {P : σ → Req → Prop}
  {s : Shared σ Ans α}

def Relied (perform : (q : Req) → σ → σ × Ans q) (R : σ → σ → Prop) (P : σ → Req → Prop) (s : Shared σ Ans α) : Prop :=
  ∀ p ∈ s.clients, p.Relies perform R P s.store

theorem next_relied (hrefl : ∀ a, R a a) (htrans : ∀ a b c, R a b → R b c → R a c)
    (hstep : ∀ a q, R s.store a → P a q → R a (perform q a).1) (hprogram : ∀ c, (program c).Relies perform R P s.store)
    (h : Relied perform R P s) (m : Move C) :
    Relied perform R P (next perform program s m) ∧ R s.store (next perform program s m).store := by
  cases m with
  | start c =>
    refine ⟨fun p hp => ?_,hrefl s.store⟩
    rcases List.mem_append.mp hp with hp | hp
    · exact h p hp
    · exact List.mem_singleton.mp hp ▸ hprogram c
  | advance client =>
    simp only [next]
    split
    · rename_i q k hclient
      have hasked := h _ (List.mem_of_getElem? hclient) s.store (hrefl s.store)
      have hmove := hstep s.store q (hrefl s.store) hasked.1
      refine ⟨fun p hp => ?_,hmove⟩
      rcases List.mem_or_eq_of_mem_set hp with hp | rfl
      · exact (h p hp).mono htrans hmove
      · exact hasked.2
    · exact ⟨h,hrefl s.store⟩

theorem run_relied {I : σ → Prop} (hrefl : ∀ a, R a a) (htrans : ∀ a b c, R a b → R b c → R a c)
    (hstep : ∀ a q, I a → P a q → R a (perform q a).1)
    (hprogram : ∀ c a, I a → (program c).Relies perform R P a) (hkeeps : ∀ a b, R a b → I a → I b)
    (hrelied : Relied perform R P s) (hs : I s.store) (moves : List (Move C)) :
    let final := run perform program s moves
    Relied perform R P final ∧ R s.store final.store ∧ I final.store := by
  induction moves using List.reverseRecOn with
  | nil => exact ⟨hrelied,hrefl s.store,hs⟩
  | append_singleton moves m ih =>
    obtain ⟨hrelied,hreached,hinv⟩ := ih
    have hnext := next_relied hrefl htrans (fun a q ha hq => hstep a q (hkeeps _ a ha hinv) hq)
      (fun c => hprogram c _ hinv) hrelied m
    have hrun : run perform program s (moves ++ [m]) = next perform program (run perform program s moves) m :=
      List.foldl_concat ..
    rw [hrun]
    exact ⟨hnext.1,htrans _ _ _ hreached hnext.2,hkeeps _ _ hnext.2 hinv⟩

theorem relied_begin (t : σ) : Relied perform R P (begin t : Shared σ Ans α) := fun _ hp => absurd hp List.not_mem_nil

end Shared

end Bdb
