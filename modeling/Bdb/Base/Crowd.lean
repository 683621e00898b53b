import Bdb.Base.Promises

/-! # Clients that are told apart

Every client is started under a number of its own, and the log says which client performed a request. A client
relies only on what the others do, so it can own a part of the store that all the others leave alone.
-/
namespace Bdb

open List

variable {Req : Type} {Ans : Req → Type} {α σ C : Type}

namespace Script

variable {β : Type} (perform : (q : Req) → σ → σ × Ans q)

theorem alone_bind (p : Script Req Ans α) (f : α → Script Req Ans β) (s : σ) :
    (p.bind f).alone perform s = (f (p.alone perform s).2).alone perform (p.alone perform s).1 := by
  induction p generalizing s with
  | done a => rfl
  | ask q k ih => exact ih (perform q s).2 (perform q s).1

end Script

/-- A store and the requests performed on it, each with its client and its answer. -/
structure Record (σ : Type) {Req : Type} (Ans : Req → Type) where
  store : σ
  log : List (ℕ × Entry Ans)

structure Crowd (σ : Type) {Req : Type} (Ans : Req → Type) (α : Type) where
  record : Record σ Ans
  clients : List (Script Req Ans α)

namespace Crowd

variable (perform : (q : Req) → σ → σ × Ans q) (program : ℕ → C → Script Req Ans α)

def performAs (i : ℕ) (q : Req) (r : Record σ Ans) : Record σ Ans × Ans q :=
  (⟨(perform q r.store).1,r.log ++ [(i,⟨q,(perform q r.store).2⟩)]⟩,(perform q r.store).2)

def begin (s : σ) : Crowd σ Ans α := ⟨⟨s,[]⟩,[]⟩

def next (s : Crowd σ Ans α) : Move C → Crowd σ Ans α
  | .start call => { s with clients := s.clients ++ [program s.clients.length call] }
  | .advance i =>
    match s.clients[i]? with
    | some (.ask q k) => ⟨(performAs perform i q s.record).1,s.clients.set i (k (performAs perform i q s.record).2)⟩
    | _ => s

def asked (s : Crowd σ Ans α) : Move C → Option (ℕ × Req)
  | .start _ => none
  | .advance i =>
    match s.clients[i]? with
    | some (.ask q _) => some (i,q)
    | _ => none

def Admits (Q : Record σ Ans → ℕ → Req → Prop) (s : Crowd σ Ans α) (m : Move C) : Prop :=
  ∀ x ∈ asked s m, Q s.record x.1 x.2

instance (Q : Record σ Ans → ℕ → Req → Prop) [∀ r i q, Decidable (Q r i q)] (s : Crowd σ Ans α) (m : Move C) :
    Decidable (Admits Q s m) :=
  inferInstanceAs (Decidable (∀ x ∈ asked s m, Q s.record x.1 x.2))

def run (s : Crowd σ Ans α) (moves : List (Move C)) : Crowd σ Ans α := moves.foldl (next perform program) s

variable {perform program} {R : ℕ → Record σ Ans → Record σ Ans → Prop} {Q : Record σ Ans → ℕ → Req → Prop}
  {Q' P : ℕ → Record σ Ans → Req → Prop} {Post : ℕ → Record σ Ans → α → Prop} {I : ℕ → Record σ Ans → Prop}
  {s : Crowd σ Ans α}

/-- A state in which the invariant of so many clients holds and every client goes on as promised. -/
def Promised (perform : (q : Req) → σ → σ × Ans q) (R : ℕ → Record σ Ans → Record σ Ans → Prop)
    (Q' P : ℕ → Record σ Ans → Req → Prop) (Post : ℕ → Record σ Ans → α → Prop) (I : ℕ → Record σ Ans → Prop)
    (s : Crowd σ Ans α) : Prop :=
  I s.clients.length s.record ∧ ∀ i (p : Script Req Ans α), s.clients[i]? = some p →
    p.Promises (performAs perform i) (R i) (Q' i) (P i) (Post i) s.record

section

variable (hrefl : ∀ i a, R i a a) (htrans : ∀ i a b c, R i a b → R i b c → R i a c)
  (hpost : ∀ i a b x, R i a b → Post i a x → Post i b x)
  (hadmits : ∀ n r i q, I n r → Q r i q → Q' i r q) (hnew : ∀ n r, I n r → I (n + 1) r)
  (hstep : ∀ n r i q, i < n → I n r → Q r i q → P i r q → I n (performAs perform i q r).1 ∧ ∀ j, j ≠ i → R j r (performAs perform i q r).1)
  (hprogram : ∀ n c r, I n r → (program n c).Promises (performAs perform n) (R n) (Q' n) (P n) (Post n) r)

include hrefl htrans hpost hadmits hnew hstep hprogram

theorem promised_next (h : Promised perform R Q' P Post I s) (m : Move C) (hm : Admits Q s m) :
    Promised perform R Q' P Post I (next perform program s m) ∧ Admits (fun r i q => P i r q) s m ∧
      ∀ j, m ≠ .advance j → R j s.record (next perform program s m).record := by
  obtain ⟨hinv,hclients⟩ := h
  cases m with
  | start c =>
    refine ⟨⟨?_,fun i p hp => ?_⟩,nofun,fun j _ => hrefl j s.record⟩
    · change I (s.clients ++ [program s.clients.length c]).length s.record
      rw [length_append,length_singleton]
      exact hnew _ _ hinv
    · rcases Nat.lt_or_ge i s.clients.length with hi | hi
      · exact hclients i p ((List.getElem?_append_left hi).symm.trans hp)
      · obtain ⟨hlt,-⟩ := List.getElem?_eq_some_iff.mp hp
        change i < (s.clients ++ [program s.clients.length c]).length at hlt
        rw [length_append,length_singleton] at hlt
        obtain rfl : i = s.clients.length := by omega
        change (s.clients ++ [program s.clients.length c])[s.clients.length]? = some p at hp
        rw [List.getElem?_concat_length] at hp
        exact Option.some.inj hp ▸ hprogram s.clients.length c s.record hinv
  | advance client =>
    simp only [Admits,asked] at hm ⊢
    simp only [next]
    split
    · rename_i q k hclient
      rw [hclient] at hm
      have hq := hm (client,q) rfl
      obtain ⟨hlt,-⟩ := List.getElem?_eq_some_iff.mp hclient
      obtain ⟨hp,hnext⟩ := hclients client _ hclient s.record (hrefl client s.record) (hadmits _ _ _ _ hinv hq)
      obtain ⟨hkept,hothers⟩ := hstep _ s.record client q hlt hinv hq hp
      refine ⟨⟨?_,fun i p hi => ?_⟩,?_,fun j hj => hothers j fun h => hj (h ▸ rfl)⟩
      · change I (s.clients.set client (k (performAs perform client q s.record).2)).length _
        rw [length_set]
        exact hkept
      · by_cases hic : i = client
        · subst hic
          have hself : (s.clients.set i (k (performAs perform i q s.record).2))[i]? =
            some (k (performAs perform i q s.record).2) := List.getElem?_set_self hlt
          rw [hself] at hi
          exact Option.some.inj hi ▸ hnext
        · have hother : (s.clients.set client (k (performAs perform client q s.record).2))[i]? = s.clients[i]? :=
            List.getElem?_set_ne (Ne.symm hic)
          rw [hother] at hi
          exact (hclients i p hi).mono (htrans i) (hpost i) (hothers i hic)
      · rintro x ⟨⟩
        exact hp
    · exact ⟨⟨hinv,hclients⟩,nofun,fun j _ => hrefl j s.record⟩

theorem run_promised (hs : Promised perform R Q' P Post I s) {moves : List (Move C)}
    (h : Along (next perform program) (Admits Q) s moves) :
    Promised perform R Q' P Post I (run perform program s moves) ∧ Along (next perform program) (Admits fun r i q => P i r q) s moves ∧
      ∀ j, .advance j ∉ moves → R j s.record (run perform program s moves).record := by
  induction moves generalizing s with
  | nil => exact ⟨hs,trivial,fun j _ => hrefl j s.record⟩
  | cons m moves ih =>
    obtain ⟨hm,hrest⟩ := h
    obtain ⟨hnext,hasked,hmove⟩ := promised_next hrefl htrans hpost hadmits hnew hstep hprogram hs m hm
    obtain ⟨hlast,hall,hmoves⟩ := ih hnext hrest
    refine ⟨hlast,⟨hasked,hall⟩,fun j hj => htrans j _ _ _ (hmove j fun h => hj ?_) (hmoves j fun h => hj (mem_cons_of_mem _ h))⟩
    exact h ▸ mem_cons_self

end

end Crowd

end Bdb
