import Bdb.Base.Rely

/-! # What programs promise

A program promises a property of its requests and of its result when they have it whatever the others did
between its requests, as long as the others take only steps it relies on and its own requests are admitted. A
run of admitted requests of such programs keeps what every such request keeps.
-/
namespace Bdb

variable {Req : Type} {Ans : Req → Type} {α σ C : Type}

namespace Script

variable (perform : (q : Req) → σ → σ × Ans q) (R : σ → σ → Prop) (Q P : σ → Req → Prop) (Post : σ → α → Prop)

/-- Whatever the others did before each of its requests, the admitted requests of a program and its result are as
promised. -/
def Promises : Script Req Ans α → σ → Prop
  | .done a, s => Post s a
  | .ask q k, s => ∀ s', R s s' → Q s' q → P s' q ∧ Promises (k (perform q s').2) (perform q s').1

variable {perform R Q P Post} {s s' : σ}

variable {p : Script Req Ans α}

theorem Promises.mono (htrans : ∀ a b c, R a b → R b c → R a c) (hpost : ∀ a b x, R a b → Post a x → Post b x)
    (h : p.Promises perform R Q P Post s) (hR : R s s') : p.Promises perform R Q P Post s' := by
  cases p with
  | done a => exact hpost s s' a hR h
  | ask q k => exact fun t ht => h t (htrans s s' t hR ht)

theorem Promises.bind {β : Type} {Post' : σ → β → Prop} {f : α → Script Req Ans β}
    (h : p.Promises perform R Q P Post s) (hf : ∀ t a, Post t a → (f a).Promises perform R Q P Post' t) :
    (p.bind f).Promises perform R Q P Post' s := by
  induction p generalizing s with
  | done a => exact hf s a h
  | ask q k ih => exact fun t ht hq => ⟨(h t ht hq).1,ih _ (h t ht hq).2⟩

theorem Promises.weaken {Q₂ : σ → Req → Prop} {Post₂ : σ → α → Prop}
    (h : p.Promises perform R Q P Post s) (hQ : ∀ t q, Q₂ t q → Q t q) (hPost : ∀ t a, Post t a → Post₂ t a) :
    p.Promises perform R Q₂ P Post₂ s := by
  induction p generalizing s with
  | done a => exact hPost s a h
  | ask q k ih => exact fun t ht hq => ⟨(h t ht (hQ t q hq)).1,ih _ (h t ht (hQ t q hq)).2⟩

theorem Promises.of_asksOnly {K : Req → Prop} {S : σ → Prop} (hrely : ∀ a b, R a b → S a → S b)
    (hown : ∀ a q, K q → Q a q → S a → P a q ∧ S (perform q a).1) (hp : p.AsksOnly K) (hs : S s) :
    p.Promises perform R Q P (fun t _ => S t) s := by
  induction hp generalizing s with
  | done a => exact hs
  | ask hK hk ih =>
    intro t ht hq
    obtain ⟨hp,hnext⟩ := hown t _ hK hq (hrely s t ht hs)
    exact ⟨hp,ih _ hnext⟩

theorem Promises.and {K : Req → Prop} {S : σ → Prop} (hrely : ∀ a b, R a b → S a → S b)
    (hown : ∀ a q, K q → P a q → S a → S (perform q a).1) (h : p.Promises perform R Q P Post s)
    (hp : p.AsksOnly K) (hs : S s) : p.Promises perform R Q P (fun t x => Post t x ∧ S t) s := by
  induction hp generalizing s with
  | done a => exact ⟨h,hs⟩
  | ask hK hk ih =>
    intro t ht hq
    obtain ⟨hpt,hnext⟩ := h t ht hq
    exact ⟨hpt,ih _ hnext (hown t _ hK hpt (hrely s t ht hs))⟩

end Script

namespace Shared

open Script

variable {perform : (q : Req) → σ → σ × Ans q} {program : C → Script Req Ans α} {R : σ → σ → Prop} {P Q' : σ → Req → Prop}
  {Q : σ → List (Entry Ans) → Req → Prop} {Post : σ → α → Prop} {I : σ → List (Entry Ans) → Prop} {s : Shared σ Ans α}

/-- A state in which the invariant holds and every client goes on as promised. -/
def Promised (perform : (q : Req) → σ → σ × Ans q) (R : σ → σ → Prop) (Q' P : σ → Req → Prop) (Post : σ → α → Prop)
    (I : σ → List (Entry Ans) → Prop) (s : Shared σ Ans α) : Prop :=
  I s.store s.log ∧ ∀ p ∈ s.clients, p.Promises perform R Q' P Post s.store

section

variable (hrefl : ∀ a, R a a) (htrans : ∀ a b c, R a b → R b c → R a c)
  (hpost : ∀ a b x, R a b → Post a x → Post b x) (hadmits : ∀ t log q, I t log → Q t log q → Q' t q)
  (hstep : ∀ t log q, I t log → Q t log q → P t q → R t (perform q t).1 ∧ I (perform q t).1 (log ++ [⟨q,(perform q t).2⟩]))
  (hprogram : ∀ c t, (program c).Promises perform R Q' P Post t)

include hrefl htrans hpost hadmits hstep hprogram

theorem promised_next (h : Promised perform R Q' P Post I s) (m : Move C) (hm : Admits Q s m) :
    Promised perform R Q' P Post I (next perform program s m) ∧ R s.store (next perform program s m).store := by
  obtain ⟨hinv,hclients⟩ := h
  cases m with
  | start c =>
    refine ⟨⟨hinv,?_⟩,hrefl s.store⟩
    intro p hp
    rcases List.mem_append.mp hp with hp | hp
    · exact hclients p hp
    · exact List.mem_singleton.mp hp ▸ hprogram c s.store
  | advance client =>
    simp only [Admits,asked] at hm
    simp only [next]
    split
    · rename_i q k hclient
      rw [hclient] at hm
      have hq := hm q rfl
      obtain ⟨hp,hnext⟩ := hclients _ (List.mem_of_getElem? hclient) s.store (hrefl s.store) (hadmits _ _ _ hinv hq)
      obtain ⟨hmove,hkept⟩ := hstep s.store s.log q hinv hq hp
      refine ⟨⟨hkept,?_⟩,hmove⟩
      intro p hp
      rcases List.mem_or_eq_of_mem_set hp with hp | rfl
      · exact (hclients p hp).mono htrans hpost hmove
      · exact hnext
    · exact ⟨⟨hinv,hclients⟩,hrefl s.store⟩

theorem run_promised (hs : Promised perform R Q' P Post I s)
    {moves : List (Move C)} (h : Along (next perform program) (Admits Q) s moves) :
    Promised perform R Q' P Post I (run perform program s moves) ∧ R s.store (run perform program s moves).store := by
  induction moves generalizing s with
  | nil => exact ⟨hs,hrefl s.store⟩
  | cons m moves ih =>
    obtain ⟨hm,hrest⟩ := h
    obtain ⟨hnext,hmove⟩ := promised_next hrefl htrans hpost hadmits hstep hprogram hs m hm
    obtain ⟨hlast,hreached⟩ := ih hnext hrest
    exact ⟨hlast,htrans _ _ _ hmove hreached⟩

end

end Shared

end Bdb
