import Mathlib.Data.List.Induction
import Mathlib.Data.Set.Function

/-! # Running digests

A running digest links each item to the digest of all items before it. Where linking does
not collide and never gives the start, the running digest determines its items.
-/
namespace Bdb.HashChain

open List

variable {δ : Type} (link : δ → δ → δ)

def running (d : δ) (items : List δ) : δ := items.foldl link d

/-- The pairs that are linked on the way. -/
def links (d : δ) : List δ → List (δ × δ)
  | [] => []
  | p :: rest => (d,p) :: links (link d p) rest

variable {link}

theorem running_append (d : δ) (l l' : List δ) : running link d (l ++ l') = running link (running link d l) l' :=
  foldl_append

theorem running_concat (d : δ) (l : List δ) (p : δ) : running link d (l ++ [p]) = link (running link d l) p :=
  running_append d l [p]

theorem links_append (d : δ) (l l' : List δ) :
    links link d (l ++ l') = links link d l ++ links link (running link d l) l' := by
  induction l generalizing d with
  | nil => rfl
  | cons p l ih =>
    change (d,p) :: links link (link d p) (l ++ l') = _
    rw [ih]
    rfl

theorem links_first {d : δ} {l : List δ} {p : δ × δ} (h : p ∈ links link d l) :
    p.1 = d ∨ ∃ q ∈ links link d l, p.1 = link q.1 q.2 := by
  induction l generalizing d with
  | nil => cases h
  | cons x l ih =>
    rcases mem_cons.mp h with rfl | h
    · exact .inl rfl
    · rcases ih h with hfirst | ⟨q,hq,hfirst⟩
      · exact .inr ⟨(d,x),mem_cons_self,hfirst⟩
      · exact .inr ⟨q,mem_cons_of_mem _ hq,hfirst⟩

variable {S : Set (δ × δ)} {start : δ}

theorem running_injective (hinj : Set.InjOn (fun p : δ × δ => link p.1 p.2) S) (hstart : ∀ p ∈ S, link p.1 p.2 ≠ start)
    {l l' : List δ} (hl : ∀ p ∈ links link start l, p ∈ S) (hl' : ∀ p ∈ links link start l', p ∈ S)
    (h : running link start l = running link start l') : l = l' := by
  have hconcat : ∀ {l : List δ} {x : δ}, (∀ p ∈ links link start (l ++ [x]), p ∈ S) →
      (∀ p ∈ links link start l, p ∈ S) ∧ (running link start l,x) ∈ S := by
    intro l x hl
    rw [links_append] at hl
    exact ⟨fun p hp => hl p (mem_append_left _ hp),hl _ (mem_append_right _ mem_cons_self)⟩
  induction l using List.reverseRecOn generalizing l' with
  | nil =>
    cases l' using List.reverseRecOn with
    | nil => rfl
    | append_singleton l' y =>
      rw [running_concat] at h
      exact absurd h.symm (hstart _ (hconcat hl').2)
  | append_singleton l x ih =>
    cases l' using List.reverseRecOn with
    | nil =>
      rw [running_concat] at h
      exact absurd h (hstart _ (hconcat hl).2)
    | append_singleton l' y =>
      rw [running_concat,running_concat] at h
      obtain ⟨hbefore,hx⟩ := hconcat hl
      obtain ⟨hbefore',hy⟩ := hconcat hl'
      obtain ⟨hsame,rfl⟩ := Prod.mk.inj (hinj hx hy h)
      rw [ih hbefore hbefore' hsame]

end Bdb.HashChain
