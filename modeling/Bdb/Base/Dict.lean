import Bdb.Base.JsonText
import Mathlib.Data.List.AList

/-! # Keyed collections

A dictionary keeps at most one value for each key. Its order is never observed: a
document is written with sorted keys.
-/
namespace Bdb

open List

abbrev Dict (α : Type) := AList (fun _ : String => α)

namespace Dict

variable {α : Type}

def size (d : Dict α) : ℕ := d.entries.length

def get (d : Dict α) (k : String) (default : α) : α := (d.lookup k).getD default

/-- Stores a value only when the key is absent. -/
def setdefault (d : Dict α) (k : String) (v : α) : Dict α :=
  if (d.lookup k).isSome then d else d.insert k v

def values (d : Dict α) : List α := d.entries.map (·.2)

def toJson (enc : α → Json) (d : Dict α) : Json := .obj (d.entries.map (fun e => (e.1,enc e.2)))

/-- The dictionary with one computed value for each of the given keys. -/
def ofKeys (keys : List String) (f : String → α) : Dict α :=
  keys.foldl (fun d k => d.insert k (f k)) ∅

theorem get_of_lookup {d : Dict α} {k : String} {v : α} (h : d.lookup k = some v) (default : α) :
    d.get k default = v := by
  simp [get,h]

theorem lookup_setdefault (d : Dict α) (k l : String) (v : α) :
    (d.setdefault k v).lookup l = if l = k then some (d.get k v) else d.lookup l := by
  unfold setdefault get
  split
  · rename_i hk
    obtain ⟨w,hw⟩ := Option.isSome_iff_exists.mp hk
    split
    · rename_i hl
      subst l
      simp [hw]
    · rfl
  · rename_i hk
    have hnone : d.lookup k = none := by simpa using hk
    split
    · rename_i hl
      subst l
      simp [hnone]
    · rename_i hl
      exact AList.lookup_insert_ne hl

end Dict

theorem lookup_insert_cases {κ β : Type} [DecidableEq κ] {m : AList fun _ : κ => β} {k l : κ} {b c : β}
    (h : (m.insert k b).lookup l = some c) : l = k ∧ c = b ∨ l ≠ k ∧ m.lookup l = some c := by
  by_cases hkey : l = k
  · subst hkey
    exact .inl ⟨rfl,Option.some.inj (h.symm.trans (AList.lookup_insert _))⟩
  · exact .inr ⟨hkey,(AList.lookup_insert_ne hkey).symm.trans h⟩

/-! ## Lists of records -/

variable {α : Type}

/-- Changes the first record that satisfies a test. -/
def updateFirst (p : α → Bool) (f : α → α) : List α → List α
  | [] => []
  | a :: rest => if p a then f a :: rest else a :: updateFirst p f rest

section

variable {β : Type} {R : α → β → Prop} {xs : List α} {ys : List β}

theorem exists_of_forall₂_right {b : β} (hxy : List.Forall₂ R xs ys) (hb : b ∈ ys) : ∃ a ∈ xs, R a b := by
  induction hxy with
  | nil => simp at hb
  | @cons x y xs ys hr _ ih =>
    rcases mem_cons.mp hb with rfl | hb
    · exact ⟨x,mem_cons_self,hr⟩
    · obtain ⟨a,ha,hab⟩ := ih hb
      exact ⟨a,mem_cons_of_mem x ha,hab⟩

theorem pairwise_of_forall₂ {S : α → α → Prop} {T : β → β → Prop} (hxy : List.Forall₂ R xs ys)
    (hS : ∀ a b a' b', R a a' → R b b' → S a b → T a' b') (h : xs.Pairwise S) : ys.Pairwise T := by
  induction hxy with
  | nil => exact .nil
  | @cons x y xs ys hr hrest ih =>
    obtain ⟨hx,hxs⟩ := pairwise_cons.mp h
    refine pairwise_cons.mpr ⟨?_,ih hxs⟩
    intro b hb
    obtain ⟨a,ha,hab⟩ := exists_of_forall₂_right hrest hb
    exact hS x a y b hr hab (hx a ha)

end

variable {R : α → α → Prop} {xs ys : List α} {f : α → α}

theorem forall₂_map_right (h : ∀ a ∈ xs, R a (f a)) : List.Forall₂ R xs (xs.map f) := by
  rw [forall₂_map_right_iff]
  exact forall₂_same.mpr h

theorem find?_of_forall₂ {p : α → Bool} {a : α}
    (hxy : List.Forall₂ R xs ys) (hp : ∀ a b, R a b → p a = p b) (ha : xs.find? p = some a) :
    ∃ b, ys.find? p = some b ∧ R a b := by
  induction hxy with
  | nil => simp at ha
  | @cons x y xs ys hr _ ih =>
    by_cases hx : p x = true
    · have hy : p y = true := (hp x y hr) ▸ hx
      obtain rfl : x = a := by simpa [hx] using ha
      exact ⟨y,by simp [hy],hr⟩
    · have hy : ¬ p y = true := (hp x y hr) ▸ hx
      obtain ⟨b,hb,hab⟩ := ih (by simpa [hx] using ha)
      exact ⟨b,by simpa [hy] using hb,hab⟩

theorem forall₂_updateFirst {p : α → Bool}
    (hrefl : ∀ a ∈ xs, R a a) (hfound : ∀ a, xs.find? p = some a → R a (f a)) :
    List.Forall₂ R xs (updateFirst p f xs) := by
  induction xs with
  | nil => exact .nil
  | cons a rest ih =>
    have hrest : ∀ b ∈ rest, R b b := fun b hb => hrefl b (mem_cons_of_mem a hb)
    unfold updateFirst
    by_cases hp : p a = true
    · rw [if_pos hp]
      refine .cons (hfound a (by simp [hp])) ?_
      exact forall₂_same.mpr hrest
    · rw [if_neg hp]
      refine .cons (hrefl a mem_cons_self) (ih hrest ?_)
      intro b hb
      exact hfound b (by simpa [hp] using hb)

theorem updateFirst_eq_map {key : α → String} {k : String} (h : (xs.map key).Nodup) :
    updateFirst (fun a => key a == k) f xs = xs.map (fun a => if key a == k then f a else a) := by
  induction xs with
  | nil => rfl
  | cons a rest ih =>
    obtain ⟨hnew,hrest⟩ := nodup_cons.mp h
    unfold updateFirst
    by_cases ha : key a = k
    · have hsame : rest.map (fun b => if key b == k then f b else b) = rest := by
        refine (map_congr_left ?_).trans (map_id rest)
        intro b hb
        have hne : key b ≠ k := fun hbk => hnew (mem_map.mpr ⟨b,hb,hbk.trans ha.symm⟩)
        simp [hne]
      simp only [map_cons,ha,beq_self_eq_true,↓reduceIte,hsame]
    · simp [ha,ih hrest]

end Bdb
