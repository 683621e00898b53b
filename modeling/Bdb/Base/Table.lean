import Mathlib.Data.List.Find
import Mathlib.Data.List.Nodup

/-! # Tables with a primary key

A table holds its rows in insertion order, with at most one row for each key. A row
is inserted only under a new key, replaced under its own key, removed, or changed in place
by a function that keeps keys.
-/
namespace Bdb

open List

theorem nodup_map_concat {α κ : Type} {key : α → κ} {rows : List α} {a : α} (h : (rows.map key).Nodup)
    (ha : ∀ b ∈ rows, key b ≠ key a) : ((rows ++ [a]).map key).Nodup := by
  rw [map_append,map_singleton,← concat_eq_append]
  exact h.concat (by simpa using ha)

/-- Rows with distinct keys. -/
structure Table (α : Type) {κ : Type} (key : α → κ) where
  rows : List α
  unique : (rows.map key).Nodup

namespace Table

variable {α κ : Type} {key : α → κ}

def empty : Table α key := ⟨[],nodup_nil⟩

def find (t : Table α key) (p : α → Bool) : Option α := t.rows.find? p

/-- Every row changed by a function that keeps its key. -/
def change (t : Table α key) (f : α → α) (hf : ∀ a, key (f a) = key a) : Table α key where
  rows := t.rows.map f
  unique := by
    rw [map_map,show key ∘ f = key from funext hf]
    exact t.unique

/-- The rows that do not pass a test. -/
def remove (t : Table α key) (p : α → Bool) : Table α key where
  rows := t.rows.filter fun a => !p a
  unique := t.unique.sublist (filter_sublist.map key)

theorem mem_remove {t : Table α key} {p : α → Bool} {a : α} : a ∈ (t.remove p).rows ↔ a ∈ t.rows ∧ p a = false := by
  simp [remove]

theorem remove_eq {t : Table α key} {p : α → Bool} : t.remove p = t ↔ ∀ a ∈ t.rows, p a = false := by
  have hrows : t.remove p = t ↔ (t.remove p).rows = t.rows := by
    obtain ⟨rows,unique⟩ := t
    simp [remove]
  rw [hrows,remove,filter_eq_self]
  simp

section Find

variable {t : Table α key} {p : α → Bool} {a : α}

theorem mem_of_find (h : t.find p = some a) : a ∈ t.rows := mem_of_find?_eq_some h

theorem find_some (h : t.find p = some a) : p a = true := List.find?_some h

theorem find_eq_none : t.find p = none ↔ ∀ a ∈ t.rows, p a = false := by
  unfold find
  rw [List.find?_eq_none]
  simp

theorem eq_of_key {b : α} (ha : a ∈ t.rows) (hb : b ∈ t.rows) (h : key a = key b) : a = b :=
  inj_on_of_nodup_map t.unique ha hb h

theorem find_change {f : α → α} {hf : ∀ a, key (f a) = key a} (hp : ∀ a ∈ t.rows, p (f a) = p a) :
    (t.change f hf).find p = (t.find p).map f :=
  find?_map.trans (congrArg _ (find?_congr hp))

end Find

variable [DecidableEq κ]

def get (t : Table α key) (k : κ) : Option α := t.find (fun a => key a = k)

def insert (t : Table α key) (a : α) : Option (Table α key) :=
  if h : key a ∈ t.rows.map key then none
  else some
    { rows := t.rows ++ [a]
      unique := by
        rw [map_append,map_singleton]
        exact List.Nodup.append t.unique (nodup_singleton _)
          (disjoint_singleton.mpr h) }

/-- The row under its key replaced. -/
def put (t : Table α key) (a : α) : Table α key :=
  t.change (fun b => if key b = key a then a else b) (by
    intro b
    split
    · rename_i h
      exact h.symm
    · rfl)

variable {t : Table α key} {p : α → Bool} {a b : α} {k : κ}

theorem key_of_get (h : t.get k = some a) : key a = k := by
  simpa using find_some h

theorem get_of_mem (h : a ∈ t.rows) : t.get (key a) = some a := by
  cases hg : t.get (key a) with
  | none =>
    have hnone := List.find?_eq_none.mp hg a h
    simp at hnone
  | some b => rw [eq_of_key (mem_of_find hg) h (key_of_get hg)]

theorem get_eq_some : t.get k = some a ↔ a ∈ t.rows ∧ key a = k := by
  constructor
  · intro h
    exact ⟨mem_of_find h,key_of_get h⟩
  · rintro ⟨h,rfl⟩
    exact get_of_mem h

variable {t' : Table α key}

theorem insert_some (h : t.insert a = some t') : t.get (key a) = none ∧ t'.rows = t.rows ++ [a] := by
  unfold insert at h
  split at h
  · cases h
  · rename_i hnew
    cases h
    refine ⟨List.find?_eq_none.mpr ?_,rfl⟩
    intro b hb hkey
    exact hnew (mem_map.mpr ⟨b,hb,by simpa using hkey⟩)

theorem insert_of_new (h : t.get (key a) = none) : ∃ t', t.insert a = some t' := by
  unfold insert
  split
  · rename_i hold
    obtain ⟨b,hb,hkey⟩ := mem_map.mp hold
    rw [← hkey,get_of_mem hb] at h
    cases h
  · exact ⟨_,rfl⟩

theorem find_insert (h : t.insert a = some t') (p : α → Bool) :
    t'.find p = (t.find p).or (if p a then some a else none) := by
  unfold find
  rw [(insert_some h).2,List.find?_append,List.find?_singleton]

theorem get_insert (h : t.insert a = some t') (k : κ) : t'.get k = if key a = k then some a else t.get k := by
  have hfind := find_insert h (fun b => key b = k)
  have hnew := (insert_some h).1
  by_cases hk : key a = k
  · subst hk
    rw [if_pos rfl]
    refine hfind.trans ?_
    rw [show t.find (fun b => decide (key b = key a)) = none from hnew]
    simp
  · rw [if_neg hk]
    refine hfind.trans ?_
    simp [hk,get]

theorem get_change {f : α → α} {hf : ∀ a, key (f a) = key a} (k : κ) :
    (t.change f hf).get k = (t.get k).map f := by
  refine find_change ?_
  intro a _
  rw [hf a]

theorem get_put (h : t.get (key a) = some b) (k : κ) :
    (t.put a).get k = if key a = k then some a else t.get k := by
  unfold put
  rw [get_change]
  by_cases hk : key a = k
  · subst hk
    simp [h,key_of_get h]
  · rw [if_neg hk]
    cases hg : t.get k with
    | none => rfl
    | some c =>
      have hc : ¬ key c = key a := fun hca => hk (hca.symm.trans (key_of_get hg))
      simp [hc]

theorem get_remove (h : t.get k = some a) (ha : p a = false) : (t.remove p).get k = some a := by
  obtain ⟨hmem,hkey⟩ := get_eq_some.mp h
  exact get_eq_some.mpr ⟨mem_remove.mpr ⟨hmem,ha⟩,hkey⟩

theorem mem_insert (h : t.insert a = some t') : b ∈ t'.rows ↔ b ∈ t.rows ∨ b = a := by
  rw [(insert_some h).2,mem_append,mem_singleton]

theorem mem_put {c : α} (hb : b ∈ t.rows) (hkey : key b = key a) :
    c ∈ (t.put a).rows ↔ c = a ∨ c ∈ t.rows ∧ key c ≠ key a := by
  constructor
  · intro h
    obtain ⟨d,hd,rfl⟩ := mem_map.mp h
    split
    · exact .inl rfl
    · rename_i hother
      exact .inr ⟨hd,hother⟩
  · rintro (rfl | ⟨hc,hother⟩)
    · exact mem_map.mpr ⟨b,hb,if_pos hkey⟩
    · exact mem_map.mpr ⟨c,hc,if_neg hother⟩

theorem find_put_self (h : t.find p = some b) (hkey : key a = key b) (ha : p a = true) :
    (t.put a).find p = some a := by
  have hsame : ∀ c ∈ t.rows, p (if key c = key a then a else c) = p c := by
    intro c hc
    split
    · rename_i hca
      obtain rfl : c = b := eq_of_key hc (mem_of_find h) (hca.trans hkey)
      rw [ha,find_some h]
    · rfl
  unfold put
  rw [find_change hsame,h]
  simp [hkey]

theorem find_put_other (hb : b ∈ t.rows) (hkey : key a = key b) (ha : p a = false) (hpb : p b = false) :
    (t.put a).find p = t.find p := by
  have hsame : ∀ c ∈ t.rows, p (if key c = key a then a else c) = p c := by
    intro c hc
    split
    · rename_i hca
      obtain rfl : c = b := eq_of_key hc hb (hca.trans hkey)
      rw [ha,hpb]
    · rfl
  unfold put
  rw [find_change hsame]
  cases hf : t.find p with
  | none => rfl
  | some c =>
    have hc : ¬ key c = key a := by
      intro hca
      obtain rfl : c = b := eq_of_key (mem_of_find hf) hb (hca.trans hkey)
      rw [find_some hf] at hpb
      cases hpb
    simp [hc]

/-! ## The rows that pass a test -/

theorem filter_insert (h : t.insert a = some t') :
    t'.rows.filter p = t.rows.filter p ++ if p a then [a] else [] := by
  rw [(insert_some h).2,filter_append,filter_cons]
  rfl

theorem filter_put_other (hb : b ∈ t.rows) (hkey : key b = key a) (ha : p a = false) (hpb : p b = false) :
    (t.put a).rows.filter p = t.rows.filter p := by
  have hsame : ∀ c ∈ t.rows, p (if key c = key a then a else c) = p c := by
    intro c hc
    split
    · rename_i hca
      obtain rfl : c = b := eq_of_key hc hb (hca.trans hkey.symm)
      rw [ha,hpb]
    · rfl
  refine (filter_map ..).trans ?_
  rw [show t.rows.filter (p ∘ fun c => if key c = key a then a else c) = t.rows.filter p from
    filter_congr hsame]
  refine (map_congr_left ?_).trans (map_id _)
  intro c hc
  obtain ⟨hc,hpc⟩ := mem_filter.mp hc
  refine if_neg fun hca => ?_
  obtain rfl : c = b := eq_of_key hc hb (hca.trans hkey.symm)
  rw [hpb] at hpc
  cases hpc

theorem filter_put (h : ∀ c ∈ t.rows, key c = key a → p c = p a) :
    (t.put a).rows.filter p = (t.rows.filter p).map fun c => if key c = key a then a else c := by
  refine (filter_map ..).trans ?_
  rw [show t.rows.filter (p ∘ fun c => if key c = key a then a else c) = t.rows.filter p from ?_]
  refine filter_congr fun c hc => ?_
  dsimp only [Function.comp_apply]
  split
  · rename_i hkey
    exact (h c hc hkey).symm
  · rfl

theorem filter_put_self (h : t.rows.filter p = [b]) (hkey : key b = key a) :
    (t.put a).rows.filter p = if p a then [a] else [] := by
  have hrows : ∀ rows : List α, (rows.map key).Nodup → rows.filter p = [b] →
      (rows.map fun c => if key c = key a then a else c).filter p = if p a then [a] else [] := by
    intro rows
    induction rows with
    | nil => exact fun _ h => nomatch h
    | cons c rest ih =>
      intro hnodup h
      obtain ⟨hnew,hrest⟩ := nodup_cons.mp hnodup
      have hold : ∀ d ∈ rest, key d ≠ key c := fun d hd hdc => hnew (hdc ▸ mem_map_of_mem hd)
      cases hpc : p c with
      | true =>
        rw [filter_cons_of_pos hpc] at h
        obtain ⟨rfl,hnone⟩ := List.cons.inj h
        have hmap : (rest.map fun d => if key d = key a then a else d) = rest := by
          refine (map_congr_left ?_).trans (map_id _)
          exact fun d hd => if_neg (hkey ▸ hold d hd)
        rw [map_cons,if_pos hkey,hmap,filter_cons,hnone]
      | false =>
        rw [filter_cons_of_neg (by simp [hpc])] at h
        have hb : b ∈ rest := (mem_filter.mp (h ▸ mem_singleton_self b)).1
        have hca : key c ≠ key a := fun hca => hold b hb (hkey.trans hca.symm)
        rw [map_cons,if_neg hca,filter_cons_of_neg (by simp [hpc])]
        exact ih hrest h
  exact hrows t.rows t.unique h

theorem countP_change {f : α → α} {hf : ∀ c, key (if key c = k then f c else c) = key c} (h : t.get k = some a)
    (p : α → Bool) :
    (t.change (fun c => if key c = k then f c else c) hf).rows.countP p + (if p a then 1 else 0) =
      t.rows.countP p + if p (f a) then 1 else 0 := by
  obtain ⟨hmem,rfl⟩ := get_eq_some.mp h
  obtain ⟨before,after,hrows⟩ := append_of_mem hmem
  have hother : ∀ c ∈ before ++ after, key c ≠ key a := by
    have hunique := t.unique
    rw [hrows,map_append,map_cons] at hunique
    have hnew := (nodup_middle.mp hunique)
    rw [← map_append,nodup_cons] at hnew
    exact fun c hc hkey => hnew.1 (hkey ▸ mem_map_of_mem hc)
  have hsame : ∀ cs : List α, (∀ c ∈ cs, key c ≠ key a) → cs.map (fun c => if key c = key a then f c else c) = cs := by
    intro cs hcs
    refine (map_congr_left ?_).trans (map_id _)
    exact fun c hc => if_neg (hcs c hc)
  have hbefore := hsame before fun c hc => hother c (mem_append_left _ hc)
  have hafter := hsame after fun c hc => hother c (mem_append_right _ hc)
  simp only [change,hrows,map_append,map_cons,hbefore,hafter,if_true,countP_append,countP_cons]
  omega

end Table

end Bdb
