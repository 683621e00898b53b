import Mathlib.Data.List.Perm.Basic
import Mathlib.Data.List.Range

/-! # Pieces of a list that are exchanged

A list is woven from gaps and pieces. Disjoint spans are exchanged in one pass, which puts the new pieces
between the same gaps.
-/
namespace Bdb

open List

variable {α : Type}

def OccursAt (old text : List α) (i : ℕ) : Prop := old <+: text.drop i

/-- Each gap with the piece after it, and what follows the last piece. -/
def weave (parts : List (List α × List α)) (last : List α) : List α := parts.flatMap (fun p => p.1 ++ p.2) ++ last

/-! ## Spans -/

structure Span (α : Type) where
  start : ℕ
  stop : ℕ
  new : List α

def Span.old (text : List α) (s : Span α) : List α := (text.take s.stop).drop s.start

/-- The text from the cursor on, with the new pieces in the place of the spans. -/
def splice (text : List α) : ℕ → List (Span α) → List α
  | cursor, [] => text.drop cursor
  | cursor, s :: rest => (text.take s.start).drop cursor ++ s.new ++ splice text s.stop rest

theorem drop_take_append (text : List α) {i j : ℕ} (h : i ≤ j) : (text.take j).drop i ++ text.drop j = text.drop i := by
  rw [drop_take,← Nat.add_sub_cancel' h,← drop_drop,Nat.add_sub_cancel_left]
  exact take_append_drop _ _

theorem splice_woven {β : Type} {old new : β → List α} (text : List α) (cursor : ℕ) {items : List β} {spans : List (Span α)}
    (hitems : Forall₂ (fun b s => s.old text = old b ∧ s.new = new b) items spans)
    (hapart : spans.Pairwise fun a b => a.stop ≤ b.start) (hin : ∀ s ∈ spans, cursor ≤ s.start ∧ s.start ≤ s.stop) :
    ∃ (parts : List (List α × β)) (last : List α), parts.map (·.2) = items ∧
      text.drop cursor = weave (parts.map fun p => (p.1,old p.2)) last ∧
      splice text cursor spans = weave (parts.map fun p => (p.1,new p.2)) last := by
  induction hitems generalizing cursor with
  | nil => exact ⟨[],text.drop cursor,rfl,rfl,rfl⟩
  | @cons b s items rest hb _ ih =>
    obtain ⟨hlater,hrest⟩ := pairwise_cons.mp hapart
    obtain ⟨parts,last,rfl,hold,hnew⟩ := ih s.stop hrest fun t ht => ⟨hlater t ht,(hin t (mem_cons_of_mem _ ht)).2⟩
    obtain ⟨hcursor,hstop⟩ := hin s mem_cons_self
    refine ⟨((text.take s.start).drop cursor,b) :: parts,last,rfl,?_,?_⟩
    · rw [← drop_take_append text hcursor,← drop_take_append text hstop,hold,← Span.old,hb.1]
      simp [weave]
    · rw [splice,hnew,hb.2]
      simp [weave]

/-! ## Occurrences -/

variable {old text : List α} {cursor i : ℕ}

theorem OccursAt.le_length (hold : old ≠ []) (h : OccursAt old text i) : i < text.length := by
  by_contra hlarge
  exact hold (prefix_nil.mp (drop_eq_nil_of_le (not_lt.mp hlarge) ▸ h))

variable [DecidableEq α]

theorem isPrefixOf_iff : old.isPrefixOf (text.drop i) ↔ OccursAt old text i := isPrefixOf_iff_prefix

/-- The first place from the cursor on. -/
def findFrom (old text : List α) (cursor : ℕ) : Option ℕ :=
  (range' cursor (text.length + 1 - cursor)).find? fun i => old.isPrefixOf (text.drop i)

/-- All places, also those that overlap: the search goes on one element after the last place found. -/
def positions (old text : List α) : ℕ → ℕ → List ℕ
  | 0, _ => []
  | n + 1, cursor =>
    match findFrom old text cursor with
    | none => []
    | some i => i :: positions old text n (i + 1)

theorem mem_positions (hold : old ≠ []) {n : ℕ} (hfuel : text.length < cursor + n) :
    i ∈ positions old text n cursor ↔ cursor ≤ i ∧ OccursAt old text i := by
  induction n generalizing cursor with
  | zero => exact ⟨nofun,fun h => absurd (h.2.le_length hold) (by omega)⟩
  | succ n ih =>
    have hsearched : ∀ j, cursor ≤ j → OccursAt old text j → j ∈ range' cursor (text.length + 1 - cursor) := fun j hj ho =>
      mem_range'_1.mpr ⟨hj,by have := ho.le_length hold; omega⟩
    unfold positions
    cases hfind : findFrom old text cursor with
    | none =>
      have hnone := find?_eq_none.mp hfind
      exact ⟨nofun,fun h => absurd (isPrefixOf_iff.mpr h.2) (hnone i (hsearched i h.1 h.2))⟩
    | some k =>
      obtain ⟨hk,hmem,hfirst⟩ := find?_range'_eq_some.mp hfind
      rw [mem_cons,ih (by have := (mem_range'_1.mp hmem).1; omega)]
      constructor
      · rintro (rfl | ⟨hle,ho⟩)
        · exact ⟨(mem_range'_1.mp hmem).1,isPrefixOf_iff.mp hk⟩
        · exact ⟨by have := (mem_range'_1.mp hmem).1; omega,ho⟩
      · rintro ⟨hle,ho⟩
        rcases lt_trichotomy i k with hlt | heq | hgt
        · have hnot := hfirst i hle hlt
          rw [isPrefixOf_iff.mpr ho] at hnot
          cases hnot
        · exact .inl heq
        · exact .inr ⟨hgt,ho⟩

/-- The only place at which a piece occurs. -/
def onlyPlace (old text : List α) : Option ℕ :=
  match positions old text (text.length + 1) 0 with
  | [i] => some i
  | _ => none

theorem onlyPlace_some (hold : old ≠ []) (h : onlyPlace old text = some i) (j : ℕ) : OccursAt old text j ↔ j = i := by
  unfold onlyPlace at h
  split at h
  next hone =>
    cases h
    have hmem := mem_positions (i := j) hold (show text.length < 0 + (text.length + 1) by omega)
    rw [hone,mem_singleton] at hmem
    exact ⟨fun ho => hmem.mpr ⟨Nat.zero_le j,ho⟩,fun hj => (hmem.mp hj).2⟩
  next => cases h

end Bdb
