import Bdb.Base.Bytes
import Bdb.Base.Dict
import Bdb.Base.Outcome
import Bdb.Base.Splices
import Mathlib.Data.List.Sort

/-! # Exact replacements of bytes

Every old byte string is found at exactly one place of the preimage, and no two of these overlap. They
are all exchanged at once, so the order in which the replacements are listed does not matter.
-/
namespace Bdb.Effects.Candidate

open List

def maxPaths : ℕ := 32

def maxFileBytes : ℕ := 8 * 1024 * 1024

structure CandidateError where
  code : String
  message : String
  details : List (String × ℕ)
deriving DecidableEq

def refuse {α : Type} (code message : String) (details : List (String × ℕ)) : Except CandidateError α :=
  .error ⟨code,message,details⟩

def digest (raw : Bytes) : String := "sha256:" ++ Sha256.hexDigest raw.nats

/-- A replacement as it is handed in; what is not bytes is `none`. -/
inductive Replacement where
  | mapping (old new : Option Bytes)
  | other

namespace Replacement

def old : Replacement → Bytes
  | mapping old _ => old.getD []
  | other => []

def new : Replacement → Bytes
  | mapping _ new => new.getD []
  | other => []

def size (raw : Replacement) : ℕ := raw.old.length + raw.new.length

end Replacement

/-- The span of one replacement. -/
def spanOf (before : Bytes) : Replacement → Except CandidateError (Span UInt8)
  | .other => refuse "replacement_invalid" "exact replacement must be a mapping" []
  | .mapping old new =>
    match old, new with
    | some (b :: bs), some new =>
      let old := b :: bs
      if maxFileBytes < old.length ∨ maxFileBytes < new.length then
        refuse "replacement_budget_exceeded" "exact replacement bytes exceed the file budget" []
      else
        match positions old before (before.length + 1) 0 with
        | [start] => .ok ⟨start,start + old.length,new⟩
        | places => refuse "replacement_match_count" "each exact replacement must match exactly once"
            [("matches",places.length)]
    | _, _ =>
      refuse "replacement_invalid" "exact replacement requires non-empty old and byte new values" []

def spansFrom (before : Bytes) : ℕ → ℕ → List Replacement → Except CandidateError (List (Span UInt8))
  | _, _, [] => .ok []
  | index, total, raw :: rest => do
    let span ← (spanOf before raw).mapError fun e => { e with details := ("index",index) :: e.details }
    let total := total + raw.size
    if maxFileBytes < total then
      refuse "replacement_budget_exceeded" "exact replacement bytes exceed the file budget" []
    else
      let more ← spansFrom before (index + 1) total rest
      pure (span :: more)

def sortSpans (spans : List (Span UInt8)) : List (Span UInt8) := spans.insertionSort fun a b => a.start ≤ b.start

def overlap (spans : List (Span UInt8)) : Bool := (spans.zip spans.tail).any fun p => p.2.start < p.1.stop

/-- What is not a sequence of replacements, or not a text, is `none`. -/
def applyExactReplacements (before : Bytes) (replacements : Option (List Replacement)) (preimageDigest : Option String) :
    Except CandidateError Bytes :=
  if preimageDigest ≠ some (digest before) then
    refuse "replacement_preimage_mismatch" "exact replacement preimage does not match the current file" []
  else
    match replacements with
    | none | some [] => refuse "replacement_invalid" "exact replacement set must be non-empty" []
    | some raws =>
      if maxPaths < raws.length then refuse "replacement_budget_exceeded" "exact replacement set is too large" []
      else do
        let spans ← spansFrom before 0 0 raws
        let sorted := sortSpans spans
        if overlap sorted = true then refuse "replacement_overlap" "exact replacement spans overlap" []
        else
          let result := splice before 0 sorted
          if maxFileBytes < result.length then
            refuse "replacement_result_too_large" "exact replacement postimage exceeds the file budget" []
          else pure result

/-! ## Spans -/

/-- The span is the only place at which the old bytes occur. -/
structure Placed (before : Bytes) (raw : Replacement) (s : Span UInt8) : Prop where
  nonempty : raw.old ≠ []
  only : ∀ i, OccursAt raw.old before i ↔ i = s.start
  stop : s.stop = s.start + raw.old.length
  new : s.new = raw.new

variable {before result : Bytes} {raws raws' : List Replacement} {raw : Replacement} {s : Span UInt8}
  {spans : List (Span UInt8)} {index total : ℕ} {preimageDigest : Option String}

theorem spanOf_placed (h : spanOf before raw = .ok s) : Placed before raw s := by
  unfold spanOf at h
  split at h
  · cases h
  · split at h
    · rename_i b bs new
      dsimp only at h
      split at h
      · cases h
      · split at h
        · rename_i hone
          cases h
          exact ⟨cons_ne_nil _ _,onlyPlace_some (cons_ne_nil b bs) (show onlyPlace (b :: bs) before = _ by rw [onlyPlace,hone]),rfl,rfl⟩
        · cases h
    · cases h

theorem mapError_ok {x : Except CandidateError (Span UInt8)} {f : CandidateError → CandidateError} :
    x.mapError f = .ok s ↔ x = .ok s := by
  cases x <;> simp [Except.mapError]

theorem spansFrom_ok (htotal : total ≤ maxFileBytes) : spansFrom before index total raws = .ok spans ↔
    Forall₂ (fun raw s => spanOf before raw = .ok s) raws spans ∧
      total + (raws.map Replacement.size).sum ≤ maxFileBytes := by
  induction raws generalizing index total spans with
  | nil =>
    rw [spansFrom]
    constructor
    · rintro ⟨⟩
      exact ⟨.nil,by simpa using htotal⟩
    · rintro ⟨⟨⟩,-⟩
      rfl
  | cons raw raws ih =>
    rw [spansFrom,map_cons,sum_cons,← Nat.add_assoc]
    constructor
    · intro h
      obtain ⟨s,hs,h⟩ := bind_ok.mp h
      dsimp only at h
      split at h
      · cases h
      · rename_i hfits
        obtain ⟨more,hmore,h⟩ := bind_ok.mp h
        cases pure_ok.mp h
        obtain ⟨hall,hsum⟩ := (ih (not_lt.mp hfits)).mp hmore
        exact ⟨.cons (mapError_ok.mp hs) hall,hsum⟩
    · rintro ⟨hall,hsum⟩
      obtain ⟨s,more,hs,hrest,rfl⟩ := forall₂_cons_left_iff.mp hall
      have hfits : total + raw.size ≤ maxFileBytes := by omega
      refine bind_ok.mpr ⟨s,mapError_ok.mpr hs,?_⟩
      dsimp only
      rw [if_neg (not_lt.mpr hfits)]
      exact bind_ok.mpr ⟨more,(ih hfits).mpr ⟨hrest,hsum⟩,rfl⟩

theorem apart_of_not_overlap (hle : ∀ s ∈ spans, s.start ≤ s.stop) (h : overlap spans = false) :
    spans.Pairwise fun a b => a.stop ≤ b.start := by
  induction spans with
  | nil => exact .nil
  | cons a spans ih =>
    cases spans with
    | nil => exact pairwise_singleton ..
    | cons b spans =>
      obtain ⟨hab,hrest⟩ := Bool.or_eq_false_iff.mp (show (decide (b.start < a.stop) || overlap (b :: spans)) = false from h)
      have hab : a.stop ≤ b.start := not_lt.mp (of_decide_eq_false hab)
      have hpairs := ih (fun s hs => hle s (mem_cons_of_mem _ hs)) hrest
      refine pairwise_cons.mpr ⟨fun c hc => ?_,hpairs⟩
      rcases mem_cons.mp hc with rfl | hc
      · exact hab
      · exact (hab.trans (hle b (by simp))).trans ((pairwise_cons.mp hpairs).1 c hc)

/-- What an accepted call has found. -/
structure Accepted (before : Bytes) (raws : List Replacement) (result : Bytes) (spans : List (Span UInt8)) : Prop where
  found : Forall₂ (fun raw s => spanOf before raw = .ok s) raws spans
  budget : (raws.map Replacement.size).sum ≤ maxFileBytes
  disjoint : overlap (sortSpans spans) = false
  result : splice before 0 (sortSpans spans) = result

theorem applyExactReplacements_ok : applyExactReplacements before (some raws) preimageDigest = .ok result ↔
    preimageDigest = some (digest before) ∧ raws ≠ [] ∧ raws.length ≤ maxPaths ∧ result.length ≤ maxFileBytes ∧
      ∃ spans, Accepted before raws result spans := by
  unfold applyExactReplacements
  by_cases hdigest : preimageDigest = some (digest before)
  swap
  · simp [hdigest,refuse]
  rw [if_neg (not_not.mpr hdigest)]
  cases raws with
  | nil => simp [refuse]
  | cons raw raws =>
    dsimp only
    by_cases hmany : maxPaths < (raw :: raws).length
    · rw [if_pos hmany]
      exact ⟨nofun,fun h => absurd h.2.2.1 (not_le.mpr hmany)⟩
    rw [if_neg hmany,bind_ok]
    refine ⟨?_,?_⟩
    · rintro ⟨spans,hspans,h⟩
      obtain ⟨hfound,hbudget⟩ := (spansFrom_ok (Nat.zero_le _)).mp hspans
      split at h
      · cases h
      · rename_i hdisjoint
        split at h
        · cases h
        · rename_i hsize
          cases pure_ok.mp h
          exact ⟨hdigest,cons_ne_nil _ _,not_lt.mp hmany,not_lt.mp hsize,spans,hfound,by omega,by simpa using hdisjoint,rfl⟩
    · rintro ⟨-,-,-,hsize,spans,h⟩
      refine ⟨spans,(spansFrom_ok (Nat.zero_le _)).mpr ⟨h.found,by simpa using h.budget⟩,?_⟩
      rw [if_neg (by simp [h.disjoint]),h.result,if_neg (not_lt.mpr hsize)]
      rfl

/-! ## Simultaneous replacement -/

/-- Neither of the two meets the other, wherever they occur. -/
def Apart (before : Bytes) (a b : Replacement) : Prop :=
  ∀ i j, OccursAt a.old before i → OccursAt b.old before j → i + a.old.length ≤ j ∨ j + b.old.length ≤ i

/-- The old pieces stand between the same gaps in the one text as the new ones in the other. -/
def Exchanged (raws : List Replacement) (before result : Bytes) : Prop :=
  ∃ (parts : List (Bytes × Replacement)) (last : Bytes), (parts.map (·.2)).Perm raws ∧
    before = weave (parts.map fun p => (p.1,p.2.old)) last ∧ result = weave (parts.map fun p => (p.1,p.2.new)) last

theorem Placed.old_eq (h : Placed before raw s) : s.old before = raw.old := by
  have hplace : raw.old <+: before.drop s.start := (h.only s.start).mpr rfl
  rw [Span.old,drop_take,h.stop,Nat.add_sub_cancel_left,← prefix_iff_eq_take.mp hplace]

theorem Placed.start_lt (h : Placed before raw s) : s.start < s.stop := by
  rw [h.stop]
  exact Nat.lt_add_of_pos_right (length_pos_iff.mpr h.nonempty)

theorem sortSpans_perm (spans : List (Span UInt8)) : (sortSpans spans).Perm spans := perm_insertionSort _ spans

namespace Accepted

theorem placed (h : Accepted before raws result spans) : Forall₂ (Placed before) raws spans :=
  h.found.imp fun _ _ => spanOf_placed

theorem start_lt (h : Accepted before raws result spans) (hs : s ∈ spans) : s.start < s.stop := by
  obtain ⟨_,_,hplaced⟩ := exists_of_forall₂_right h.placed hs
  exact hplaced.start_lt

theorem apart (h : Accepted before raws result spans) : (sortSpans spans).Pairwise fun a b => a.stop ≤ b.start :=
  apart_of_not_overlap (fun _ hs => (h.start_lt ((sortSpans_perm spans).subset hs)).le) h.disjoint

theorem pairwise_apart (h : Accepted before raws result spans) : raws.Pairwise (Apart before) := by
  have hspans : spans.Pairwise fun a b => a.stop ≤ b.start ∨ b.stop ≤ a.start :=
    (sortSpans_perm spans).pairwise (h.apart.imp .inl) Or.symm
  refine pairwise_of_forall₂ h.placed.flip (fun s t a b ha hb hst i j hi hj => ?_) hspans
  rw [(ha.only i).mp hi,(hb.only j).mp hj,← ha.stop,← hb.stop]
  exact hst

theorem exchanged (h : Accepted before raws result spans) : Exchanged raws before result := by
  obtain ⟨items,hitems,hperm⟩ := perm_comp_forall₂ (sortSpans_perm spans) h.placed.flip
  obtain ⟨parts,last,rfl,hold,hnew⟩ := splice_woven before 0 (hitems.flip.imp fun _ _ hplaced =>
    ⟨hplaced.old_eq,hplaced.new⟩) h.apart fun s hs => ⟨Nat.zero_le _,(h.start_lt ((sortSpans_perm spans).subset hs)).le⟩
  exact ⟨parts,last,hperm,hold,h.result.symm.trans hnew⟩

/-- Spans that start at different places are sorted in one way. -/
theorem perm (h : Accepted before raws result spans) (hperm : raws'.Perm raws) :
    ∃ spans', Accepted before raws' result spans' := by
  obtain ⟨spans',hfound,hspans⟩ := perm_comp_forall₂ hperm h.found
  have hstarts : ((sortSpans spans).map Span.start).Nodup := by
    refine pairwise_map.mpr (h.apart.imp_of_mem fun ha _ hab => ne_of_lt ?_)
    exact (h.start_lt ((sortSpans_perm spans).subset ha)).trans_le hab
  have hpairs := pairwise_insertionSort (fun a b : Span UInt8 => a.start ≤ b.start)
  have hsame := ((sortSpans_perm spans').trans hspans).trans (sortSpans_perm spans).symm
  have hsorted : sortSpans spans' = sortSpans spans :=
    hsame.eq_of_pairwise (fun a b ha hb hab hba =>
      inj_on_of_nodup_map hstarts (hsame.subset ha) hb (hab.antisymm hba)) (hpairs spans') (hpairs spans)
  refine ⟨spans',hfound,(hperm.map Replacement.size).sum_nat.trans_le h.budget,?_,?_⟩
  · rw [hsorted]
    exact h.disjoint
  · rw [hsorted]
    exact h.result

end Accepted

structure Simultaneous (before : Bytes) (raws : List Replacement) (preimageDigest : Option String) (result : Bytes) : Prop where
  once : ∀ raw ∈ raws, ∃! i, OccursAt raw.old before i
  apart : raws.Pairwise (Apart before)
  exchanged : Exchanged raws before result
  anyOrder : ∀ raws' : List Replacement, raws'.Perm raws → applyExactReplacements before (some raws') preimageDigest = .ok result

/-- An accepted call exchanges the only occurrences at once, and any order of the list gives the same bytes. -/
theorem exact_replacements_simultaneous (h : applyExactReplacements before (some raws) preimageDigest = .ok result) :
    Simultaneous before raws preimageDigest result := by
  obtain ⟨hdigest,hsome,hmany,hsize,spans,hspans⟩ := applyExactReplacements_ok.mp h
  refine ⟨fun raw hraw => ?_,hspans.pairwise_apart,hspans.exchanged,fun raws' hperm => ?_⟩
  · obtain ⟨s,_,hs⟩ := exists_of_forall₂_right hspans.placed.flip hraw
    exact ⟨s.start,(hs.only _).mpr rfl,fun i hi => (hs.only i).mp hi⟩
  · refine applyExactReplacements_ok.mpr ⟨hdigest,?_,hperm.length_eq.trans_le hmany,hsize,hspans.perm hperm⟩
    rintro rfl
    exact hsome hperm.symm.eq_nil

/-- One byte becomes two, and another one is dropped. -/
def sampleReplacements : List Replacement := [.mapping (some [3]) (some []),.mapping (some [1]) (some [9,9])]

theorem sample_replacements_simultaneous : Simultaneous [1,2,3] sampleReplacements (some (digest [1,2,3])) [9,9,2] :=
  exact_replacements_simultaneous (show applyExactReplacements _ _ _ = .ok [9,9,2] by decide +kernel)

end Bdb.Effects.Candidate
