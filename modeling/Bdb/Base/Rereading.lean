import Bdb.Base.PyText

/-! # Documents that are read again as what they were read as

A reader rereads when the document written for an accepted value is read as that value
again. The law goes through lists and through mappings that are read key by key.
-/
namespace Bdb

open List

variable {α β : Type}

/-- Every accepted value is read again from the document written for it. -/
def Rereads (read : Json → Outcome α) (write : α → Json) : Prop :=
  ∀ {value a}, read value = .ok a → read (write a) = .ok a

theorem map_ok {x : Outcome α} {f : α → β} {b : β} : f <$> x = .ok b ↔ ∃ a, x = .ok a ∧ f a = b := by
  cases x <;> simp [Functor.map,Except.map]

section Lists
variable {read : Json → Outcome α} {write : α → Json}

theorem Rereads.document (h : Rereads read write) : Rereads (fun v => write <$> read v) id := by
  intro value j hj
  obtain ⟨a,ha,rfl⟩ := map_ok.mp hj
  exact map_ok.mpr ⟨a,h ha,rfl⟩

theorem Rereads.mapM (h : Rereads read write) {xs : List Json} {as : List α}
    (hread : xs.mapM read = .ok as) : (as.map write).mapM read = .ok as ∧ as.length = xs.length := by
  induction xs generalizing as with
  | nil =>
    obtain rfl := pure_ok.mp hread
    exact ⟨rfl,rfl⟩
  | cons x xs ih =>
    rw [mapM_cons] at hread
    obtain ⟨a,ha,hread⟩ := bind_ok.mp hread
    obtain ⟨rest,hrest,hread⟩ := bind_ok.mp hread
    obtain rfl := pure_ok.mp hread
    obtain ⟨hagain,hlen⟩ := ih hrest
    refine ⟨?_,congrArg (· + 1) hlen⟩
    rw [map_cons,mapM_cons]
    exact bind_of (h ha) (bind_of hagain rfl)

end Lists

/-! ## Mappings -/

namespace Fields

variable {fs : Fields} {k : String} {p : String × Json}

theorem isSome_lookup : (fs.lookup k).isSome = true ↔ k ∈ fs.map (·.1) := by
  induction fs with
  | nil => simp
  | cons p fs ih =>
    obtain ⟨l,x⟩ := p
    rw [Json.lookup_cons_ite,map_cons,mem_cons]
    split_ifs with hk
    · simp [hk]
    · rw [ih]
      simp [hk]

theorem lookup_eq_none : fs.lookup k = none ↔ k ∉ fs.map (·.1) := by
  rw [← isSome_lookup,Option.not_isSome_iff_eq_none]

theorem lookup_of_mem (hnodup : (fs.map (·.1)).Nodup) (hp : p ∈ fs) :
    fs.lookup p.1 = some p.2 := by
  induction fs with
  | nil => cases hp
  | cons q fs ih =>
    obtain ⟨l,x⟩ := q
    obtain ⟨hfresh,hrest⟩ := nodup_cons.mp hnodup
    rw [Json.lookup_cons_ite]
    rcases mem_cons.mp hp with rfl | hmem
    · exact if_pos rfl
    · have hne : p.1 ≠ l := by
        rintro rfl
        exact hfresh (mem_map.mpr ⟨p,hmem,rfl⟩)
      rw [if_neg hne,ih hrest hmem]

theorem get_of_mem (hnodup : (fs.map (·.1)).Nodup) (hp : p ∈ fs) :
    fs.get p.1 = p.2 := by
  rw [Fields.get,lookup_of_mem hnodup hp]
  rfl

end Fields

/-- The values of some keys of a mapping, each read in its own way. -/
def readKeys (read : String → Json → Outcome Json) (fs : Fields) (keys : List String) : Outcome Fields :=
  keys.mapM (fun k => do
    let j ← read k (fs.get k)
    pure (k,j))

section Keys
variable {read : String → Json → Outcome Json} {fs out : Fields} {keys : List String}

theorem readKeys_keys (h : readKeys read fs keys = .ok out) : out.map (·.1) = keys := by
  induction keys generalizing out with
  | nil =>
    obtain rfl := pure_ok.mp h
    rfl
  | cons k keys ih =>
    rw [readKeys,mapM_cons] at h
    obtain ⟨p,hp,h⟩ := bind_ok.mp h
    obtain ⟨rest,hrest,h⟩ := bind_ok.mp h
    obtain ⟨_,hp⟩ := rest_ok hp
    obtain rfl := pure_ok.mp hp
    obtain rfl := pure_ok.mp h
    exact congrArg (k :: ·) (ih hrest)

theorem readKeys_again (hread : ∀ k, Rereads (read k) id) (h : readKeys read fs keys = .ok out)
    {gs : Fields} (hgs : ∀ p ∈ out, gs.get p.1 = p.2) : readKeys read gs keys = .ok out := by
  induction keys generalizing out with
  | nil => exact h
  | cons k keys ih =>
    rw [readKeys,mapM_cons] at h ⊢
    obtain ⟨p,hp,h⟩ := bind_ok.mp h
    obtain ⟨rest,hrest,h⟩ := bind_ok.mp h
    obtain ⟨j,hj,hp⟩ := bind_ok.mp hp
    obtain rfl := pure_ok.mp hp
    obtain rfl := pure_ok.mp h
    have hk : gs.get k = j := hgs (k,j) mem_cons_self
    have hrest' := ih hrest fun p hp => hgs p (mem_cons_of_mem _ hp)
    refine bind_ok.mpr ⟨(k,j),bind_ok.mpr ⟨j,?_,rfl⟩,bind_of hrest' rfl⟩
    rw [hk]
    exact hread k hj

end Keys

end Bdb
