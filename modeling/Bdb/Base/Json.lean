import Mathlib.Data.List.Sort
import Mathlib.Data.String.Basic
import Std.Data.String.ToInt

/-! # JSON values and their canonical text

Documents are finite trees of scalars, lists and keyed fields. The canonical text
sorts every field list by key and leaves out all optional blanks. It determines
the value up to the order of fields, which is what a digest comparison relies on.
Numbers are integers: no document of this development stores a fraction.
-/
namespace Bdb

inductive Json where
  | null
  | bool (b : Bool)
  | int (n : Int)
  | str (s : String)
  | arr (xs : List Json)
  | obj (fs : List (String × Json))

abbrev Fields := List (String × Json)

namespace Json

mutual
def decEq : (a b : Json) → Decidable (a = b)
  | .null, .null => isTrue rfl
  | .bool a, .bool b => decidable_of_iff (a = b) (by simp)
  | .int a, .int b => decidable_of_iff (a = b) (by simp)
  | .str a, .str b => decidable_of_iff (a = b) (by simp)
  | .arr a, .arr b => haveI := decEqList a b; decidable_of_iff (a = b) (by simp)
  | .obj a, .obj b => haveI := decEqFields a b; decidable_of_iff (a = b) (by simp)
  | .null, .bool _ | .null, .int _ | .null, .str _ | .null, .arr _ | .null, .obj _
  | .bool _, .null | .bool _, .int _ | .bool _, .str _ | .bool _, .arr _ | .bool _, .obj _
  | .int _, .null | .int _, .bool _ | .int _, .str _ | .int _, .arr _ | .int _, .obj _
  | .str _, .null | .str _, .bool _ | .str _, .int _ | .str _, .arr _ | .str _, .obj _
  | .arr _, .null | .arr _, .bool _ | .arr _, .int _ | .arr _, .str _ | .arr _, .obj _
  | .obj _, .null | .obj _, .bool _ | .obj _, .int _ | .obj _, .str _ | .obj _, .arr _ =>
    isFalse nofun
def decEqList : (a b : List Json) → Decidable (a = b)
  | [], [] => isTrue rfl
  | [], _ :: _ => isFalse nofun
  | _ :: _, [] => isFalse nofun
  | x :: xs, y :: ys =>
    haveI := decEq x y
    haveI := decEqList xs ys
    decidable_of_iff (x = y ∧ xs = ys) (by simp)
def decEqFields : (a b : List (String × Json)) → Decidable (a = b)
  | [], [] => isTrue rfl
  | [], _ :: _ => isFalse nofun
  | _ :: _, [] => isFalse nofun
  | (k, x) :: xs, (l, y) :: ys =>
    haveI := decEq x y
    haveI := decEqFields xs ys
    decidable_of_iff (k = l ∧ x = y ∧ xs = ys) (by simp [and_assoc])
end

instance : DecidableEq Json := decEq

/-! ## Canonical order of fields -/

def sortFields (fs : Fields) : Fields := fs.insertionSort (fun p q => p.1 ≤ q.1)

mutual
/-- The same value with the fields of every object sorted by key. -/
def canon : Json → Json
  | .arr xs => .arr (canonList xs)
  | .obj fs => .obj (sortFields (canonFields fs))
  | .null => .null
  | .bool b => .bool b
  | .int n => .int n
  | .str s => .str s
def canonList : List Json → List Json
  | [] => []
  | x :: xs => canon x :: canonList xs
def canonFields : Fields → Fields
  | [] => []
  | (k, x) :: fs => (k, canon x) :: canonFields fs
end

@[simp] theorem canonList_eq_map (xs : List Json) : canonList xs = xs.map canon := by
  induction xs with
  | nil => rfl
  | cons x xs ih => simp [canonList,ih]

theorem lookup_cons_ite (k l : String) (x : Json) (fs : Fields) :
    ((l,x) :: fs).lookup k = if k = l then some x else fs.lookup k := by
  by_cases h : k = l
  · simp [h]
  · simp [List.lookup_cons,h,beq_false_of_ne h]

theorem lookup_canonFields (k : String) (fs : Fields) :
    (canonFields fs).lookup k = (fs.lookup k).map canon := by
  induction fs with
  | nil => rfl
  | cons p fs ih =>
    obtain ⟨l,x⟩ := p
    simp only [canonFields,lookup_cons_ite]
    split
    · rfl
    · exact ih

theorem lookup_orderedInsert (k : String) (p : String × Json) (fs : Fields) :
    (fs.orderedInsert (fun p q => p.1 ≤ q.1) p).lookup k = (p :: fs).lookup k := by
  induction fs with
  | nil => rfl
  | cons q fs ih =>
    obtain ⟨l,x⟩ := p
    obtain ⟨m,y⟩ := q
    simp only [List.orderedInsert_cons]
    split
    · rfl
    · rename_i hlt
      have hlm : l ≠ m := fun h => hlt (le_of_eq h)
      simp only [lookup_cons_ite] at ih ⊢
      by_cases hkm : k = m
      · simp [hkm,hlm.symm]
      · simp only [if_neg hkm,ih]

@[simp] theorem lookup_sortFields (k : String) (fs : Fields) :
    (sortFields fs).lookup k = fs.lookup k := by
  unfold sortFields
  induction fs with
  | nil => rfl
  | cons p fs ih =>
    obtain ⟨l,x⟩ := p
    rw [List.insertionSort_cons,lookup_orderedInsert]
    simp only [lookup_cons_ite,ih]

theorem lookup_of_canon_obj {fs gs : Fields} (h : canon (.obj fs) = canon (.obj gs)) (k : String) :
    (fs.lookup k).map canon = (gs.lookup k).map canon := by
  have hs : sortFields (canonFields fs) = sortFields (canonFields gs) := by simpa [canon] using h
  have hk := congrArg (List.lookup k) hs
  simpa only [lookup_sortFields,lookup_canonFields] using hk

@[simp] theorem canon_eq_str {j : Json} {s : String} : canon j = .str s ↔ j = .str s := by
  cases j <;> simp [canon]

end Json
end Bdb
