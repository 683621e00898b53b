import Bdb.Base.PyText

/-! # Semantic digests

A digest covers the canonical text of a document without its volatile fields, so
timestamps and free messages never change an identity.
-/
namespace Bdb.Evidence
open Json

def volatileSemanticKeys : List String :=
  ["inventory_id","observed_at","started_at","finished_at","duration_ms","mtime_ns","ctime_ns",
    "message"]

/-- Keys that never enter a digest, at any depth. -/
def stripped (key : String) : Bool :=
  decide (key ∈ volatileSemanticKeys) || decide (key ∈ ["semantic_digest","representation","sanitization"])

mutual
def semanticPayload : Json → Json
  | .arr xs => .arr (payloadList xs)
  | .obj fs => .obj (payloadFields fs)
  | .null => .null
  | .bool b => .bool b
  | .int n => .int n
  | .str s => .str s
def payloadList : List Json → List Json
  | [] => []
  | x :: xs => semanticPayload x :: payloadList xs
def payloadFields : Fields → Fields
  | [] => []
  | (k, x) :: fs =>
    if stripped k then payloadFields fs else (k,semanticPayload x) :: payloadFields fs
end

def semanticDigest (rt : Runtime) (report : Fields) : String :=
  "sha256:" ++ rt.sha256 (canonicalText (semanticPayload (.obj report)))

@[simp] theorem payloadList_eq_map (xs : List Json) : payloadList xs = xs.map semanticPayload := by
  induction xs with
  | nil => rfl
  | cons x xs ih => simp [payloadList,ih]

theorem lookup_payloadFields (k : String) (fs : Fields) :
    (payloadFields fs).lookup k = if stripped k then none else (fs.lookup k).map semanticPayload := by
  induction fs with
  | nil => simp [payloadFields]
  | cons p fs ih =>
    obtain ⟨l,x⟩ := p
    simp only [payloadFields]
    by_cases hl : stripped l = true
    · simp only [hl,↓reduceIte,ih]
      split
      · rfl
      · rename_i hk
        have hkl : k ≠ l := fun h => hk (h ▸ hl)
        simp only [lookup_cons_ite,if_neg hkl]
    · simp only [hl,Bool.false_eq_true,↓reduceIte,lookup_cons_ite,ih]
      by_cases hkl : k = l
      · subst k
        simp [hl]
      · simp only [if_neg hkl]

/-- The identity of a document up to field order and volatile fields. -/
def semanticForm (j : Json) : Json := canon (semanticPayload j)

theorem semanticForm_eq_of_digest {rt : Runtime} {a b : Fields}
    (hinj : rt.sha256 (canonicalText (semanticPayload (.obj a))) =
        rt.sha256 (canonicalText (semanticPayload (.obj b))) →
      canonicalText (semanticPayload (.obj a)) = canonicalText (semanticPayload (.obj b)))
    (h : semanticDigest rt a = semanticDigest rt b) :
    semanticForm (.obj a) = semanticForm (.obj b) := by
  have hsha : rt.sha256 (canonicalText (semanticPayload (.obj a))) =
      rt.sha256 (canonicalText (semanticPayload (.obj b))) := by
    have hl := congrArg String.toList h
    simp only [semanticDigest,String.toList_append] at hl
    exact String.toList_inj.mp (List.append_cancel_left hl)
  exact canon_eq_of_canonicalText (hinj hsha)

@[simp] theorem semanticForm_str (s : String) : semanticForm (.str s) = .str s := rfl

@[simp] theorem semanticForm_arr (xs : List Json) :
    semanticForm (.arr xs) = .arr (xs.map semanticForm) := by
  simp [semanticForm,semanticPayload,canon,Function.comp_def]

end Bdb.Evidence
