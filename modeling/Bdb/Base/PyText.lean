import Bdb.Base.JsonText
import Bdb.Base.Outcome
import Mathlib.Data.List.DropRight

/-! # Text primitives of the source language

Stripping, case mapping, truth values, membership tests and the conversion of a
value to text follow the language the programs are written in. Case mapping beyond
ASCII, the printed form of containers, the reading of timestamps and the hash
function are tables supplied by the runtime.
-/
namespace Bdb

open List

/-- A timestamp that could be read; one that names a timezone, as a text in UTC Z form. -/
inductive ParsedTime where
  | naive
  | utc (text : String)

structure Runtime where
  upperTable : Char → List Char
  lowerTable : Char → List Char
  repr : Json → String
  fromIsoFormat : String → Option ParsedTime
  sha256 : List Char → String

def isSpace (c : Char) : Bool :=
  let n := c.toNat
  (9 ≤ n && n ≤ 13) || (28 ≤ n && n ≤ 32) || n == 0x85 || n == 0xa0 || n == 0x1680 ||
    (0x2000 ≤ n && n ≤ 0x200a) || n == 0x2028 || n == 0x2029 || n == 0x202f || n == 0x205f ||
    n == 0x3000

def stripChars (cs : List Char) : List Char :=
  ((cs.dropWhile isSpace).reverse.dropWhile isSpace).reverse

def strip (s : String) : String := String.ofList (stripChars s.toList)

def Runtime.upper (rt : Runtime) (s : String) : String :=
  String.ofList (s.toList.flatMap (fun c => if c.toNat < 128 then [c.toUpper] else rt.upperTable c))

def Runtime.lower (rt : Runtime) (s : String) : String :=
  String.ofList (s.toList.flatMap (fun c => if c.toNat < 128 then [c.toLower] else rt.lowerTable c))

namespace Json

/-- The truth value of a document in a condition. -/
def truthy : Json → Bool
  | .null => false
  | .bool b => b
  | .int n => n != 0
  | .str s => s != ""
  | .arr xs => !xs.isEmpty
  | .obj fs => !fs.isEmpty

def isObject : Json → Bool
  | .obj _ => true
  | _ => false

def fields : Json → Fields
  | .obj fs => fs
  | _ => []

/-- The elements a loop over the document visits. -/
def elements : Json → Outcome (List Json)
  | .arr xs => .ok xs
  | .str s => .ok (s.toList.map (fun c => .str c.toString))
  | .obj fs => .ok (fs.map (fun p => .str p.1))
  | _ => fail "TypeError" "object is not iterable"

/-- A copy as a keyed object. -/
def toFields : Json → Outcome Fields
  | .obj fs => .ok fs
  | _ => fail "TypeError" "object is not a mapping"

end Json

def Runtime.str (rt : Runtime) : Json → String
  | .null => "None"
  | .bool true => "True"
  | .bool false => "False"
  | .int n => n.repr
  | .str s => s
  | j => rt.repr j

/-- The value stored under a key, `null` when the key is absent. -/
def Fields.get (fs : Fields) (k : String) : Json := (fs.lookup k).getD .null

/-- The value stored under a key, or a default when the key is absent. -/
def Fields.getOr (fs : Fields) (k : String) (default : Json) : Json := (fs.lookup k).getD default

/-! ## Bounded text fields -/

def boundedText (invalid tooLarge : String) (value : Json) (field : String) (maxLength : ℕ)
    (required : Bool) : Outcome String :=
  match value with
  | .str s => do
    let v := strip s
    require (required = true → v ≠ "") invalid (field ++ " must not be empty")
    require (v.length ≤ maxLength) tooLarge (field ++ " exceeds its bound")
    pure v
  | _ => fail invalid (field ++ " must be text")

theorem boundedText_ok {invalid tooLarge field v : String} {value : Json} {maxLength : ℕ}
    {required : Bool} (h : boundedText invalid tooLarge value field maxLength required = .ok v) :
    ∃ s, value = .str s ∧ v = strip s ∧ (required = true → v ≠ "") ∧ v.length ≤ maxLength := by
  cases value with
  | str s =>
    simp only [boundedText,bind_ok,require_ok,pure_ok,exists_and_left,exists_const] at h
    obtain ⟨hreq,hlen,rfl⟩ := h
    exact ⟨s,rfl,rfl,hreq,hlen⟩
  | _ => simp [boundedText] at h

/-! ## Safe identifiers -/

def idChar (c : Char) : Bool := c.isAlphanum || c == '.' || c == '_' || c == ':' || c == '-'

/-- One alphanumeric character followed by between `lo` and `hi` identifier characters. -/
def matchesId (lo hi : ℕ) (s : String) : Bool :=
  match s.toList with
  | [] => false
  | c :: cs => c.isAlphanum && decide (lo ≤ cs.length) && decide (cs.length ≤ hi) && cs.all idChar

theorem isSpace_of_idChar {c : Char} (h : idChar c = true) : isSpace c = false := by
  have hrange : (48 ≤ c.toNat ∧ c.toNat ≤ 57) ∨ (65 ≤ c.toNat ∧ c.toNat ≤ 90) ∨
      (97 ≤ c.toNat ∧ c.toNat ≤ 122) ∨ c.toNat = 46 ∨ c.toNat = 95 ∨ c.toNat = 58 ∨ c.toNat = 45 := by
    simp only [idChar,Char.isAlphanum] at h
    delta Char.isAlpha Char.isUpper Char.isLower at h
    simp only [Char.isDigit,Bool.or_eq_true,Bool.and_eq_true,decide_eq_true_eq,beq_iff_eq,ge_iff_le,
      UInt32.le_iff_toNat_le] at h
    rcases h with ((((((h | h) | h) | rfl) | rfl) | rfl) | rfl)
    · exact .inr (.inl h)
    · exact .inr (.inr (.inl h))
    · exact .inl h
    all_goals decide
  simp only [isSpace,Bool.or_eq_false_iff,Bool.and_eq_false_iff,decide_eq_false_iff_not,beq_eq_false_iff_ne]
  omega

theorem stripChars_of_all {cs : List Char} (h : ∀ c ∈ cs, isSpace c = false) : stripChars cs = cs := by
  have hdrop : ∀ xs : List Char, (∀ c ∈ xs, isSpace c = false) → xs.dropWhile isSpace = xs := by
    intro xs hxs
    cases xs with
    | nil => rfl
    | cons x rest =>
      have hx : isSpace x = false := hxs x mem_cons_self
      simp [hx]
  have hrev : ∀ c ∈ cs.reverse, isSpace c = false := fun c hc => h c (mem_reverse.mp hc)
  rw [stripChars,hdrop cs h,hdrop cs.reverse hrev,reverse_reverse]

theorem stripChars_idem (cs : List Char) : stripChars (stripChars cs) = stripChars cs := by
  have hhead : (stripChars cs).dropWhile isSpace = stripChars cs := by
    rw [dropWhile_eq_self_iff]
    intro hl
    have hpre : stripChars cs <+: cs.dropWhile isSpace := rdropWhile_prefix _ _
    have hself := dropWhile_idempotent isSpace cs
    rw [dropWhile_eq_self_iff] at hself
    rw [hpre.getElem hl]
    exact hself (lt_of_lt_of_le hl hpre.length_le)
  calc stripChars (stripChars cs) = (stripChars cs).rdropWhile isSpace := by
        rw [stripChars,hhead]
        rfl
    _ = stripChars cs := rdropWhile_idempotent _ _

@[simp] theorem strip_strip (s : String) : strip (strip s) = strip s := by
  simp only [strip,String.toList_ofList,stripChars_idem]

theorem strip_repr (n : Int) : strip n.repr = n.repr := by
  have hchars : ∀ c ∈ n.repr.toList, isSpace c = false := by
    intro c hc
    have hnum := Json.numberChar_of_mem_intText hc
    refine isSpace_of_idChar ?_
    rcases (Bool.or_eq_true _ _).mp hnum with hdigit | hminus
    · simp [idChar,Char.isAlphanum,hdigit]
    · simp [idChar,hminus]
  rw [strip,stripChars_of_all hchars,String.ofList_toList]

theorem strip_of_matchesId {lo hi : ℕ} {s : String} (h : matchesId lo hi s = true) : strip s = s := by
  have hall : ∀ c ∈ s.toList, isSpace c = false := by
    unfold matchesId at h
    intro c hc
    cases hs : s.toList with
    | nil => simp [hs] at hc
    | cons a rest =>
      simp only [hs,Bool.and_eq_true,all_eq_true] at h hc
      rcases mem_cons.mp hc with rfl | hc
      · exact isSpace_of_idChar (by simp [idChar,h.1.1.1])
      · exact isSpace_of_idChar (h.2 c hc)
  rw [strip,stripChars_of_all hall,String.ofList_toList]

def matchesAlias (s : String) : Bool :=
  match s.toList with
  | [] => false
  | c :: cs => c.isLower && decide (cs.length ≤ 31) &&
      cs.all (fun c => c.isLower || c.isDigit || c == '-')

def hexChar (c : Char) : Bool := c.isDigit || (decide ('a' ≤ c) && decide (c ≤ 'f'))

def matchesHead (s : String) : Bool :=
  (s.length == 40 || s.length == 64) && s.toList.all hexChar

end Bdb
