import Bdb.Base.Bytes
import Bdb.Base.PyText

/-! # Exact replacements

A batch of replacements is applied to a text. Each old text must be found exactly once; where
it is not, line endings of a text that uses only one kind may be compared as line feeds.
-/
namespace Bdb.Bridge

def decodeUtf8 (b : Bytes) : Option String := String.fromUTF8? ⟨b.toArray⟩

def encodeUtf8 (s : String) : Bytes := s.toUTF8.toList

theorem toList_loop (b : ByteArray) (i : ℕ) (r : List UInt8) (h : i ≤ b.size) :
    ByteArray.toList.loop b i r = r.reverse ++ b.data.toList.drop i := by
  have hlen : b.data.toList.length = b.size := rfl
  induction hn : b.size - i generalizing i r with
  | zero =>
    unfold ByteArray.toList.loop
    rw [if_neg (by omega),List.drop_eq_nil_of_le (by omega),List.append_nil]
  | succ n ih =>
    have hlt : i < b.size := by omega
    have hi : i < b.data.toList.length := by omega
    have hget : b.get! i = b.data.toList[i] := by
      change b.data[i]! = _
      rw [getElem!_pos b.data i hlt]
      rfl
    have hrest := ih (i + 1) (b.get! i :: r) (by omega) (by omega)
    unfold ByteArray.toList.loop
    rw [if_pos hlt,hrest,List.drop_eq_getElem_cons hi,List.reverse_cons,List.append_assoc,hget]
    rfl

@[simp] theorem decodeUtf8_encodeUtf8 (s : String) : decodeUtf8 (encodeUtf8 s) = some s := by
  have hbytes : (⟨(encodeUtf8 s).toArray⟩ : ByteArray) = s.toUTF8 := by
    unfold encodeUtf8 ByteArray.toList
    rw [toList_loop _ _ _ (Nat.zero_le _)]
    rfl
  unfold decodeUtf8 String.fromUTF8?
  rw [hbytes]
  exact dif_pos s.isValidUTF8

/-! ## Pairs -/

def maxExactReplacements : ℕ := 16

def replacementPair (index : ℕ) (item : Json) : Outcome (String × String) :=
  match item with
  | .obj fields =>
    match Fields.get fields "old", Fields.get fields "new" with
    | .str old, .str new =>
      if old = "" then
        fail "invalid_payload" ("replacement " ++ toString index ++ " requires non-empty old and string new")
      else .ok (old,new)
    | _, _ => fail "invalid_payload" ("replacement " ++ toString index ++ " requires non-empty old and string new")
  | _ => fail "invalid_payload" ("replacement " ++ toString index ++ " must be an object")

def pairsFrom : ℕ → List Json → Outcome (List (String × String))
  | _, [] => .ok []
  | index, item :: rest => do
    let pair ← replacementPair index item
    let more ← pairsFrom (index + 1) rest
    pure (pair :: more)

def replacementPairs (payload : Fields) : Outcome (List (String × String)) := do
  let raw := payload.get "replacements"
  let hasLegacy := (payload.lookup "old").isSome || (payload.lookup "new").isSome
  require (¬ (raw ≠ .null ∧ hasLegacy = true)) "invalid_payload" "Use either old/new or replacements, not both"
  let batch ← if raw = .null then
      match payload.get "old", payload.get "new" with
      | .str old, .str new => .ok (.arr [.obj [("old",.str old),("new",.str new)]])
      | _, _ => fail "invalid_payload" "path, old and new must be strings"
    else .ok raw
  match batch with
  | .arr items =>
    if 1 ≤ items.length ∧ items.length ≤ maxExactReplacements then pairsFrom 1 items
    else fail "invalid_payload" ("replacements must contain 1-" ++ toString maxExactReplacements ++ " items")
  | _ => fail "invalid_payload" ("replacements must contain 1-" ++ toString maxExactReplacements ++ " items")

/-! ## Texts -/

/-- The occurrences of a text that do not overlap, from the left. -/
def countText (old : List Char) : ℕ → List Char → ℕ
  | 0, _ => 0
  | _, [] => 0
  | n + 1, c :: cs =>
    if old.isPrefixOf (c :: cs) then countText old n ((c :: cs).drop old.length) + 1 else countText old n cs

def replaceAll (old new : List Char) : ℕ → List Char → List Char
  | 0, cs => cs
  | _, [] => []
  | n + 1, c :: cs =>
    if old.isPrefixOf (c :: cs) then new ++ replaceAll old new n ((c :: cs).drop old.length)
    else c :: replaceAll old new n cs

def replaceFirst (old new : List Char) : List Char → List Char
  | [] => []
  | c :: cs => if old.isPrefixOf (c :: cs) then new ++ (c :: cs).drop old.length else c :: replaceFirst old new cs

def count (old text : List Char) : ℕ := countText old (text.length + 1) text

def replace (old new text : List Char) : List Char := replaceAll old new (text.length + 1) text

def uniformLineEnding (text : List Char) : Option (List Char) :=
  let withoutCrlf := replace ['\r','\n'] [] text
  let hasCrlf := count ['\r','\n'] text ≠ 0
  let hasLf := withoutCrlf.contains '\n'
  let hasCr := withoutCrlf.contains '\r'
  if (if hasCrlf then 1 else 0) + (if hasLf then 1 else 0) + (if hasCr then 1 else 0) ≠ 1 then none
  else if hasCrlf then some ['\r','\n']
  else if hasLf then some ['\n']
  else some ['\r']

def toLf (text : List Char) : List Char := replace ['\r'] ['\n'] (replace ['\r','\n'] ['\n'] text)

def hasLineEnd (text : List Char) : Bool := text.contains '\n' || text.contains '\r'

/-- One replacement; the line endings of the new text become those of the file. -/
def applyReplacement (targetEol : Option (List Char)) (index : ℕ) (old new current : List Char) : Outcome (List Char) :=
  if count old current = 1 then
    match targetEol with
    | some eol =>
      .ok (replaceFirst old (if hasLineEnd new then replace ['\n'] eol (toLf new) else new) current)
    | none => .ok (replaceFirst old new current)
  else
    let mismatch (found : ℕ) : Outcome (List Char) :=
      fail "replace_mismatch" ("Replacement " ++ toString index ++ ": expected exactly one match, found " ++ toString found)
    match targetEol with
    | some eol =>
      if count old current = 0 ∧ hasLineEnd old = true then
        if count (toLf old) (toLf current) = 1 then
          .ok (replace ['\n'] eol (replaceFirst (toLf old) (toLf new) (toLf current)))
        else mismatch (count (toLf old) (toLf current))
      else mismatch (count old current)
    | none => mismatch (count old current)

def applyFrom (targetEol : Option (List Char)) : ℕ → List (String × String) → List Char → Outcome (List Char)
  | _, [], current => .ok current
  | index, (old, new) :: rest, current => do
    let next ← applyReplacement targetEol index old.toList new.toList current
    applyFrom targetEol (index + 1) rest next

def applyExactReplacements (text : String) (pairs : List (String × String)) : Outcome String := do
  let after ← applyFrom (uniformLineEnding text.toList) 1 pairs text.toList
  pure (String.ofList after)

example : (applyExactReplacements "a\nb" [("b","c")]).toOption = some "a\nc" := by decide +kernel

end Bdb.Bridge
