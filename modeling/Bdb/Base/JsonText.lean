import Bdb.Base.Json
import Mathlib.Algebra.GroupWithZero.Nat

/-! # Canonical text is unambiguous

The text of a value is written without blanks. A value is recognised by its first
character and ends before any character that is not part of a number, so a text
can be cut off the front of a longer one in only one way.
-/
namespace Bdb.Json

open List

/-! ## Strings -/

def hexDigit (n : ℕ) : Char := "0123456789abcdef".toList.getD n '0'

def hexValue (c : Char) : ℕ := "0123456789abcdef".toList.idxOf c

def escapeChar (c : Char) : List Char :=
  if c = '"' then ['\\','"']
  else if c = '\\' then ['\\','\\']
  else if c = '\n' then ['\\','n']
  else if c = '\r' then ['\\','r']
  else if c = '\t' then ['\\','t']
  else if c = '\x08' then ['\\','b']
  else if c = '\x0c' then ['\\','f']
  else if c.toNat < 32 then ['\\','u','0','0',hexDigit (c.toNat / 16),hexDigit (c.toNat % 16)]
  else [c]

/-- Reads one escaped character back; a bare quote ends the string. -/
def readChar : List Char → Option (Char × List Char)
  | [] => none
  | '"' :: _ => none
  | '\\' :: '"' :: r => some ('"',r)
  | '\\' :: '\\' :: r => some ('\\',r)
  | '\\' :: 'n' :: r => some ('\n',r)
  | '\\' :: 'r' :: r => some ('\r',r)
  | '\\' :: 't' :: r => some ('\t',r)
  | '\\' :: 'b' :: r => some ('\x08',r)
  | '\\' :: 'f' :: r => some ('\x0c',r)
  | '\\' :: 'u' :: '0' :: '0' :: a :: b :: r => some (Char.ofNat (16 * hexValue a + hexValue b),r)
  | c :: r => some (c,r)

theorem hexValue_hexDigit : ∀ n < 16, hexValue (hexDigit n) = n := by decide

theorem readChar_escapeChar (c : Char) (r : List Char) :
    readChar (escapeChar c ++ r) = some (c,r) := by
  unfold escapeChar
  split
  · subst c; rfl
  split
  · subst c; rfl
  split
  · subst c; rfl
  split
  · subst c; rfl
  split
  · subst c; rfl
  split
  · subst c; rfl
  split
  · subst c; rfl
  split
  · rename_i hsmall
    have hd := hexValue_hexDigit (c.toNat / 16) (by omega)
    have hm := hexValue_hexDigit (c.toNat % 16) (by omega)
    simp only [cons_append,nil_append,readChar,hd,hm,Nat.div_add_mod,Char.ofNat_toNat]
  · rename_i hquote hslash _ _ _ _ _ _
    simp only [cons_append,nil_append]
    rw [readChar.eq_def]
    split <;> simp_all

theorem readChar_quote (r : List Char) : readChar ('"' :: r) = none := rfl

def escape (cs : List Char) : List Char := cs.flatMap escapeChar

variable {r s : List Char} {c : Char} {n : Int}

theorem escape_quote_inj {cs ds : List Char}
    (h : escape cs ++ '"' :: r = escape ds ++ '"' :: s) : cs = ds ∧ r = s := by
  have hread := congrArg readChar h
  induction cs generalizing ds with
  | nil =>
    cases ds with
    | nil => exact ⟨rfl,by simpa [escape] using h⟩
    | cons d ds =>
      simp only [escape,flatMap_nil,nil_append,flatMap_cons,append_assoc,
        readChar_escapeChar,readChar_quote] at hread
      cases hread
  | cons c cs ih =>
    cases ds with
    | nil =>
      simp only [escape,flatMap_nil,nil_append,flatMap_cons,append_assoc,
        readChar_escapeChar,readChar_quote] at hread
      cases hread
    | cons d ds =>
      simp only [escape,flatMap_cons,append_assoc,readChar_escapeChar,
        Option.some.injEq,Prod.mk.injEq] at hread
      obtain ⟨rfl,hrest⟩ := hread
      obtain ⟨rfl,hr⟩ := ih hrest (congrArg readChar hrest)
      exact ⟨rfl,hr⟩

def quoted (s : String) : List Char := '"' :: (escape s.toList ++ ['"'])

theorem quoted_append_inj {a b : String} (h : quoted a ++ r = quoted b ++ s) : a = b ∧ r = s := by
  simp only [quoted,cons_append,append_assoc,nil_append,List.cons.injEq,true_and] at h
  obtain ⟨hab,hr⟩ := escape_quote_inj h
  exact ⟨String.toList_inj.mp hab,hr⟩

/-! ## Numbers -/

def numberChar (c : Char) : Bool := c.isDigit || c == '-'

/-- What follows a value never continues a number. -/
def Stops (r : List Char) : Prop := ∀ c ∈ r.head?, numberChar c = false

theorem stops_cons (h : numberChar c = false) : Stops (c :: r) := by
  intro d hd
  obtain rfl : c = d := by simpa using hd
  exact h

def intText (n : Int) : List Char := n.repr.toList

theorem numberChar_of_mem_intText (hc : c ∈ intText n) : numberChar c = true := by
  have hdigits : ∀ m : ℕ, c ∈ m.repr.toList → numberChar c = true := by
    intro m hm
    rw [Nat.toList_repr] at hm
    have hd := Nat.isDigit_of_mem_toDigits (by omega) (by omega) hm
    simp [numberChar,hd]
  unfold intText at hc
  rw [Int.repr_eq_if] at hc
  split at hc
  · exact hdigits _ hc
  · rw [String.toList_append] at hc
    rcases mem_append.mp hc with hc | hc
    · obtain rfl : c = '-' := by simpa using hc
      rfl
    · exact hdigits _ hc

theorem intText_ne_nil (n : Int) : intText n ≠ [] := by
  unfold intText
  rw [Int.repr_eq_if]
  split
  · simp [Nat.toList_repr]
  · simp

theorem takeWhile_intText (n : Int) (hr : Stops r) : (intText n ++ r).takeWhile numberChar = intText n := by
  rw [takeWhile_append_of_pos (fun c hc => numberChar_of_mem_intText hc)]
  cases r with
  | nil => simp
  | cons c r => simp [hr c (by simp)]

theorem intText_append_inj {m : Int} (hr : Stops r) (hs : Stops s)
    (h : intText m ++ r = intText n ++ s) : m = n ∧ r = s := by
  have ht := congrArg (List.takeWhile numberChar) h
  rw [takeWhile_intText m hr,takeWhile_intText n hs] at ht
  refine ⟨Int.repr_inj.mp (String.toList_inj.mp ht),?_⟩
  rw [ht] at h
  exact append_cancel_left h

/-! ## Values -/

mutual
def text : Json → List Char
  | .null => ['n','u','l','l']
  | .bool true => ['t','r','u','e']
  | .bool false => ['f','a','l','s','e']
  | .int n => intText n
  | .str s => quoted s
  | .arr [] => ['[',']']
  | .arr (x :: xs) => '[' :: (text x ++ textItems xs)
  | .obj [] => ['{','}']
  | .obj ((k, x) :: fs) => '{' :: (quoted k ++ ':' :: (text x ++ textFields fs))
def textItems : List Json → List Char
  | [] => [']']
  | x :: xs => ',' :: (text x ++ textItems xs)
def textFields : List (String × Json) → List Char
  | [] => ['}']
  | (k, x) :: fs => ',' :: (quoted k ++ ':' :: (text x ++ textFields fs))
end

theorem stops_textItems (xs : List Json) (r : List Char) : Stops (textItems xs ++ r) := by
  cases xs <;> exact stops_cons rfl

theorem stops_textFields (fs : Fields) (r : List Char) : Stops (textFields fs ++ r) := by
  cases fs <;> exact stops_cons rfl

/-- The constructor of a value, read off its first character. -/
def leadKind : List Char → ℕ
  | 'n' :: _ => 0
  | 't' :: _ => 1
  | 'f' :: _ => 1
  | '"' :: _ => 3
  | '[' :: _ => 4
  | '{' :: _ => 5
  | c :: _ => if numberChar c then 2 else 6
  | [] => 6

def kind : Json → ℕ
  | .null => 0
  | .bool _ => 1
  | .int _ => 2
  | .str _ => 3
  | .arr _ => 4
  | .obj _ => 5

theorem leadKind_of_numberChar {c : Char} (h : numberChar c = true) (r : List Char) :
    leadKind (c :: r) = 2 := by
  unfold leadKind
  split
  all_goals rename_i heq; cases heq
  all_goals first | exact absurd h (by decide) | exact if_pos h

theorem leadKind_text (j : Json) (r : List Char) : leadKind (text j ++ r) = kind j := by
  cases j with
  | null => rfl
  | bool b => cases b <;> rfl
  | int n =>
    obtain ⟨c,cs,hc⟩ := exists_cons_of_ne_nil (intText_ne_nil n)
    have hnum : numberChar c = true := numberChar_of_mem_intText (n := n) (by simp [hc])
    simp only [text,hc,cons_append,leadKind_of_numberChar hnum,kind]
  | str s => rfl
  | arr xs => cases xs <;> rfl
  | obj fs => cases fs <;> rfl

theorem text_ne_bracket (j : Json) (r s : List Char) : text j ++ r ≠ ']' :: s := by
  intro h
  have hk := leadKind_text j r
  rw [h] at hk
  cases j <;> cases hk

variable {a b : Json}

theorem kind_eq_of_text {r s : List Char} (h : text a ++ r = text b ++ s) : kind a = kind b := by
  rw [← leadKind_text a r,h,leadKind_text b s]

mutual
theorem text_append_inj : ∀ (a b : Json) (r s : List Char), Stops r → Stops s →
    text a ++ r = text b ++ s → a = b ∧ r = s
  | .null, b, r, s, _, _, h => by
    have hk := kind_eq_of_text h
    cases b <;> simp [kind] at hk
    exact ⟨rfl,append_cancel_left h⟩
  | .bool x, b, r, s, _, _, h => by
    have hk := kind_eq_of_text h
    cases b <;> simp [kind] at hk
    rename_i y
    cases x <;> cases y <;> simp_all [text]
  | .int m, b, r, s, hr, hs, h => by
    have hk := kind_eq_of_text h
    cases b <;> simp [kind] at hk
    obtain ⟨rfl,hrs⟩ := intText_append_inj hr hs h
    exact ⟨rfl,hrs⟩
  | .str x, b, r, s, _, _, h => by
    have hk := kind_eq_of_text h
    cases b <;> simp [kind] at hk
    obtain ⟨rfl,hrs⟩ := quoted_append_inj h
    exact ⟨rfl,hrs⟩
  | .arr xs, b, r, s, _, _, h => by
    have hk := kind_eq_of_text h
    cases b <;> simp [kind] at hk
    rename_i ys
    obtain ⟨rfl,hrs⟩ := textArr_append_inj xs ys r s h
    exact ⟨rfl,hrs⟩
  | .obj fs, b, r, s, _, _, h => by
    have hk := kind_eq_of_text h
    cases b <;> simp [kind] at hk
    rename_i gs
    obtain ⟨rfl,hrs⟩ := textObj_append_inj fs gs r s h
    exact ⟨rfl,hrs⟩
theorem textArr_append_inj : ∀ (xs ys : List Json) (r s : List Char),
    text (.arr xs) ++ r = text (.arr ys) ++ s → xs = ys ∧ r = s
  | [], [], r, s, h => ⟨rfl,append_cancel_left h⟩
  | [], y :: ys, r, s, h => by
    simp only [text,cons_append,nil_append,List.cons.injEq,true_and,append_assoc] at h
    exact (text_ne_bracket y _ r h.symm).elim
  | x :: xs, [], r, s, h => by
    simp only [text,cons_append,nil_append,List.cons.injEq,true_and,append_assoc] at h
    exact (text_ne_bracket x _ s h).elim
  | x :: xs, y :: ys, r, s, h => by
    simp only [text,cons_append,List.cons.injEq,true_and,append_assoc] at h
    obtain ⟨rfl,hrest⟩ := text_append_inj x y _ _ (stops_textItems xs r) (stops_textItems ys s) h
    obtain ⟨rfl,hrs⟩ := textItems_append_inj xs ys r s hrest
    exact ⟨rfl,hrs⟩
theorem textItems_append_inj : ∀ (xs ys : List Json) (r s : List Char),
    textItems xs ++ r = textItems ys ++ s → xs = ys ∧ r = s
  | [], [], r, s, h => ⟨rfl,append_cancel_left h⟩
  | [], y :: ys, r, s, h => by simp [textItems] at h
  | x :: xs, [], r, s, h => by simp [textItems] at h
  | x :: xs, y :: ys, r, s, h => by
    simp only [textItems,cons_append,List.cons.injEq,true_and,append_assoc] at h
    obtain ⟨rfl,hrest⟩ := text_append_inj x y _ _ (stops_textItems xs r) (stops_textItems ys s) h
    obtain ⟨rfl,hrs⟩ := textItems_append_inj xs ys r s hrest
    exact ⟨rfl,hrs⟩
theorem textObj_append_inj : ∀ (fs gs : Fields) (r s : List Char),
    text (.obj fs) ++ r = text (.obj gs) ++ s → fs = gs ∧ r = s
  | [], [], r, s, h => ⟨rfl,append_cancel_left h⟩
  | [], (l, y) :: gs, r, s, h => by simp [text,quoted] at h
  | (k, x) :: fs, [], r, s, h => by simp [text,quoted] at h
  | (k, x) :: fs, (l, y) :: gs, r, s, h => by
    simp only [text,cons_append,List.cons.injEq,true_and,append_assoc] at h
    obtain ⟨rfl,hvalue⟩ := quoted_append_inj h
    obtain ⟨rfl,hrest⟩ := text_append_inj x y _ _ (stops_textFields fs r) (stops_textFields gs s)
      (List.cons.inj hvalue).2
    obtain ⟨rfl,hrs⟩ := textFields_append_inj fs gs r s hrest
    exact ⟨rfl,hrs⟩
theorem textFields_append_inj : ∀ (fs gs : Fields) (r s : List Char),
    textFields fs ++ r = textFields gs ++ s → fs = gs ∧ r = s
  | [], [], r, s, h => ⟨rfl,append_cancel_left h⟩
  | [], (l, y) :: gs, r, s, h => by simp [textFields] at h
  | (k, x) :: fs, [], r, s, h => by simp [textFields] at h
  | (k, x) :: fs, (l, y) :: gs, r, s, h => by
    simp only [textFields,cons_append,List.cons.injEq,true_and,append_assoc] at h
    obtain ⟨rfl,hvalue⟩ := quoted_append_inj h
    obtain ⟨rfl,hrest⟩ := text_append_inj x y _ _ (stops_textFields fs r) (stops_textFields gs s)
      (List.cons.inj hvalue).2
    obtain ⟨rfl,hrs⟩ := textFields_append_inj fs gs r s hrest
    exact ⟨rfl,hrs⟩
end

/-- The canonical text of a document, with its final newline. -/
def canonicalText (j : Json) : List Char := text (canon j) ++ ['\n']

theorem canon_eq_of_canonicalText (h : canonicalText a = canonicalText b) : canon a = canon b :=
  (text_append_inj _ _ _ _ (stops_cons rfl) (stops_cons rfl) h).1

def byteLength (cs : List Char) : ℕ := (cs.map Char.utf8Size).sum

end Bdb.Json
