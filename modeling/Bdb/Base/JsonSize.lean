import Bdb.Base.JsonText

/-! # The size of a canonical text

The number of bytes of a canonical text does not depend on the order of fields, so it
can be computed from the value without writing the text.
-/
namespace Bdb.Json

def charSize (c : Char) : ℕ :=
  if c.toNat < 32 then
    if c.toNat = 8 ∨ c.toNat = 9 ∨ c.toNat = 10 ∨ c.toNat = 12 ∨ c.toNat = 13 then 2 else 6
  else if c.toNat = 34 ∨ c.toNat = 92 then 2
  else if c.toNat < 128 then 1
  else if c.toNat < 2048 then 2
  else if c.toNat < 65536 then 3
  else 4

def charsSize : List Char → ℕ
  | [] => 0
  | c :: cs => charSize c + charsSize cs

def stringSize (s : String) : ℕ := charsSize s.toList + 2

mutual
/-- The number of bytes of a text. A list of items takes one bracket and one more
character after each item. -/
def size : Json → ℕ
  | .null => 4
  | .bool true => 4
  | .bool false => 5
  | .int n => byteLength (intText n)
  | .str s => stringSize s
  | .arr [] => 2
  | .arr (x :: xs) => size x + sizeItems xs + 2
  | .obj [] => 2
  | .obj ((k, x) :: fs) => stringSize k + size x + sizeFields fs + 3
def sizeItems : List Json → ℕ
  | [] => 0
  | x :: xs => size x + 1 + sizeItems xs
def sizeFields : Fields → ℕ
  | [] => 0
  | (k, x) :: fs => stringSize k + size x + 2 + sizeFields fs
end

@[simp] theorem byteLength_nil : byteLength [] = 0 := rfl

@[simp] theorem byteLength_cons (c : Char) (cs : List Char) :
    byteLength (c :: cs) = c.utf8Size + byteLength cs := by
  simp [byteLength]

@[simp] theorem byteLength_append (cs ds : List Char) :
    byteLength (cs ++ ds) = byteLength cs + byteLength ds := by
  simp [byteLength]

theorem toNat_eq_iff {c d : Char} : c = d ↔ c.toNat = d.toNat :=
  ⟨fun h => h ▸ rfl,fun h => Char.ext (UInt32.toNat_inj.mp h)⟩

theorem utf8Size_eq (c : Char) : c.utf8Size =
    if c.toNat < 128 then 1 else if c.toNat < 2048 then 2 else if c.toNat < 65536 then 3 else 4 := by
  have hval : c.toNat = c.val.toNat := rfl
  have h1 : (UInt32.ofNatLT 0x7f (by decide)).toNat = 127 := rfl
  have h2 : (UInt32.ofNatLT 0x7ff (by decide)).toNat = 2047 := rfl
  have h3 : (UInt32.ofNatLT 0xffff (by decide)).toNat = 65535 := rfl
  simp only [Char.utf8Size,UInt32.le_iff_toNat_le,h1,h2,h3,hval]
  split_ifs <;> omega

theorem utf8Size_hexDigit (n : ℕ) : (hexDigit n).utf8Size = 1 := by
  unfold hexDigit
  by_cases hn : n < 16
  · have hall : ∀ k < 16, ("0123456789abcdef".toList.getD k '0').utf8Size = 1 := by decide
    exact hall n hn
  · have hlen : "0123456789abcdef".toList.length ≤ n := by
      have h16 : "0123456789abcdef".toList.length = 16 := by decide
      omega
    rw [List.getD_eq_getElem?_getD,List.getElem?_eq_none hlen]
    rfl

theorem byteLength_escapeChar (c : Char) : byteLength (escapeChar c) = charSize c := by
  have hcode : byteLength ['\\','u','0','0',hexDigit (c.toNat / 16),hexDigit (c.toNat % 16)] = 6 := by
    simp only [byteLength_cons,utf8Size_hexDigit,byteLength_nil]
    rfl
  unfold escapeChar
  split
  · subst c; rfl
  split
  · subst c; rfl
  split
  · subst c; rfl
  split
  · subst c; rfl
  split
  · subst c; rfl
  split
  · subst c; rfl
  split
  · subst c; rfl
  rename_i hquote hslash hn hr ht hb hf
  rw [toNat_eq_iff] at hquote hslash hn hr ht hb hf
  have hplain : ¬ (c.toNat = 8 ∨ c.toNat = 9 ∨ c.toNat = 10 ∨ c.toNat = 12 ∨ c.toNat = 13) := by
    rintro (h | h | h | h | h)
    · exact hb h
    · exact ht h
    · exact hn h
    · exact hf h
    · exact hr h
  have hprint : ¬ (c.toNat = 34 ∨ c.toNat = 92) := by
    rintro (h | h)
    · exact hquote h
    · exact hslash h
  split
  · rename_i hsmall
    rw [hcode,charSize,if_pos hsmall,if_neg hplain]
  · rename_i hlarge
    rw [byteLength_cons,byteLength_nil,Nat.add_zero,utf8Size_eq,charSize,if_neg hlarge,if_neg hprint]

theorem byteLength_escape (cs : List Char) : byteLength (escape cs) = charsSize cs := by
  induction cs with
  | nil => rfl
  | cons c cs ih =>
    have hsplit : escape (c :: cs) = escapeChar c ++ escape cs := List.flatMap_cons
    rw [hsplit,byteLength_append,byteLength_escapeChar,ih]
    rfl

theorem byteLength_quoted (s : String) : byteLength (quoted s) = stringSize s := by
  have h1 : ('"' : Char).utf8Size = 1 := rfl
  simp only [quoted,stringSize,byteLength_cons,byteLength_append,byteLength_escape,h1,byteLength_nil]
  omega

mutual
theorem byteLength_text : ∀ j : Json, byteLength (text j) = size j
  | .null => rfl
  | .bool true => rfl
  | .bool false => rfl
  | .int _ => rfl
  | .str s => byteLength_quoted s
  | .arr [] => rfl
  | .arr (x :: xs) => by
    have h1 : ('[' : Char).utf8Size = 1 := rfl
    simp only [text,size,byteLength_cons,byteLength_append,byteLength_text x,byteLength_textItems xs,h1]
    omega
  | .obj [] => rfl
  | .obj ((k, x) :: fs) => by
    have h1 : ('\x7b' : Char).utf8Size = 1 := rfl
    have h2 : (':' : Char).utf8Size = 1 := rfl
    simp only [text,size,byteLength_cons,byteLength_append,byteLength_text x,byteLength_textFields fs,
      byteLength_quoted,h1,h2]
    omega
theorem byteLength_textItems : ∀ xs : List Json, byteLength (textItems xs) = sizeItems xs + 1
  | [] => rfl
  | x :: xs => by
    have h1 : (',' : Char).utf8Size = 1 := rfl
    simp only [textItems,sizeItems,byteLength_cons,byteLength_append,byteLength_text x,
      byteLength_textItems xs,h1]
    omega
theorem byteLength_textFields : ∀ fs : Fields, byteLength (textFields fs) = sizeFields fs + 1
  | [] => rfl
  | (k, x) :: fs => by
    have h1 : (',' : Char).utf8Size = 1 := rfl
    have h2 : (':' : Char).utf8Size = 1 := rfl
    simp only [textFields,sizeFields,byteLength_cons,byteLength_append,byteLength_text x,
      byteLength_textFields fs,byteLength_quoted,h1,h2]
    omega
end

/-! ## The order of fields does not matter -/

theorem size_arr (xs : List Json) : size (.arr xs) = if xs = [] then 2 else sizeItems xs + 1 := by
  cases xs with
  | nil => rfl
  | cons x xs =>
    simp only [size,sizeItems,reduceCtorEq,↓reduceIte]
    omega

theorem size_obj (fs : Fields) : size (.obj fs) = if fs = [] then 2 else sizeFields fs + 1 := by
  cases fs with
  | nil => rfl
  | cons p fs =>
    obtain ⟨k,x⟩ := p
    simp only [size,sizeFields,reduceCtorEq,↓reduceIte]
    omega

theorem sizeFields_perm {fs gs : Fields} (h : fs.Perm gs) : sizeFields fs = sizeFields gs := by
  induction h with
  | nil => rfl
  | cons p _ ih =>
    obtain ⟨k,x⟩ := p
    simp only [sizeFields,ih]
  | swap p q fs =>
    obtain ⟨k,x⟩ := p
    obtain ⟨l,y⟩ := q
    simp only [sizeFields]
    omega
  | trans _ _ ih ih' => exact ih.trans ih'

mutual
theorem size_canon : ∀ j : Json, size (canon j) = size j
  | .null => rfl
  | .bool _ => rfl
  | .int _ => rfl
  | .str _ => rfl
  | .arr xs => by
    have hnil : canonList xs = [] ↔ xs = [] := by cases xs <;> simp
    rw [canon,size_arr,size_arr,sizeItems_canon xs]
    simp only [hnil]
  | .obj fs => by
    have hperm : (sortFields (canonFields fs)).Perm (canonFields fs) := List.perm_insertionSort _ _
    have hnil : sortFields (canonFields fs) = [] ↔ fs = [] := by
      constructor
      · intro h
        rw [h] at hperm
        cases fs with
        | nil => rfl
        | cons p fs => exact absurd hperm.nil_eq (by simp [canonFields])
      · rintro rfl
        rfl
    rw [canon,size_obj,size_obj,sizeFields_perm hperm,sizeFields_canon fs]
    simp only [hnil]
theorem sizeItems_canon : ∀ xs : List Json, sizeItems (canonList xs) = sizeItems xs
  | [] => rfl
  | x :: xs => by rw [canonList,sizeItems,sizeItems,size_canon x,sizeItems_canon xs]
theorem sizeFields_canon : ∀ fs : Fields, sizeFields (canonFields fs) = sizeFields fs
  | [] => rfl
  | (k, x) :: fs => by rw [canonFields,sizeFields,sizeFields,size_canon x,sizeFields_canon fs]
end

theorem byteLength_canonicalText (j : Json) : byteLength (canonicalText j) = size j + 1 := by
  have h1 : ('\n' : Char).utf8Size = 1 := rfl
  simp only [canonicalText,byteLength_append,byteLength_cons,byteLength_nil,byteLength_text,size_canon,h1]

/-! ## A bound that needs no decoding -/

def stringBound (s : String) : ℕ := 6 * s.utf8ByteSize + 2

mutual
/-- At most six bytes for each byte of a string. -/
def sizeBound : Json → ℕ
  | .null => 4
  | .bool _ => 5
  | .int n => byteLength (intText n)
  | .str s => stringBound s
  | .arr xs => itemsBound xs + 2
  | .obj fs => fieldsBound fs + 2
def itemsBound : List Json → ℕ
  | [] => 0
  | x :: xs => sizeBound x + 1 + itemsBound xs
def fieldsBound : Fields → ℕ
  | [] => 0
  | (k, x) :: fs => stringBound k + sizeBound x + 2 + fieldsBound fs
end

theorem charSize_le (c : Char) : charSize c ≤ 6 * c.utf8Size := by
  rw [charSize,utf8Size_eq]
  split_ifs <;> omega

theorem charsSize_le (cs : List Char) : charsSize cs ≤ 6 * (String.ofList cs).utf8ByteSize := by
  induction cs with
  | nil => exact Nat.zero_le _
  | cons c cs ih =>
    have hc := charSize_le c
    have hsplit : String.ofList (c :: cs) = String.singleton c ++ String.ofList cs := by
      rw [String.singleton_eq_ofList,← String.ofList_append]
      rfl
    rw [charsSize,hsplit,String.utf8ByteSize_append,String.utf8ByteSize_singleton]
    omega

theorem stringSize_le (s : String) : stringSize s ≤ stringBound s := by
  have h := charsSize_le s.toList
  rw [String.ofList_toList] at h
  unfold stringSize stringBound
  omega

mutual
theorem size_le_bound : ∀ j : Json, size j ≤ sizeBound j
  | .null => le_rfl
  | .bool true => by decide
  | .bool false => le_rfl
  | .int _ => le_rfl
  | .str s => stringSize_le s
  | .arr xs => by
    have h := sizeItems_le_bound xs
    rw [size_arr,sizeBound]
    split <;> omega
  | .obj fs => by
    have h := sizeFields_le_bound fs
    rw [size_obj,sizeBound]
    split <;> omega
theorem sizeItems_le_bound : ∀ xs : List Json, sizeItems xs ≤ itemsBound xs
  | [] => le_rfl
  | x :: xs => by
    have hx := size_le_bound x
    have hxs := sizeItems_le_bound xs
    rw [sizeItems,itemsBound]
    omega
theorem sizeFields_le_bound : ∀ fs : Fields, sizeFields fs ≤ fieldsBound fs
  | [] => le_rfl
  | (k, x) :: fs => by
    have hk := stringSize_le k
    have hx := size_le_bound x
    have hfs := sizeFields_le_bound fs
    rw [sizeFields,fieldsBound]
    omega
end

/-- The size test: a document far below the limit is accepted by the bound alone. -/
instance decidableTextLe (j : Json) (n : ℕ) : Decidable (byteLength (canonicalText j) ≤ n) :=
  if h : sizeBound j + 1 ≤ n then
    isTrue (by
      have hle := size_le_bound j
      rw [byteLength_canonicalText]
      omega)
  else decidable_of_iff (size j + 1 ≤ n) (by rw [byteLength_canonicalText])

end Bdb.Json
