import Bdb.Base.Stamps
import Mathlib.Data.Prod.Lex
import Mathlib.Data.Sum.Order

/-! # The order of versions

A version has up to four numbers and dotted suffix parts. Missing numbers count as zero, no
suffix is above every suffix, and parts are compared as numbers where both are numbers. The
comparison is a total order except between versions whose suffixes first differ in two numerals
of one value.
-/
namespace Bdb.Environment

open List

/-! ## The source's comparison -/

structure Version where
  numbers : List ℕ
  prerelease : List (List Char)
deriving DecidableEq

def isDigits (part : List Char) : Bool := !part.isEmpty && part.all Char.isDigit

/-- The language refuses to convert longer texts to integers. -/
def maxDigits : ℕ := 4300

def toInt (digits : List Char) : Outcome ℕ := do
  require (digits.length ≤ maxDigits) "ValueError" "Exceeds the limit for integer string conversion"
  pure (digitsValue digits)

def suffixChar (c : Char) : Bool := c.isAlphanum || c == '.' || c == '-'

/-- The dotted parts after the sign, if there is one. -/
def suffixParts : List Char → Option (List (List Char))
  | [] => some []
  | _ :: suffix => if suffix ≠ [] ∧ suffix.all suffixChar = true then some (suffix.splitOn '.') else none

def isSign (c : Char) : Bool := c == '-' || c == '+'

namespace Version

def parse (value : String) : Outcome Version := do
  require (strip value ≠ "") "text_required" "version must be non-empty text"
  let body := match value.toList with
    | 'v' :: rest => rest
    | 'V' :: rest => rest
    | text => text
  let items := (body.takeWhile fun c => !isSign c).splitOn '.'
  let suffix := suffixParts (body.dropWhile fun c => !isSign c)
  require (items.length ≤ 4 ∧ items.all isDigits = true ∧ suffix.isSome = true)
    "version_invalid" "version is not a supported numeric version"
  let numbers ← items.mapM toInt
  pure ⟨numbers,suffix.getD []⟩

/-- The numbers up to a width. -/
def padded (v : Version) (width : ℕ) : List ℕ := v.numbers ++ List.replicate (width - v.numbers.length) 0

/-- The loop over the suffix parts; `whole` is the answer when no part differs. -/
def compareParts (whole : ℤ) : List (List Char) → List (List Char) → Outcome ℤ
  | left :: ls, right :: rs =>
    if left = right then compareParts whole ls rs
    else if isDigits left = true ∧ isDigits right = true then do
      let m ← toInt left
      let n ← toInt right
      pure (if n < m then 1 else -1)
    else if isDigits left ≠ isDigits right then pure (if isDigits left then -1 else 1)
    else pure (if right < left then 1 else -1)
  | _, _ => pure whole

def compare (self other : Version) : Outcome ℤ :=
  let width := max self.numbers.length other.numbers.length
  let left := self.padded width
  let right := other.padded width
  if left ≠ right then pure (if right < left then 1 else -1)
  else if self.prerelease = other.prerelease then pure 0
  else if self.prerelease = [] then pure 1
  else if other.prerelease = [] then pure (-1)
  else compareParts (if other.prerelease.length < self.prerelease.length then 1 else -1)
    self.prerelease other.prerelease

/-- The comparison `a < b` returns true. -/
def Lt (a b : Version) : Prop := ∃ s, a.compare b = .ok s ∧ s < 0

/-- The comparison `a == b` returns true. -/
def Eq (a b : Version) : Prop := a.compare b = .ok 0

/-- The versions read from a set of texts. -/
def parsed (texts : Set String) : Set Version := {v | ∃ text ∈ texts, parse text = .ok v}

/-- The laws of a total order with the intended equalities, on a set of versions. -/
structure Ordered (S : Set Version) : Prop where
  trichotomy : ∀ a ∈ S, ∀ b ∈ S, (Lt a b ∧ ¬Eq a b ∧ ¬Lt b a) ∨ (¬Lt a b ∧ Eq a b ∧ ¬Lt b a) ∨
    (¬Lt a b ∧ ¬Eq a b ∧ Lt b a)
  lt_trans : ∀ a ∈ S, ∀ b ∈ S, ∀ c ∈ S, Lt a b → Lt b c → Lt a c
  eq_equivalence : ∀ a ∈ S, Eq a a ∧ ∀ b ∈ S, (Eq a b → Eq b a) ∧ ∀ c ∈ S, Eq a b → Eq b c → Eq a c
  lt_respects : ∀ a ∈ S, ∀ b ∈ S, ∀ c ∈ S, Eq a b → (Lt a c ↔ Lt b c) ∧ (Lt c a ↔ Lt c b)
  trailing_zeros : ∀ a ∈ S, ∀ b ∈ S, ∀ n, b.numbers = a.numbers ++ List.replicate n 0 →
    b.prerelease = a.prerelease → Eq a b
  prerelease_below : ∀ a ∈ S, ∀ b ∈ S, a.numbers = b.numbers → a.prerelease ≠ [] → b.prerelease = [] →
    Lt a b

/-! ## Versions that clash -/

/-- The first parts that differ are numerals of one value, or too long to be read. -/
def clashParts : List (List Char) → List (List Char) → Prop
  | left :: ls, right :: rs =>
    if left = right then clashParts ls rs
    else isDigits left = true ∧ isDigits right = true ∧
      (digitsValue left = digitsValue right ∨ maxDigits < left.length ∨ maxDigits < right.length)
  | _, _ => False

/-- The numbers are equal up to trailing zeros and the suffixes clash. -/
def Clash (a b : Version) : Prop :=
  a.padded (max a.numbers.length b.numbers.length) = b.padded (max a.numbers.length b.numbers.length) ∧
    clashParts a.prerelease b.prerelease


/-! ## The comparison follows an order of keys -/

abbrev PartRank := (ℕ ×ₗ List Char) ⊕ₗ List Char

/-- Numerals come first, by value. -/
def partRank (part : List Char) : PartRank :=
  toLex (if isDigits part then .inl (toLex (digitsValue part,part)) else .inr part)

def suffixRank (parts : List (List Char)) : WithTop (List PartRank) :=
  if parts = [] then ⊤ else ↑(parts.map partRank)

def rank (v : Version) : List ℕ ×ₗ WithTop (List PartRank) := toLex (v.padded 4,suffixRank v.prerelease)

/-- The answer of a comparison is the order of two keys. -/
def Follows {α : Type} [LinearOrder α] (answer : Outcome ℤ) (x y : α) : Prop :=
  ∃ s, answer = .ok s ∧ (s < 0 ↔ x < y) ∧ (s = 0 ↔ x = y)

section
variable {α β : Type} [LinearOrder α] [LinearOrder β] {answer : Outcome ℤ} {x y : α} {x' y' : β}

theorem Follows.congr (h : Follows answer x y) (hlt : x' < y' ↔ x < y) (heq : x' = y' ↔ x = y) :
    Follows answer x' y' := by
  obtain ⟨s,hs,hneg,hzero⟩ := h
  exact ⟨s,hs,hneg.trans hlt.symm,hzero.trans heq.symm⟩

theorem follows_below (h : x < y) : Follows (pure (-1)) x y :=
  ⟨-1,rfl,by simp [h],by simp [h.ne]⟩

theorem follows_above (h : y < x) : Follows (pure 1) x y :=
  ⟨1,rfl,by simp [h.not_gt],by simp [h.ne']⟩

theorem follows_of_ne [Decidable (y < x)] (h : x ≠ y) : Follows (pure (if y < x then 1 else -1)) x y := by
  split
  next hgt => exact follows_above hgt
  next hle => exact follows_below (lt_of_le_of_ne (not_lt.mp hle) h)

end

theorem partRank_injective : Function.Injective partRank := by
  intro p q h
  have h := toLex_inj.mp h
  split at h <;> split at h <;> simp_all

variable {p : List Char} {ls rs : List (List Char)} {v a b : Version}

theorem follows_cons {answer : Outcome ℤ} (h : Follows answer (ls.map partRank) (rs.map partRank)) :
    Follows answer ((p :: ls).map partRank) ((p :: rs).map partRank) :=
  h.congr (by simp) (by simp)

theorem follows_parts {q : List Char} {answer : Outcome ℤ}
    (h : Follows answer (partRank p) (partRank q)) (hne : p ≠ q) :
    Follows answer ((p :: ls).map partRank) ((q :: rs).map partRank) := by
  have hrank := partRank_injective.ne hne
  exact h.congr (by simp [cons_lt_cons_iff,hrank]) (by simp [hrank])

theorem compareParts_follows {whole : ℤ} (hclash : ¬clashParts ls rs)
    (hne : ls ≠ rs) (hwhole : whole = if rs.length < ls.length then 1 else -1) :
    Follows (compareParts whole ls rs) (ls.map partRank) (rs.map partRank) := by
  induction ls generalizing rs with
  | nil =>
    cases rs with
    | nil => exact absurd rfl hne
    | cons q rs =>
      subst hwhole
      exact follows_below (nil_lt_cons _ _)
  | cons p ls ih =>
    cases rs with
    | nil =>
      subst hwhole
      exact follows_above (nil_lt_cons _ _)
    | cons q rs =>
      by_cases hsame : p = q
      · subst hsame
        rw [clashParts,if_pos rfl] at hclash
        rw [compareParts,if_pos rfl]
        exact follows_cons (ih hclash (fun h => hne (congrArg _ h)) (by simpa using hwhole))
      rw [clashParts,if_neg hsame] at hclash
      rw [compareParts,if_neg hsame]
      refine follows_parts ?_ hsame
      cases hp : isDigits p <;> cases hq : isDigits q
      · rw [if_neg (by rintro ⟨⟨⟩,_⟩),if_neg (not_not.mpr rfl)]
        refine Follows.congr (follows_of_ne hsame) ?_ ?_ <;> simp [partRank,hp,hq]
      · exact follows_above (by simp [partRank,hp,hq])
      · exact follows_below (by simp [partRank,hp,hq])
      · simp only [hp,hq,true_and,not_or,not_lt] at hclash
        obtain ⟨hvalue,hleft,hright⟩ := hclash
        simp only [and_self,if_true,toInt,require_of hleft,require_of hright,ok_bind]
        refine Follows.congr (follows_of_ne hvalue) ?_ ?_
        · simp [partRank,hp,hq,Prod.Lex.toLex_lt_toLex,hvalue]
        · simp [partRank,hp,hq,hvalue,hsame]

theorem suffix_follows (hclash : ¬clashParts ls rs) :
    Follows (if ls = rs then pure 0 else if ls = [] then pure 1 else if rs = [] then pure (-1)
      else compareParts (if rs.length < ls.length then 1 else -1) ls rs) (suffixRank ls) (suffixRank rs) := by
  unfold suffixRank
  by_cases hsame : ls = rs
  · subst hsame
    rw [if_pos rfl]
    exact ⟨0,rfl,by simp,by simp⟩
  rw [if_neg hsame]
  by_cases hls : ls = []
  · subst hls
    rw [if_pos rfl,if_pos rfl,if_neg fun h => hsame h.symm]
    exact follows_above (WithTop.coe_lt_top _)
  rw [if_neg hls,if_neg hls]
  by_cases hrs : rs = []
  · rw [if_pos hrs,if_pos hrs]
    exact follows_below (WithTop.coe_lt_top _)
  rw [if_neg hrs,if_neg hrs]
  exact (compareParts_follows hclash hsame rfl).congr WithTop.coe_lt_coe WithTop.coe_inj

theorem append_lt_append_iff {l r s : List ℕ} (h : l.length = r.length) : l ++ s < r ++ s ↔ l < r := by
  induction l generalizing r with
  | nil =>
    obtain rfl := eq_nil_of_length_eq_zero h.symm
    simp
  | cons m l ih =>
    cases r with
    | nil => cases h
    | cons n r => simp [cons_lt_cons_iff,ih (Nat.succ.inj h)]

theorem padded_four {width : ℕ} (h : v.numbers.length ≤ width) (hw : width ≤ 4) :
    v.padded 4 = v.padded width ++ List.replicate (4 - width) 0 := by
  rw [padded,padded,append_assoc,replicate_append_replicate]
  congr 2
  omega

theorem compare_follows (ha : a.numbers.length ≤ 4) (hb : b.numbers.length ≤ 4)
    (hclash : ¬Clash a b) : Follows (a.compare b) a.rank b.rank := by
  have hw := max_le ha hb
  have hfour := padded_four (le_max_left a.numbers.length b.numbers.length) hw
  have hfour' := padded_four (le_max_right a.numbers.length b.numbers.length) hw
  have hlength : (a.padded (max a.numbers.length b.numbers.length)).length =
      (b.padded (max a.numbers.length b.numbers.length)).length := by
    simp only [padded,length_append,length_replicate]
    omega
  unfold Clash at hclash
  unfold compare rank
  dsimp only
  rw [hfour,hfour']
  generalize a.padded (max a.numbers.length b.numbers.length) = left at *
  generalize b.padded (max a.numbers.length b.numbers.length) = right at *
  by_cases hnumbers : left = right
  · subst hnumbers
    rw [if_neg (not_not.mpr rfl)]
    refine Follows.congr (suffix_follows fun h => hclash ⟨rfl,h⟩) ?_ ?_ <;> simp [Prod.Lex.toLex_lt_toLex]
  · rw [if_pos hnumbers]
    refine Follows.congr (follows_of_ne hnumbers) ?_ ?_
    · simp [Prod.Lex.toLex_lt_toLex,append_lt_append_iff hlength,hnumbers]
    · simp [hnumbers]

/-! ## Clashing versions are below each other -/

theorem compareParts_clash (h : clashParts ls rs) (whole whole' : ℤ) :
    compareParts whole ls rs = compareParts whole' rs ls ∧ compareParts whole ls rs ≠ .ok 0 := by
  induction ls generalizing rs with
  | nil => cases h
  | cons p ls ih =>
    cases rs with
    | nil => cases h
    | cons q rs =>
      unfold clashParts at h
      split at h
      next hsame =>
        subst hsame
        rw [compareParts,compareParts,if_pos rfl,if_pos rfl]
        exact ih h
      next hsame =>
        obtain ⟨hp,hq,hvalue⟩ := h
        rw [compareParts,compareParts,if_neg hsame,if_neg (Ne.symm hsame),if_pos ⟨hp,hq⟩,if_pos ⟨hq,hp⟩]
        unfold toInt
        by_cases hleft : p.length ≤ maxDigits <;> by_cases hright : q.length ≤ maxDigits
        · obtain hvalue : digitsValue p = digitsValue q := by omega
          simp only [require_of hleft,require_of hright,ok_bind,hvalue]
          simp
        all_goals simp [require,hleft,hright,fail]

theorem clashParts_ne (h : clashParts ls rs) : ls ≠ rs ∧ ls ≠ [] ∧ rs ≠ [] := by
  refine ⟨?_,?_,?_⟩
  · rintro rfl
    induction ls with
    | nil => cases h
    | cons p ls ih =>
      rw [clashParts,if_pos rfl] at h
      exact ih h
  · rintro rfl
    cases h
  · rintro rfl
    cases ls <;> cases h

theorem Clash.compare (h : Clash a b) : a.compare b = b.compare a ∧ a.compare b ≠ .ok 0 := by
  obtain ⟨hnumbers,hparts⟩ := h
  obtain ⟨hne,ha,hb⟩ := clashParts_ne hparts
  unfold Version.compare
  dsimp only
  rw [max_comm b.numbers.length,hnumbers,if_neg (not_not.mpr rfl),if_neg (not_not.mpr rfl),if_neg hne,if_neg ha,
    if_neg hb,if_neg hne.symm,if_neg hb,if_neg ha]
  exact compareParts_clash hparts _ _

/-! ## The order of the versions that are read -/

theorem mapM_length {α β : Type} {f : α → Outcome β} {as : List α} {bs : List β} (h : as.mapM f = .ok bs) :
    bs.length = as.length := by
  induction as generalizing bs with
  | nil => cases pure_ok.mp h; rfl
  | cons a as ih =>
    rw [mapM_cons] at h
    obtain ⟨_,h⟩ := rest_ok h
    obtain ⟨rest,hrest,h⟩ := bind_ok.mp h
    cases pure_ok.mp h
    exact congrArg (· + 1) (ih hrest)

theorem numbers_le {texts : Set String} (h : v ∈ parsed texts) : v.numbers.length ≤ 4 := by
  obtain ⟨text,-,h⟩ := h
  unfold parse at h
  obtain ⟨_,h⟩ := rest_ok h
  obtain ⟨hvalid,h⟩ := of_require h
  obtain ⟨numbers,hnumbers,h⟩ := bind_ok.mp h
  cases pure_ok.mp h
  exact (mapM_length hnumbers).trans_le hvalid.1

theorem Follows.laws {α : Type} [LinearOrder α] {x y : α} (h : Follows (a.compare b) x y) :
    (Lt a b ↔ x < y) ∧ (Eq a b ↔ x = y) := by
  obtain ⟨s,hs,hneg,hzero⟩ := h
  simp only [Lt,Eq,hs,Except.ok.injEq,exists_eq_left',hneg,hzero,and_self]

/-- Among the versions read from any texts the comparison is a total order exactly when no two clash. -/
theorem total_order_iff (texts : Set String) :
    Ordered (parsed texts) ↔ ∀ a ∈ parsed texts, ∀ b ∈ parsed texts, ¬Clash a b := by
  constructor
  · intro h a ha b hb hclash
    obtain ⟨hsymm,hne⟩ := hclash.compare
    have hlt : Lt a b ↔ Lt b a := by rw [Lt,Lt,hsymm]
    rcases h.trichotomy a ha b hb with ⟨hab,-,hba⟩ | ⟨-,heq,-⟩ | ⟨hab,-,hba⟩
    · exact hba (hlt.mp hab)
    · exact hne heq
    · exact hab (hlt.mpr hba)
  · intro h
    have hrank : ∀ a ∈ parsed texts, ∀ b ∈ parsed texts, (Lt a b ↔ a.rank < b.rank) ∧ (Eq a b ↔ a.rank = b.rank) :=
      fun a ha b hb => (compare_follows (numbers_le ha) (numbers_le hb) (h a ha b hb)).laws
    constructor
    · intro a ha b hb
      rw [(hrank a ha b hb).1,(hrank a ha b hb).2,(hrank b hb a ha).1]
      rcases lt_trichotomy a.rank b.rank with hlt | heq | hgt
      · exact .inl ⟨hlt,hlt.ne,hlt.not_gt⟩
      · exact .inr (.inl ⟨heq.not_lt,heq,heq.not_gt⟩)
      · exact .inr (.inr ⟨hgt.not_gt,hgt.ne',hgt⟩)
    · intro a ha b hb c hc
      rw [(hrank a ha b hb).1,(hrank b hb c hc).1,(hrank a ha c hc).1]
      exact lt_trans
    · intro a ha
      refine ⟨(hrank a ha a ha).2.mpr rfl,fun b hb => ⟨?_,fun c hc => ?_⟩⟩
      · rw [(hrank a ha b hb).2,(hrank b hb a ha).2]
        exact .symm
      · rw [(hrank a ha b hb).2,(hrank b hb c hc).2,(hrank a ha c hc).2]
        exact .trans
    · intro a ha b hb c hc
      rw [(hrank a ha b hb).2,(hrank a ha c hc).1,(hrank b hb c hc).1,(hrank c hc a ha).1,(hrank c hc b hb).1]
      intro heq
      rw [heq]
      exact ⟨.rfl,.rfl⟩
    · intro a ha b hb n hnumbers hprerelease
      have hfour := numbers_le hb
      rw [hnumbers,length_append,length_replicate] at hfour
      rw [(hrank a ha b hb).2,rank,rank,hprerelease,padded,padded,hnumbers,append_assoc,
        replicate_append_replicate,length_append,length_replicate]
      congr 4
      omega
    · intro a ha b hb hnumbers hne hnone
      rw [(hrank a ha b hb).1,rank,rank,padded,padded,hnumbers,hnone,suffixRank,if_neg hne,suffixRank,if_pos rfl]
      exact Prod.Lex.toLex_lt_toLex.mpr (.inr ⟨rfl,WithTop.coe_lt_top _⟩)

/-- Each of `1.0-1` and `1.0-01` is below the other. -/
theorem equal_numerals_below_each_other : ¬Ordered (parsed {"1.0-1","1.0-01"}) := by
  intro h
  have hleft : parse "1.0-1" = .ok ⟨[1,0],[['1']]⟩ := by decide
  have hright : parse "1.0-01" = .ok ⟨[1,0],[['0','1']]⟩ := by decide
  have hlt : Lt ⟨[1,0],[['1']]⟩ ⟨[1,0],[['0','1']]⟩ := ⟨-1,by decide,by decide⟩
  have hgt : Lt ⟨[1,0],[['0','1']]⟩ ⟨[1,0],[['1']]⟩ := ⟨-1,by decide,by decide⟩
  rcases h.trichotomy _ ⟨_,.inl rfl,hleft⟩ _ ⟨_,.inr rfl,hright⟩ with ⟨-,-,hno⟩ | ⟨hno,-,-⟩ | ⟨hno,-,-⟩
  · exact hno hgt
  · exact hno hlt
  · exact hno hlt

end Version

end Bdb.Environment
