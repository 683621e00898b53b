import Bdb.Base.Outcome

/-! # Paths of a repository

A path of the tree is the list of its names. A text is read as a path when it stays below
the root of the repository. Policies are lists of shell patterns on the text of a path.
-/
namespace Bdb.Bridge

open List

/-! ## Names and paths -/

def GoodName (c : String) : Prop := c ≠ "" ∧ c ≠ "." ∧ c ≠ ".." ∧ '/' ∉ c.toList

instance (c : String) : Decidable (GoodName c) := inferInstanceAs (Decidable (_ ∧ _))

/-- The names on the way from the root. -/
structure RepoPath where
  names : List String
  good : ∀ c ∈ names, GoodName c

namespace RepoPath

@[ext] theorem ext {p q : RepoPath} (h : p.names = q.names) : p = q := by
  cases p
  cases q
  cases h
  rfl

instance : DecidableEq RepoPath := fun p q =>
  decidable_of_iff (p.names = q.names) ⟨ext,fun h => h ▸ rfl⟩

def text (p : RepoPath) : String :=
  if p.names = [] then "." else String.ofList (['/'].intercalate (p.names.map String.toList))

end RepoPath

/-- The names of a text, without empty ones and dots. -/
def pureParts (value : String) : List String :=
  ((value.toList.splitOn '/').filter fun c => c ≠ [] ∧ c ≠ ['.']).map String.ofList

def refused (value : String) : Bool :=
  value = "" || ['.','/'].isPrefixOf value.toList || value.toList.contains '\\' || value.toList.contains (Char.ofNat 0)

variable {c x : Char} {value : String} {p q : RepoPath}

theorem not_mem_of_mem_splitOn {cs part : List Char} (h : part ∈ cs.splitOn c) : c ∉ part := by
  induction cs generalizing part with
  | nil =>
    rw [splitOn_nil,mem_singleton] at h
    subst h
    exact not_mem_nil
  | cons x cs ih =>
    rw [splitOn_cons_eq_if_modifyHead] at h
    split at h
    · rcases mem_cons.mp h with rfl | h
      · exact not_mem_nil
      · exact ih h
    · rename_i hx
      cases hsplit : cs.splitOn c with
      | nil => exact absurd hsplit (splitOn_ne_nil c cs)
      | cons first rest =>
        rw [hsplit,modifyHead_cons] at h
        rcases mem_cons.mp h with rfl | h
        · intro hmem
          rcases mem_cons.mp hmem with rfl | hmem
          · exact hx (beq_self_eq_true _)
          · exact ih (hsplit ▸ mem_cons_self) hmem
        · exact ih (hsplit ▸ mem_cons_of_mem _ h)

theorem goodName_of_mem {c : String} (h : c ∈ pureParts value) (hdots : c ≠ "..") : GoodName c := by
  obtain ⟨part,hpart,rfl⟩ := mem_map.mp h
  obtain ⟨hsplit,hkept⟩ := mem_filter.mp hpart
  obtain ⟨hempty,hdot⟩ := of_decide_eq_true hkept
  refine ⟨?_,?_,hdots,?_⟩
  · intro heq
    exact hempty (by simpa using congrArg String.toList heq)
  · intro heq
    exact hdot (by simpa using congrArg String.toList heq)
  · rw [String.toList_ofList]
    exact not_mem_of_mem_splitOn hsplit

/-- The path that a text names. -/
def validateRepoRelativePath (value : String) : Outcome RepoPath :=
  if refused value then fail "unsafe_path" "Path must be a non-empty repository-relative POSIX path"
  else if h : value.toList.head? = some '/' ∨ ".." ∈ pureParts value then
    fail "unsafe_path" ("Unsafe repository path: " ++ value)
  else .ok ⟨pureParts value,fun _ hc => goodName_of_mem hc fun heq => h (.inr (heq ▸ hc))⟩

theorem validate_ok (h : validateRepoRelativePath value = .ok p) :
    p.names = pureParts value ∧ ∀ c ∈ value.toList, c.toNat ≠ 0 := by
  unfold validateRepoRelativePath at h
  split at h
  · cases h
  · rename_i hvalue
    split at h
    · cases h
    · cases h
      refine ⟨rfl,fun c hc hnull => hvalue ?_⟩
      have hzero : c = Char.ofNat 0 := by
        rw [← hnull,Char.ofNat_toNat]
      unfold refused
      rw [Bool.or_eq_true]
      exact .inr (contains_iff_mem.mpr (hzero ▸ hc))

theorem pureParts_text (p : RepoPath) : pureParts p.text = p.names := by
  unfold RepoPath.text
  split
  · rename_i hroot
    rw [hroot]
    decide +kernel
  · rename_i hp
    have hsplit : (['/'].intercalate (p.names.map String.toList)).splitOn '/' = p.names.map String.toList := by
      refine splitOn_intercalate '/' ?_ (by simpa using hp)
      intro part hpart
      obtain ⟨c,hc,rfl⟩ := mem_map.mp hpart
      exact (p.good c hc).2.2.2
    have hkept : (p.names.map String.toList).filter (fun c => c ≠ [] ∧ c ≠ ['.']) = p.names.map String.toList := by
      refine filter_eq_self.mpr ?_
      intro part hpart
      obtain ⟨c,hc,rfl⟩ := mem_map.mp hpart
      refine decide_eq_true ⟨?_,?_⟩
      · exact fun heq => (p.good c hc).1 (String.toList_inj.mp heq)
      · exact fun heq => (p.good c hc).2.1 (String.toList_inj.mp heq)
    unfold pureParts
    rw [String.toList_ofList,hsplit,hkept,map_map]
    refine (map_congr_left fun c _ => ?_).trans (map_id _)
    exact String.ofList_toList

theorem validate_text (h : validateRepoRelativePath p.text = .ok q) : q = p :=
  RepoPath.ext ((validate_ok h).1.trans (pureParts_text p))

theorem text_inj (h : p.text = q.text) : p = q :=
  RepoPath.ext ((pureParts_text p).symm.trans ((congrArg pureParts h).trans (pureParts_text q)))

theorem mem_intercalate {parts : List (List Char)} :
    x ∈ [c].intercalate parts ↔ (∃ part ∈ parts, x ∈ part) ∨ x = c ∧ 2 ≤ parts.length := by
  induction parts with
  | nil => simp [intercalate_nil]
  | cons part rest ih =>
    cases rest with
    | nil => simp [intercalate_singleton]
    | cons part' rest =>
      rw [intercalate_cons_cons,mem_append,mem_append,ih]
      simp only [mem_singleton,exists_mem_cons_iff,length_cons]
      constructor
      · rintro ((h | h) | h | h)
        · exact .inl (.inl h)
        · exact .inr ⟨h,by omega⟩
        · exact .inl (.inr h)
        · exact .inr ⟨h.1,by omega⟩
      · rintro ((h | h) | h)
        · exact .inl (.inl h)
        · exact .inr (.inl h)
        · exact .inl (.inr h.1)

theorem mem_of_mem_pureParts {part : String} (h : part ∈ pureParts value) (hx : x ∈ part.toList) :
    x ∈ value.toList := by
  obtain ⟨chars,hchars,rfl⟩ := mem_map.mp h
  rw [String.toList_ofList] at hx
  have hjoin : x ∈ ['/'].intercalate (value.toList.splitOn '/') :=
    mem_intercalate.mpr (.inl ⟨chars,(mem_filter.mp hchars).1,hx⟩)
  rwa [intercalate_splitOn] at hjoin

theorem text_head (hp : p.names ≠ []) :
    ∃ c tail, c ∈ p.names ∧ p.text.toList = c.toList ++ tail ∧ (tail = [] ∨ tail.head? = some '/') := by
  unfold RepoPath.text
  rw [if_neg hp,String.toList_ofList]
  cases hn : p.names with
  | nil => exact absurd hn hp
  | cons c rest =>
    cases rest with
    | nil => exact ⟨c,[],mem_cons_self,by simp [intercalate_singleton],.inl rfl⟩
    | cons d rest =>
      refine ⟨c,'/' :: ['/'].intercalate ((d :: rest).map String.toList),mem_cons_self,?_,.inr rfl⟩
      rw [map_cons,map_cons,intercalate_cons_cons,append_assoc]
      rfl

theorem validate_again (h : validateRepoRelativePath value = .ok p) :
    validateRepoRelativePath p.text = .ok p := by
  have hnames := (validate_ok h).1
  have hvalue : refused value = false := by
    unfold validateRepoRelativePath at h
    split at h
    · cases h
    · rename_i hvalue
      simpa using hvalue
  have hchars : ∀ x, x ∉ value.toList → x ≠ '/' → x ≠ '.' → x ∉ p.text.toList := by
    intro x hx hslash hdot hmem
    unfold RepoPath.text at hmem
    split at hmem
    · simp at hmem
      exact hdot hmem
    · rw [String.toList_ofList] at hmem
      rcases mem_intercalate.mp hmem with ⟨part,hpart,hx'⟩ | hslash'
      · obtain ⟨c,hc,rfl⟩ := mem_map.mp hpart
        exact hx (mem_of_mem_pureParts (hnames ▸ hc) hx')
      · exact hslash hslash'.1
  unfold refused at hvalue
  simp only [Bool.or_eq_false_iff] at hvalue
  obtain ⟨⟨-,hback⟩,hnull⟩ := hvalue
  have hstart : p.text ≠ "" ∧ ['.','/'].isPrefixOf p.text.toList = false ∧ p.text.toList.head? ≠ some '/' := by
    by_cases hp : p.names = []
    · unfold RepoPath.text
      rw [if_pos hp]
      decide +kernel
    · obtain ⟨c,tail,hc,htext,htail⟩ := text_head hp
      obtain ⟨hempty,hdot,-,hslash⟩ := p.good c hc
      cases hcl : c.toList with
      | nil => exact absurd (String.toList_inj.mp (hcl.trans rfl)) hempty
      | cons a as =>
        rw [hcl] at htext hslash
        have ha : a ≠ '/' := fun heq => hslash (heq ▸ mem_cons_self)
        refine ⟨?_,?_,?_⟩
        · rintro heq
          rw [heq] at htext
          cases htext
        · rw [htext]
          cases as with
          | nil =>
            have hadot : a ≠ '.' := fun heq => hdot (String.toList_inj.mp (hcl.trans (by rw [heq]; rfl)))
            simp [List.isPrefixOf,hadot.symm]
          | cons b bs =>
            have hb : b ≠ '/' := fun heq => hslash (heq ▸ mem_cons_of_mem _ mem_cons_self)
            simp [List.isPrefixOf,hb.symm]
        · rw [htext]
          simpa using ha
  have hrefused : refused p.text = false := by
    unfold refused
    simp only [Bool.or_eq_false_iff]
    refine ⟨⟨⟨decide_eq_false hstart.1,hstart.2.1⟩,?_⟩,?_⟩
    · rw [← Bool.not_eq_true,contains_iff_mem]
      exact hchars _ (by simpa using hback) (by decide) (by decide)
    · rw [← Bool.not_eq_true,contains_iff_mem]
      exact hchars _ (by simpa using hnull) (by decide) (by decide)
  unfold validateRepoRelativePath
  rw [hrefused]
  simp only [Bool.false_eq_true,if_false,pureParts_text]
  rw [dif_neg]
  rintro (hhead | hdots)
  · exact hstart.2.2 hhead
  · exact (p.good _ hdots).2.2.1 rfl

/-! ## Shell patterns -/

/-- What a place of a pattern takes. -/
inductive PatternItem where
  | star
  | one
  | char (c : Char)
  | oneOf (negated : Bool) (ranges : List (Char × Char))

/-- The ranges of a class, from left to right; a single character is a range of its own. -/
def classRanges : List Char → List (Char × Char)
  | a :: '-' :: b :: rest => (a,b) :: classRanges rest
  | a :: rest => (a,a) :: classRanges rest
  | [] => []

/-- What stands between the brackets, when the class is closed. -/
def splitClass (pat : List Char) : Option (List Char × List Char) :=
  let bang := if pat.head? = some '!' then 1 else 0
  let first := bang + if pat[bang]? = some ']' then 1 else 0
  match (pat.drop first).findIdx? (· == ']') with
  | some n => some (pat.take (first + n),pat.drop (first + n + 1))
  | none => none

def classItem (stuff : List Char) : PatternItem :=
  match stuff with
  | '!' :: rest => .oneOf true (classRanges rest)
  | _ => .oneOf false (classRanges stuff)

def patternItems : ℕ → List Char → List PatternItem
  | 0, _ => []
  | _, [] => []
  | n + 1, '*' :: rest => .star :: patternItems n rest
  | n + 1, '?' :: rest => .one :: patternItems n rest
  | n + 1, '[' :: rest =>
    match splitClass rest with
    | some (stuff, rest') => classItem stuff :: patternItems n rest'
    | none => .char '[' :: patternItems n rest
  | n + 1, c :: rest => .char c :: patternItems n rest

def PatternItem.takes (c : Char) : PatternItem → Bool
  | .star => false
  | .one => true
  | .char d => c == d
  | .oneOf negated ranges => ranges.any (fun r => r.1.toNat ≤ c.toNat && c.toNat ≤ r.2.toNat) != negated

def matchesItems : List PatternItem → List Char → Bool
  | [], cs => cs.isEmpty
  | .star :: items, cs => cs.tails.any (matchesItems items)
  | item :: items, cs =>
    match cs with
    | c :: rest => item.takes c && matchesItems items rest
    | [] => false

def fnmatchcase (name pattern : String) : Bool :=
  matchesItems (patternItems (pattern.length + 1) pattern.toList) name.toList

def pathMatches (path : RepoPath) (patterns : List String) : Bool := patterns.any (fnmatchcase path.text)

example : fnmatchcase "src/a.py" "src/[!b-z]*" = true := by decide +kernel

end Bdb.Bridge
