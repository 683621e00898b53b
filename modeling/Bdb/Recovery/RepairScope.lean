import Bdb.Recovery.RepairDiscipline

/-! # Where repaired files lie

A repair may change the files that its scope allows. The scope reads paths as text, while a file is
found by the names on the way to it; the two agree as long as no path passes a forbidden place in
another spelling.
-/
namespace Bdb.Recovery

open List

/-! ## Names on the way to a file -/

/-- A path with forward slashes. -/
def slashed (p : String) : List Char := p.toList.map fun c => if c = '\\' then '/' else c

theorem normalizedPath_eq (p : String) : normalizedPath p = stripChars (slashed p) := rfl

def isName (part : List Char) : Bool := part != [] && part != ['.']

/-- The names of a path, without empty ones and single dots. -/
def names (path : List Char) : List (List Char) := (path.splitOn '/').filter isName

/-- The path is relative, goes up nowhere, and lies in or under an allowed path and under no
disallowed one. -/
structure Contained (env : RepairScopeEnvelope) (p : String) : Prop where
  relative : (slashed p).head? ≠ some '/' ∧ ':' ∉ slashed p
  noParent : ['.','.'] ∉ names (slashed p)
  allowed : ∃ a ∈ env.allowedPaths, normalizedPath a = ['*'] ∨ names (normalizedPath a) <+: names (slashed p)
  disallowed : ∀ d ∈ env.disallowedPaths, ¬ names (normalizedPath d) <+: names (slashed p)

/-- The text before a separator, or all of it. -/
def LeadingPart (part path : List Char) : Prop := part = [] ∨ part = path ∨ part ++ ['/'] <+: path

def Passes (path boundary : List Char) : Prop := ∃ part, LeadingPart part path ∧ names part = names boundary

/-- A path passes a disallowed boundary only in a spelling that the text of the boundary shows, and one
with blanks at an end passes an allowed boundary with them. -/
structure Spelled (env : RepairScopeEnvelope) (p : String) : Prop where
  blanks : normalizedPath p ≠ slashed p →
    ∃ a ∈ env.allowedPaths, normalizedPath a = ['*'] ∨ Passes (slashed p) (normalizedPath a)
  disallowed : ∀ d ∈ env.disallowedPaths, Passes (slashed p) (normalizedPath d) →
    under (normalizedPath p) (normalizedPath d) = true

/-! ## Names of joined texts -/

theorem names_separator (before after : List Char) : names (before ++ '/' :: after) = names before ++ names after := by
  rw [names,splitOn_append_cons_self,filter_append]
  rfl

theorem names_nil : names [] = [] := rfl

theorem names_trailing (path : List Char) : names (path ++ ['/']) = names path := by
  rw [names_separator,names_nil,append_nil]

theorem names_rdropWhile (path : List Char) : names (path.rdropWhile (· == '/')) = names path := by
  induction path using List.reverseRecOn with
  | nil => rfl
  | append_singleton path c ih =>
    by_cases hc : c = '/'
    · subst hc
      rw [rdropWhile_concat_pos _ _ _ (by simp),ih,names_trailing]
    · rw [rdropWhile_concat_neg _ _ _ (by simpa using hc)]

/-! ## Leading parts -/

variable {part path l : List Char}

theorem names_leading (h : LeadingPart part path) : names part <+: names path := by
  rcases h with rfl | rfl | ⟨rest,rfl⟩
  · exact nil_prefix
  · exact prefix_rfl
  · rw [append_assoc,singleton_append,names_separator]
    exact prefix_append _ _

theorem names_single (h : '/' ∉ path) : names path = if isName path then [path] else [] := by
  have hsplit : path.splitOn '/' = [path] := by
    have hjoin : (['/'].intercalate [path]).splitOn '/' = [path] := splitOn_intercalate '/' (by simpa using h) (by simp)
    rwa [intercalate_singleton] at hjoin
  rw [names,hsplit,filter_singleton,Bool.cond_eq_ite]

theorem leading_join {first rest : List Char} (h : LeadingPart part rest) (hpart : part ≠ []) :
    LeadingPart (first ++ '/' :: part) (first ++ '/' :: rest) := by
  rcases h with h | rfl | ⟨tail,rfl⟩
  · exact absurd h hpart
  · exact .inr (.inl rfl)
  · exact .inr (.inr ⟨tail,by simp⟩)

theorem leading_of_names (n : ℕ) (hn : path.length ≤ n) {start : List (List Char)} (h : start <+: names path) :
    ∃ part, LeadingPart part path ∧ names part = start := by
  induction n generalizing path start with
  | zero =>
    obtain rfl := length_eq_zero_iff.mp (Nat.le_zero.mp hn)
    exact ⟨[],.inl rfl,(prefix_nil.mp h).symm⟩
  | succ n ih =>
    cases start with
    | nil => exact ⟨[],.inl rfl,rfl⟩
    | cons x more =>
      by_cases hslash : '/' ∈ path
      · obtain ⟨first,rest,rfl,hfirst⟩ := eq_append_cons_of_mem hslash
        have hlen : rest.length ≤ n := by
          simp only [length_append,length_cons] at hn
          omega
        have hnames : names first = if isName first then [first] else [] := names_single hfirst
        rw [names_separator,hnames] at h
        split at h
        · rename_i hname
          rw [singleton_append,cons_prefix_cons] at h
          obtain ⟨rfl,hmore⟩ := h
          rw [if_pos hname] at hnames
          cases more with
          | nil => exact ⟨x,.inr (.inr ⟨rest,by simp⟩),hnames⟩
          | cons y more =>
            obtain ⟨part,hpart,hpartNames⟩ := ih hlen hmore
            have hne : part ≠ [] := by
              rintro rfl
              cases hpartNames
            exact ⟨x ++ '/' :: part,leading_join hpart hne,by rw [names_separator,hnames,hpartNames]; rfl⟩
        · rename_i hname
          rw [if_neg hname] at hnames
          obtain ⟨part,hpart,hpartNames⟩ := ih hlen h
          have hne : part ≠ [] := by
            rintro rfl
            cases hpartNames
          exact ⟨first ++ '/' :: part,leading_join hpart hne,by rw [names_separator,hnames,hpartNames]; rfl⟩
      · refine ⟨path,.inr (.inl rfl),?_⟩
        rw [names_single hslash] at h ⊢
        split at h
        · rename_i hname
          obtain ⟨rfl,hmore⟩ := cons_prefix_cons.mp h
          rw [prefix_nil.mp hmore,if_pos hname]
        · cases prefix_nil.mp h

variable {boundary w : List Char}

theorem passes_iff : Passes path boundary ↔ names boundary <+: names path := by
  constructor
  · rintro ⟨part,hpart,hnames⟩
    exact hnames ▸ names_leading hpart
  · intro h
    exact leading_of_names path.length le_rfl h

theorem passes_of_under (h : under path boundary = true) : Passes path boundary := by
  rw [passes_iff]
  simp only [under,Bool.or_eq_true,beq_iff_eq, isPrefixOf_iff_prefix] at h
  rcases h with rfl | ⟨rest,rfl⟩
  · exact prefix_rfl
  · rw [append_assoc,singleton_append,names_separator,names_rdropWhile]
    exact prefix_append _ _

/-! ## Blanks at the ends -/

theorem infix_dropWhile (hw : ∀ c ∈ w, isSpace c = false) (hne : w ≠ []) (h : w <:+: l) :
    w <:+: l.dropWhile isSpace := by
  induction l with
  | nil => exact h
  | cons c l ih =>
    rw [dropWhile_cons]
    split
    · rename_i hspace
      rcases infix_cons_iff.mp h with hstart | hrest
      · obtain ⟨x,w,rfl⟩ := exists_cons_of_ne_nil hne
        obtain ⟨rfl,-⟩ := cons_prefix_cons.mp hstart
        exact absurd (hspace.symm.trans (hw x mem_cons_self)) (by decide)
      · exact ih hrest
    · exact h

theorem infix_stripChars (hw : ∀ c ∈ w, isSpace c = false) (hne : w ≠ []) (h : w <:+: l) :
    w <:+: stripChars l := by
  have hfirst := infix_dropWhile hw hne h
  have hreverse : w.reverse <:+: (l.dropWhile isSpace).reverse := reverse_infix.mpr hfirst
  have hsecond := infix_dropWhile (fun c hc => hw c (mem_reverse.mp hc)) (by simpa using hne) hreverse
  rw [stripChars,← reverse_infix,reverse_reverse]
  exact hsecond

theorem head_stripChars {c : Char} (hc : isSpace c = false) (h : l.head? = some c) :
    (stripChars l).head? = some c := by
  obtain ⟨rest,rfl⟩ := List.head?_eq_some_iff.mp h
  have hdrop : (c :: rest).dropWhile isSpace = c :: rest := by
    rw [dropWhile_cons,hc]
    rfl
  have hmem : [c] <:+: stripChars (c :: rest) :=
    infix_stripChars (by simpa using hc) (by simp) ⟨[],rest,rfl⟩
  have hprefix : stripChars (c :: rest) <+: c :: rest := by
    rw [stripChars,hdrop]
    exact rdropWhile_prefix isSpace (c :: rest)
  cases hstrip : stripChars (c :: rest) with
  | nil =>
    rw [hstrip] at hmem
    cases infix_nil.mp hmem
  | cons x more =>
    rw [hstrip] at hprefix
    obtain ⟨rfl,-⟩ := cons_prefix_cons.mp hprefix
    rfl

/-! ## Accepted paths -/

variable {rt : Runtime} {env : RepairScopeEnvelope} {p : String}

/-- What the scope has looked at before it accepts a path. -/
structure Accepted (env : RepairScopeEnvelope) (p : String) : Prop where
  stays : escapes (normalizedPath p) = false
  disallowed : ∀ d ∈ env.disallowedPaths, under (normalizedPath p) (normalizedPath d) = false
  allowed : ∃ a ∈ env.allowedPaths, normalizedPath a = ['*'] ∨ under (normalizedPath p) (normalizedPath a) = true

theorem accepted_of_validatePath (h : env.validatePath rt p = .ok ()) : Accepted env p := by
  unfold RepairScopeEnvelope.validatePath at h
  dsimp only at h
  split at h
  · cases h
  · rename_i hstays
    split at h
    · cases h
    · rename_i hnone
      split at h
      · rename_i hany
        refine ⟨by simpa using hstays,fun d hd => ?_,?_⟩
        · simpa using List.find?_eq_none.mp hnone d hd
        · obtain ⟨a,ha,hmatch⟩ := any_eq_true.mp hany
          exact ⟨a,ha,by simpa using hmatch⟩
      · cases h

theorem accepted_of_validateMutation {paths : List String} (h : env.validateMutation rt paths = .ok ()) :
    ∀ p ∈ paths, Accepted env p := by
  have hall : ∀ paths : List String, paths.forM (env.validatePath rt) = .ok () → ∀ p ∈ paths, Accepted env p := by
    intro paths
    induction paths with
    | nil => exact fun _ => nofun
    | cons q rest ih =>
      intro h p hp
      rw [forM_eq_forM,forM_cons] at h
      cases hq : env.validatePath rt q with
      | error e =>
        rw [hq] at h
        cases h
      | ok u =>
        rw [hq] at h
        rcases mem_cons.mp hp with rfl | hp
        · exact accepted_of_validatePath hq
        · exact ih h p hp
  unfold RepairScopeEnvelope.validateMutation at h
  split at h
  · cases h
  · exact hall paths h

theorem infix_intercalate (separator : Char) {parts : List (List Char)} (h : part ∈ parts) :
    part <:+: [separator].intercalate parts := by
  induction parts with
  | nil => cases h
  | cons first rest ih =>
    cases rest with
    | nil =>
      obtain rfl := mem_singleton.mp h
      rw [intercalate_singleton]
    | cons second rest =>
      rw [intercalate_cons_cons]
      rcases mem_cons.mp h with rfl | h
      · rw [append_assoc]
        exact (prefix_append _ _).isInfix
      · exact (ih h).trans (suffix_append _ _).isInfix

theorem Accepted.relative (h : Accepted env p) :
    ((slashed p).head? ≠ some '/' ∧ ':' ∉ slashed p) ∧ ['.','.'] ∉ names (slashed p) := by
  have hstays := h.stays
  rw [normalizedPath_eq,escapes,Bool.or_eq_false_iff,Bool.or_eq_false_iff] at hstays
  obtain ⟨⟨hdots,hslash⟩,hcolon⟩ := hstays
  refine ⟨⟨fun hhead => ?_,fun hmem => ?_⟩,fun hmem => ?_⟩
  · rw [head_stripChars (by decide) hhead] at hslash
    exact absurd hslash (by decide)
  · have hinfix : [':'] <:+: stripChars (slashed p) := by
      refine infix_stripChars (by simp [isSpace]) (by decide) ?_
      obtain ⟨before,after,heq⟩ := append_of_mem hmem
      exact ⟨before,after,by rw [heq]; simp⟩
    have hin : ':' ∈ stripChars (slashed p) := hinfix.subset mem_cons_self
    simp [hin] at hcolon
  · have hpart : ['.','.'] <:+: slashed p := by
      have hjoin := infix_intercalate '/' (mem_filter.mp hmem).1
      rwa [intercalate_splitOn] at hjoin
    obtain ⟨before,after,heq⟩ := infix_stripChars (by simp [isSpace]) (by decide) hpart
    have hany : (stripChars (slashed p)).tails.any (['.','.'].isPrefixOf ·) = true := by
      refine any_eq_true.mpr ⟨['.','.'] ++ after,?_,by simp [List.isPrefixOf]⟩
      rw [mem_tails,← heq,append_assoc]
      exact suffix_append _ _
    rw [hany] at hdots
    cases hdots

theorem Accepted.within (h : Accepted env p) (hblanks : normalizedPath p = slashed p) :
    ∃ a ∈ env.allowedPaths, normalizedPath a = ['*'] ∨ names (normalizedPath a) <+: names (slashed p) := by
  obtain ⟨a,ha,hmatch⟩ := h.allowed
  refine ⟨a,ha,hmatch.imp_right fun hunder => ?_⟩
  rw [hblanks] at hunder
  exact passes_iff.mp (passes_of_under hunder)

theorem Accepted.contained_iff (h : Accepted env p) : Contained env p ↔ Spelled env p := by
  constructor
  · intro hcontained
    refine ⟨fun _ => ?_,fun d hd hpasses => ?_⟩
    · obtain ⟨a,ha,hmatch⟩ := hcontained.allowed
      exact ⟨a,ha,hmatch.imp_right passes_iff.mpr⟩
    · exact absurd (passes_iff.mp hpasses) (hcontained.disallowed d hd)
  · intro hspelled
    refine ⟨h.relative.1,h.relative.2,?_,fun d hd hnames => ?_⟩
    · by_cases hblanks : normalizedPath p = slashed p
      · exact h.within hblanks
      · obtain ⟨a,ha,hmatch⟩ := hspelled.blanks hblanks
        exact ⟨a,ha,hmatch.imp_right passes_iff.mp⟩
    · have hshown := hspelled.disallowed d hd (passes_iff.mpr hnames)
      rw [h.disallowed d hd] at hshown
      cases hshown

/-- The scope keeps the paths it accepts inside exactly when they pass its boundaries in the spelling it
reads. -/
theorem repair_stays_in_scope (env : RepairScopeEnvelope) (paths : List String) (h : env.validateMutation rt paths = .ok ()) :
    (∀ p ∈ paths, Contained env p) ↔ ∀ p ∈ paths, Spelled env p :=
  forall₂_congr fun p hp => (accepted_of_validateMutation h p hp).contained_iff

def sampleScope : RepairScopeEnvelope := ⟨["src"],["src/secret"],10⟩

theorem repair_stays_in_scope_plain :
    (∀ p ∈ ["src/tool.py"], Contained sampleScope p) ↔ ∀ p ∈ ["src/tool.py"], Spelled sampleScope p :=
  repair_stays_in_scope sampleScope ["src/tool.py"] (show sampleScope.validateMutation repairRuntime ["src/tool.py"] = .ok () by decide +kernel)

/-- A doubled separator leads under a disallowed path. -/
theorem doubled_separator_escapes : sampleScope.validateMutation repairRuntime ["src//secret/key.py"] = .ok () ∧
    ¬ Contained sampleScope "src//secret/key.py" := by
  constructor
  · decide +kernel
  · intro h
    exact h.disallowed "src/secret" (by decide) (by decide +kernel)

end Bdb.Recovery
