import Bdb.Base.Stamps

/-! # Timestamps compared as texts

The standard text of a timestamp leaves out a fraction of zero. Texts are in the order of their
timestamps as long as a whole second is not compared with a later fraction of the same second.
-/
namespace Bdb

open List

/-! ## Fixed-width fields -/

theorem append_lt_of_lt {a b x y : List Char} (hlen : a.length = b.length) (h : a < b) : a ++ x < b ++ y := by
  induction a generalizing b with
  | nil =>
    obtain rfl := eq_nil_of_length_eq_zero hlen.symm
    exact absurd h (lt_irrefl _)
  | cons c cs ih =>
    cases b with
    | nil => cases hlen
    | cons d ds =>
      rw [cons_append,cons_append,cons_lt_cons_iff]
      rcases cons_lt_cons_iff.mp h with hcd | ⟨rfl,hrest⟩
      · exact .inl hcd
      · exact .inr ⟨rfl,ih (Nat.succ.inj hlen) hrest⟩

theorem append_lt_append (a : List Char) {x y : List Char} (h : x < y) : a ++ x < a ++ y := by
  induction a with
  | nil => exact h
  | cons c cs ih => exact cons_lt_cons_iff.mpr (.inr ⟨rfl,ih⟩)

variable {m n : ℕ} {ms ns : List ℕ} {t u : DateTime}

theorem digitChar_lt (h : m < n) (hn : n < 10) : Nat.digitChar m < Nat.digitChar n := by
  have hall : ∀ i j : Fin 10, i < j → Nat.digitChar i.val < Nat.digitChar j.val := by decide
  exact hall ⟨m,h.trans hn⟩ ⟨n,hn⟩ h

theorem padded_lt {w : ℕ} (h : m < n) (hn : n < 10 ^ w) : padded w m < padded w n := by
  induction w generalizing m n with
  | zero => omega
  | succ w ih =>
    rw [padded,padded]
    by_cases hdiv : m / 10 < n / 10
    · have hbound : n / 10 < 10 ^ w := Nat.div_lt_of_lt_mul (by rwa [pow_succ'] at hn)
      exact append_lt_of_lt (by simp) (ih hdiv hbound)
    · have hsame : m / 10 = n / 10 := by omega
      rw [hsame]
      refine append_lt_append _ (cons_lt_cons_iff.mpr (.inl (digitChar_lt ?_ (Nat.mod_lt _ (by omega)))))
      omega

/-- The first field that differs is smaller. -/
inductive FieldsLt : List ℕ → List ℕ → Prop
  | head {m n : ℕ} {ms ns : List ℕ} (h : m < n) : FieldsLt (m :: ms) (n :: ns)
  | tail {n : ℕ} {ms ns : List ℕ} (h : FieldsLt ms ns) : FieldsLt (n :: ms) (n :: ns)

theorem writeFields_lt {layout : List (ℕ × Char)} (hlt : FieldsLt ms ns)
    (hfit : List.Forall₂ (fun (p : ℕ × Char) n => n < 10 ^ p.1) layout ns) (x y : List Char) :
    writeFields layout ms ++ x < writeFields layout ns ++ y := by
  induction hlt generalizing layout with
  | head h =>
    cases layout with
    | nil => cases hfit
    | cons p layout =>
      obtain ⟨w,stop⟩ := p
      have hn := (forall₂_cons.mp hfit).1
      rw [writeFields,writeFields,append_assoc,append_assoc]
      exact append_lt_of_lt (by simp) (padded_lt h hn)
  | tail h ih =>
    cases layout with
    | nil => cases hfit
    | cons p layout =>
      obtain ⟨w,stop⟩ := p
      rw [writeFields,writeFields,append_assoc,append_assoc]
      refine append_lt_append _ (cons_lt_cons_iff.mpr (.inr ⟨rfl,?_⟩))
      exact ih (forall₂_cons.mp hfit).2

/-! ## Calendar fields -/

def secondText (t : DateTime) : List Char :=
  writeFields [(4,'-'), (2,'-'), (2,'T'), (2,':'), (2,':')] (utcFields t) ++ padded 2 (t.val % dayMicros / 1000000 % 60)

/-- The standard text of a timestamp with a final Z. -/
def isoText (t : DateTime) : List Char :=
  secondText t ++ ((if t.val % 1000000 = 0 then [] else '.' :: padded 6 (t.val % 1000000)) ++ ['Z'])

theorem yearIndex_mono (hmn : m ≤ n) (hn : n < 3652059) : yearIndex m ≤ yearIndex n := by
  have hm := (yearIndex_bounds (hmn.trans_lt hn)).1
  have hn' := (yearIndex_bounds hn).2.1
  by_contra hlarge
  have hle : daysBefore (yearIndex n + 1) ≤ daysBefore (yearIndex m) := daysBefore_mono (by omega)
  omega

theorem daysBeforeMonth_mono (y : ℕ) : Monotone (daysBeforeMonth y) :=
  monotone_nat_of_le_succ fun _ => Nat.le_add_right _ _

theorem monthIndex_mono {y : ℕ} (hmn : m ≤ n) (hn : n < daysBeforeMonth y 12) : monthIndex y m ≤ monthIndex y n := by
  have hm := (monthIndex_bounds (hmn.trans_lt hn)).1
  have hn' := (monthIndex_bounds hn).2.1
  by_contra hlarge
  have hle : daysBeforeMonth y (monthIndex y n + 1) ≤ daysBeforeMonth y (monthIndex y m) := daysBeforeMonth_mono y (by omega)
  omega

def dateFields (days : ℕ) : List ℕ :=
  let y := yearIndex days
  let day := days - daysBefore y
  let m := monthIndex (y + 1) day
  [y + 1,m + 1,day - daysBeforeMonth (y + 1) m + 1]

theorem FieldsLt.append (h : FieldsLt ms ns) (x y : List ℕ) : FieldsLt (ms ++ x) (ns ++ y) := by
  induction h with
  | head h => exact .head h
  | tail _ ih => exact .tail ih

theorem FieldsLt.prepend (h : FieldsLt ms ns) (x : List ℕ) : FieldsLt (x ++ ms) (x ++ ns) := by
  induction x with
  | nil => exact h
  | cons _ _ ih => exact .tail ih

theorem dateFields_lt (hmn : m < n) (hn : n < 3652059) : FieldsLt (dateFields m) (dateFields n) := by
  have hyear := yearIndex_mono hmn.le hn
  rcases hyear.lt_or_eq with hyear | hyear
  · exact .head (Nat.succ_lt_succ hyear)
  obtain ⟨hy,hy',-⟩ := yearIndex_bounds hn
  rw [daysBefore_succ] at hy'
  have hbefore := (yearIndex_bounds (hmn.trans hn)).1
  unfold dateFields
  rw [hyear] at hbefore ⊢
  refine .tail ?_
  have hday : n - daysBefore (yearIndex n) < daysBeforeMonth (yearIndex n + 1) 12 := Nat.sub_lt_left_of_lt_add hy hy'
  have hdays : m - daysBefore (yearIndex n) < n - daysBefore (yearIndex n) := by omega
  rcases (monthIndex_mono hdays.le hday).lt_or_eq with hmonth | hmonth
  · exact .head (Nat.succ_lt_succ hmonth)
  have hm := (monthIndex_bounds (hdays.trans hday)).1
  rw [hmonth] at hm ⊢
  refine .tail (.head ?_)
  omega

def secondFields (t : DateTime) : List ℕ :=
  dateFields (t.val / dayMicros) ++
    [t.val % dayMicros / 3600000000,t.val % dayMicros / 60000000 % 60,t.val % dayMicros / 1000000 % 60]

theorem secondFields_lt (h : t.val / 1000000 < u.val / 1000000) : FieldsLt (secondFields t) (secondFields u) := by
  have hlimit : u.val / 86400000000 < 3652059 := (Nat.div_lt_iff_lt_mul (by decide)).mpr u.isLt
  unfold secondFields dayMicros
  rcases Nat.lt_or_ge (t.val / 86400000000) (u.val / 86400000000) with hday | hday
  · exact (dateFields_lt hday hlimit).append _ _
  have hsame : t.val / 86400000000 = u.val / 86400000000 := by omega
  rw [hsame]
  refine FieldsLt.prepend ?_ _
  generalize hrest : t.val % 86400000000 = rest
  generalize hrest' : u.val % 86400000000 = rest'
  have hseconds : rest / 1000000 < rest' / 1000000 := by omega
  rcases Nat.lt_or_ge (rest / 3600000000) (rest' / 3600000000) with hhour | hhour
  · exact .head hhour
  rw [show rest / 3600000000 = rest' / 3600000000 by omega]
  refine .tail ?_
  rcases Nat.lt_or_ge (rest / 60000000 % 60) (rest' / 60000000 % 60) with hminute | hminute
  · exact .head hminute
  rw [show rest / 60000000 % 60 = rest' / 60000000 % 60 by omega]
  exact .tail (.head (by omega))

theorem secondFields_fit (t : DateTime) : List.Forall₂ (fun (p : ℕ × Char) n => n < 10 ^ p.1)
    [(4,'-'), (2,'-'), (2,'T'), (2,':'), (2,':'), (2,'Z')] (secondFields t) := by
  have hdays : t.val / dayMicros < 3652059 := by
    rw [Nat.div_lt_iff_lt_mul (by decide)]
    exact t.isLt
  have hrest : t.val % dayMicros < 86400000000 := Nat.mod_lt _ (by decide)
  obtain ⟨hy,hy',hyle⟩ := yearIndex_bounds hdays
  rw [daysBefore_succ] at hy'
  obtain ⟨hm,hm',hmle⟩ := monthIndex_bounds (Nat.sub_lt_left_of_lt_add hy hy')
  have hlen := daysInMonth_le (yearIndex (t.val / dayMicros) + 1)
    (monthIndex (yearIndex (t.val / dayMicros) + 1) (t.val / dayMicros - daysBefore (yearIndex (t.val / dayMicros))) + 1)
  rw [daysBeforeMonth] at hm'
  refine .cons ?_ (.cons ?_ (.cons ?_ (.cons ?_ (.cons ?_ (.cons ?_ .nil)))))
  all_goals dsimp only; omega

theorem secondText_append (t : DateTime) :
    secondText t ++ ['Z'] = writeFields [(4,'-'), (2,'-'), (2,'T'), (2,':'), (2,':'), (2,'Z')] (secondFields t) := by
  simp [secondText,secondFields,dateFields,utcFields,writeFields]

theorem length_secondText (t : DateTime) : (secondText t).length = 19 := by
  simp [secondText,utcFields,writeFields]

theorem secondText_lt (h : t.val / 1000000 < u.val / 1000000) : secondText t < secondText u := by
  have hwritten := writeFields_lt (secondFields_lt h) (secondFields_fit u) [] []
  rw [append_nil,append_nil,← secondText_append,← secondText_append] at hwritten
  have hlen : (secondText t).length = (secondText u).length := by rw [length_secondText,length_secondText]
  rcases lt_trichotomy (secondText t) (secondText u) with hlt | heq | hgt
  · exact hlt
  · rw [heq] at hwritten
    exact absurd hwritten (lt_irrefl _)
  · exact absurd (append_lt_of_lt hlen.symm hgt) (lt_asymm hwritten)

theorem secondText_congr (h : t.val / 1000000 = u.val / 1000000) : secondText t = secondText u := by
  have hday : t.val / dayMicros = u.val / dayMicros := by unfold dayMicros; omega
  have hhour : t.val % dayMicros / 3600000000 = u.val % dayMicros / 3600000000 := by unfold dayMicros; omega
  have hminute : t.val % dayMicros / 60000000 % 60 = u.val % dayMicros / 60000000 % 60 := by unfold dayMicros; omega
  have hsecond : t.val % dayMicros / 1000000 % 60 = u.val % dayMicros / 1000000 % 60 := by unfold dayMicros; omega
  simp [secondText,utcFields,writeFields,hday,hhour,hminute,hsecond]

/-- A whole second and a later fraction of it. -/
def WholeBefore (t u : DateTime) : Prop := t.val / 1000000 = u.val / 1000000 ∧ t.val % 1000000 = 0 ∧ u.val % 1000000 ≠ 0

instance WholeBefore.decidable (t u : DateTime) : Decidable (WholeBefore t u) := inferInstanceAs (Decidable (_ ∧ _ ∧ _))

theorem isoText_lt (h : t < u) (hfraction : ¬ WholeBefore t u) : isoText t < isoText u := by
  rcases Nat.lt_or_ge (t.val / 1000000) (u.val / 1000000) with hsecond | hsecond
  · exact append_lt_of_lt (by rw [length_secondText,length_secondText]) (secondText_lt hsecond)
  have hval : t.val < u.val := h
  have hsame : t.val / 1000000 = u.val / 1000000 := by omega
  have hu : u.val % 1000000 ≠ 0 := by omega
  have ht : t.val % 1000000 ≠ 0 := fun hzero => hfraction ⟨hsame,hzero,hu⟩
  unfold isoText
  rw [secondText_congr hsame,if_neg ht,if_neg hu]
  refine append_lt_append _ (cons_lt_cons_iff.mpr (.inr ⟨rfl,?_⟩))
  exact append_lt_of_lt (by simp) (padded_lt (by omega) (Nat.mod_lt _ (by decide)))

end Bdb
