import Bdb.Base.PyText

/-! # UTC timestamps and UUID texts

A timestamp is a number of microseconds since the first day of year one. Its written
form has fixed-width decimal fields in the proleptic Gregorian calendar and is read
back to the same timestamp. A UUID text is what the library constructor takes.
-/
namespace Bdb

/-! ## Fixed-width decimal fields -/

/-- The last `w` decimal digits of a number. -/
def padded : ℕ → ℕ → List Char
  | 0, _ => []
  | w + 1, n => padded w (n / 10) ++ [Nat.digitChar (n % 10)]

def digitsValue (cs : List Char) : ℕ := cs.foldl (fun n c => 10 * n + (c.toNat - 48)) 0

/-- Reads a decimal field of a fixed width. -/
def takeNumber (w : ℕ) (cs : List Char) : Option (ℕ × List Char) :=
  if w ≤ cs.length ∧ (cs.take w).all Char.isDigit = true then some (digitsValue (cs.take w),cs.drop w)
  else none

/-- Reads one expected character. -/
def expect (c : Char) : List Char → Option (List Char)
  | [] => none
  | d :: cs => if d = c then some cs else none

@[simp] theorem length_padded (w n : ℕ) : (padded w n).length = w := by
  induction w generalizing n with
  | zero => rfl
  | succ w ih => simp [padded,ih]

theorem digitChar_isDigit {d : ℕ} (h : d < 10) : (Nat.digitChar d).isDigit = true := by
  have hall : ∀ i : Fin 10, (Nat.digitChar i.val).isDigit = true := by decide
  exact hall ⟨d,h⟩

theorem digitChar_value {d : ℕ} (h : d < 10) : (Nat.digitChar d).toNat - 48 = d := by
  have hall : ∀ i : Fin 10, (Nat.digitChar i.val).toNat - 48 = i.val := by decide
  exact hall ⟨d,h⟩

theorem all_isDigit_padded (w n : ℕ) : (padded w n).all Char.isDigit = true := by
  induction w generalizing n with
  | zero => rfl
  | succ w ih =>
    have hlast := digitChar_isDigit (Nat.mod_lt n (show 10 > 0 by omega))
    simp [padded,ih,hlast]

theorem digitsValue_padded (w n : ℕ) : digitsValue (padded w n) = n % 10 ^ w := by
  induction w generalizing n with
  | zero => simp [padded,digitsValue,Nat.mod_one]
  | succ w ih =>
    have hlast := digitChar_value (Nat.mod_lt n (show 10 > 0 by omega))
    have hinit : digitsValue (padded w (n / 10)) = n / 10 % 10 ^ w := ih (n / 10)
    unfold digitsValue at hinit ⊢
    rw [padded,List.foldl_append,hinit,List.foldl_cons,List.foldl_nil,hlast,pow_succ',
      Nat.mod_mul]
    omega

theorem takeNumber_padded {w n : ℕ} (h : n < 10 ^ w) (cs : List Char) :
    takeNumber w (padded w n ++ cs) = some (n,cs) := by
  have htake : (padded w n ++ cs).take w = padded w n := by
    rw [List.take_append_of_le_length (by simp),List.take_of_length_le (by simp)]
  have hdrop : (padded w n ++ cs).drop w = cs := List.drop_left' (length_padded w n)
  unfold takeNumber
  rw [htake,hdrop,if_pos ⟨by simp,all_isDigit_padded w n⟩,digitsValue_padded,Nat.mod_eq_of_lt h]

@[simp] theorem expect_cons (c : Char) (cs : List Char) : expect c (c :: cs) = some cs := if_pos rfl

/-- Decimal fields, each with its width and the character after it. -/
def writeFields : List (ℕ × Char) → List ℕ → List Char
  | (w,stop) :: layout, n :: ns => padded w n ++ stop :: writeFields layout ns
  | _, _ => []

def readFields : List (ℕ × Char) → List Char → Option (List ℕ)
  | [], cs => if cs.isEmpty then some [] else none
  | (w,stop) :: layout, cs =>
    (takeNumber w cs).bind (fun p => (expect stop p.2).bind (fun rest =>
      (readFields layout rest).map (fun ns => p.1 :: ns)))

theorem readFields_writeFields {layout : List (ℕ × Char)} {ns : List ℕ}
    (h : List.Forall₂ (fun (p : ℕ × Char) n => n < 10 ^ p.1) layout ns) :
    readFields layout (writeFields layout ns) = some ns := by
  induction h with
  | nil => rfl
  | @cons p n layout ns hn _ ih =>
    obtain ⟨w,stop⟩ := p
    simp only [writeFields,readFields,takeNumber_padded hn,Option.bind_some,expect_cons,ih,Option.map_some]

/-! ## The calendar -/

def isLeap (y : ℕ) : Bool := y % 4 == 0 && (y % 100 != 0 || y % 400 == 0)

/-- The days before the first of January of year `y + 1`. -/
def daysBefore (y : ℕ) : ℕ := y * 365 + y / 4 - y / 100 + y / 400

def daysInMonth (y m : ℕ) : ℕ :=
  if m = 2 then (if isLeap y then 29 else 28)
  else if m = 4 ∨ m = 6 ∨ m = 9 ∨ m = 11 then 30 else 31

def daysBeforeMonth (y : ℕ) : ℕ → ℕ
  | 0 => 0
  | m + 1 => daysBeforeMonth y m + daysInMonth y (m + 1)

theorem daysBeforeMonth_twelve (y : ℕ) : daysBeforeMonth y 12 = if isLeap y then 366 else 365 := by
  simp only [daysBeforeMonth,daysInMonth]
  cases isLeap y <;> rfl

theorem daysBefore_succ (y : ℕ) : daysBefore (y + 1) = daysBefore y + daysBeforeMonth (y + 1) 12 := by
  have hle : y / 100 ≤ y / 4 := Nat.div_le_div_left (by omega) (by omega)
  have h100 : (y + 1) % 100 = 0 → (y + 1) % 4 = 0 := by omega
  have h400 : (y + 1) % 400 = 0 → (y + 1) % 100 = 0 := by omega
  rw [daysBeforeMonth_twelve]
  simp only [daysBefore,isLeap,Nat.succ_div,Nat.dvd_iff_mod_eq_zero,Bool.and_eq_true,beq_iff_eq,
    Bool.or_eq_true,bne_iff_ne]
  generalize y / 4 = a at *
  generalize y / 100 = b at *
  by_cases h4 : (y + 1) % 4 = 0
  · by_cases hc : (y + 1) % 100 = 0
    · by_cases hq : (y + 1) % 400 = 0
      all_goals
        simp [h4,hc,hq]
        omega
    · have hq : ¬ (y + 1) % 400 = 0 := fun h => hc (h400 h)
      simp [h4,hc,hq]
      omega
  · have hc : ¬ (y + 1) % 100 = 0 := fun h => h4 (h100 h)
    have hq : ¬ (y + 1) % 400 = 0 := fun h => hc (h400 h)
    simp [h4,hc,hq]
    omega

/-- The last index below a bound whose value is at most `n`. -/
def lastBelow (f : ℕ → ℕ) (n bound : ℕ) : ℕ := Nat.findGreatest (fun i => f i ≤ n) bound

theorem lastBelow_le {f : ℕ → ℕ} (n bound : ℕ) (hf : f 0 = 0) : f (lastBelow f n bound) ≤ n :=
  Nat.findGreatest_spec (P := fun i => f i ≤ n) (Nat.zero_le bound) (hf.le.trans (Nat.zero_le n))

theorem lastBelow_le_bound (f : ℕ → ℕ) (n bound : ℕ) : lastBelow f n bound ≤ bound :=
  Nat.findGreatest_le bound

theorem lt_lastBelow_succ {f : ℕ → ℕ} {n bound : ℕ} (h : n < f (bound + 1)) :
    n < f (lastBelow f n bound + 1) := by
  have hle := lastBelow_le_bound f n bound
  rcases Nat.lt_or_ge (lastBelow f n bound) bound with hlt | hge
  · have hnot := Nat.findGreatest_is_greatest (P := fun i => f i ≤ n)
      (Nat.lt_succ_self (lastBelow f n bound)) hlt
    exact not_le.mp hnot
  · rw [show lastBelow f n bound = bound by omega]
    exact h

/-! ## Timestamps -/

def dayMicros : ℕ := 86400000000

/-- Years one to 9999. -/
def dateTimeLimit : ℕ := 3652059 * 86400000000

abbrev DateTime := Fin dateTimeLimit

theorem sampleMicros_lt : 63902822400000000 < dateTimeLimit := by
  decide

/-- A later timestamp; the calendar ends with year 9999. -/
def DateTime.plus (t : DateTime) (micros : ℕ) : Outcome DateTime :=
  if h : t.val + micros < dateTimeLimit then .ok ⟨t.val + micros,h⟩
  else fail "OverflowError" "date value out of range"

theorem DateTime.plus_ok {t u : DateTime} {micros : ℕ} (h : t.plus micros = .ok u) :
    u.val = t.val + micros := by
  unfold DateTime.plus at h
  split at h
  · cases h
    rfl
  · cases h

/-- No year is shorter than 365 days, so the search starts there. -/
def yearIndex (days : ℕ) : ℕ := lastBelow daysBefore days (days / 365)

def monthIndex (year day : ℕ) : ℕ := lastBelow (daysBeforeMonth year) day 11

def utcLayout : List (ℕ × Char) := [(4,'-'),(2,'-'),(2,'T'),(2,':'),(2,':'),(2,'.'),(6,'Z')]

/-- Year, month, day, hour, minute, second and microsecond. -/
def utcFields (t : DateTime) : List ℕ :=
  let days := t.val / dayMicros
  let rest := t.val % dayMicros
  let y := yearIndex days
  let day := days - daysBefore y
  let m := monthIndex (y + 1) day
  [y + 1,m + 1,day - daysBeforeMonth (y + 1) m + 1,rest / 3600000000,rest / 60000000 % 60,
    rest / 1000000 % 60,rest % 1000000]

/-- The written form with microseconds and a final Z. -/
def utcText (t : DateTime) : String := String.ofList (writeFields utcLayout (utcFields t))

/-- The timestamp of calendar fields, when they name one. -/
def fromFields (y m d hh mm ss micros : ℕ) : Option DateTime :=
  if 1 ≤ y ∧ 1 ≤ m ∧ m ≤ 12 ∧ 1 ≤ d ∧ d ≤ daysInMonth y m ∧ hh < 24 ∧ mm < 60 ∧ ss < 60 then
    let n := (daysBefore (y - 1) + daysBeforeMonth y (m - 1) + (d - 1)) * dayMicros +
      ((hh * 60 + mm) * 60 + ss) * 1000000 + micros
    if h : n < dateTimeLimit then some ⟨n,h⟩ else none
  else none

/-- Reads the written form back. -/
def readUtc (s : String) : Option DateTime :=
  match readFields utcLayout s.toList with
  | some [y,m,d,hh,mm,ss,micros] => fromFields y m d hh mm ss micros
  | _ => none

theorem daysBefore_mono : Monotone daysBefore := by
  refine monotone_nat_of_le_succ ?_
  intro y
  rw [daysBefore_succ]
  omega

theorem le_daysBefore (y : ℕ) : y * 365 ≤ daysBefore y := by
  have hle : y / 100 ≤ y / 4 := Nat.div_le_div_left (by omega) (by omega)
  unfold daysBefore
  omega

theorem yearIndex_bounds {days : ℕ} (h : days < 3652059) :
    daysBefore (yearIndex days) ≤ days ∧ days < daysBefore (yearIndex days + 1) ∧
      yearIndex days ≤ 9998 := by
  have hle : daysBefore (yearIndex days) ≤ days := lastBelow_le days (days / 365) rfl
  have hbound := le_daysBefore (days / 365 + 1)
  refine ⟨hle,lt_lastBelow_succ (by omega),?_⟩
  by_contra hlarge
  have hlast : daysBefore 9999 ≤ daysBefore (yearIndex days) := daysBefore_mono (by omega)
  have hvalue : daysBefore 9999 = 3652059 := rfl
  omega

theorem monthIndex_bounds {year day : ℕ} (h : day < daysBeforeMonth year 12) :
    daysBeforeMonth year (monthIndex year day) ≤ day ∧
      day < daysBeforeMonth year (monthIndex year day + 1) ∧ monthIndex year day ≤ 11 :=
  ⟨lastBelow_le day 11 rfl,lt_lastBelow_succ h,lastBelow_le_bound _ _ _⟩

theorem daysInMonth_le (y m : ℕ) : daysInMonth y m ≤ 31 := by
  unfold daysInMonth
  split
  all_goals split <;> omega

theorem fromFields_of (t : DateTime) {days rest y day m : ℕ} (hdays : days = t.val / dayMicros)
    (hrest : rest = t.val % dayMicros) (hday : day = days - daysBefore y) (hy : daysBefore y ≤ days)
    (hm : daysBeforeMonth (y + 1) m ≤ day) (hm' : day < daysBeforeMonth (y + 1) (m + 1)) (hle : m ≤ 11) :
    fromFields (y + 1) (m + 1) (day - daysBeforeMonth (y + 1) m + 1) (rest / 3600000000)
      (rest / 60000000 % 60) (rest / 1000000 % 60) (rest % 1000000) = some t := by
  have hmonth : day < daysBeforeMonth (y + 1) m + daysInMonth (y + 1) (m + 1) := hm'
  have hday' : rest < 86400000000 := hrest ▸ Nat.mod_lt _ (by decide)
  have htime : ((rest / 3600000000 * 60 + rest / 60000000 % 60) * 60 + rest / 1000000 % 60) * 1000000 +
      rest % 1000000 = rest := by omega
  have hsum : days * dayMicros + rest = t.val := by
    rw [hdays,hrest,Nat.mul_comm]
    exact Nat.div_add_mod t.val dayMicros
  have hn : (daysBefore (y + 1 - 1) + daysBeforeMonth (y + 1) (m + 1 - 1) +
      (day - daysBeforeMonth (y + 1) m + 1 - 1)) * dayMicros +
      ((rest / 3600000000 * 60 + rest / 60000000 % 60) * 60 + rest / 1000000 % 60) * 1000000 +
      rest % 1000000 = t.val := by
    have hd : daysBefore (y + 1 - 1) + daysBeforeMonth (y + 1) (m + 1 - 1) +
        (day - daysBeforeMonth (y + 1) m + 1 - 1) = days := by
      simp only [Nat.add_sub_cancel]
      omega
    rw [hd,Nat.add_assoc,htime,hsum]
  unfold fromFields
  rw [if_pos (by refine ⟨?_,?_,?_,?_,?_,?_,?_,?_⟩ <;> omega)]
  simp only [hn,t.isLt,↓reduceDIte]

theorem readUtc_utcText (t : DateTime) : readUtc (utcText t) = some t := by
  have hdays : t.val / dayMicros < 3652059 := by
    rw [Nat.div_lt_iff_lt_mul (by decide)]
    exact t.isLt
  have hrest : t.val % dayMicros < 86400000000 := Nat.mod_lt _ (by decide)
  obtain ⟨hy,hy',hyle⟩ := yearIndex_bounds hdays
  rw [daysBefore_succ] at hy'
  obtain ⟨hm,hm',hmle⟩ := monthIndex_bounds (Nat.sub_lt_left_of_lt_add hy hy')
  have hfields := fromFields_of t rfl rfl rfl hy hm hm' hmle
  have hlen := daysInMonth_le (yearIndex (t.val / dayMicros) + 1)
    (monthIndex (yearIndex (t.val / dayMicros) + 1)
      (t.val / dayMicros - daysBefore (yearIndex (t.val / dayMicros))) + 1)
  rw [daysBeforeMonth] at hm'
  have hfit : List.Forall₂ (fun (p : ℕ × Char) n => n < 10 ^ p.1) utcLayout (utcFields t) := by
    refine .cons ?_ (.cons ?_ (.cons ?_ (.cons ?_ (.cons ?_ (.cons ?_ (.cons ?_ .nil))))))
    all_goals dsimp only; omega
  rw [readUtc,utcText,String.toList_ofList,readFields_writeFields hfit]
  exact hfields

/-! ## UUID texts -/

/-- Drops every occurrence of a text, from left to right; `skip` characters are still
to be dropped. -/
def removeFrom (pat : List Char) : ℕ → List Char → List Char
  | _, [] => []
  | skip + 1, _ :: cs => removeFrom pat skip cs
  | 0, c :: cs =>
    if pat.isPrefixOf (c :: cs) then removeFrom pat (pat.length - 1) cs else c :: removeFrom pat 0 cs

def trimChars (p : Char → Bool) (cs : List Char) : List Char := ((cs.dropWhile p).reverse.dropWhile p).reverse

def isHexDigit (c : Char) : Bool :=
  c.isDigit || (decide ('a' ≤ c) && decide (c ≤ 'f')) || (decide ('A' ≤ c) && decide (c ≤ 'F'))

/-- Hexadecimal digits with single underscores between them. -/
def hexGroups : Bool → List Char → Bool
  | afterBreak, [] => !afterBreak
  | afterBreak, c :: cs => if c = '_' then !afterBreak && hexGroups true cs else isHexDigit c && hexGroups false cs

/-- What the integer conversion with base 16 takes: blanks around, one plus sign and the
mark `0x` are allowed. No minus sign is left when a UUID is read. -/
def isHexInt (text : List Char) : Bool :=
  let cs := trimChars (fun c => (9 ≤ c.toNat && c.toNat ≤ 13) || c.toNat == 32) text
  let digits := if cs.head? = some '+' then cs.tail else cs
  if digits.head? = some '0' ∧ (digits.tail.head? = some 'x' ∨ digits.tail.head? = some 'X') then
    hexGroups true (if (digits.drop 2).head? = some '_' then digits.drop 3 else digits.drop 2)
  else hexGroups true digits

/-- The texts `UUID` takes: 32 hexadecimal characters after the scheme names, the braces
and the hyphens are dropped. The table says so for texts beyond ASCII. -/
def isUuidText (table : String → Bool) (s : String) : Bool :=
  if s.toList.all (fun c => c.toNat < 128) then
    let named := removeFrom "uuid:".toList 0 (removeFrom "urn:".toList 0 s.toList)
    let hex := removeFrom ['-'] 0 (trimChars (fun c => c == '\x7b' || c == '\x7d') named)
    hex.length == 32 && isHexInt hex
  else table s

end Bdb
