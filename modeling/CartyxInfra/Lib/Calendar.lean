/-
The Gregorian calendar and the text of an instant, as ECMAScript's dates
have them: instants are milliseconds from 1970, and `toISOString` writes one
with fixed-width fields.

`readInstant_text`: the text reads back to its instant.
`toISOString_lt_iff`: in the years 0 to 9999 the texts are ordered as the
instants are.
-/
import CartyxInfra.Lib.JString

namespace CartyxInfra.Calendar

open JString

/-! ## Years -/

/-- The day a year begins on, from 1970 on. -/
def dayFromYear (y : Int) : Int :=
  365 * (y - 1970) + (y - 1969) / 4 - (y - 1901) / 100 + (y - 1601) / 400

/-- The year a day is in: the estimate is off by one at most. -/
def yearFromDay (d : Int) : Int :=
  let y := d * 400 / 146097 + 1970
  if dayFromYear (y + 1) ≤ d then y + 1 else if d < dayFromYear y then y - 1 else y

/-- The year has a 29th of February. -/
def isLeap (y : Int) : Bool := y % 4 == 0 && (y % 100 != 0 || y % 400 == 0)

/-- A year is 365.2425 days long, within two days. -/
theorem dayFromYear_bounds (y : Int) :
    146097 * (y - 1970) - 800 < 400 * dayFromYear y ∧ 400 * dayFromYear y < 146097 * (y - 1970) + 800 := by
  unfold dayFromYear
  omega

theorem dayFromYear_succ (y : Int) :
    dayFromYear (y + 1) = dayFromYear y + (if isLeap y then 366 else 365) := by
  unfold dayFromYear isLeap
  simp only [Bool.and_eq_true, Bool.or_eq_true, beq_iff_eq, bne_iff_ne]
  split <;> omega

/-- The year of a day is the last one that has begun. -/
theorem yearFromDay_spec (d : Int) :
    dayFromYear (yearFromDay d) ≤ d ∧ d < dayFromYear (yearFromDay d + 1) := by
  have hbounds := dayFromYear_bounds
  unfold yearFromDay
  dsimp only
  generalize hy : d * 400 / 146097 + 1970 = y
  have hd : 146097 * (y - 1970) ≤ d * 400 ∧ d * 400 < 146097 * (y - 1970) + 146097 := by omega
  split
  · next h =>
    have := hbounds (y + 1 + 1)
    exact ⟨h, by omega⟩
  · split
    · next h =>
      have := hbounds (y - 1)
      rw [Int.sub_add_cancel]
      exact ⟨by omega, h⟩
    · omega

/-! ## Months -/

/-- The day of the year a month begins on. -/
def monthStart (leap : Bool) (m : Nat) : Nat :=
  let l := if leap then 1 else 0
  match m with
  | 0 | 1 => 0
  | 2 => 31
  | 3 => 59 + l
  | 4 => 90 + l
  | 5 => 120 + l
  | 6 => 151 + l
  | 7 => 181 + l
  | 8 => 212 + l
  | 9 => 243 + l
  | 10 => 273 + l
  | 11 => 304 + l
  | 12 => 334 + l
  | _ => 365 + l

/-- The month a day of the year is in: the last one that has begun. -/
def monthFromDay (leap : Bool) (n : Nat) : Nat :=
  ((List.range 13).filter fun m => 1 ≤ m && monthStart leap m ≤ n).length

theorem monthStart_step (leap : Bool) (m : Nat) : monthStart leap m ≤ monthStart leap (m + 1) := by
  have hyear : ∀ leap, ∀ m < 13, monthStart leap m ≤ monthStart leap (m + 1) := by decide
  rcases Nat.lt_or_ge m 13 with h | h
  · exact hyear leap m h
  · obtain ⟨k, rfl⟩ := Nat.exists_eq_add_of_le' h
    exact Nat.le_refl _

theorem monthStart_le {leap : Bool} {m m' : Nat} (h : m ≤ m') : monthStart leap m ≤ monthStart leap m' := by
  induction h with
  | refl => exact Nat.le_refl _
  | step _ ih => exact Nat.le_trans ih (monthStart_step leap _)

theorem monthFromDay_spec {leap : Bool} {n : Nat} (hn : n < 365 + if leap then 1 else 0) :
    1 ≤ monthFromDay leap n ∧ monthFromDay leap n ≤ 12 ∧ monthStart leap (monthFromDay leap n) ≤ n ∧
      n < monthStart leap (monthFromDay leap n + 1) := by
  have : ∀ leap, ∀ n < 365 + (if leap then 1 else 0), 1 ≤ monthFromDay leap n ∧ monthFromDay leap n ≤ 12 ∧
      monthStart leap (monthFromDay leap n) ≤ n ∧ n < monthStart leap (monthFromDay leap n + 1) := by
    decide +kernel
  exact this leap n hn

/-! ## Digits -/

/-- A number in decimal, in so many digits. -/
def digits : Nat → Nat → JString
  | 0, _ => []
  | width + 1, n => digits width (n / 10) ++ [(0x30 + n % 10).toUInt16]

/-- The number that digits stand for. -/
def number (text : JString) : Nat := text.foldl (fun n u => 10 * n + (u.toNat - 0x30)) 0

@[simp] theorem length_digits : ∀ width n, (digits width n).length = width
  | 0, _ => rfl
  | width + 1, n => by simp [digits, length_digits width]

theorem toNat_digit (n : Nat) : (0x30 + n % 10).toUInt16.toNat = 0x30 + n % 10 :=
  (UInt16.toNat_ofNat ..).trans (Nat.mod_eq_of_lt (by omega))

theorem number_digits {width n : Nat} (h : n < 10 ^ width) : number (digits width n) = n := by
  induction width generalizing n with
  | zero =>
    obtain rfl : n = 0 := by omega
    rfl
  | succ width ih =>
    have hdiv : n / 10 < 10 ^ width := by omega
    have hfold : number (digits (width + 1) n) = 10 * number (digits width (n / 10)) + n % 10 := by
      simp only [number, digits, List.foldl_append, List.foldl_cons, List.foldl_nil, toNat_digit]
      omega
    rw [hfold, ih hdiv]
    omega

/-- Texts are compared as far as they have the same length first. -/
theorem append_lt_append {a b s t : JString} (h : a.length = b.length) :
    a ++ s < b ++ t ↔ a < b ∨ a = b ∧ s < t := by
  induction a generalizing b with
  | nil =>
    obtain rfl : b = [] := List.length_eq_zero_iff.1 h.symm
    simp
  | cons u a ih =>
    cases b with
    | nil => cases h
    | cons v b =>
      have hlength : a.length = b.length := by simpa using h
      simp only [List.cons_append, List.cons_lt_cons_iff, ih hlength, List.cons.injEq]
      constructor
      · rintro (hlt | ⟨rfl, hlt | ⟨rfl, hlt⟩⟩)
        · exact .inl (.inl hlt)
        · exact .inl (.inr ⟨rfl, hlt⟩)
        · exact .inr ⟨⟨rfl, rfl⟩, hlt⟩
      · rintro ((hlt | ⟨rfl, hlt⟩) | ⟨⟨rfl, rfl⟩, hlt⟩)
        · exact .inl hlt
        · exact .inr ⟨rfl, .inl hlt⟩
        · exact .inr ⟨rfl, .inr ⟨rfl, hlt⟩⟩

theorem digits_injective {width n m : Nat} (hn : n < 10 ^ width) (hm : m < 10 ^ width) :
    digits width n = digits width m ↔ n = m :=
  ⟨fun h => by rw [← number_digits hn, h, number_digits hm], fun h => by rw [h]⟩

/-- Numbers in the same number of digits are ordered as texts. -/
theorem digits_lt {width n m : Nat} (hn : n < 10 ^ width) (hm : m < 10 ^ width) :
    digits width n < digits width m ↔ n < m := by
  induction width generalizing n m with
  | zero =>
    obtain rfl : n = 0 := by omega
    obtain rfl : m = 0 := by omega
    simp [digits]
  | succ width ih =>
    have hn' : n / 10 < 10 ^ width := by omega
    have hm' : m / 10 < 10 ^ width := by omega
    have hlast : [(0x30 + n % 10).toUInt16] < [(0x30 + m % 10).toUInt16] ↔ n % 10 < m % 10 := by
      rw [List.cons_lt_cons_iff]
      simp only [UInt16.lt_iff_toNat_lt, toNat_digit, List.not_lt_nil, and_false, or_false]
      omega
    rw [digits, digits, append_lt_append (by simp), ih hn' hm', hlast, digits_injective hn' hm']
    omega

/-! ## Instants -/

/-- A date and a time of day. -/
structure Fields where
  year : Int
  month : Nat
  day : Nat
  hour : Nat
  minute : Nat
  second : Nat
  ms : Nat

/-- The date and the time of an instant, in UTC. -/
def fields (t : Int) : Fields :=
  let d := t / 86400000
  let ms := (t % 86400000).toNat
  let y := yearFromDay d
  let n := (d - dayFromYear y).toNat
  let m := monthFromDay (isLeap y) n
  { year := y
    month := m
    day := n - monthStart (isLeap y) m + 1
    hour := ms / 3600000
    minute := ms / 60000 % 60
    second := ms / 1000 % 60
    ms := ms % 1000 }

/-- The instant of a date and a time. -/
def Fields.instant (f : Fields) : Int :=
  (dayFromYear f.year + monthStart (isLeap f.year) f.month + (f.day - 1 : Int)) * 86400000 +
    f.hour * 3600000 + f.minute * 60000 + f.second * 1000 + f.ms

/-- Fields that a calendar has. -/
structure Fields.Valid (f : Fields) : Prop where
  month : 1 ≤ f.month ∧ f.month ≤ 12
  day : 1 ≤ f.day ∧ monthStart (isLeap f.year) f.month + f.day ≤ monthStart (isLeap f.year) (f.month + 1)
  hour : f.hour < 24
  minute : f.minute < 60
  second : f.second < 60
  ms : f.ms < 1000

theorem day_bounds (d : Int) :
    ((d - dayFromYear (yearFromDay d)).toNat : Int) = d - dayFromYear (yearFromDay d) ∧
    (d - dayFromYear (yearFromDay d)).toNat < 365 + if isLeap (yearFromDay d) then 1 else 0 := by
  have hspec := yearFromDay_spec d
  have hyear := dayFromYear_succ (yearFromDay d)
  split at hyear
  · next h =>
    rw [if_pos h]
    omega
  · next h =>
    rw [if_neg h]
    omega

theorem valid_fields (t : Int) : (fields t).Valid := by
  obtain ⟨hone, htwelve, hle, hlt⟩ := monthFromDay_spec (day_bounds (t / 86400000)).2
  refine ⟨⟨hone, htwelve⟩, ⟨?_, ?_⟩, ?_, ?_, ?_, ?_⟩
  all_goals
    simp only [fields]
    omega

theorem instant_fields (t : Int) : (fields t).instant = t := by
  obtain ⟨hday, hlength⟩ := day_bounds (t / 86400000)
  obtain ⟨-, -, hle, -⟩ := monthFromDay_spec hlength
  simp only [fields, Fields.instant]
  omega

/-- The months of a valid date are over before the next year. -/
theorem Fields.Valid.month_in_year {f : Fields} (h : f.Valid) :
    dayFromYear f.year + monthStart (isLeap f.year) (f.month + 1) ≤ dayFromYear (f.year + 1) := by
  have hlast : monthStart (isLeap f.year) (f.month + 1) ≤ 365 + if isLeap f.year then 1 else 0 :=
    monthStart_le (show f.month + 1 ≤ 13 by have := h.month; omega)
  have hsucc := dayFromYear_succ f.year
  split at hsucc
  · next hl =>
    rw [if_pos hl] at hlast
    omega
  · next hl =>
    rw [if_neg hl] at hlast
    omega

/-! ## Texts -/

/-- Four digits for the years they are enough for, and a sign and six for the others. -/
def yearText (y : Int) : JString :=
  if 0 ≤ y ∧ y ≤ 9999 then digits 4 y.toNat
  else utf16 (if y < 0 then "-" else "+") ++ digits 6 y.natAbs

/-- What follows the year, up to the last digit of the milliseconds, with what stands in
the place of its colons and of its dot. -/
def Fields.rest (f : Fields) (colon dot : JString) : JString :=
  utf16 "-" ++ (digits 2 f.month ++ (utf16 "-" ++ (digits 2 f.day ++ (utf16 "T" ++
    (digits 2 f.hour ++ (colon ++ (digits 2 f.minute ++ (colon ++ (digits 2 f.second ++
      (dot ++ digits 3 f.ms))))))))))

/-- The text of a date and a time. -/
def Fields.text (f : Fields) (colon dot : JString) : JString :=
  yearText f.year ++ (f.rest colon dot ++ utf16 "Z")

/-- `new Date(t).toISOString()`. -/
def toISOString (t : Int) : JString := (fields t).text (utf16 ":") (utf16 ".")

/-- The digits of a text from a place on. -/
def numberAt (text : JString) (start width : Nat) : Nat := number ((text.drop start).take width)

/-- The fields of a text whose year ends at a place. -/
def fieldsAt (text : JString) (year : Int) (place : Nat) : Fields where
  year := year
  month := numberAt text (place + 1) 2
  day := numberAt text (place + 4) 2
  hour := numberAt text (place + 7) 2
  minute := numberAt text (place + 10) 2
  second := numberAt text (place + 13) 2
  ms := numberAt text (place + 16) 3

/-- The instant a text of this form stands for. -/
def readInstant (text : JString) : Int :=
  match text.head? with
  | some sign =>
    if sign = 0x2D then (fieldsAt text (-numberAt text 1 6) 7).instant
    else if sign = 0x2B then (fieldsAt text (numberAt text 1 6) 7).instant
    else (fieldsAt text (numberAt text 0 4) 4).instant
  | none => 0

theorem numberAt_digits {a b : JString} {start width n : Nat} (ha : a.length = start) (hn : n < 10 ^ width) :
    numberAt (a ++ (digits width n ++ b)) start width = n := by
  subst ha
  rw [numberAt, List.drop_left, List.take_left' (length_digits width n), number_digits hn]

theorem Fields.Valid.day_lt {f : Fields} (h : f.Valid) : f.day < 10 ^ 2 := by
  obtain ⟨⟨-, hmonth⟩, ⟨-, hday⟩, -⟩ := h
  have hstep : ∀ leap, ∀ m < 13, monthStart leap (m + 1) ≤ monthStart leap m + 31 := by decide
  have := hstep (isLeap f.year) f.month (by omega)
  omega

theorem fieldsAt_text {f : Fields} (h : f.Valid) {y b : JString} {place : Nat} (hy : y.length = place)
    (year : Int) :
    fieldsAt (y ++ (f.rest (utf16 ":") (utf16 ".") ++ b)) year place = { f with year := year } := by
  have hday := h.day_lt
  obtain ⟨⟨-, hmonth⟩, -, hhour, hminute, hsecond, hms⟩ := h
  have hone (c : String) (hc : (utf16 c).length = 1) {a : JString} {k : Nat} (ha : a.length = k) :
    (a ++ utf16 c).length = k + 1 := by simp [ha, hc]
  have htwo {a : JString} {k : Nat} (ha : a.length = k) (n : Nat) :
    (a ++ digits 2 n).length = k + 2 := by simp [ha]
  have h1 := hone "-" rfl hy
  have h3 := hone "-" rfl (htwo h1 f.month)
  have h5 := hone "T" rfl (htwo h3 f.day)
  have h7 := hone ":" rfl (htwo h5 f.hour)
  have h9 := hone ":" rfl (htwo h7 f.minute)
  have h11 := hone "." rfl (htwo h9 f.second)
  simp only [fieldsAt, Fields.mk.injEq, true_and, Fields.rest]
  refine ⟨?_, ?_, ?_, ?_, ?_, ?_⟩
  · simpa using numberAt_digits h1 (show f.month < 10 ^ 2 by omega)
  · simpa using numberAt_digits h3 hday
  · simpa using numberAt_digits h5 (show f.hour < 10 ^ 2 by omega)
  · simpa using numberAt_digits h7 (show f.minute < 10 ^ 2 by omega)
  · simpa using numberAt_digits h9 (show f.second < 10 ^ 2 by omega)
  · simpa using numberAt_digits h11 (show f.ms < 10 ^ 3 by omega)

/-- The instants a date can hold. -/
def InRange (t : Int) : Prop := -8640000000000000 ≤ t ∧ t ≤ 8640000000000000

instance (t : Int) : Decidable (InRange t) := inferInstanceAs (Decidable (_ ∧ _))

theorem natAbs_year {t : Int} (h : InRange t) : (fields t).year.natAbs < 10 ^ 6 := by
  have hspec := yearFromDay_spec (t / 86400000)
  have hbegun := dayFromYear_bounds (yearFromDay (t / 86400000))
  have hnext := dayFromYear_bounds (yearFromDay (t / 86400000) + 1)
  simp only [InRange] at h
  simp only [fields]
  omega

/-- The first character of a number's text is a digit. -/
theorem head_digits (width n : Nat) (text : JString) :
    ∃ d, d < 10 ∧ (digits (width + 1) n ++ text).head? = some (0x30 + d).toUInt16 := by
  induction width generalizing n text with
  | zero => exact ⟨n % 10, Nat.mod_lt _ (by omega), by simp [digits]⟩
  | succ width ih =>
    obtain ⟨d, hd, hhead⟩ := ih (n / 10) ([(0x30 + n % 10).toUInt16] ++ text)
    refine ⟨d, hd, ?_⟩
    rw [digits, List.append_assoc]
    exact hhead

theorem readInstant_of_head {text : JString} {u : UInt16} (h : text.head? = some u) :
    readInstant text =
      if u = 0x2D then (fieldsAt text (-numberAt text 1 6) 7).instant
      else if u = 0x2B then (fieldsAt text (numberAt text 1 6) 7).instant
      else (fieldsAt text (numberAt text 0 4) 4).instant := by
  rw [readInstant, h]

/-- A text that goes on as an instant's does, up to its milliseconds, stands for that instant. -/
theorem readInstant_text {t : Int} (h : InRange t) (b : JString) :
    readInstant (yearText (fields t).year ++ ((fields t).rest (utf16 ":") (utf16 ".") ++ b)) = t := by
  have hvalid := valid_fields t
  have hyear := natAbs_year h
  generalize htext : yearText (fields t).year ++ ((fields t).rest (utf16 ":") (utf16 ".") ++ b) = text
  have hat (year : Int) (he : year = (fields t).year) {place : Nat}
      (hplace : (yearText (fields t).year).length = place) : (fieldsAt text year place).instant = t := by
    rw [← htext, fieldsAt_text hvalid hplace, he]
    exact instant_fields t
  by_cases hfour : 0 ≤ (fields t).year ∧ (fields t).year ≤ 9999
  · have hs : yearText (fields t).year = digits 4 (fields t).year.toNat := if_pos hfour
    obtain ⟨d, hd, hhead⟩ := head_digits 3 (fields t).year.toNat
      ((fields t).rest (utf16 ":") (utf16 ".") ++ b)
    rw [← hs, htext] at hhead
    have hnum : numberAt text 0 4 = (fields t).year.toNat := by
      rw [← htext, hs]
      exact numberAt_digits (a := []) rfl (by omega)
    have hdigit : (0x30 + d).toUInt16.toNat = 0x30 + d :=
      (UInt16.toNat_ofNat ..).trans (Nat.mod_eq_of_lt (by omega))
    have hne (u : UInt16) (hu : u.toNat < 0x30) : (0x30 + d).toUInt16 ≠ u := by
      intro he
      rw [he] at hdigit
      omega
    rw [readInstant_of_head hhead, if_neg (hne 0x2D (by decide)), if_neg (hne 0x2B (by decide)), hnum]
    exact hat _ (by omega) (by rw [hs]; simp)
  · have hs : yearText (fields t).year =
        utf16 (if (fields t).year < 0 then "-" else "+") ++ digits 6 (fields t).year.natAbs := if_neg hfour
    have hnum : numberAt text 1 6 = (fields t).year.natAbs := by
      rw [← htext, hs, List.append_assoc]
      exact numberAt_digits (by split <;> rfl) hyear
    have hplace : (yearText (fields t).year).length = 7 := by
      rw [hs]
      split <;> simp [utf16, units]
    by_cases hneg : (fields t).year < 0
    · have hhead : text.head? = some 0x2D := by
        rw [← htext, hs, if_pos hneg]
        rfl
      rw [readInstant_of_head hhead, if_pos rfl, hnum]
      exact hat _ (by omega) hplace
    · have hhead : text.head? = some 0x2B := by
        rw [← htext, hs, if_neg hneg]
        rfl
      rw [readInstant_of_head hhead, if_neg (by decide), if_pos rfl, hnum]
      exact hat _ (by omega) hplace

/-! ## Order -/

/-- The instants of the years that four digits write. -/
def FourDigits (t : Int) : Prop := 0 ≤ (fields t).year ∧ (fields t).year ≤ 9999

instance (t : Int) : Decidable (FourDigits t) := inferInstanceAs (Decidable (_ ∧ _))

theorem append_lt_append_left {s a b : JString} : s ++ a < s ++ b ↔ a < b := by
  rw [append_lt_append rfl]
  simp

theorem digits_append_lt {width n m : Nat} {a b : JString} (hn : n < 10 ^ width) (hm : m < 10 ^ width) :
    digits width n ++ a < digits width m ++ b ↔ n < m ∨ n = m ∧ a < b := by
  rw [append_lt_append (by simp), digits_lt hn hm, digits_injective hn hm]

/-- One date and time comes before another. -/
def Fields.Before (f g : Fields) : Prop :=
  f.year < g.year ∨ f.year = g.year ∧ (f.month < g.month ∨ f.month = g.month ∧ (f.day < g.day ∨
    f.day = g.day ∧ (f.hour < g.hour ∨ f.hour = g.hour ∧ (f.minute < g.minute ∨ f.minute = g.minute ∧
      (f.second < g.second ∨ f.second = g.second ∧ f.ms < g.ms)))))

/-- Texts are compared field by field. -/
theorem text_lt {f g : Fields} (hf : f.Valid) (hg : g.Valid) (hfy : 0 ≤ f.year ∧ f.year ≤ 9999)
    (hgy : 0 ≤ g.year ∧ g.year ≤ 9999) (colon dot : JString) :
    f.text colon dot < g.text colon dot ↔ f.Before g := by
  have hfday := hf.day_lt
  have hgday := hg.day_lt
  obtain ⟨⟨-, _⟩, -, _, _, _, _⟩ := hf
  obtain ⟨⟨-, _⟩, -, _, _, _, _⟩ := hg
  have hyear : f.year < g.year ↔ f.year.toNat < g.year.toNat := by omega
  have hyear' : f.year = g.year ↔ f.year.toNat = g.year.toNat := by omega
  have hz : ¬ utf16 "Z" < utf16 "Z" := List.lt_irrefl _
  simp only [Fields.text, Fields.rest, yearText, if_pos hfy, if_pos hgy, List.append_assoc, Fields.Before]
  rw [digits_append_lt (by omega) (by omega), append_lt_append_left, digits_append_lt (by omega) (by omega),
    append_lt_append_left, digits_append_lt hfday hgday, append_lt_append_left,
    digits_append_lt (by omega) (by omega), append_lt_append_left, digits_append_lt (by omega) (by omega),
    append_lt_append_left, digits_append_lt (by omega) (by omega), append_lt_append_left,
    digits_append_lt (by omega) (by omega), hyear, hyear']
  simp only [hz, and_false, or_false]

theorem dayFromYear_le {y y' : Int} (h : y ≤ y') : dayFromYear y ≤ dayFromYear y' := by
  unfold dayFromYear
  omega

theorem Fields.Before.instant_lt {f g : Fields} (hf : f.Valid) (hg : g.Valid) (h : f.Before g) :
    f.instant < g.instant := by
  have hend := hf.month_in_year
  obtain ⟨-, ⟨_, _⟩, _, _, _, _⟩ := hf
  obtain ⟨-, ⟨_, _⟩, _, _, _, _⟩ := hg
  simp only [Fields.instant]
  rcases h with hyear | ⟨hyear, hmonth | ⟨hmonth, h⟩⟩
  · have : dayFromYear (f.year + 1) ≤ dayFromYear g.year := dayFromYear_le hyear
    omega
  · have hnext : monthStart (isLeap f.year) (f.month + 1) ≤ monthStart (isLeap f.year) g.month :=
      monthStart_le hmonth
    rw [← hyear]
    omega
  · rw [hyear, hmonth]
    omega

theorem Fields.before_total (f g : Fields) : f.Before g ∨ f = g ∨ g.Before f := by
  obtain ⟨y, m, d, hour, minute, second, ms⟩ := f
  obtain ⟨y', m', d', hour', minute', second', ms'⟩ := g
  simp only [Fields.Before, Fields.mk.injEq]
  omega

theorem before_iff {t t' : Int} : (fields t).Before (fields t') ↔ t < t' := by
  have hlt {t t' : Int} (h : (fields t).Before (fields t')) : t < t' := by
    have := h.instant_lt (valid_fields t) (valid_fields t')
    rwa [instant_fields, instant_fields] at this
  refine ⟨hlt, fun h => ?_⟩
  rcases (fields t).before_total (fields t') with hbefore | heq | hafter
  · exact hbefore
  · have : t = t' := by rw [← instant_fields t, heq, instant_fields]
    omega
  · have := hlt hafter
    omega

/-- **Order.** In the years 0 to 9999 texts of one form are ordered as their instants are. -/
theorem text_lt_iff {t t' : Int} (h : FourDigits t) (h' : FourDigits t') (colon dot : JString) :
    (fields t).text colon dot < (fields t').text colon dot ↔ t < t' := by
  rw [text_lt (valid_fields t) (valid_fields t') h h', before_iff]

/-! ## Texts without colons and dots -/

/-- A dash for a colon or a dot. -/
def dash (u : UInt16) : UInt16 := if u = 0x3A ∨ u = 0x2E then 0x2D else u

/-- `new Date(t).toISOString().replaceAll(/[:.]/g, '-')`. -/
def dashedISOString (t : Int) : JString := (toISOString t).map dash

theorem map_dash_digits : ∀ width n, (digits width n).map dash = digits width n
  | 0, _ => rfl
  | width + 1, n => by
    have hdigit : dash (0x30 + n % 10).toUInt16 = (0x30 + n % 10).toUInt16 := by
      have : ∀ d < 10, dash (0x30 + d).toUInt16 = (0x30 + d).toUInt16 := by decide
      exact this (n % 10) (Nat.mod_lt _ (by omega))
    rw [digits, List.map_append, map_dash_digits width, List.map_singleton, hdigit]

theorem dashedISOString_eq (t : Int) : dashedISOString t = (fields t).text (utf16 "-") (utf16 "-") := by
  have hsign : ∀ y, (yearText y).map dash = yearText y := by
    intro y
    unfold yearText
    split
    · exact map_dash_digits 4 _
    · rw [List.map_append, map_dash_digits]
      split <;> rfl
  have hdash : (utf16 "-").map dash = utf16 "-" := rfl
  have ht : (utf16 "T").map dash = utf16 "T" := rfl
  have hz : (utf16 "Z").map dash = utf16 "Z" := rfl
  have hcolon : (utf16 ":").map dash = utf16 "-" := rfl
  have hdot : (utf16 ".").map dash = utf16 "-" := rfl
  simp only [dashedISOString, toISOString, Fields.text, Fields.rest, List.map_append, map_dash_digits, hsign,
    hdash, ht, hz, hcolon, hdot]

theorem length_dashedISOString {t : Int} (h : FourDigits t) : (dashedISOString t).length = 24 := by
  have hyear : yearText (fields t).year = digits 4 (fields t).year.toNat := if_pos h
  rw [dashedISOString_eq]
  simp only [Fields.text, Fields.rest, hyear, List.length_append, length_digits]
  rfl

/-- Names that begin with such a text are ordered as the instants are, and then by what follows. -/
theorem dashedISOString_append_lt {t t' : Int} (h : FourDigits t) (h' : FourDigits t') (rest rest' : JString) :
    dashedISOString t ++ rest < dashedISOString t' ++ rest' ↔ t < t' ∨ t = t' ∧ rest < rest' := by
  rw [append_lt_append (by rw [length_dashedISOString h, length_dashedISOString h']), dashedISOString_eq,
    dashedISOString_eq, text_lt_iff h h']
  have hinj : (fields t).text (utf16 "-") (utf16 "-") = (fields t').text (utf16 "-") (utf16 "-") ↔ t = t' := by
    refine ⟨fun heq => ?_, fun heq => by rw [heq]⟩
    have hlt := text_lt_iff h h' (utf16 "-") (utf16 "-")
    have hgt := text_lt_iff h' h (utf16 "-") (utf16 "-")
    have hirrefl : ¬ (fields t').text (utf16 "-") (utf16 "-") < (fields t').text (utf16 "-") (utf16 "-") :=
      List.lt_irrefl _
    rw [heq] at hlt hgt
    have hle := mt hlt.2 hirrefl
    have hge := mt hgt.2 hirrefl
    omega
  rw [hinj]

end CartyxInfra.Calendar
