import Mathlib.Data.String.Basic
import Mathlib.Logic.Encodable.Basic
import Mathlib.Logic.Equiv.List
import Gpf.Reactor.Timer

/-!
# Points of time as text

`to_iso_string` writes a point of time as `YYYYMMDDTHHMMSS`, with a fraction if the seconds are not
whole. What the heartmonitor does depends on no more than that it writes different times differently,
and that is so because the fields have fixed widths and a date determines the number of its day.
-/

namespace Gpf

/-- The decimal digits of a number, in a field of the given width. -/
def decimal : ℕ → ℕ → List Char
  | 0, _ => []
  | width + 1, n => decimal width (n / 10) ++ [Nat.digitChar (n % 10)]

/-- A field is as wide as it is said to be. -/
theorem decimal_length (width n : ℕ) : (decimal width n).length = width := by
  induction width generalizing n with
  | zero => rfl
  | succ width ih => rw [decimal, List.length_append, ih, List.length_singleton]

/-- Fields with the same digits hold the same number. -/
theorem decimal_injective {width n m : ℕ} (hn : n < 10 ^ width) (hm : m < 10 ^ width)
    (h : decimal width n = decimal width m) : n = m := by
  induction width generalizing n m with
  | zero =>
    rw [Nat.pow_zero] at hn hm
    omega
  | succ width ih =>
    rw [Nat.pow_succ] at hn hm
    obtain ⟨hrest, hlast⟩ := List.append_inj' h rfl
    have hdiv := ih (n := n / 10) (m := m / 10) (by omega) (by omega) hrest
    have hchar : Nat.digitChar (n % 10) = Nat.digitChar (m % 10) := List.singleton_injective hlast
    have hmod := congrArg Char.toNat hchar
    rw [Nat.toNat_digitChar_of_lt_ten (by omega), Nat.toNat_digitChar_of_lt_ten (by omega)] at hmod
    omega

/-- A date of the Gregorian calendar. -/
structure YearMonthDay where
  year : ℕ
  month : ℕ
  day : ℕ

namespace YearMonthDay

/-- `from_day_number`: the date of a Julian day. -/
def ofDayNumber (dayNumber : ℕ) : YearMonthDay :=
  let a := dayNumber + 32044
  let b := (4 * a + 3) / 146097
  let c := a - 146097 * b / 4
  let d := (4 * c + 3) / 1461
  let e := c - 1461 * d / 4
  let m := (5 * e + 2) / 153
  { year := 100 * b + d + m / 10 - 4800
    month := m + 3 - 12 * (m / 10)
    day := e - (153 * m + 2) / 5 + 1 }

/-- `day_number`: the Julian day of a date. -/
def dayNumber (date : YearMonthDay) : ℕ :=
  let a := (14 - date.month) / 12
  let y := date.year + 4800 - a
  let m := date.month + 12 * a - 3
  date.day + (153 * m + 2) / 5 + 365 * y + y / 4 - y / 100 + y / 400 - 32045

/-- The days from the first of January 1400 to the last of December 9999, for which there are dates. -/
def Representable (dayNumber : ℕ) : Prop := 2232400 ≤ dayNumber ∧ dayNumber ≤ 5373484

/-- The numbers of `from_day_number`: the day within its century, its year and its month, and how they
add up to the day. -/
theorem parts {a b c d e m : ℕ} (hfirst : 2264444 ≤ a) (hlast : a ≤ 5405528)
    (hb : b = (4 * a + 3) / 146097) (hc : c = a - 146097 * b / 4) (hd : d = (4 * c + 3) / 1461)
    (he : e = c - 1461 * d / 4) (hm : m = (5 * e + 2) / 153) :
    (4800 ≤ 100 * b + d ∧ 100 * b + d + m / 10 < 14800 ∧ d ≤ 99) ∧
      (m ≤ 11 ∧ (153 * m + 2) / 5 ≤ e ∧ e - (153 * m + 2) / 5 ≤ 30) ∧
      a = 36524 * b + b / 4 + 365 * d + d / 4 + e := by
  have hcentury : c ≤ 36524 ∧ a = 146097 * b / 4 + c := by omega
  have hyear : e ≤ 365 ∧ c = 1461 * d / 4 + e ∧ d ≤ 99 := by omega
  have hmonth : m ≤ 11 ∧ (153 * m + 2) / 5 ≤ e ∧ e - (153 * m + 2) / 5 ≤ 30 := by omega
  have hcenturies : 61 ≤ b ∧ b ≤ 147 ∧ (b = 147 → c ≤ 36464) := by omega
  have hend : b = 147 → d = 99 → m / 10 = 0 := by omega
  have hdays : 146097 * b / 4 = 36524 * b + b / 4 ∧ 1461 * d / 4 = 365 * d + d / 4 := by omega
  refine ⟨⟨?_, ?_, hyear.2.2⟩, hmonth, ?_⟩ <;> omega

/-- A date determines the number of its day. -/
theorem dayNumber_mk {a b d e m : ℕ} (hyear : 4800 ≤ 100 * b + d) (hd : d ≤ 99) (hm : m ≤ 11)
    (he : (153 * m + 2) / 5 ≤ e) (ha : a = 36524 * b + b / 4 + 365 * d + d / 4 + e) :
    dayNumber ⟨100 * b + d + m / 10 - 4800, m + 3 - 12 * (m / 10), e - (153 * m + 2) / 5 + 1⟩ + 32044 =
      a := by
  have hleap : (14 - (m + 3 - 12 * (m / 10))) / 12 = m / 10 := by omega
  have hshift : 100 * b + d + m / 10 - 4800 + 4800 - m / 10 = 100 * b + d := by omega
  have hindex : m + 3 - 12 * (m / 10) + 12 * (m / 10) - 3 = m := by omega
  have hhundred : (100 * b + d) / 100 = b := by omega
  have hfour : (100 * b + d) / 4 = 25 * b + d / 4 := by omega
  have hfourhundred : (100 * b + d) / 400 = b / 4 := by omega
  unfold dayNumber
  dsimp only
  rw [hleap, hshift, hindex, hhundred, hfour, hfourhundred]
  omega

/-- So does the date of a day, and its fields have at most four and two digits. -/
theorem dayNumber_ofDayNumber {n : ℕ} (h : Representable n) :
    (ofDayNumber n).dayNumber = n ∧ (ofDayNumber n).year < 10000 ∧
      (ofDayNumber n).month < 100 ∧ (ofDayNumber n).day < 100 := by
  obtain ⟨⟨hyear, hlast, hd⟩, ⟨hm, he, hday⟩, ha⟩ :=
    parts (Nat.add_le_add_right h.1 32044) (Nat.add_le_add_right h.2 32044) rfl rfl rfl rfl rfl
  refine ⟨Nat.add_right_cancel (dayNumber_mk hyear hd hm he ha), ?_, ?_, ?_⟩
  · exact Nat.sub_lt_right_of_lt_add (hyear.trans (Nat.le_add_right _ _)) hlast
  · exact (Nat.sub_le _ _).trans_lt (by omega)
  · exact Nat.lt_of_le_of_lt (Nat.succ_le_succ hday) (by decide)

end YearMonthDay

namespace Time

/-- The microseconds of a day. -/
def dayLength : ℤ := 86400000000

/-- The Julian day of a time; that of the epoch of the clock is 2440588. -/
def julianDay (t : ℤ) : ℤ := t / dayLength + 2440588

/-- The microseconds of a time within its day. -/
def timeOfDay (t : ℤ) : ℕ := (t % dayLength).toNat

/-- The text of a time of day. -/
def timeText (us : ℕ) : List Char :=
  decimal 2 (us / 3600000000) ++ decimal 2 (us / 60000000 % 60) ++ decimal 2 (us / 1000000 % 60) ++
    if us % 1000000 = 0 then [] else '.' :: decimal 6 (us % 1000000)

/-- The text of a date. -/
def dateText (date : YearMonthDay) : List Char :=
  decimal 4 date.year ++ decimal 2 date.month ++ decimal 2 date.day

/-- `to_iso_string`. For the numbers which are no time of the calendar, and which no clock of the code
shows, the text is something else. -/
def toIsoString (t : ℤ) : String :=
  if 2232400 ≤ julianDay t ∧ julianDay t ≤ 5373484 then
    String.ofList (dateText (.ofDayNumber (julianDay t).toNat) ++ 'T' :: timeText (timeOfDay t))
  else String.ofList (List.replicate (Encodable.encode t) 'x')

/-- The text of a time of day determines it. -/
theorem timeText_injective {us us' : ℕ} (hus : us < 86400000000) (hus' : us' < 86400000000)
    (h : timeText us = timeText us') : us = us' := by
  unfold timeText at h
  obtain ⟨hclock, hfraction⟩ := List.append_inj h (by simp [decimal_length])
  obtain ⟨hminutes, hseconds⟩ := List.append_inj hclock (by simp [decimal_length])
  obtain ⟨hhours, hminutes⟩ := List.append_inj hminutes (by simp [decimal_length])
  have hhour := decimal_injective (by omega) (by omega) hhours
  have hminute := decimal_injective (by omega) (by omega) hminutes
  have hsecond := decimal_injective (by omega) (by omega) hseconds
  have hmicro : us % 1000000 = us' % 1000000 := by
    by_cases hzero : us % 1000000 = 0 <;> by_cases hzero' : us' % 1000000 = 0
    · rw [hzero, hzero']
    · simp [hzero, hzero'] at hfraction
    · simp [hzero, hzero'] at hfraction
    · rw [if_neg hzero, if_neg hzero'] at hfraction
      exact decimal_injective (by omega) (by omega) (List.cons_injective hfraction)
  omega

/-- The text of a date determines the number of its day. -/
theorem dateText_injective {n m : ℕ} (hn : YearMonthDay.Representable n)
    (hm : YearMonthDay.Representable m)
    (h : dateText (.ofDayNumber n) = dateText (.ofDayNumber m)) : n = m := by
  obtain ⟨hn', hyear, hmonth, hday⟩ := YearMonthDay.dayNumber_ofDayNumber hn
  obtain ⟨hm', hyear', hmonth', hday'⟩ := YearMonthDay.dayNumber_ofDayNumber hm
  unfold dateText at h
  obtain ⟨hmonths, hdays⟩ := List.append_inj h (by simp [decimal_length])
  obtain ⟨hyears, hmonths⟩ := List.append_inj hmonths (by simp [decimal_length])
  have heq : YearMonthDay.ofDayNumber n = YearMonthDay.ofDayNumber m := by
    have hy := decimal_injective hyear hyear' hyears
    have hmo := decimal_injective hmonth hmonth' hmonths
    have hd := decimal_injective hday hday' hdays
    cases hdate : YearMonthDay.ofDayNumber n
    cases hdate' : YearMonthDay.ofDayNumber m
    simp_all
  rw [← hn', ← hm', heq]

/-- No two times are written alike. -/
theorem toIsoString_injective : Function.Injective toIsoString := by
  intro t u h
  have hchars : (toIsoString t).toList = (toIsoString u).toList := congrArg String.toList h
  have hstrokes (n : ℕ) (text rest : List Char) : text ++ 'T' :: rest ≠ List.replicate n 'x' := by
    intro heq
    have hmem : 'T' ∈ List.replicate n 'x' := by
      rw [← heq]
      simp
    exact absurd (List.eq_of_mem_replicate hmem) (by decide)
  unfold toIsoString at hchars
  split at hchars <;> split at hchars <;> simp only [String.toList_ofList] at hchars
  · rename_i ht hu
    obtain ⟨hdate, hrest⟩ := List.append_inj hchars (by simp [dateText, decimal_length])
    have hday := dateText_injective (n := (julianDay t).toNat) (m := (julianDay u).toNat)
      ⟨by omega, by omega⟩ ⟨by omega, by omega⟩ hdate
    have hlt (v : ℤ) : timeOfDay v < 86400000000 := by
      unfold timeOfDay dayLength
      omega
    have htime := timeText_injective (hlt t) (hlt u) (List.cons_injective hrest)
    unfold timeOfDay julianDay dayLength at *
    omega
  · exact absurd hchars (hstrokes _ _ _)
  · exact absurd hchars.symm (hstrokes _ _ _)
  · exact Encodable.encode_injective (by simpa using congrArg List.length hchars)

/-- The first beats of 2014. -/
example : toIsoString 1388534402000000 = "20140101T000002" := by decide +kernel

example : toIsoString 1388534402000500 = "20140101T000002.000500" := by decide +kernel

end Time

end Gpf
