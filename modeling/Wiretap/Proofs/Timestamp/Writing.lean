import Wiretap.Proofs.Timestamp.Calendar
import Wiretap.Timestamp.Text

/-! What is written for a point in time is read as that point. Each number of the text has a fixed
width, or ends where the time ends, so its digits are told from what follows; the date of a day is
turned back into that day by the calendar. -/

set_option autoImplicit false

namespace Wiretap.Timestamp
open Wiretap.Text

section
variable {most width n : Nat} {c : Char} {rest : List Char}

theorem digit_plain (h : isDigit c = true) : isSpace c = false ∧ c ≠ '-' ∧ c ≠ '+' := by
  have hrange : 48 ≤ c.toNat ∧ c.toNat ≤ 57 := by
    simpa [isDigit, Char.le_def, UInt32.le_iff_toNat_le] using h
  refine ⟨?_, ?_, ?_⟩
  · simp [isSpace]
    omega
  · rintro rfl
    exact absurd hrange.1 (by decide)
  · rintro rfl
    exact absurd hrange.1 (by decide)

theorem mem_digits (h : c ∈ digits width n) : isDigit c = true := by
  obtain hzero | hdigit := List.mem_append.mp h
  · rw [List.eq_of_mem_replicate hzero]
    rfl
  · exact Nat.isDigit_of_mem_toDigits (by decide) (by decide) hdigit

theorem digits_length (hwidth : 0 < width) (hn : n < Nat.pow 10 width) :
    (digits width n).length = width := by
  have hshort := (Nat.length_toDigits_le_iff (by decide) hwidth).mpr hn
  rw [digits, List.length_append, List.length_replicate]
  omega

theorem valueOf_digits (width n : Nat) : valueOf (digits width n) = n := by
  have hvalue (ds : List Char) : valueOf ds = Nat.ofDigitChars 10 ds 0 :=
    Nat.ofDigitChars_eq_foldl.symm
  rw [hvalue, digits, Nat.ofDigitChars_append, Nat.ofDigitChars_replicate_zero, Nat.mul_zero,
    Nat.ofDigitChars_ten_toDigits]

/-- A numeral is read as far as its digits go: all that are looked at, or up to a sign. -/
theorem number_digits (hwidth : 0 < width) (hn : n < Nat.pow 10 width) (hmost : width ≤ most)
    (hrest : (rest.take (most - width)).takeWhile isDigit = []) :
    number most (digits width n ++ rest) = some (n, rest) := by
  have hlength := digits_length hwidth hn
  have htaken : ((digits width n ++ rest).take most).takeWhile isDigit = digits width n := by
    rw [List.take_append, List.take_of_length_le (by omega), hlength,
      List.takeWhile_append_of_pos fun c hc => mem_digits hc, hrest, List.append_nil]
  have hsome : (digits width n).isEmpty = false := by
    rw [List.isEmpty_eq_false_iff, ← List.length_pos_iff, hlength]
    exact hwidth
  simp only [number, htaken, hsome, valueOf_digits, List.drop_left]
  rfl

theorem number_exact (rest : List Char) (hwidth : 0 < width) (hn : n < Nat.pow 10 width) :
    number width (digits width n ++ rest) = some (n, rest) :=
  number_digits hwidth hn (Nat.le_refl _) (by rw [Nat.sub_self]; rfl)

theorem digits_cons (hwidth : 0 < width) (hn : n < Nat.pow 10 width) :
    ∃ c ds, digits width n = c :: ds ∧ isDigit c = true := by
  obtain ⟨c, ds, hcons⟩ := List.length_pos_iff_exists_cons.mp (digits_length hwidth hn ▸ hwidth)
  exact ⟨c, ds, hcons, mem_digits (hcons ▸ List.mem_cons_self ..)⟩

theorem skipSpace_plain (h : isSpace c = false) : skipSpace (c :: rest) = c :: rest := by
  rw [skipSpace, List.dropWhile_cons_of_neg (by simp [h])]

theorem skipSpace_digits (rest : List Char) (hwidth : 0 < width) (hn : n < Nat.pow 10 width) :
    skipSpace (digits width n ++ rest) = digits width n ++ rest := by
  obtain ⟨c, ds, hcons, hc⟩ := digits_cons hwidth hn
  rw [hcons, List.cons_append, skipSpace_plain (digit_plain hc).1]

theorem field_two (hn : n < 100) : field 2 (digits 2 n ++ rest) = some (n, rest) := by
  rw [field, skipSpace_digits rest (by decide) hn, number_exact rest (by decide) hn]

theorem separator_self (h : isSpace c = false) : separator c (c :: rest) = some rest := by
  rw [separator, skipSpace_plain h]
  exact if_pos rfl

/-- A year of four digits has no sign. -/
theorem yearField_digits (hn : n < 10000) :
    yearField (digits 4 n ++ rest) = some ((n : Int), rest) := by
  have hfour : 0 < 4 := by decide
  have hread := number_exact rest hfour hn
  have hplain := skipSpace_digits rest hfour hn
  obtain ⟨c, ds, hcons, hc⟩ := digits_cons hfour hn
  obtain ⟨-, hminus, hplus⟩ := digit_plain hc
  rw [hcons] at hread hplain ⊢
  rw [yearField, hplain]
  split
  · next h => exact absurd (List.cons.inj h).1 hminus
  · next h => exact absurd (List.cons.inj h).1 hplus
  · rw [hread]
    rfl

theorem yearText_four {year : Int} (hfrom : 0 ≤ year) (hto : year ≤ 9999) :
    yearText year = digits 4 year.toNat := by
  rw [yearText, if_neg (by omega), if_pos hto]

theorem dateField_text {date : Date} (hvalid : date.isValid = true) (hfrom : 0 ≤ date.year)
    (hto : date.year ≤ 9999) :
    dateField (yearText date.year ++ '-' :: (digits 2 date.month ++ '-' ::
      (digits 2 date.day ++ rest))) = some (date, rest) := by
  obtain ⟨hmonth, hday⟩ := Date.isValid_two hvalid
  have hyear : ((date.year.toNat : Nat) : Int) = date.year := Int.toNat_of_nonneg hfrom
  rw [yearText_four hfrom hto]
  simp only [dateField, yearField_digits (show date.year.toNat < 10000 by omega),
    separator_self (show isSpace '-' = false by decide), field_two hmonth, field_two hday,
    Option.bind_eq_bind, Option.bind_some, hyear]

/-- What stands behind a fraction is no digit, so the fraction need not have all nine. -/
theorem fractionField_digits (hwidth : 0 < width) (hnine : width ≤ 9) (hn : n < Nat.pow 10 width)
    (hc : isDigit c = false) :
    fractionField ('.' :: (digits width n ++ c :: rest)) =
      some (n * Nat.pow 10 (9 - width), c :: rest) := by
  have hstop : ((c :: rest).take (9 - width)).takeWhile isDigit = [] := by
    cases 9 - width with
    | zero => rfl
    | succ k => rw [List.take_succ_cons, List.takeWhile_cons_of_neg (by simp [hc])]
  have hused : (digits width n ++ c :: rest).length - (c :: rest).length = width := by
    rw [List.length_append, digits_length hwidth hn]
    omega
  simp only [fractionField, number_digits hwidth hn hnine hstop, Option.bind_eq_bind,
    Option.bind_some, hused, List.dropWhile_cons_of_neg (show ¬ isDigit c = true by simp [hc])]

theorem fractionField_text {nano : Nat} (hnano : nano < billion) (hc : isDigit c = false)
    (hpoint : c ≠ '.') :
    fractionField (fractionText nano ++ c :: rest) = some (nano, c :: rest) := by
  unfold billion at hnano
  rw [fractionText]
  split
  · next h =>
    subst h
    rw [List.nil_append, fractionField]
    intro cs hcs
    exact hpoint (List.cons.inj hcs).1
  split
  · next h =>
    have hmillis : nano / 1000000 * Nat.pow 10 (9 - 3) = nano := by
      rw [show Nat.pow 10 (9 - 3) = 1000000 from rfl]
      omega
    have hshort : nano / 1000000 < Nat.pow 10 3 := by
      rw [show Nat.pow 10 3 = 1000 from rfl]
      omega
    rw [List.cons_append, fractionField_digits (by decide) (by decide) hshort hc, hmillis]
  split
  · next h =>
    have hmicros : nano / 1000 * Nat.pow 10 (9 - 6) = nano := by
      rw [show Nat.pow 10 (9 - 6) = 1000 from rfl]
      omega
    have hshort : nano / 1000 < Nat.pow 10 6 := by
      rw [show Nat.pow 10 6 = 1000000 from rfl]
      omega
    rw [List.cons_append, fractionField_digits (by decide) (by decide) hshort hc, hmicros]
  · have hnanos : nano * Nat.pow 10 (9 - 9) = nano := Nat.mul_one nano
    rw [List.cons_append, fractionField_digits (by decide) (by decide) hnano hc, hnanos]

/-- The clock of a second that is no leap second. -/
theorem clockField_text {second nano : Nat} (hsecond : second < secondsPerDay)
    (hnano : nano < billion) (hc : isDigit c = false) (hpoint : c ≠ '.') :
    clockField (digits 2 (second / 3600) ++ ':' :: (digits 2 (second / 60 % 60) ++ ':' ::
      (digits 2 (second % 60) ++ (fractionText nano ++ c :: rest)))) =
      some (second, nano, c :: rest) := by
  unfold secondsPerDay at hsecond
  have hwhole : second / 3600 * 3600 + second / 60 % 60 * 60 + second % 60 = second := by omega
  have hrange : second / 3600 < 24 ∧ second / 60 % 60 < 60 ∧ second % 60 ≤ 60 := by omega
  simp only [clockField, separator_self (show isSpace ':' = false by decide),
    field_two (show second / 3600 < 100 by omega),
    field_two (show second / 60 % 60 < 100 by omega),
    field_two (show second % 60 < 100 by omega), fractionField_text hnano hc hpoint,
    Option.bind_eq_bind, Option.bind_some, if_pos hrange,
    if_neg (show ¬ second % 60 = 60 by omega), hwhole]

end

/-- A point in time of the years zero to 9999 that is not in a leap second. -/
structure Plain (t : Timestamp) : Prop where
  year_from : 0 ≤ t.date.year
  year_to : t.date.year ≤ 9999
  nano_lt : t.nano < billion

instance (t : Timestamp) : Decidable t.Plain :=
  decidable_of_iff (0 ≤ t.date.year ∧ t.date.year ≤ 9999 ∧ t.nano < billion)
    ⟨fun ⟨hfrom, hto, hnano⟩ => ⟨hfrom, hto, hnano⟩, fun h => ⟨h.year_from, h.year_to, h.nano_lt⟩⟩

theorem chars_plain {t : Timestamp} (h : t.nano < billion) :
    t.chars = yearText t.date.year ++ '-' :: (digits 2 t.date.month ++ '-' ::
      (digits 2 t.date.day ++ 'T' :: (digits 2 (t.secondOfDay / 3600) ++ ':' ::
        (digits 2 (t.secondOfDay / 60 % 60) ++ ':' :: (digits 2 (t.secondOfDay % 60) ++
          (fractionText t.nano ++ ['Z'])))))) := by
  simp only [chars, Nat.div_eq_of_lt h, Nat.mod_eq_of_lt h, Nat.add_zero, List.append_assoc,
    List.cons_append, List.nil_append]

theorem read_chars {t : Timestamp} (h : t.Plain) : read? t.chars = some t := by
  have hvalid : t.date.isValid = true := Date.ofDays_isValid _
  have hsecond : t.secondOfDay < secondsPerDay := by
    unfold secondOfDay secondsPerDay
    omega
  have hcalendar : inCalendar t.date.year = true := by
    have hfrom := h.year_from
    have hto := h.year_to
    rw [inCalendar, Bool.and_eq_true, decide_eq_true_eq, decide_eq_true_eq, firstYear, lastYear]
    omega
  have hwhole : t.date.toDays * secondsPerDay + t.secondOfDay - 0 = t.second := by
    rw [date, Date.toDays_ofDays]
    simp only [secondOfDay, secondsPerDay]
    omega
  simp only [chars_plain h.nano_lt, read?, dateField_text hvalid h.year_from h.year_to,
    clockField_text hsecond h.nano_lt (show isDigit 'Z' = false by decide) (by decide),
    show offsetField (skipSpace ['Z']) = some (0, []) by decide, Option.bind_eq_bind,
    Option.bind_some, hwhole, hvalid, hcalendar]
  rfl

end Wiretap.Timestamp
