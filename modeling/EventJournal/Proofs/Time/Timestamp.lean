import EventJournal.Event.Codec
import EventJournal.Proofs.Time.Calendar

/-!
# A timestamp reads back

The text of a moment is a row of numbers with a mark after each. A number is written with as many digits as
its reader takes at most, or stops at the mark, so what is left of the text after it is the rest that was
written.

* `Timestamp.Writable` — the moments whose text has a year of four digits: those of the years 0 to 9999, where
  a leap second ends a minute.
* `Timestamp.readNumber_padded`, `Timestamp.readFraction_fractionText` — numbers and places of a second.
* `Timestamp.parse_text` and `Timestamp.ofJson_text` — the text of such a moment is read as that moment.
-/

namespace EventJournal.Timestamp

open Text (isBlank)

/-! ## Digits -/

theorem not_isBlank_of_isDigit {c : Char} (h : c.isDigit = true) : isBlank c = false := by
  simp only [Char.isDigit, Bool.and_eq_true, decide_eq_true_eq, UInt32.le_iff_toNat_le] at h
  have hdigit : 48 ≤ c.toNat ∧ c.toNat ≤ 57 := h
  have hspace : c ≠ ' ' := by
    rintro rfl
    exact absurd hdigit (by decide)
  simp only [isBlank, hspace, decide_false, Bool.false_or, Bool.or_eq_false_iff, Bool.and_eq_false_iff,
    decide_eq_false_iff_not]
  omega

/-- The digits of a number, with zeros before them. -/
theorem toList_padded (width n : Nat) :
    (padded width n).toList = List.replicate (width - (Nat.toDigits 10 n).length) '0' ++ Nat.toDigits 10 n := by
  simp [padded, ← String.length_toList]

theorem isDigit_of_mem_padded {width n : Nat} {c : Char} (h : c ∈ (padded width n).toList) :
    c.isDigit = true := by
  rw [toList_padded, List.mem_append] at h
  rcases h with h | h
  · rw [List.eq_of_mem_replicate h]
    rfl
  · exact Nat.isDigit_of_mem_toDigits (by decide) (by decide) h

/-- A number that fits has as many digits as asked for. -/
theorem length_padded {width n : Nat} (pos : 0 < width) (h : n < 10 ^ width) :
    (padded width n).toList.length = width := by
  have hle := (Nat.length_toDigits_le_iff (b := 10) (n := n) (by decide) pos).mpr h
  rw [toList_padded, List.length_append, List.length_replicate]
  omega

theorem padded_eq_cons {width n : Nat} (pos : 0 < width) (h : n < 10 ^ width) :
    ∃ c digits, (padded width n).toList = c :: digits ∧ c.isDigit = true := by
  obtain ⟨c, digits, hcons⟩ := List.exists_cons_of_length_pos ((length_padded pos h).symm ▸ pos)
  exact ⟨c, digits, hcons, isDigit_of_mem_padded (hcons ▸ List.mem_cons_self)⟩

theorem numberOf_zeros (count : Nat) (digits : List Char) :
    numberOf (List.replicate count '0' ++ digits) = numberOf digits := by
  induction count with
  | zero => rfl
  | succ count ih => exact ih

theorem numberOf_padded (width n : Nat) : numberOf (padded width n).toList = n := by
  rw [toList_padded, numberOf_zeros]
  exact Nat.ofDigitChars_ten_toDigits

/-! ## Numbers -/

/-- What follows a number: a character that is no digit. -/
def Stops (rest : List Char) : Prop := ∃ mark after, rest = mark :: after ∧ mark.isDigit = false

theorem takeWhile_stops {rest : List Char} (h : Stops rest) (count : Nat) :
    (rest.take count).takeWhile Char.isDigit = [] := by
  obtain ⟨mark, after, rfl, hmark⟩ := h
  cases count with
  | zero => rfl
  | succ count => simp [hmark]

/-- A number is read up to where its digits end. -/
theorem readNumber_append {most n : Nat} {digits rest : List Char} (there : digits ≠ [])
    (all : ∀ c ∈ digits, c.isDigit = true) (room : digits.length ≤ most) (stops : Stops rest)
    (value : numberOf digits = n) (fits : n < 10 ^ 9) :
    readNumber most (digits ++ rest) = .ok (n, rest) := by
  have htake : ((digits ++ rest).take most).takeWhile Char.isDigit = digits := by
    rw [List.take_append, List.take_of_length_le room, List.takeWhile_append_of_pos all, takeWhile_stops stops,
      List.append_nil]
  have hword : ¬ Int64.maxValue.toInt < (n : Int) := by
    have hmax : Int64.maxValue.toInt = 9223372036854775807 := by decide
    omega
  obtain ⟨c, more, rfl⟩ := List.exists_cons_of_ne_nil there
  have hc : c.isDigit = true := all c List.mem_cons_self
  rw [List.cons_append] at htake ⊢
  simp only [readNumber, hc, Bool.not_true, Bool.false_eq_true, if_false, htake, value, if_neg hword]
  rw [← List.cons_append, List.drop_left]

/-- A number of enough digits reads back. -/
theorem readNumber_padded {width most n : Nat} {rest : List Char} (pos : 0 < width) (room : width ≤ most)
    (word : most ≤ 9) (h : n < 10 ^ width) (stops : Stops rest) :
    readNumber most ((padded width n).toList ++ rest) = .ok (n, rest) := by
  have hlength := length_padded pos h
  refine readNumber_append ?_ (fun c hc => isDigit_of_mem_padded hc) (by omega) stops (numberOf_padded width n)
    (h.trans_le (Nat.pow_le_pow_right (by decide) (by omega)))
  exact List.ne_nil_of_length_pos (by omega)

/-- Blanks may stand before a number, but do not have to. -/
theorem dropWhile_padded {width n : Nat} (pos : 0 < width) (h : n < 10 ^ width) (rest : List Char) :
    ((padded width n).toList ++ rest).dropWhile isBlank = (padded width n).toList ++ rest := by
  obtain ⟨c, digits, hcons, hc⟩ := padded_eq_cons pos h
  rw [hcons, List.cons_append, List.dropWhile_cons_of_neg (by simp [not_isBlank_of_isDigit hc])]

theorem readPart_padded {low high n : Nat} {rest : List Char} (within : low ≤ n ∧ n ≤ high) (h : n < 100)
    (stops : Stops rest) : readPart 2 low high ((padded 2 n).toList ++ rest) = .ok (n, rest) := by
  unfold readPart
  rw [dropWhile_padded (by decide) h, readNumber_padded (by decide) le_rfl (by decide) h stops]
  exact if_pos within

theorem readYear_padded {n : Nat} {rest : List Char} (h : n < 10000) (stops : Stops rest) :
    readYear ((padded 4 n).toList ++ rest) = .ok ((n : Int), rest) := by
  have hnumber : readNumber 4 ((padded 4 n).toList ++ rest) = .ok (n, rest) :=
    readNumber_padded (by decide) le_rfl (by decide) h stops
  unfold readYear
  rw [dropWhile_padded (by decide) h]
  obtain ⟨c, digits, hcons, hc⟩ := padded_eq_cons (by decide : 0 < 4) h
  rw [hcons, List.cons_append] at hnumber ⊢
  dsimp only
  -- a digit is no sign
  split
  · next heq => exact absurd ((List.cons.inj heq).1 ▸ hc) (by decide)
  · next heq => exact absurd ((List.cons.inj heq).1 ▸ hc) (by decide)
  · rw [hnumber]
    have hrange : -2147483648 ≤ (n : Int) ∧ (n : Int) ≤ 2147483647 := by omega
    simp only [bind, Except.bind, pure, Except.pure, if_pos hrange]

theorem readMark_self {mark : Char} (h : isBlank mark = false) (rest : List Char) :
    readMark mark (mark :: rest) = .ok rest := by
  simp [readMark, h]

theorem readFraction_padded {width n : Nat} {rest : List Char} (pos : 0 < width) (room : width ≤ 9)
    (h : n < 10 ^ width) (stops : Stops rest) :
    readFraction ('.' :: ((padded width n).toList ++ rest)) = .ok (n * 10 ^ (9 - width), rest) := by
  have hwidth : ((padded width n).toList ++ rest).length - rest.length = width := by
    rw [List.length_append, length_padded pos h, Nat.add_sub_cancel]
  have hrest : rest.dropWhile Char.isDigit = rest := by
    obtain ⟨mark, after, rfl, hmark⟩ := stops
    exact List.dropWhile_cons_of_neg (by simp [hmark])
  simp only [readFraction, readNumber_padded pos room le_rfl h stops, bind, Except.bind, hwidth, hrest]
  rfl

/-- The places of a second read back, however many are written. -/
theorem readFraction_fractionText {nanos : Nat} (h : nanos < 1000000000) (rest : List Char) :
    readFraction ((fractionText nanos).toList ++ 'Z' :: rest) = .ok (nanos, 'Z' :: rest) := by
  have stops : Stops ('Z' :: rest) := ⟨'Z', rest, rfl, rfl⟩
  unfold fractionText
  split
  case isTrue hzero =>
    rw [hzero]
    rfl
  case isFalse =>
    have hpoint : ".".toList = ['.'] := rfl
    split_ifs with hmillis hmicros
    all_goals rw [String.toList_append, List.append_assoc, hpoint, List.singleton_append]
    · have hback : nanos / 1000000 * 10 ^ (9 - 3) = nanos := by omega
      exact (readFraction_padded (by decide) (by decide) (by omega) stops).trans (by rw [hback])
    · have hback : nanos / 1000 * 10 ^ (9 - 6) = nanos := by omega
      exact (readFraction_padded (by decide) (by decide) (by omega) stops).trans (by rw [hback])
    · have hback : nanos * 10 ^ (9 - 9) = nanos := by omega
      exact (readFraction_padded (by decide) (by decide) h stops).trans (by rw [hback])

theorem stops_fractionText (nanos : Nat) : Stops ((fractionText nanos).toList ++ ['Z']) := by
  have hpoint : ".".toList = ['.'] := rfl
  unfold fractionText
  split_ifs
  · exact ⟨'Z', [], rfl, rfl⟩
  all_goals
    rw [String.toList_append, List.append_assoc, hpoint, List.singleton_append]
    exact ⟨'.', _, rfl, rfl⟩

/-! ## Moments -/

/-- A moment whose text has a year of four digits; its leap seconds end a minute. -/
structure Writable (time : Timestamp) : Prop where
  year_low : 0 ≤ (Date.ofDays (Int.fdiv time.seconds 86400)).year
  year_high : (Date.ofDays (Int.fdiv time.seconds 86400)).year ≤ 9999
  nanos : time.nanos < 1000000000 ∨ time.nanos < 2000000000 ∧ time.seconds % 60 = 59

/-- The text of a date and a time of day in universal time. -/
def row (year month day hour minute second nanos : Nat) : List Char :=
  (padded 4 year).toList ++ '-' :: ((padded 2 month).toList ++ '-' :: ((padded 2 day).toList ++
    'T' :: ((padded 2 hour).toList ++ ':' :: ((padded 2 minute).toList ++
      ':' :: ((padded 2 second).toList ++ ((fractionText nanos).toList ++ ['Z']))))))

theorem text_eq_row {time : Timestamp} {year month day second leap nanos : Nat}
    (hdate : Date.ofDays (Int.fdiv time.seconds 86400) = ⟨year, month, day⟩) (hyear : year ≤ 9999)
    (hsecond : time.seconds - Int.fdiv time.seconds 86400 * 86400 = second)
    (hleap : (if 1000000000 ≤ time.nanos then (1, time.nanos - 1000000000) else (0, time.nanos))
      = (leap, nanos)) :
    time.text.toList =
      row year month day (second / 3600) (second / 60 % 60) (second % 60 + leap) nanos := by
  have hfour : 0 ≤ (year : Int) ∧ (year : Int) ≤ 9999 := by omega
  have hmarks : "-".toList = ['-'] ∧ "T".toList = ['T'] ∧ ":".toList = [':'] ∧ "Z".toList = ['Z'] :=
    ⟨rfl, rfl, rfl, rfl⟩
  simp only [text, civilText, hleap, hdate, hsecond, yearText, if_pos hfour, Int.toNat_natCast,
    String.toList_append, List.append_assoc, hmarks, List.cons_append, List.nil_append, row]

/-- The text of a date and a time of day is read number by number. -/
theorem parse_row {text : String} {year month day hour minute second nanos : Nat}
    (h : text.toList = row year month day hour minute second nanos)
    (hvalid : (⟨year, month, day⟩ : Date).isValid = true) (hyear : year ≤ 9999) (hhour : hour ≤ 23)
    (hminute : minute ≤ 59) (hsecond : second ≤ 60) (hnanos : nanos < 1000000000) :
    parse text = .ok
      ⟨(⟨year, month, day⟩ : Date).toDays * 86400 + hour * 3600 + minute * 60 +
          ((if second = 60 then 59 else second : Nat) : Int),
        if second = 60 then nanos + 1000000000 else nanos⟩ := by
  obtain ⟨hmonth, hmonth', hday, hday'⟩ := Date.bounds_of_isValid hvalid
  dsimp only at hmonth hmonth' hday hday'
  have readsYear (rest) : readYear ((padded 4 year).toList ++ '-' :: rest) = .ok ((year : Int), '-' :: rest) :=
    readYear_padded (by omega) ⟨_, _, rfl, rfl⟩
  have readsMonth (rest) : readPart 2 1 12 ((padded 2 month).toList ++ '-' :: rest) = .ok (month, '-' :: rest) :=
    readPart_padded ⟨hmonth, hmonth'⟩ (by omega) ⟨_, _, rfl, rfl⟩
  have readsDay (rest) : readPart 2 1 31 ((padded 2 day).toList ++ 'T' :: rest) = .ok (day, 'T' :: rest) :=
    readPart_padded ⟨hday, hday'⟩ (by omega) ⟨_, _, rfl, rfl⟩
  have readsHour (rest) : readPart 2 0 23 ((padded 2 hour).toList ++ ':' :: rest) = .ok (hour, ':' :: rest) :=
    readPart_padded (by omega) (by omega) ⟨_, _, rfl, rfl⟩
  have readsMinute (rest) :
      readPart 2 0 59 ((padded 2 minute).toList ++ ':' :: rest) = .ok (minute, ':' :: rest) :=
    readPart_padded (by omega) (by omega) ⟨_, _, rfl, rfl⟩
  have readsSecond : readPart 2 0 60 ((padded 2 second).toList ++ ((fractionText nanos).toList ++ ['Z']))
      = .ok (second, (fractionText nanos).toList ++ ['Z']) :=
    readPart_padded (by omega) (by omega) (stops_fractionText nanos)
  have readsZone : readZone ['Z'] = .ok (0, []) := rfl
  have early : ¬ (year : Int) < -262143 := by omega
  have late : ¬ 262142 < (year : Int) := by omega
  unfold parse
  rw [h, row]
  simp only [bind, Except.bind, readsYear, readMark_self (rfl : isBlank '-' = false), readsMonth, readsDay,
    readsHour, readMark_self (rfl : isBlank ':' = false), readsMinute, readsSecond,
    readFraction_fractionText hnanos, readsZone, hvalid]
  simp [early, late]

/-- The text of a moment is read as that moment. -/
theorem parse_text {time : Timestamp} (h : time.Writable) : parse time.text = .ok time := by
  obtain ⟨days, hdays⟩ : ∃ days, days = Int.fdiv time.seconds 86400 := ⟨_, rfl⟩
  obtain ⟨⟨year, month, day⟩, hdate⟩ : ∃ date, Date.ofDays days = date := ⟨_, rfl⟩
  obtain ⟨hlow, hhigh, hnanos⟩ := h
  rw [← hdays, hdate] at hlow hhigh
  obtain ⟨year, rfl⟩ := Int.eq_ofNat_of_zero_le hlow
  have hfloor : days = time.seconds / 86400 := by
    rw [hdays, Int.fdiv_eq_ediv_of_nonneg _ (by decide)]
  obtain ⟨second, hsecond⟩ := Int.eq_ofNat_of_zero_le (show 0 ≤ time.seconds - days * 86400 by omega)
  obtain ⟨⟨leap, nanos⟩, hleap⟩ : ∃ parts : Nat × Nat,
    (if 1000000000 ≤ time.nanos then (1, time.nanos - 1000000000) else (0, time.nanos)) = parts := ⟨_, rfl⟩
  have hkept : nanos < 1000000000 ∧
      (leap = 0 ∧ time.nanos = nanos ∨ leap = 1 ∧ time.nanos = nanos + 1000000000 ∧ second % 60 = 59) := by
    split at hleap <;> cases hleap <;> omega
  have hyear : year ≤ 9999 := by
    dsimp only at hhigh
    omega
  have hrow : time.text.toList =
      row year month day (second / 3600) (second / 60 % 60) (second % 60 + leap) nanos :=
    text_eq_row (hdays ▸ hdate) hyear (hdays ▸ hsecond) hleap
  have hvalid : (⟨year, month, day⟩ : Date).isValid = true := hdate ▸ Date.isValid_ofDays days
  have htoDays : (⟨year, month, day⟩ : Date).toDays = days := hdate ▸ Date.toDays_ofDays days
  rw [parse_row hrow hvalid hyear (by omega) (by omega) (by omega) hkept.1, htoDays]
  rcases hkept with ⟨-, ⟨rfl, hsame⟩ | ⟨rfl, hsame, hlast⟩⟩
  · have hordinary : ¬ second % 60 + 0 = 60 := by omega
    have hseconds : days * 86400 + (second / 3600 : Nat) * 3600 + (second / 60 % 60 : Nat) * 60 +
        (second % 60 + 0 : Nat) = time.seconds := by omega
    rw [if_neg hordinary, if_neg hordinary, hseconds, ← hsame]
  · have hextra : second % 60 + 1 = 60 := by omega
    have hseconds : days * 86400 + (second / 3600 : Nat) * 3600 + (second / 60 % 60 : Nat) * 60 +
        (59 : Nat) = time.seconds := by omega
    rw [if_pos hextra, if_pos hextra, hseconds, ← hsame]

/-- A moment reads back. -/
theorem ofJson_text {time : Timestamp} (h : time.Writable) : ofJson (.str time.text) = .ok time := by
  simp only [ofJson, parse_text h]

end EventJournal.Timestamp
