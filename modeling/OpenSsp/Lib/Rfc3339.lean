/-
OpenSsp/Lib/Rfc3339.lean

UTC instants and their RFC 3339 texts, of the years 0 to 9999.

* `Instant` is a civil time of the Gregorian calendar; `Instant.nanos` counts the nanoseconds
  since the beginning of the year 0.
* `Instant.text` prints it with the offset `+00:00` and with 0, 3, 6 or 9 digits of a second,
  as few as are exact.

A text can be shorter than another one and end in the middle of its fraction.  What follows is
then a `+`, which is smaller than the `.` and the digits, so the order of texts is the order of
time.

Main result: `text_lt_iff`.
-/
import Mathlib.Data.List.Lex
import Mathlib.Data.String.Basic

namespace Interleave

/-! ### Lists of one length -/

section lex

variable {α : Type} [LinearOrder α]

/-- A difference in the first part decides, when the first parts are of one length. -/
theorem append_lt_append {u v : List α} (h : u < v) (hl : u.length = v.length) (x y : List α) :
    u ++ x < v ++ y := by
  induction u generalizing v with
  | nil =>
      cases v with
      | nil => exact absurd h (lt_irrefl _)
      | cons b v => cases hl
  | cons a u ih =>
      cases v with
      | nil => cases hl
      | cons b v =>
          rw [List.cons_append, List.cons_append]
          rcases List.cons_lt_cons_iff.mp h with hab | ⟨rfl, huv⟩
          · exact List.cons_lt_cons_iff.mpr (.inl hab)
          · exact List.cons_lt_cons_iff.mpr (.inr ⟨rfl, ih huv (Nat.succ.inj hl)⟩)

/-- A common beginning does not count. -/
theorem append_lt_append_left (u : List α) {x y : List α} (h : x < y) : u ++ x < u ++ y := by
  induction u with
  | nil => exact h
  | cons a u ih => exact List.cons_lt_cons_iff.mpr (.inr ⟨rfl, ih⟩)

end lex

/-! ### Decimal digits -/

def digit (n : Nat) : Char := Char.ofNat (48 + n)

/-- The last `w` digits of `n`. -/
def decimal : Nat → Nat → List Char
  | 0, _ => []
  | w + 1, n => decimal w (n / 10) ++ [digit (n % 10)]

/-- Digits are ordered as their numbers. -/
theorem digit_lt {m n : Nat} (h : m < n) (hn : n < 10) : digit m < digit n := by
  have hall : ∀ n < 10, ∀ m < n, digit m < digit n := by decide
  exact hall n hn m h

/-- The offset's sign comes before every digit. -/
theorem plus_lt_digit {n : Nat} (h : n < 10) : '+' < digit n := by
  have hall : ∀ n < 10, '+' < digit n := by decide
  exact hall n h

/-- A padded number has its width. -/
@[simp] theorem decimal_length (w n : Nat) : (decimal w n).length = w := by
  induction w generalizing n with
  | zero => rfl
  | succ w ih => simp [decimal, ih]

/-- Padded numbers of one width are ordered as the numbers. -/
theorem decimal_lt {w m n : Nat} (h : m < n) (hn : n < 10 ^ w) : decimal w m < decimal w n := by
  induction w generalizing m n with
  | zero => omega
  | succ w ih =>
      have hn' : n / 10 < 10 ^ w := by
        rw [Nat.div_lt_iff_lt_mul (by omega), ← Nat.pow_succ]
        exact hn
      show decimal w (m / 10) ++ [digit (m % 10)] < decimal w (n / 10) ++ [digit (n % 10)]
      rcases Nat.lt_or_ge (m / 10) (n / 10) with hlt | hge
      · apply append_lt_append (ih hlt hn')
        simp
      · have heq : m / 10 = n / 10 := by omega
        rw [heq]
        apply append_lt_append_left
        exact List.cons_lt_cons_iff.mpr (.inl (digit_lt (by omega) (by omega)))

/-- Numbers in columns of fixed widths, each followed by its separator. -/
def columns : List (Nat × Char) → List Nat → List Char
  | (w, sep) :: layout, n :: ns => decimal w n ++ sep :: columns layout ns
  | _, _ => []

/-- Columns are ordered as the lists of their numbers, whatever follows. -/
theorem columns_lt {layout : List (Nat × Char)} {ms ns : List Nat} (h : ms < ns)
    (hm : ms.length = layout.length) (hn : List.Forall₂ (fun n c => n < 10 ^ c.1) ns layout)
    (x y : List Char) : columns layout ms ++ x < columns layout ns ++ y := by
  induction hn generalizing ms with
  | nil => exact absurd h (by cases ms <;> simp)
  | @cons n c ns layout hlt _ ih =>
      cases ms with
      | nil => cases hm
      | cons m ms =>
          obtain ⟨w, sep⟩ := c
          show (decimal w m ++ sep :: columns layout ms) ++ x <
            (decimal w n ++ sep :: columns layout ns) ++ y
          rw [List.append_assoc, List.append_assoc]
          rcases List.cons_lt_cons_iff.mp h with hmn | ⟨rfl, htl⟩
          · apply append_lt_append (decimal_lt hmn hlt)
            simp
          · apply append_lt_append_left
            exact List.cons_lt_cons_iff.mpr (.inr ⟨rfl, ih htl (Nat.succ.inj hm)⟩)

/-! ### The calendar -/

def leapYear (y : Nat) : Bool := (y % 4 == 0 && y % 100 != 0) || y % 400 == 0

def daysInYear (y : Nat) : Nat := if leapYear y then 366 else 365

def daysInMonth (y : Nat) : Nat → Nat
  | 2 => if leapYear y then 29 else 28
  | 4 | 6 | 9 | 11 => 30
  | _ => 31

/-- The days from the beginning of the year 0 to the beginning of the year. -/
def daysBeforeYear : Nat → Nat
  | 0 => 0
  | y + 1 => daysBeforeYear y + daysInYear y

/-- The days from the beginning of the year to the beginning of the month; January is 1. -/
def daysBeforeMonth (y : Nat) : Nat → Nat
  | 0 => 0
  | 1 => 0
  | m + 2 => daysBeforeMonth y (m + 1) + daysInMonth y (m + 1)

/-- A year is over before the next begins. -/
theorem daysBeforeYear_lt {y z : Nat} (h : y < z) :
    daysBeforeYear y + daysInYear y ≤ daysBeforeYear z := by
  induction h with
  | refl => exact Nat.le_refl _
  | step _ ih => exact Nat.le_trans ih (Nat.le_add_right _ _)

/-- A month is over before the next begins. -/
theorem daysBeforeMonth_lt {y m n : Nat} (hm : 1 ≤ m) (h : m < n) :
    daysBeforeMonth y m + daysInMonth y m ≤ daysBeforeMonth y n := by
  obtain ⟨k, rfl⟩ : ∃ k, m = k + 1 := ⟨m - 1, by omega⟩
  induction h with
  | refl => exact Nat.le_refl _
  | @step n hlt ih =>
      obtain ⟨j, rfl⟩ : ∃ j, n = j + 1 := ⟨n - 1, by have := Nat.le_of_lt hlt; omega⟩
      exact Nat.le_trans ih (Nat.le_add_right _ _)

/-- The twelve months make the year. -/
theorem daysBeforeMonth_year (y : Nat) : daysBeforeMonth y 13 = daysInYear y := by
  unfold daysInYear
  cases h : leapYear y <;> simp [daysBeforeMonth, daysInMonth, h]

/-! ### Instants -/

/-- A UTC instant, in civil time. -/
@[ext] structure Instant where
  year : Nat
  month : Nat
  day : Nat
  hour : Nat
  minute : Nat
  second : Nat
  nano : Nat
  year_lt : year < 10000
  month_pos : 1 ≤ month
  month_le : month ≤ 12
  day_pos : 1 ≤ day
  day_le : day ≤ daysInMonth year month
  hour_lt : hour < 24
  minute_lt : minute < 60
  second_lt : second < 60
  nano_lt : nano < 1000000000

namespace Instant

/-- The first midnight of a year. -/
def newYear (year : Nat) (h : year < 10000) : Instant where
  year := year
  month := 1
  day := 1
  hour := 0
  minute := 0
  second := 0
  nano := 0
  year_lt := h
  month_pos := by decide
  month_le := by decide
  day_pos := by decide
  day_le := by
    show 1 ≤ 31
    decide
  hour_lt := by decide
  minute_lt := by decide
  second_lt := by decide
  nano_lt := by decide

/-- The days since the beginning of the calendar. -/
def days (t : Instant) : Nat := daysBeforeYear t.year + daysBeforeMonth t.year t.month + (t.day - 1)

/-- The seconds since then, leap seconds not counted. -/
def seconds (t : Instant) : Nat := ((t.days * 24 + t.hour) * 60 + t.minute) * 60 + t.second

/-- Nanoseconds since the beginning of the year 0. -/
def nanos (t : Instant) : Nat := t.seconds * 1000000000 + t.nano

/-- Everything but the fraction of the second. -/
def civil (t : Instant) : List Nat := [t.year, t.month, t.day, t.hour, t.minute]

/-- The columns of date and time, with what separates them. -/
def layout : List (Nat × Char) := [(4, '-'), (2, '-'), (2, 'T'), (2, ':'), (2, ':')]

/-- The offset of UTC. -/
def offset : List Char := ['+', '0', '0', ':', '0', '0']

/-- The fraction of the second in groups of three digits, as few as are exact. -/
def groups (n : Nat) : List Nat :=
  if n = 0 then []
  else if n % 1000000 = 0 then [n / 1000000]
  else if n % 1000 = 0 then [n / 1000000, n / 1000 % 1000]
  else [n / 1000000, n / 1000 % 1000, n % 1000]

/-- The groups of a fraction, and the offset. -/
def fraction : List Nat → List Char
  | [] => offset
  | g :: gs => decimal 3 g ++ fraction gs

/-- What follows the second: its fraction in three, six or nine digits, unless it is zero, and the
offset. -/
def subsecond (n : Nat) : List Char :=
  match groups n with
  | [] => offset
  | gs => '.' :: fraction gs

/-- The text of the instant, as a list. -/
def chars (t : Instant) : List Char :=
  columns layout t.civil ++ (decimal 2 t.second ++ subsecond t.nano)

/-- `to_rfc3339` -/
def text (t : Instant) : String := String.ofList t.chars

/-! ### The order of time -/

variable {a b : Instant}

/-- Every day is within its year. -/
theorem dayOfYear_lt (t : Instant) :
    daysBeforeMonth t.year t.month + (t.day - 1) < daysInYear t.year := by
  have hle := daysBeforeMonth_lt (y := t.year) t.month_pos (Nat.lt_succ_of_le t.month_le)
  rw [daysBeforeMonth_year] at hle
  have hpos := t.day_pos
  have hday := t.day_le
  omega

/-- An earlier year, earlier days. -/
theorem days_lt_of_year (h : a.year < b.year) : a.days < b.days := by
  have hyear := daysBeforeYear_lt h
  have hday := a.dayOfYear_lt
  unfold days
  omega

/-- An earlier month of the year, earlier days. -/
theorem days_lt_of_month (hy : a.year = b.year) (h : a.month < b.month) : a.days < b.days := by
  have hmonth := daysBeforeMonth_lt (y := a.year) a.month_pos h
  have hpos := a.day_pos
  have hday := a.day_le
  unfold days
  rw [← hy]
  omega

/-- An earlier day of the month, earlier days. -/
theorem days_lt_of_day (hy : a.year = b.year) (hm : a.month = b.month) (h : a.day < b.day) :
    a.days < b.days := by
  have hpos := a.day_pos
  unfold days
  rw [← hy, ← hm]
  omega

/-- An earlier day, earlier seconds. -/
theorem seconds_lt_of_days (h : a.days < b.days) : a.seconds < b.seconds := by
  have hh := a.hour_lt
  have hm := a.minute_lt
  have hs := a.second_lt
  unfold seconds
  omega

/-- The date decides the days. -/
theorem days_eq (hy : a.year = b.year) (hm : a.month = b.month) (hd : a.day = b.day) :
    a.days = b.days := by
  unfold days
  rw [hy, hm, hd]

/-- An earlier minute is an earlier second. -/
theorem seconds_lt_of_civil (h : a.civil < b.civil) : a.seconds < b.seconds := by
  simp only [civil, List.cons_lt_cons_iff, List.not_lt_nil, and_false, or_false] at h
  rcases h with hy | ⟨hy, hm | ⟨hm, hd | ⟨hd, hrest⟩⟩⟩
  · exact seconds_lt_of_days (days_lt_of_year hy)
  · exact seconds_lt_of_days (days_lt_of_month hy hm)
  · exact seconds_lt_of_days (days_lt_of_day hy hm hd)
  · have hdays := days_eq hy hm hd
    have hm' := a.minute_lt
    have hs := a.second_lt
    unfold seconds
    omega

/-- Instants of one minute differ by their seconds. -/
theorem seconds_of_civil (h : a.civil = b.civil) :
    a.seconds + b.second = b.seconds + a.second := by
  simp only [civil, List.cons.injEq, and_true] at h
  obtain ⟨hy, hm, hd, hh, hmin⟩ := h
  unfold seconds
  rw [days_eq hy hm hd, hh, hmin]
  omega

/-- An earlier second, earlier nanoseconds. -/
theorem nanos_lt_of_seconds (h : a.seconds < b.seconds) : a.nanos < b.nanos := by
  have hn := a.nano_lt
  unfold nanos
  omega

/-- An earlier fraction of the second, earlier nanoseconds. -/
theorem nanos_lt_of_nano (h : a.seconds = b.seconds) (hn : a.nano < b.nano) :
    a.nanos < b.nanos := by
  unfold nanos
  omega

/-! ### The order of texts -/

/-- No month has more than 31 days. -/
theorem daysInMonth_le (y m : Nat) : daysInMonth y m ≤ 31 := by
  unfold daysInMonth
  split
  · split <;> omega
  all_goals omega

/-- Every number fits its column. -/
theorem civil_columns (t : Instant) : List.Forall₂ (fun n c => n < 10 ^ c.1) t.civil layout := by
  have hy := t.year_lt
  have hm := t.month_le
  have hd := Nat.le_trans t.day_le (daysInMonth_le _ _)
  have hh := t.hour_lt
  have hmin := t.minute_lt
  have hm' : t.month < 10 ^ 2 := by omega
  have hd' : t.day < 10 ^ 2 := by omega
  have hh' : t.hour < 10 ^ 2 := by omega
  have hmin' : t.minute < 10 ^ 2 := by omega
  exact .cons hy (.cons hm' (.cons hd' (.cons hh' (.cons hmin' .nil))))

/-- An earlier date and time, an earlier text. -/
theorem chars_lt_of_civil (h : a.civil < b.civil) : a.chars < b.chars :=
  columns_lt h rfl b.civil_columns _ _

/-- The groups differ first where the fractions do, or where the shorter one ends. -/
theorem groups_lt {m n : Nat} (h : m < n) : groups m < groups n := by
  unfold groups
  split_ifs
  all_goals first
    | omega
    | simp only [List.cons_lt_cons_iff, List.nil_lt_cons, List.not_lt_nil, and_false, or_false,
        and_true] <;> omega

/-- A group of three digits is below a thousand. -/
theorem groups_small {n : Nat} (hn : n < 1000000000) : ∀ g ∈ groups n, g < 1000 := by
  unfold groups
  split
  · simp
  · split
    · simp only [List.mem_singleton, forall_eq]
      omega
    · split
      · simp only [List.mem_cons, List.not_mem_nil, or_false, forall_eq_or_imp, forall_eq]
        omega
      · simp only [List.mem_cons, List.not_mem_nil, or_false, forall_eq_or_imp, forall_eq]
        omega

/-- Three digits begin with a digit. -/
theorem offset_lt_decimal (n : Nat) (x : List Char) : offset < decimal 3 n ++ x := by
  show offset < digit (n / 10 / 10 % 10) :: ([digit (n / 10 % 10), digit (n % 10)] ++ x)
  exact List.cons_lt_cons_iff.mpr (.inl (plus_lt_digit (by omega)))

/-- Fractions are ordered as the lists of their groups. -/
theorem fraction_lt {gs hs : List Nat} (h : gs < hs) (hlt : ∀ g ∈ hs, g < 1000) :
    fraction gs < fraction hs := by
  induction gs generalizing hs with
  | nil =>
      cases hs with
      | nil => exact absurd h (lt_irrefl _)
      | cons g hs => exact offset_lt_decimal g _
  | cons g gs ih =>
      cases hs with
      | nil => exact absurd h (by simp)
      | cons g' hs =>
          show decimal 3 g ++ fraction gs < decimal 3 g' ++ fraction hs
          rcases List.cons_lt_cons_iff.mp h with hg | ⟨rfl, htl⟩
          · apply append_lt_append (decimal_lt hg (hlt g' List.mem_cons_self))
            simp
          · apply append_lt_append_left
            exact ih htl fun x hx => hlt x (List.mem_cons_of_mem _ hx)

/-- A smaller fraction, an earlier text. -/
theorem subsecond_lt {m n : Nat} (h : m < n) (hn : n < 1000000000) :
    subsecond m < subsecond n := by
  have hg := groups_lt h
  have hsmall := groups_small hn
  unfold subsecond
  generalize groups m = gs at hg
  generalize groups n = hs at hg hsmall
  cases gs with
  | nil =>
      cases hs with
      | nil => exact absurd hg (by simp)
      | cons g' hs => exact List.cons_lt_cons_iff.mpr (.inl (by decide))
  | cons g gs =>
      cases hs with
      | nil => exact absurd hg (by simp)
      | cons g' hs => exact List.cons_lt_cons_iff.mpr (.inr ⟨rfl, fraction_lt hg hsmall⟩)

/-- Within a date and time the second decides. -/
theorem chars_lt_of_second (hc : a.civil = b.civil) (h : a.second < b.second) :
    a.chars < b.chars := by
  have hs := b.second_lt
  unfold chars
  rw [hc]
  apply append_lt_append_left
  apply append_lt_append (decimal_lt h (by omega))
  simp

/-- Within a second the fraction decides. -/
theorem chars_lt_of_nano (hc : a.civil = b.civil) (hs : a.second = b.second)
    (h : a.nano < b.nano) : a.chars < b.chars := by
  unfold chars
  rw [hc, hs]
  apply append_lt_append_left
  apply append_lt_append_left
  exact subsecond_lt h b.nano_lt

/-- Both orders go by the first field that differs. -/
theorem compare_cases (a b : Instant) :
    (a.nanos < b.nanos ∧ a.chars < b.chars) ∨ a = b ∨ (b.nanos < a.nanos ∧ b.chars < a.chars) := by
  rcases lt_trichotomy a.civil b.civil with hc | hc | hc
  · exact .inl ⟨nanos_lt_of_seconds (seconds_lt_of_civil hc), chars_lt_of_civil hc⟩
  · have hsec := seconds_of_civil hc
    rcases lt_trichotomy a.second b.second with hs | hs | hs
    · exact .inl ⟨nanos_lt_of_seconds (by omega), chars_lt_of_second hc hs⟩
    · rcases lt_trichotomy a.nano b.nano with hn | hn | hn
      · exact .inl ⟨nanos_lt_of_nano (by omega) hn, chars_lt_of_nano hc hs hn⟩
      · refine .inr (.inl ?_)
        simp only [civil, List.cons.injEq, and_true] at hc
        obtain ⟨hy, hm, hd, hh, hmin⟩ := hc
        exact Instant.ext hy hm hd hh hmin hs hn
      · exact .inr (.inr ⟨nanos_lt_of_nano (by omega) hn, chars_lt_of_nano hc.symm hs.symm hn⟩)
    · exact .inr (.inr ⟨nanos_lt_of_seconds (by omega), chars_lt_of_second hc.symm hs⟩)
  · exact .inr (.inr ⟨nanos_lt_of_seconds (seconds_lt_of_civil hc), chars_lt_of_civil hc⟩)

/-- Texts are ordered as the instants they print. -/
theorem text_lt_iff (a b : Instant) : a.text < b.text ↔ a.nanos < b.nanos := by
  have htext : ∀ x y : Instant, x.text < y.text ↔ x.chars < y.chars := by
    intro x y
    rw [String.lt_iff_toList_lt, text, text, String.toList_ofList, String.toList_ofList]
  rw [htext]
  rcases compare_cases a b with ⟨hn, hc⟩ | rfl | ⟨hn, hc⟩
  · exact iff_of_true hc hn
  · exact iff_of_false (lt_irrefl _) (lt_irrefl _)
  · exact iff_of_false (lt_asymm hc) (lt_asymm hn)

/-- An instant is its number of nanoseconds. -/
theorem nanos_injective : Function.Injective nanos := by
  intro a b h
  rcases compare_cases a b with ⟨hn, -⟩ | rfl | ⟨hn, -⟩
  · exact absurd h hn.ne
  · rfl
  · exact absurd h hn.ne'

/-- Instants are ordered by time. -/
instance : LinearOrder Instant := LinearOrder.lift' nanos nanos_injective

end Instant

end Interleave
