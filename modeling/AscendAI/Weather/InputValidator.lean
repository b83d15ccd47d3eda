import AscendAI.Lib.JavaString
import Mathlib.Data.Int.Notation

/-!
# InputValidator

Place names, country codes, dates, units and languages as the tools take them. A check answers with the message of
the first rule that is broken. What the JDK knows of Unicode and of countries comes from outside.
-/

namespace AscendAI.Weather
open JavaString

/-- What the validator takes from the JDK. A country code is two capital letters. -/
structure Jdk where
  nfkc : String → String
  locale : JavaLocale
  toUpperCase : String → String
  isLetter : Char → Bool
  isMark : Char → Bool
  isSpaceSeparator : Char → Bool
  isoCountries : List String
  isoCountries_letters : ∀ code ∈ isoCountries,
    code.toList.length = 2 ∧ code.toList.all (fun c => 'A' ≤ c && c ≤ 'Z') = true

/-! ### Dates -/

def isLeapYear (year : ℤ) : Bool := year % 4 = 0 ∧ (year % 100 ≠ 0 ∨ year % 400 = 0)

def lengthOfMonth (year : ℤ) (month : ℕ) : ℕ :=
  if month = 2 then if isLeapYear year then 29 else 28
  else if month ∈ [4, 6, 9, 11] then 30
  else 31

/-- A day of the ISO calendar. -/
structure LocalDate where
  year : ℤ
  month : ℕ
  day : ℕ
  month_pos : 1 ≤ month
  month_le : month ≤ 12
  day_pos : 1 ≤ day
  day_le : day ≤ lengthOfMonth year month

namespace LocalDate

def of? (year : ℤ) (month day : ℕ) : Option LocalDate :=
  if h : 1 ≤ month ∧ month ≤ 12 ∧ 1 ≤ day ∧ day ≤ lengthOfMonth year month then
    some ⟨year, month, day, h.1, h.2.1, h.2.2.1, h.2.2.2⟩
  else none

def isBefore (date other : LocalDate) : Bool :=
  decide (date.year < other.year) || (date.year == other.year && (decide (date.month < other.month) ||
    (date.month == other.month && decide (date.day < other.day))))

lemma lengthOfMonth_pos (year : ℤ) (month : ℕ) : 1 ≤ lengthOfMonth year month := by
  unfold lengthOfMonth
  split
  · split <;> omega
  · split <;> omega

/-- The same day some years earlier, or the last of its month. -/
def minusYears (date : LocalDate) (years : ℕ) : LocalDate where
  year := date.year - years
  month := date.month
  day := min date.day (lengthOfMonth (date.year - years) date.month)
  month_pos := date.month_pos
  month_le := date.month_le
  day_pos := le_min date.day_pos (lengthOfMonth_pos _ _)
  day_le := min_le_right _ _

def digitsValue (digits : List Char) : ℕ := digits.foldl (fun n c => 10 * n + (c.toNat - '0'.toNat)) 0

/-- The year of `ISO_LOCAL_DATE`: four digits, or more after a sign. -/
def parseYear (sign : Option Char) (digits : List Char) : Option ℤ :=
  let value : ℤ := digitsValue digits
  if digits.length < 4 ∨ 10 < digits.length ∨ 999999999 < value then none
  else
    match sign with
    | none => if digits.length = 4 then some value else none
    | some '+' => if 4 < digits.length then some value else none
    | some _ => if value = 0 then none else some (-value)

def splitSign : List Char → Option Char × List Char
  | '+' :: rest => (some '+', rest)
  | '-' :: rest => (some '-', rest)
  | rest => (none, rest)

/-- `LocalDate.parse` -/
def parse (text : String) : Option LocalDate :=
  let (sign, rest) := splitSign text.toList
  match parseYear sign (rest.takeWhile Char.isDigit), rest.dropWhile Char.isDigit with
  | some year, ['-', m₁, m₂, '-', d₁, d₂] =>
    if [m₁, m₂, d₁, d₂].all Char.isDigit then of? year (digitsValue [m₁, m₂]) (digitsValue [d₁, d₂]) else none
  | _, _ => none

lemma splitSign_suffix (chars : List Char) : (splitSign chars).2 <:+ chars := by
  unfold splitSign
  split
  · exact List.suffix_cons _ _
  · exact List.suffix_cons _ _
  · exact List.suffix_refl _

/-- The hyphen of a date that is read is no blank. -/
lemma not_isBlank_of_parse {text : String} {date : LocalDate} (h : parse text = some date) : isBlank text = false := by
  have hdash : '-' ∈ text.toList := by
    simp only [parse] at h
    split at h
    · rename_i htail
      apply (splitSign_suffix text.toList).subset
      apply (List.dropWhile_suffix Char.isDigit).subset
      rw [htail]
      exact List.mem_cons_self
    · cases h
  unfold isBlank
  rw [List.all_eq_false]
  exact ⟨'-', hdash, by decide⟩

end LocalDate

/-! ### The checks -/

namespace InputValidator

def cityMaxLength : ℕ := 100
def defaultLanguage : String := "en"
def defaultUnit : String := "celsius"
def maxHistoricalYears : ℕ := 80

def supportedLanguages : List String := ["en", "de", "fr", "it", "es", "pt", "ru"]
def supportedUnits : List String := ["celsius", "fahrenheit"]

section Checks

variable (jdk : Jdk)

/-- `PLACE_PATTERN`: a letter or a mark, and then letters, marks, spaces and a few signs. -/
def matchesPlacePattern (s : String) : Bool :=
  match s.toList with
  | [] => false
  | c :: rest => (jdk.isLetter c || jdk.isMark c) && rest.all fun d =>
      jdk.isLetter d || jdk.isMark d || jdk.isSpaceSeparator d || [',', '.', '\'', '-'].contains d

/-- `COUNTRY_CODE_PATTERN` -/
def matchesCountryCodePattern (s : String) : Bool :=
  s.toList.length == 2 && s.toList.all fun c => ('A' ≤ c && c ≤ 'Z') || ('a' ≤ c && c ≤ 'z')

def validatePlaceName (input : Option String) (fieldLabel : String) : Option String :=
  match input with
  | none => some (fieldLabel ++ " must not be blank")
  | some input =>
    if isBlank input then some (fieldLabel ++ " must not be blank")
    else if JavaString.length input > cityMaxLength then
      some (fieldLabel ++ " must be at most " ++ toString cityMaxLength ++ " characters")
    else if !matchesPlacePattern jdk (jdk.nfkc input) then some (fieldLabel ++ " contains unsupported characters")
    else none

def validateCity (city : Option String) : Option String := validatePlaceName jdk city "City"

def validateCountryCode (countryCode : Option String) : Option String :=
  match countryCode.filter (fun code => !isBlank code) with
  | none => none
  | some code =>
    if !matchesCountryCodePattern code then some "Country code must be ISO-3166-1 alpha-2 (two letters)"
    else if !jdk.isoCountries.contains (jdk.toUpperCase code) then
      some "Country code is not a known ISO-3166-1 alpha-2 code"
    else none

def validateHistoricalDate (today : LocalDate) (date : Option String) : Option String :=
  match date with
  | none => some "date must not be blank"
  | some date =>
    if isBlank date then some "date must not be blank"
    else
      match LocalDate.parse date with
      | none => some "date must be in ISO format yyyy-MM-dd"
      | some parsed =>
        if !parsed.isBefore today then some "date must be strictly in the past"
        else if parsed.isBefore (today.minusYears maxHistoricalYears) then
          some ("date must be within the last " ++ toString maxHistoricalYears ++ " years")
        else none

/-- A unit or a language in lower case if it is supported, and else the default. -/
def normaliseAmong (supported : List String) (fallback : String) (value : Option String) : String :=
  match value.filter (fun value => !isBlank value) with
  | none => fallback
  | some value =>
    let lower := jdk.locale.toLowerCase value
    if supported.contains lower then lower else fallback

def normaliseUnit (unit : Option String) : String := normaliseAmong jdk supportedUnits defaultUnit unit

def normaliseLanguage (language : Option String) : String :=
  normaliseAmong jdk supportedLanguages defaultLanguage language

def normaliseCountryCode (countryCode : Option String) : Option String :=
  (countryCode.filter fun code => !isBlank code).map jdk.toUpperCase

def normaliseCacheKey (value : String) : String := trim (jdk.locale.toLowerCase (jdk.nfkc value))

end Checks

/-! ### What the checks let through -/

variable {jdk : Jdk}

lemma normaliseAmong_mem {supported : List String} {fallback : String} (h : fallback ∈ supported)
    (value : Option String) : normaliseAmong jdk supported fallback value ∈ supported := by
  unfold normaliseAmong
  split
  · exact h
  · simp only
    split
    · rename_i hcontains
      exact List.contains_iff_mem.mp hcontains
    · exact h

lemma normaliseLanguage_mem (language : Option String) :
    normaliseLanguage jdk language ∈ supportedLanguages := normaliseAmong_mem (by decide) language

/-- A country code that is let through is absent or known. -/
lemma normaliseCountryCode_mem {countryCode : Option String} (h : validateCountryCode jdk countryCode = none) :
    ∀ code ∈ normaliseCountryCode jdk countryCode, code ∈ jdk.isoCountries := by
  intro code hcode
  unfold validateCountryCode at h
  unfold normaliseCountryCode at hcode
  cases hpresent : countryCode.filter (fun code => !isBlank code) with
  | none =>
    rw [hpresent] at hcode
    cases hcode
  | some given =>
    rw [hpresent] at h hcode
    obtain rfl := Option.some.inj hcode
    by_contra hunknown
    have hcontains : jdk.isoCountries.contains (jdk.toUpperCase given) = false := by
      rw [Bool.eq_false_iff, Ne, List.contains_iff_mem]
      exact hunknown
    simp only [hcontains, Bool.not_false, if_true] at h
    split at h <;> cases h

/-- The dates of the tool are those from eighty years ago to yesterday. -/
lemma validateHistoricalDate_eq_none_iff (today : LocalDate) (date : Option String) :
    validateHistoricalDate today date = none ↔ ∃ text parsed, date = some text ∧ LocalDate.parse text = some parsed ∧
      parsed.isBefore today = true ∧ parsed.isBefore (today.minusYears maxHistoricalYears) = false := by
  constructor
  · intro h
    unfold validateHistoricalDate at h
    split at h
    · cases h
    · rename_i text
      split at h
      · cases h
      · split at h
        · cases h
        · rename_i parsed hparsed
          split at h
          · cases h
          · rename_i hbefore
            split at h
            · cases h
            · rename_i hafter
              exact ⟨text, parsed, rfl, hparsed, by simpa using hbefore, by simpa using hafter⟩
  · rintro ⟨text, parsed, rfl, hparsed, hbefore, hafter⟩
    simp [validateHistoricalDate, LocalDate.not_isBlank_of_parse hparsed, hparsed, hbefore, hafter]

end InputValidator

end AscendAI.Weather
