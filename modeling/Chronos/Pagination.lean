import Chronos.Lib.Pages
import Chronos.Jobs
import Mathlib.Data.List.TakeWhile

/-!
# Pagination

`api/src/lib/pagination.ts`.  Page numbers are exact integers here.
-/

namespace Chronos

def parseDigits (chars : List Char) : Option Nat :=
  match chars.takeWhile Char.isDigit with
  | [] => none
  | digits => some
      (digits.foldl (fun value char => value * 10 + (char.toNat - 48)) 0)

/-- `parseInt(text, 10)`, with `none` for `NaN`: the longest prefix that is a
number counts. -/
def parseInt (text : String) : Option Int :=
  match text.toList.dropWhile isJsWhitespace with
  | '-' :: chars => (parseDigits chars).map fun value => -(value : Int)
  | '+' :: chars => (parseDigits chars).map fun value => (value : Int)
  | chars => (parseDigits chars).map fun value => (value : Int)

/-- `parseInt(String(text ?? fallback), 10) || fallback`. -/
def parseOr (fallback : Int) : Option String → Int
  | none => fallback
  | some text =>
      match parseInt text with
      | none => fallback
      | some value => if value = 0 then fallback else value

structure ParsedPagination where
  page : Nat
  limit : Nat
  skip : Nat

structure PaginationMeta where
  page : Nat
  limit : Nat
  total : Nat
  totalPages : Nat
  deriving DecidableEq

def parsePagination (page limit : Option String) : ParsedPagination :=
  let pageNumber := (max 1 (parseOr 1 page)).toNat
  let pageLimit := (min 100 (max 1 (parseOr 20 limit))).toNat
  ⟨pageNumber, pageLimit, (pageNumber - 1) * pageLimit⟩

/-- `totalPages` is the quotient rounded up. -/
def buildMeta (total page limit : Nat) : PaginationMeta :=
  ⟨page, limit, total, (total + limit - 1) / limit⟩

example : (parsePagination (some " 3rd") (some "-7")).page = 3 ∧
    (parsePagination (some " 3rd") (some "-7")).skip = 2 := by decide

/-! ## Numbers in query strings -/

theorem parseDigits_toDigits (number : Nat) :
    parseDigits (Nat.toDigits 10 number) = some number := by
  have digits : ∀ char ∈ Nat.toDigits 10 number, char.isDigit = true :=
    fun char member =>
      Nat.isDigit_of_mem_toDigits (by decide) (by decide) member
  have whole : (Nat.toDigits 10 number).takeWhile Char.isDigit =
      Nat.toDigits 10 number := by
    have all := List.takeWhile_eq_self_iff.mpr digits
    exact all
  have value : (Nat.toDigits 10 number).foldl
      (fun value char => value * 10 + (char.toNat - 48)) 0 = number := by
    have folded := Nat.ofDigitChars_ten_toDigits (n := number)
    rw [Nat.ofDigitChars_eq_foldl] at folded
    simp only [Nat.mul_comm 10] at folded
    exact folded
  unfold parseDigits
  rw [whole]
  split
  · exact absurd ‹_› Nat.toDigits_ne_nil
  · rw [value]

theorem plain_of_isDigit {char : Char} (digit : char.isDigit = true) :
    isJsWhitespace char = false ∧ char ≠ '-' ∧ char ≠ '+' := by
  have range : 48 ≤ char.toNat ∧ char.toNat ≤ 57 :=
    Char.isDigit_iff_toNat.mp digit
  refine ⟨?_, ?_, ?_⟩
  · unfold isJsWhitespace
    simp only [Bool.or_eq_false_iff, Bool.and_eq_false_iff,
      decide_eq_false_iff_not]
    omega
  · intro isMinus
    subst isMinus
    exact absurd digit (by decide)
  · intro isPlus
    subst isPlus
    exact absurd digit (by decide)

theorem parseInt_toString (number : Nat) :
    parseInt (toString number) = some (number : Int) := by
  have text : (toString number).toList = Nat.toDigits 10 number :=
    Nat.toList_repr
  have parsed := parseDigits_toDigits number
  unfold parseInt
  rw [text]
  cases digits : Nat.toDigits 10 number with
  | nil => exact absurd digits Nat.toDigits_ne_nil
  | cons first rest =>
      have digit : first.isDigit = true := by
        apply Nat.isDigit_of_mem_toDigits (b := 10) (n := number)
        · decide
        · decide
        · rw [digits]
          exact List.mem_cons_self
      obtain ⟨visible, notMinus, notPlus⟩ := plain_of_isDigit digit
      rw [digits] at parsed
      rw [List.dropWhile_cons_of_neg (by simp [visible])]
      split
      · simp_all
      · simp_all
      · rw [parsed]
        rfl

theorem parsePagination_toString {number : Nat} (counted : 1 ≤ number)
    (page limit : Option String) :
    parsePagination (some (toString number)) limit =
      ⟨number, (parsePagination page limit).limit,
        (number - 1) * (parsePagination page limit).limit⟩ := by
  have nonzero : (number : Int) ≠ 0 := by omega
  have asked : (max 1 (number : Int)).toNat = number := by omega
  simp only [parsePagination, parseOr, parseInt_toString, if_neg nonzero,
    asked]

/-! ## Pages -/

section Pages

variable (page limit : Option String)

theorem limit_parsePagination :
    1 ≤ (parsePagination page limit).limit ∧
      (parsePagination page limit).limit ≤ 100 := by
  unfold parsePagination
  dsimp only
  omega

theorem one_le_page_parsePagination : 1 ≤ (parsePagination page limit).page := by
  unfold parsePagination
  dsimp only
  omega

/-- The rows that a parsed query string asks for. -/
def ParsedPagination.window {α : Type*} (asked : ParsedPagination)
    (list : List α) : List α :=
  (list.drop asked.skip).take asked.limit

/-- The page with this number, for a client that turns the pages. -/
def turnedPage {α : Type*} (limit : Option String) (number : Nat)
    (list : List α) : List α :=
  (parsePagination (some (toString number)) limit).window list

theorem turnedPage_eq {α : Type*} {number : Nat} (counted : 1 ≤ number)
    (list : List α) :
    turnedPage limit number list =
      Pages.page (parsePagination page limit).limit number list := by
  rw [turnedPage, parsePagination_toString counted page limit]
  rfl

/-- The query string asks for one page, and the pages `1` to
`totalPages` cut the list: all but the last are full, and none is empty. -/
structure CutsIntoPages {α : Type*} (asked : ParsedPagination)
    (turned : Nat → List α) (totalPages : Nat) (list : List α) : Prop where
  limit : 1 ≤ asked.limit ∧ asked.limit ≤ 100
  page : 1 ≤ asked.page
  skip : (asked.skip : Int) = ((asked.page : Int) - 1) * asked.limit ∧
    0 ≤ (asked.skip : Int)
  window : asked.window list = turned asked.page
  whole : (List.range' 1 totalPages).flatMap turned = list
  full : ∀ number, 1 ≤ number → number < totalPages →
    (turned number).length = asked.limit
  nonempty : ∀ number, 1 ≤ number → number ≤ totalPages → turned number ≠ []
  beyond : ∀ number, totalPages < number → turned number = []

/-- Whatever the query string holds, its pages cut every list. -/
theorem pagination_partitions {α : Type*} (list : List α) :
    CutsIntoPages (parsePagination page limit)
      (fun number => turnedPage limit number list)
      (buildMeta list.length (parsePagination page limit).page
        (parsePagination page limit).limit).totalPages list := by
  have limits := limit_parsePagination page limit
  have counted := one_le_page_parsePagination page limit
  constructor
  case limit => exact limits
  case page => exact counted
  case skip =>
    constructor
    · show ((((parsePagination page limit).page - 1) *
          (parsePagination page limit).limit : Nat) : Int) = _
      rw [Int.natCast_mul, Nat.cast_sub counted]
      rfl
    · exact Int.natCast_nonneg _
  case window =>
    rw [turnedPage_eq page limit counted]
    rfl
  case whole =>
    calc (List.range' 1 _).flatMap (fun number => turnedPage limit number list)
        = (Pages.numbers (parsePagination page limit).limit
            list.length).flatMap fun number =>
            Pages.page (parsePagination page limit).limit number list := by
          apply List.flatMap_congr
          intro number member
          apply turnedPage_eq page limit
          exact (Pages.mem_numbers_iff.mp member).1
      _ = list := Pages.flatMap_numbers limits.1 list
  case full =>
    intro number positive less
    rw [turnedPage_eq page limit positive]
    exact Pages.length_page_of_lt limits.1 positive less
  case nonempty =>
    intro number positive least
    rw [turnedPage_eq page limit positive]
    exact Pages.page_ne_nil limits.1 positive least
  case beyond =>
    intro number beyond
    rw [turnedPage_eq page limit (Nat.one_le_of_lt beyond)]
    exact Pages.page_eq_nil limits.1 beyond

end Pages

end Chronos
