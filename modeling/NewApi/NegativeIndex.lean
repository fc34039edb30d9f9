import NewApi.Lib.Search

/-!
# Negative indexes in override paths

`processNegativeIndex` of `relay/common/override.go`. The lookup of an array's length in the body is a parameter.
-/

namespace NewApi.NegativeIndex

open Search

/-- The matches of `\.(-\d+)` without their dot. Between two dots there is at most one. -/
def negatives : List Char → List (List Char)
  | [] => []
  | c :: rest =>
    let digits := rest.tail.takeWhile Char.isDigit
    if c = '.' ∧ rest.head? = some '-' ∧ digits ≠ [] then ('-' :: digits) :: negatives rest else negatives rest

def replaceFirst (old new s : List Char) : List Char :=
  match cut old s with
  | some (before, after) => before ++ new ++ after
  | none => s

/-- One turn of the loop. `strings.Split(path, negIndex)[0]` is what comes before the first occurrence. -/
def turn (arrayLength : List Char → Option Nat) (path result negIndex : List Char) : List Char :=
  let arrayPath := ((cut negIndex path).map Prod.fst).getD path
  let arrayPath := if arrayPath.getLast? = some '.' then arrayPath.dropLast else arrayPath
  match arrayLength arrayPath with
  | some length =>
    let actualIndex : Int := length - Nat.ofDigitChars 10 negIndex.tail 0
    if 0 ≤ actualIndex ∧ actualIndex < length then
      replaceFirst ('.' :: negIndex) ('.' :: Nat.toDigits 10 actualIndex.toNat) result
    else result
  | none => result

def processNegativeIndex (arrayLength : List Char → Option Nat) (path : List Char) : List Char :=
  (negatives path).foldl (turn arrayLength path) path

theorem negatives_append {s t : List Char} (ht : t.head? ≠ some '-') (h : ¬ ['.', '-'] <:+: s) :
    negatives (s ++ t) = negatives t := by
  induction s with
  | nil => rfl
  | cons c s ih =>
    rw [List.cons_append, negatives, if_neg, ih fun hin => h (hin.trans (List.suffix_cons c s).isInfix)]
    rintro ⟨rfl, hhead, -⟩
    cases s with
    | nil => exact ht hhead
    | cons d s =>
      cases hhead
      exact h ⟨[], s, rfl⟩

theorem cut_negative {before digits after : List Char} (hdigits : ∀ c ∈ digits, c.isDigit = true)
    (h : ¬ '-' :: digits <:+: before) :
    cut ('-' :: digits) (before ++ ['.'] ++ ('-' :: digits ++ after)) = some (before ++ ['.'], after) := by
  have hdot : '.' ∉ '-' :: digits := by
    rintro (_ | ⟨_, hmem⟩)
    exact absurd (hdigits _ hmem) (by decide)
  refine cut_append (cut_self (by simp)) fun u hu hsuffix hpre => ?_
  obtain rfl | ⟨v, rfl, hv⟩ := List.suffix_concat_iff.mp hsuffix
  · exact hu rfl
  rcases List.prefix_or_prefix_of_prefix hpre (List.prefix_append _ _) with hle | hle
  · rcases List.prefix_concat_iff.mp hle with heq | hle
    · exact hdot (heq ▸ by simp)
    · exact h (hle.isInfix.trans hv.isInfix)
  · exact hdot (hle.subset (by simp))

end NewApi.NegativeIndex
