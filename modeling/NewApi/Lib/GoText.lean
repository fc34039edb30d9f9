import Mathlib.Data.List.Basic

/-! # Texts as Go's `strings` package sees them: `TrimSpace`, `Trim`, `Split` and `Join` -/

namespace NewApi.GoText

def isSpace (c : Char) : Bool :=
  let n := c.toNat
  (9 ≤ n ∧ n ≤ 13) ∨ n = 0x20 ∨ n = 0x85 ∨ n = 0xA0 ∨ n = 0x1680 ∨ (0x2000 ≤ n ∧ n ≤ 0x200A) ∨
    n = 0x2028 ∨ n = 0x2029 ∨ n = 0x202F ∨ n = 0x205F ∨ n = 0x3000

def trimSpace (s : String) : String :=
  String.ofList ((s.toList.dropWhile isSpace).reverse.dropWhile isSpace).reverse

def trim (cut : Char) (s : String) : String :=
  String.ofList ((s.toList.dropWhile (· == cut)).reverse.dropWhile (· == cut)).reverse

def split (sep : Char) (s : String) : List String := (s.toList.splitOn sep).map String.ofList

def join (sep : Char) (parts : List String) : String := String.ofList ([sep].intercalate (parts.map String.toList))

/-! ## A trimmed text stays as it is -/

section

variable {α : Type*} (p : α → Bool) (l : List α)

theorem dropWhile_head : ∀ x ∈ (l.dropWhile p).head?, p x = false := by
  intro x hx
  have := List.head?_dropWhile_not p l
  rw [Option.mem_def] at hx
  rwa [hx] at this

theorem dropWhile_eq_self (h : ∀ x ∈ l.head?, p x = false) : l.dropWhile p = l := by
  cases l with
  | nil => rfl
  | cons y => rw [List.dropWhile_cons, h y (by simp)]; rfl

theorem trimRight_head : ∀ x ∈ ((l.reverse.dropWhile p).reverse).head?, x ∈ l.head? := by
  intro x hx
  have hpre : (l.reverse.dropWhile p).reverse <+: l := by
    rw [← List.reverse_suffix, List.reverse_reverse]
    exact List.dropWhile_suffix p
  obtain ⟨_, hrest⟩ := hpre
  rw [← hrest]
  cases h : (l.reverse.dropWhile p).reverse with
  | nil => simp [h] at hx
  | cons => simpa [h] using hx

end

theorem trimSpace_trimSpace (s : String) : trimSpace (trimSpace s) = trimSpace s := by
  unfold trimSpace
  rw [String.toList_ofList]
  congr 1
  have front : ∀ x ∈ (((s.toList.dropWhile isSpace).reverse.dropWhile isSpace).reverse).head?, isSpace x = false := by
    intro x hx
    exact dropWhile_head isSpace s.toList x (trimRight_head isSpace _ x hx)
  rw [dropWhile_eq_self isSpace _ front, List.reverse_reverse,
    dropWhile_eq_self isSpace _ (dropWhile_head isSpace _)]

/-! ## Parts that were joined are split again -/

variable {α : Type*}

theorem head?_intercalate (sep : α) {l : List α} {ls : List (List α)} (h : l ≠ []) :
    ([sep].intercalate (l :: ls)).head? = l.head? := by
  cases l with
  | nil => exact absurd rfl h
  | cons => cases ls <;> simp [List.intercalate_cons_cons]

theorem getLast?_intercalate (sep : α) {l : List α} {ls : List (List α)} (hlast : ls.getLast? = some l)
    (h : l ≠ []) : ([sep].intercalate ls).getLast? = l.getLast? := by
  induction ls with
  | nil => simp at hlast
  | cons first rest ih =>
    cases rest with
    | nil => simp_all
    | cons =>
      rw [List.getLast?_cons_cons] at hlast
      have hne : l.getLast? ≠ none := by simpa using h
      rw [List.intercalate_cons_cons, List.getLast?_append, ih hlast]
      cases hl : l.getLast? with
      | none => exact absurd hl hne
      | some => rfl

theorem trim_eq_self {cut : Char} {s : String} (hfirst : ∀ c ∈ s.toList.head?, c ≠ cut)
    (hlast : ∀ c ∈ s.toList.getLast?, c ≠ cut) : trim cut s = s := by
  unfold trim
  rw [dropWhile_eq_self _ s.toList (by simpa using hfirst),
    dropWhile_eq_self _ s.toList.reverse (by simpa using hlast), List.reverse_reverse, String.ofList_toList]

theorem toList_join (sep : Char) (parts : List String) :
    (join sep parts).toList = [sep].intercalate (parts.map String.toList) := String.toList_ofList

theorem split_join {sep : Char} {parts : List String} (hne : parts ≠ []) (hsep : ∀ p ∈ parts, sep ∉ p.toList) :
    split sep (join sep parts) = parts := by
  unfold split
  rw [toList_join, List.splitOn_intercalate]
  · simp [Function.comp_def]
  · simpa using hsep
  · simpa using hne

theorem trim_join {sep : Char} {parts : List String} (hsep : ∀ p ∈ parts, sep ∉ p.toList)
    (hfirst : ∀ p ∈ parts.head?, p ≠ "") (hlast : ∀ p ∈ parts.getLast?, p ≠ "") :
    trim sep (join sep parts) = join sep parts := by
  apply trim_eq_self
  · intro c hc heq
    cases parts with
    | nil => simp [toList_join] at hc
    | cons p =>
      rw [toList_join, List.map_cons, head?_intercalate _ (by simpa using hfirst p rfl)] at hc
      exact hsep p (by simp) (heq ▸ List.mem_of_mem_head? hc)
  · intro c hc heq
    cases hp : parts.getLast? with
    | none => simp [List.getLast?_eq_none_iff.mp hp, toList_join] at hc
    | some p =>
      have hne : p.toList ≠ [] := by simpa using hlast p hp
      rw [toList_join, getLast?_intercalate _ (by rw [List.getLast?_map, hp]; rfl) hne] at hc
      exact hsep p (List.mem_of_getLast? hp) (heq ▸ List.mem_of_getLast? hc)

end NewApi.GoText

