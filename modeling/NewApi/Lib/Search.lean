import Mathlib.Data.List.Infix

/-!
# Searching a list for a pattern

`cut` splits a list around the first occurrence of a pattern, as Go's `strings.Cut` does.
-/

namespace NewApi.Search

variable {α : Type*} [DecidableEq α]

def cut (pattern : List α) : List α → Option (List α × List α)
  | [] => if pattern = [] then some ([], []) else none
  | x :: xs =>
    if pattern <+: x :: xs then some ([], (x :: xs).drop pattern.length)
    else (cut pattern xs).map fun r => (x :: r.1, r.2)

theorem eq_of_cut {pattern s before after : List α} (h : cut pattern s = some (before, after)) :
    s = before ++ pattern ++ after := by
  induction s generalizing before with
  | nil =>
    unfold cut at h
    split at h
    · simp_all
    · simp at h
  | cons x xs ih =>
    unfold cut at h
    split at h
    · rename_i hpre
      obtain ⟨_, htail⟩ := hpre
      rw [← htail, List.drop_left] at h
      simp only [Option.some.injEq, Prod.mk.injEq] at h
      rw [← htail, ← h.1, ← h.2, List.nil_append]
    · obtain ⟨⟨b, a⟩, hcut, heq⟩ := Option.map_eq_some_iff.mp h
      obtain ⟨rfl, rfl⟩ := heq
      rw [ih hcut, List.cons_append, List.cons_append]

/-- What comes before does not matter if no occurrence starts in it. -/
theorem cut_append {pattern before rest after : List α} (hrest : cut pattern rest = some ([], after))
    (hbefore : ∀ u, u ≠ [] → u <:+ before → ¬ pattern <+: u ++ rest) :
    cut pattern (before ++ rest) = some (before, after) := by
  induction before with
  | nil => exact hrest
  | cons x xs ih =>
    have hhead := hbefore (x :: xs) (by simp) List.suffix_rfl
    rw [List.cons_append] at hhead ⊢
    unfold cut
    rw [if_neg hhead, ih fun u hu hsuffix => hbefore u hu (hsuffix.trans (List.suffix_cons x xs))]
    rfl

theorem cut_self {pattern after : List α} (hne : pattern ≠ []) : cut pattern (pattern ++ after) = some ([], after) := by
  obtain ⟨x, _, rfl⟩ := List.exists_cons_of_ne_nil hne
  rw [List.cons_append]
  unfold cut
  rw [if_pos (by rw [← List.cons_append]; exact List.prefix_append _ _), ← List.cons_append, List.drop_left]

/-- For a pattern that starts with two different letters. -/
theorem cut_of_not_infix {x y : α} {more before after : List α} (hxy : x ≠ y) (h : ¬ [x, y] <:+: before) :
    cut (x :: y :: more) (before ++ (x :: y :: more ++ after)) = some (before, after) := by
  refine cut_append (cut_self (by simp)) ?_
  intro u hu hsuffix hbefore
  match u, hu with
  | [c], _ =>
    simp only [List.cons_append, List.nil_append, List.cons_prefix_cons] at hbefore
    exact hxy hbefore.2.1.symm
  | c :: d :: u, _ =>
    simp only [List.cons_append, List.cons_prefix_cons] at hbefore
    obtain ⟨rfl, rfl, -⟩ := hbefore
    exact h (List.IsInfix.trans ⟨[], u, rfl⟩ hsuffix.isInfix)

theorem cut_of_notMem {x : α} {before after : List α} (h : x ∉ before) :
    cut [x] (before ++ x :: after) = some (before, after) := by
  refine cut_append (show cut [x] ([x] ++ after) = some ([], after) from cut_self (by simp)) ?_
  intro u hu hsuffix hbefore
  obtain ⟨c, u, rfl⟩ := List.exists_cons_of_ne_nil hu
  simp only [List.cons_append, List.cons_prefix_cons] at hbefore
  exact h (hbefore.1 ▸ hsuffix.subset List.mem_cons_self)

end NewApi.Search
