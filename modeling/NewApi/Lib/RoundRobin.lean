import Mathlib.Data.List.Rotate
import Mathlib.Data.List.Range
import Mathlib.Data.List.Nodup

/-!
# Taking turns

The `j`-th scan from a cursor takes entry `r + j` of those that are on, modulo their number.
-/

namespace NewApi.RoundRobin

variable {p : Nat → Bool} {n start m x : Nat}

def turns (p : Nat → Bool) (n : Nat) : List Nat := (List.range n).filter p

def scan (p : Nat → Bool) (n start : Nat) : Option Nat :=
  ((List.range n).map fun i => (start + i) % n).find? p

theorem range_rotate (n start : Nat) : (List.range n).map (fun i => (start + i) % n) = (List.range n).rotate start := by
  apply List.ext_getElem
  · simp
  · intro i hi _
    rw [List.getElem_rotate]
    simp [Nat.add_comm]

theorem head?_filter_append {α : Type*} (q : α → Bool) (xs ys : List α) :
    (xs ++ ys).find? q = (xs.filter q ++ ys.filter q).head? := by
  rw [← List.filter_append, List.head?_filter]

theorem turns_split (h : start ≤ n) : turns p n = turns p start ++ ((List.range n).drop start).filter p := by
  have hrange : List.range n = List.range start ++ (List.range n).drop start := by
    rw [← List.take_append_drop start (List.range n), List.take_range, Nat.min_eq_left h]
    simp
  unfold turns
  conv_lhs => rw [hrange, List.filter_append]

/-- The first entry that is not below `start`, or the first of all. -/
theorem scan_eq (h : start ≤ n) (hpos : turns p n ≠ []) :
    scan p n start = (turns p n)[(turns p start).length % (turns p n).length]? := by
  unfold scan
  rw [range_rotate, List.rotate_eq_drop_append_take (by simpa using h), List.take_range, Nat.min_eq_left h,
    head?_filter_append]
  change (_ ++ turns p start).head? = _
  have hrotate : ((List.range n).drop start).filter p ++ turns p start = (turns p n).rotate (turns p start).length := by
    rw [turns_split h, List.rotate_append_length_eq]
  rw [hrotate, ← List.rotate_mod, List.head?_rotate (Nat.mod_lt _ (List.length_pos_of_ne_nil hpos))]

theorem length_turns_succ (h : (turns p n)[m]? = some x) : (turns p (x + 1)).length = m + 1 := by
  have hmem : x ∈ turns p n := List.mem_of_getElem? h
  have hx : x < n ∧ p x = true := by simpa [turns] using hmem
  have hbefore : turns p (x + 1) = turns p x ++ [x] := by
    unfold turns
    rw [List.range_succ, List.filter_append]
    simp [hx.2]
  have hsplit : turns p n = turns p x ++ x :: ((List.range n).drop (x + 1)).filter p := by
    rw [turns_split hx.1, hbefore, List.append_assoc]
    rfl
  -- Both `m` and the number of entries below `x` are the place of `x`.
  have hplace : (turns p n)[(turns p x).length]? = some x := by
    rw [hsplit]
    simp
  have hnodup : (turns p n).Nodup := List.nodup_range.filter _
  have hlt := (List.getElem?_eq_some_iff.mp h).1
  have hm := (List.getElem?_inj hlt hnodup).mp (h.trans hplace.symm)
  rw [hbefore, List.length_append, hm]
  rfl

theorem window_perm {α : Type*} (l : List α) (r : Nat) :
    ((List.range l.length).map fun i => l[(r + i) % l.length]?).Perm (l.map some) := by
  have hrotate : (List.range l.length).map (fun i => l[(r + i) % l.length]?) = (l.rotate r).map some := by
    apply List.ext_getElem
    · simp
    intro i hi _
    have hlt : (r + i) % l.length < l.length := Nat.mod_lt _ (by simp at hi; omega)
    rw [List.getElem_map, List.getElem_map, List.getElem_rotate, List.getElem_range]
    simp [hlt, Nat.add_comm]
  rw [hrotate]
  exact (List.rotate_perm l r).map _

end NewApi.RoundRobin
