import Mathlib.Algebra.Order.Ring.Nat

/-!
# Shares of a draw

Each entry of a list owns as many draws as its share, one entry after the other. Every draw below
the total belongs to exactly one entry.
-/

namespace NewApi.Shares

variable {α : Type*} {share : α → Nat} {entries : List α} {draw : Nat}

def total (share : α → Nat) : List α → Nat
  | [] => 0
  | entry :: entries => share entry + total share entries

def pick (share : α → Nat) : List α → Nat → Option α
  | [], _ => none
  | entry :: entries, draw => if draw < share entry then some entry else pick share entries (draw - share entry)

theorem pick_isSome (h : draw < total share entries) : ∃ entry ∈ entries, pick share entries draw = some entry := by
  induction entries generalizing draw with
  | nil => cases h
  | cons entry entries ih =>
    unfold pick
    split
    · exact ⟨entry, List.mem_cons_self, rfl⟩
    have hrest : draw - share entry < total share entries := by
      unfold total at h
      omega
    obtain ⟨chosen, hmem, hpick⟩ := ih hrest
    exact ⟨chosen, List.mem_cons_of_mem _ hmem, hpick⟩

theorem share_le_total (share : α → Nat) {entry : α} (h : entry ∈ entries) : share entry ≤ total share entries := by
  induction entries with
  | nil => cases h
  | cons first rest ih =>
    unfold total
    rcases List.mem_cons.mp h with rfl | h
    · omega
    · exact (ih h).trans (Nat.le_add_left _ _)

/-- The entries with a property own together as many draws as their shares. -/
theorem countP_pick (p : α → Bool) :
    (List.range (total share entries)).countP (fun draw => (pick share entries draw).any p) =
      total share (entries.filter p) := by
  induction entries with
  | nil => rfl
  | cons entry entries ih =>
    -- The draws below the first share are those of the first entry, the others move down by it.
    have hfirst : (List.range (share entry)).countP (fun draw => (pick share (entry :: entries) draw).any p) =
        if p entry then share entry else 0 := by
      have hcongr : (List.range (share entry)).countP (fun draw => (pick share (entry :: entries) draw).any p) =
          (List.range (share entry)).countP fun _ => p entry := by
        apply List.countP_congr
        intro draw hdraw
        simp [pick, List.mem_range.mp hdraw]
      rw [hcongr]
      cases p entry <;> simp
    have hrest : ((List.range (total share entries)).map (share entry + ·)).countP
        (fun draw => (pick share (entry :: entries) draw).any p) = total share (entries.filter p) := by
      rw [List.countP_map, ← ih]
      apply List.countP_congr
      intro draw _
      simp [pick]
    rw [total, List.range_add, List.countP_append, hfirst, hrest, List.filter_cons]
    cases p entry <;> simp [total]

/-- The owner of draw 0 owns one more, that of the last draw one less. -/
theorem countP_pred (q : Nat → Bool) (n : Nat) : (List.range (n + 1)).countP (fun draw => q (draw - 1)) + (q n).toNat =
      (List.range (n + 1)).countP q + (q 0).toNat := by
  have hbelow : (List.range (n + 1)).countP (fun draw => q (draw - 1)) = (List.range n).countP q + (q 0).toNat := by
    rw [List.range_succ_eq_map, List.countP_cons, List.countP_map]
    congr 1
    cases q 0 <;> rfl
  have hlast : (List.range (n + 1)).countP q = (List.range n).countP q + (q n).toNat := by
    rw [List.range_succ, List.countP_append, List.countP_singleton]
    cases q n <;> rfl
  omega

theorem pick_first {entry : α} (h : 0 < share entry) : pick share (entry :: entries) 0 = some entry := by
  simp [pick, h]

theorem pick_last {last : α} (h : 0 < share last) :
    pick share (entries ++ [last]) (total share (entries ++ [last]) - 1) = some last := by
  induction entries with
  | nil =>
    simp only [List.nil_append, pick, total]
    rw [if_pos (by omega)]
  | cons entry entries ih =>
    have hle : share last ≤ total share (entries ++ [last]) := share_le_total share (by simp)
    simp only [List.cons_append, pick, total]
    rw [if_neg (by omega), show share entry + total share (entries ++ [last]) - 1 - share entry =
      total share (entries ++ [last]) - 1 by omega]
    exact ih

end NewApi.Shares
