import Mathlib.Algebra.Ring.Int.Defs
import Mathlib.Data.List.Sort

/-!
# Tables of rows with a primary key

A table is a list of rows. `lookup` is a read by primary key and `save` an update of
the row with the same key. Nothing here knows what a row holds.
-/

namespace NewApi.Table

variable {ρ κ : Type*} [DecidableEq κ] (key : ρ → κ)

def lookup (rows : List ρ) (k : κ) : Option ρ := rows.find? fun r => key r = k

def save (rows : List ρ) (r : ρ) : List ρ := rows.map fun x => if key x = key r then r else x

def updateRow (rows : List ρ) (k : κ) (change : ρ → ρ) : List ρ :=
  (lookup key rows k).elim rows fun r => save key rows (change r)

variable {key} {rows : List ρ} {k : κ} {r x old : ρ} {p : ρ → Bool} {f : ρ → ρ}

theorem mem_of_lookup (h : lookup key rows k = some r) : r ∈ rows := List.mem_of_find?_eq_some h

theorem key_of_lookup (h : lookup key rows k = some r) : key r = k := by
  simpa using List.find?_some h

theorem mem_save (h : x ∈ save key rows r) : x = r ∨ x ∈ rows ∧ key x ≠ key r := by
  obtain ⟨y, hy, rfl⟩ := List.mem_map.mp h
  split
  · exact .inl rfl
  · exact .inr ⟨hy, ‹_›⟩

theorem lookup_save_self (h : lookup key rows (key r) = some old) : lookup key (save key rows r) (key r) = some r := by
  induction rows with
  | nil => simp [lookup] at h
  | cons x xs ih =>
    by_cases hx : key x = key r
    · simp [lookup, save, hx]
    · simp only [lookup, List.find?_cons, hx, decide_false] at h
      simpa [lookup, save, hx] using ih h

theorem lookup_save_ne (h : key r ≠ k) : lookup key (save key rows r) k = lookup key rows k := by
  induction rows with
  | nil => rfl
  | cons x xs ih =>
    by_cases hx : key x = key r
    · have hk : key x ≠ k := fun e => h (hx ▸ e)
      simpa [lookup, save, hx, h, hk] using ih
    by_cases hk : key x = k
    · have hr : k ≠ key r := h.symm
      simp [lookup, save, hk, hr]
    · simpa [lookup, save, hx, hk] using ih

theorem lookup_save (rows : List ρ) (r : ρ) (k : κ) : lookup key (save key rows r) k =
      if key r = k then (lookup key rows k).map fun _ => r else lookup key rows k := by
  split
  · rename_i hk
    subst hk
    cases h : lookup key rows (key r) with
    | none =>
      -- No row has the key, so nothing is written.
      have hnone : ∀ x ∈ rows, key x ≠ key r := by simpa [lookup] using h
      have hsame : save key rows r = rows := by
        unfold save
        rw [List.map_congr_left (g := id), List.map_id]
        intro x hx
        rw [if_neg (hnone x hx), id]
      rw [hsame, h]
      rfl
    | some => exact lookup_save_self h
  · rename_i hk
    exact lookup_save_ne hk

theorem lookup_append (rows : List ρ) (r : ρ) (k : κ) :
    lookup key (rows ++ [r]) k = (lookup key rows k).or (if key r = k then some r else none) := by
  unfold lookup
  rw [List.find?_append]
  congr 1
  split <;> simp [*]

theorem lookup_updateRow {change : ρ → ρ} (hkey : ∀ r, key (change r) = key r) (k' : κ) :
    lookup key (updateRow key rows k change) k' =
      if k' = k then (lookup key rows k').map change else lookup key rows k' := by
  unfold updateRow
  cases h : lookup key rows k with
  | none =>
    split
    · rename_i he
      rw [he, Option.elim_none, h]
      rfl
    · rfl
  | some r =>
    have hk : key (change r) = k := (hkey r).trans (key_of_lookup h)
    split
    · rename_i he
      subst he
      have hself := lookup_save_self (r := change r) (hk.symm ▸ h)
      rw [hk] at hself
      rw [h]
      exact hself
    · rename_i hne
      exact lookup_save_ne fun he => hne (he.symm.trans hk)

theorem lookup_append_old (h : lookup key rows k = some x) : lookup key (rows ++ [r]) k = some x := by
  rw [lookup_append, h, Option.some_or]

theorem lookup_append_new (h : lookup key rows (key r) = none) : lookup key (rows ++ [r]) (key r) = some r := by
  rw [lookup_append, h, if_pos rfl, Option.none_or]

theorem lookup_of_mem (hn : (rows.map key).Nodup) (h : r ∈ rows) : lookup key rows (key r) = some r := by
  induction rows with
  | nil => cases h
  | cons x xs ih =>
    rw [List.map_cons, List.nodup_cons] at hn
    rcases List.mem_cons.mp h with rfl | hx
    · simp [lookup]
    have hne : key x ≠ key r := by
      intro he
      exact hn.1 (he ▸ List.mem_map_of_mem hx)
    simpa [lookup, hne] using ih hn.2 hx

theorem keys_save (rows : List ρ) (r : ρ) : (save key rows r).map key = rows.map key := by
  induction rows with
  | nil => rfl
  | cons x xs ih =>
    simp only [save, List.map_cons, List.cons.injEq] at ih ⊢
    refine ⟨?_, ih⟩
    split
    · rename_i hx
      exact hx.symm
    · rfl

theorem sum_save (f : ρ → Int) (hn : (rows.map key).Nodup) (h : lookup key rows (key r) = some old) :
    ((save key rows r).map f).sum = (rows.map f).sum - f old + f r := by
  induction rows with
  | nil => simp [lookup] at h
  | cons x xs ih =>
    rw [List.map_cons, List.nodup_cons] at hn
    by_cases hx : key x = key r
    · -- The keys differ from here on, so the rest of the table stays as it is.
      have hrest : save key xs r = xs := by
        unfold save
        rw [List.map_congr_left (g := id), List.map_id]
        intro y hy
        have hne : key y ≠ key r := fun he => hn.1 (hx ▸ he ▸ List.mem_map_of_mem hy)
        rw [if_neg hne, id]
      have hold : x = old := by simpa [lookup, hx] using h
      have hhead : save key (x :: xs) r = r :: save key xs r := by simp [save, hx]
      rw [hhead, hrest, ← hold, List.map_cons, List.map_cons, List.sum_cons, List.sum_cons]
      omega
    · have hxs : lookup key xs (key r) = some old := by simpa [lookup, hx] using h
      have hhead : save key (x :: xs) r = x :: save key xs r := by simp [save, hx]
      have := ih hn.2 hxs
      rw [hhead, List.map_cons, List.map_cons, List.sum_cons, List.sum_cons]
      omega

theorem length_filter_save (hold : old ∈ rows) (hkey : key r = key old)
    (hp : p old = true) (hr : p r = false) : ((save key rows r).filter p).length < (rows.filter p).length := by
  have hsub : (rows.filter (p ∘ fun x => if key x = key r then r else x)).Sublist (rows.filter p) := by
    apply List.monotone_filter_right
    intro x hx
    dsimp only [Function.comp] at hx
    split at hx
    · rw [hr] at hx
      cases hx
    · exact hx
  have hle : ((save key rows r).filter p).length ≤ (rows.filter p).length := by
    unfold save
    rw [List.filter_map, List.length_map]
    exact hsub.length_le
  refine lt_of_le_of_ne hle ?_
  intro heq
  unfold save at heq
  rw [List.filter_map, List.length_map] at heq
  have hmem : old ∈ rows.filter p := List.mem_filter.mpr ⟨hold, hp⟩
  rw [← hsub.eq_of_length heq] at hmem
  simp [hkey, hr] at hmem

theorem filter_key_eq (hn : (rows.map key).Nodup) (hx : x ∈ rows) : rows.filter (fun r => key r = key x) = [x] := by
  induction rows with
  | nil => simp at hx
  | cons r rest ih =>
    rw [List.map_cons, List.nodup_cons] at hn
    rcases List.mem_cons.mp hx with rfl | hrest
    · have hnone : rest.filter (fun r => key r = key x) = [] := by
        rw [List.filter_eq_nil_iff]
        intro y hy heq
        exact hn.1 (List.mem_map.mpr ⟨y, hy, by simpa using heq⟩)
      simp [hnone]
    · have hne : key r ≠ key x := fun heq => hn.1 (heq ▸ List.mem_map_of_mem hrest)
      simp [hne, ih hn.2 hrest]

theorem filter_key_toList (hn : (rows.map key).Nodup) (k : κ) :
    rows.filter (fun r => key r = k) = (rows.find? fun r => key r = k).toList := by
  cases hfind : rows.find? fun r => key r = k with
  | none =>
    rw [Option.toList_none, List.filter_eq_nil_iff]
    exact List.find?_eq_none.mp hfind
  | some r =>
    have hkey : key r = k := by simpa using List.find?_some hfind
    rw [← hkey, filter_key_eq hn (List.mem_of_find?_eq_some hfind), Option.toList_some]

theorem foldl_save_filter (hn : (rows.map key).Nodup) (p : ρ → Bool) (f : ρ → ρ) (hf : ∀ r, key (f r) = key r) :
    ((rows.filter p).map f).foldl (save key) rows = rows.map fun r => if p r then f r else r := by
  classical
  -- `g` is what the writes so far have made of each row.
  have hall : ∀ (xs : List ρ) (g : ρ → ρ), xs ⊆ rows → (∀ r, key (g r) = key r) →
      (xs.map f).foldl (save key) (rows.map g) = rows.map fun r => if r ∈ xs then f r else g r := by
    intro xs
    induction xs with
    | nil => intro g _ _; simp
    | cons x xs ih =>
      intro g hsub hg
      have hstep : save key (rows.map g) (f x) = rows.map fun r => if r = x then f r else g r := by
        unfold save
        rw [List.map_map]
        apply List.map_congr_left
        intro r hr
        have hiff : key r = key x ↔ r = x :=
          ⟨List.inj_on_of_nodup_map hn hr (hsub List.mem_cons_self), fun h => h ▸ rfl⟩
        simp only [Function.comp, hg, hf, hiff]
        split
        · rename_i h
          rw [h]
        · rfl
      rw [List.map_cons, List.foldl_cons, hstep, ih _ (List.subset_of_cons_subset hsub)]
      · apply List.map_congr_left
        intro r _
        by_cases hx : r = x <;> by_cases hxs : r ∈ xs <;> simp [hx, hxs]
      intro r
      split
      · exact hf r
      · exact hg r
  have hrows := hall (rows.filter p) id (List.filter_subset_self rows) fun _ => rfl
  rw [List.map_id] at hrows
  rw [hrows]
  apply List.map_congr_left
  intro r hr
  by_cases hp : p r <;> simp [List.mem_filter, hr, hp]

/-! ## Tables with distinct keys -/

structure Keyed (key : ρ → κ) where
  rows : List ρ
  nodup : (rows.map key).Nodup

variable {table : Keyed key}

def Keyed.find (table : Keyed key) (k : κ) : Option ρ := lookup key table.rows k

def Keyed.update (table : Keyed key) (p : ρ → Bool) (f : ρ → ρ) (hf : ∀ r, key (f r) = key r) : Keyed key where
  rows := table.rows.map fun r => if p r then f r else r
  nodup := by
    have hkey : (key ∘ fun r => if p r then f r else r) = key := by
      funext r
      dsimp only [Function.comp]
      split
      · exact hf r
      · rfl
    rw [List.map_map, hkey]
    exact table.nodup

def Keyed.matching (table : Keyed key) (p : ρ → Bool) : List ρ := table.rows.filter p

def Keyed.insert (table : Keyed key) (r : ρ) : Keyed key :=
  if h : key r ∈ table.rows.map key then table
  else
    { rows := table.rows ++ [r]
      nodup := by
        rw [List.map_append, List.map_singleton, List.nodup_append]
        refine ⟨table.nodup, List.nodup_singleton _, ?_⟩
        intro a ha b hb heq
        rw [List.mem_singleton] at hb
        exact h (hb ▸ heq ▸ ha) }

def Keyed.insertAll (table : Keyed key) (rows : List ρ) : Keyed key := rows.foldl Keyed.insert table

def Keyed.delete (table : Keyed key) (p : ρ → Bool) : Keyed key where
  rows := table.rows.filter fun r => !p r
  nodup := table.nodup.sublist (List.filter_sublist.map key)

theorem Keyed.rows_insert (h : key r ∉ table.rows.map key) : (table.insert r).rows = table.rows ++ [r] := by
  unfold Keyed.insert
  rw [dif_neg h]

/-- Rows with new and distinct keys are added as they are. -/
theorem Keyed.rows_insertAll (hnew : ∀ r ∈ rows, key r ∉ table.rows.map key)
    (hn : (rows.map key).Nodup) : (table.insertAll rows).rows = table.rows ++ rows := by
  induction rows generalizing table with
  | nil => simp [Keyed.insertAll]
  | cons r rest ih =>
    rw [List.map_cons, List.nodup_cons] at hn
    have hinsert := Keyed.rows_insert (hnew r List.mem_cons_self)
    have hcons : table.insertAll (r :: rest) = (table.insert r).insertAll rest := rfl
    rw [hcons, ih ?_ hn.2, hinsert, List.append_assoc, List.singleton_append]
    intro other hother hin
    rw [hinsert, List.map_append, List.mem_append] at hin
    rcases hin with hin | hin
    · exact hnew other (List.mem_cons_of_mem _ hother) hin
    · rw [List.map_singleton, List.mem_singleton] at hin
      exact hn.1 (hin ▸ List.mem_map_of_mem hother)

theorem Keyed.find_update (table : Keyed key) (p : ρ → Bool) (f : ρ → ρ) (hf : ∀ r, key (f r) = key r) (k : κ) :
    (table.update p f hf).find k = (table.find k).map fun r => if p r then f r else r := by
  unfold Keyed.update Keyed.find lookup
  rw [List.find?_map]
  congr 2
  funext r
  simp only [Function.comp]
  split
  · rw [hf r]
  · rfl

theorem Keyed.find_update_pos (hf : ∀ r, key (f r) = key r)
    (hr : table.find k = some r) (hp : p r = true) : (table.update p f hf).find k = some (f r) := by
  rw [Keyed.find_update, hr, Option.map_some, if_pos hp]

theorem Keyed.find_update_neg (hf : ∀ r, key (f r) = key r)
    (hr : table.find k = some r) (hp : ¬ p r = true) : (table.update p f hf).find k = some r := by
  rw [Keyed.find_update, hr, Option.map_some, if_neg hp]

theorem Keyed.map_find_update {α : Type*} {g : ρ → α} (hf : ∀ r, key (f r) = key r) (hg : ∀ r, g (f r) = g r) :
    ((table.update p f hf).find k).map g = (table.find k).map g := by
  rw [Keyed.find_update, Option.map_map]
  congr 1
  funext r
  dsimp only [Function.comp]
  split
  · exact hg r
  · rfl

theorem Keyed.key_of_find (h : table.find k = some r) : key r = k :=
  key_of_lookup h

theorem Keyed.find_of_mem (h : r ∈ table.rows) : table.find (key r) = some r :=
  lookup_of_mem table.nodup h

theorem Keyed.mem_matching : r ∈ table.matching p ↔ table.find (key r) = some r ∧ p r = true := by
  unfold Keyed.matching
  rw [List.mem_filter]
  constructor
  · rintro ⟨hmem, hp⟩
    exact ⟨find_of_mem hmem, hp⟩
  · rintro ⟨hfind, hp⟩
    exact ⟨mem_of_lookup hfind, hp⟩

/-! ## Queries with an order and a limit -/

theorem mem_take_of_pairwise {r : ρ → ρ → Prop} [DecidableRel r] [DecidableEq ρ] {limit : Nat}
    (hsorted : rows.Pairwise r) (hx : x ∈ rows)
    (hrank : (rows.filter fun y => r y x ∧ y ≠ x).length < limit) : x ∈ rows.take limit := by
  by_contra hnot
  rw [← List.take_append_drop limit rows] at hx hsorted
  have hdrop : x ∈ rows.drop limit := (List.mem_append.mp hx).resolve_left hnot
  -- Everything in the page comes before `x`, and the page is full.
  have hpage : ∀ y ∈ rows.take limit, r y x ∧ y ≠ x := by
    intro y hy
    refine ⟨(List.pairwise_append.mp hsorted).2.2 y hy x hdrop, ?_⟩
    rintro rfl
    exact hnot hy
  have hfull : (rows.take limit).length = limit := by
    have hlength : 0 < (rows.drop limit).length := List.length_pos_of_mem hdrop
    rw [List.length_drop] at hlength
    rw [List.length_take]
    omega
  have hall : (rows.take limit).filter (fun y => r y x ∧ y ≠ x) = rows.take limit :=
    List.filter_eq_self.mpr fun y hy => by simpa using hpage y hy
  have hle : limit ≤ (rows.filter fun y => r y x ∧ y ≠ x).length := by
    rw [← hfull, ← hall]
    exact ((List.take_sublist limit rows).filter _).length_le
  omega

theorem mem_page [DecidableEq ρ] {f : ρ → Int} {limit : Nat} (hx : x ∈ rows)
    (hp : p x = true) (hrank : (rows.filter fun y => p y ∧ f y ≤ f x ∧ y ≠ x).length < limit) :
    x ∈ ((rows.filter p).insertionSort fun a b => f a ≤ f b).take limit := by
  have htotal : Std.Total fun a b => f a ≤ f b := ⟨fun a b => le_total (f a) (f b)⟩
  have htrans : IsTrans ρ fun a b => f a ≤ f b := ⟨fun _ _ _ => le_trans⟩
  refine mem_take_of_pairwise (List.pairwise_insertionSort _ _) ?_ ?_
  · exact (List.mem_insertionSort _).mpr (List.mem_filter.mpr ⟨hx, hp⟩)
  have hsame : ((rows.filter p).filter fun y => f y ≤ f x ∧ y ≠ x) = rows.filter fun y => p y ∧ f y ≤ f x ∧ y ≠ x := by
    rw [List.filter_filter]
    congr 1
    funext y
    cases p y <;> simp
  rwa [((List.perm_insertionSort _ _).filter _).length_eq, hsame]

end NewApi.Table
