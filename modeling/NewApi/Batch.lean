import Mathlib.Algebra.BigOperators.Group.Multiset.Basic
import Mathlib.Tactic.Abel
import NewApi.Code.Batch
import NewApi.Lib.Run

/-!
# What is queued, in flight and written

While no statement fails and no sum is cut off, every delta is in exactly one of these places.
-/

namespace NewApi.Batch

open Table Code Run

/-! ## The system -/

/-- `accepted` and `written` are the deltas queued and flushed, per type and id. -/
structure State where
  db : Balances
  queue : Stores
  runs : List BatchRun
  accepted : BatchType → Int → List Int
  written : BatchType → Int → List Int

inductive Event where
  | add (type : BatchType) (id value : Int)
  | start
  | advance (run : Nat)
  | flush (run statement : Nat) (ok : Bool)

def part (type : BatchType) (id : Int) : Statement → Amount
  | .token id' amount => if type = .tokenQuota ∧ id' = id then amount else .zero
  | .channel id' amount => if type = .channelUsedQuota ∧ id' = id then amount else .zero
  | .user id' quota usedQuota requestCount =>
    if id' = id then
      match type with
      | .userQuota => quota
      | .usedQuota => usedQuota
      | .requestCount => requestCount
      | _ => .zero
    else .zero

def step (s : State) : Event → Option State
  | .add type id value => some { s with
      queue := addNewRecord s.queue type id value
      accepted := fun t i => if t = type ∧ i = id then s.accepted t i ++ [value] else s.accepted t i }
  | .start => some { s with runs := s.runs ++ [.checking batchTypes] }
  | .advance i =>
    match s.runs[i]? with
    | none => none
    | some run =>
      let (next, queue) := run.advance s.queue
      some { s with queue, runs := s.runs.set i next }
  | .flush i j ok =>
    match s.runs[i]? with
    | some (.draining pending) =>
      match pending[j]? with
      | none => none
      | some statement =>
        let runs := s.runs.set i (.draining (pending.eraseIdx j))
        if ok then
          some { s with
            db := statement.exec s.db
            runs
            written := fun t i => s.written t i ++ (part t i statement).deltas }
        else some { s with runs }
    | _ => none

def stored (db : Balances) (type : BatchType) (id : Int) : Option Int :=
  match type with
  | .userQuota => (lookup UserRow.id db.users id).map UserRow.quota
  | .usedQuota => (lookup UserRow.id db.users id).map UserRow.usedQuota
  | .requestCount => (lookup UserRow.id db.users id).map UserRow.requestCount
  | .tokenQuota => (lookup TokenRow.id db.tokens id).map TokenRow.remainQuota
  | .channelUsedQuota => (lookup ChannelRow.id db.channels id).map ChannelRow.usedQuota

/-! ## Statements -/

@[simp] theorem zero_value : Amount.zero.value = 0 := rfl

@[simp] theorem zero_deltas : Amount.zero.deltas = [] := rfl

theorem exec_stored (statement : Statement) (db : Balances) (type : BatchType) (id : Int) :
    stored (statement.exec db) type id = (stored db type id).map (· + (part type id statement).value) := by
  cases statement with
  | token id' =>
    by_cases hid : id' = id
    · subst hid
      cases type <;>
        simp [Statement.exec, batchTokenQuota, stored, part, lookup_updateRow, Option.map_map, Function.comp_def]
    · cases type <;>
        simp [Statement.exec, batchTokenQuota, stored, part, lookup_updateRow, Function.comp_def, hid, Ne.symm hid]
  | channel id' =>
    by_cases hid : id' = id
    · subst hid
      cases type <;>
        simp [Statement.exec, updateChannelUsedQuota, stored, part, lookup_updateRow, Option.map_map, Function.comp_def]
    · cases type <;>
        simp [Statement.exec, updateChannelUsedQuota, stored, part, lookup_updateRow, Function.comp_def, hid, Ne.symm hid]
  | user id' =>
    simp only [Statement.exec, updateUserQuotaUsedQuotaAndRequestCount]
    split
    · -- Nothing is written, and there is nothing to add.
      rename_i hzero
      by_cases hid : id' = id <;> cases type <;> simp [part, hid, hzero]
    by_cases hid : id' = id
    · subst hid
      cases type <;> simp [stored, part, lookup_updateRow, Option.map_map, Function.comp_def]
    · cases type <;> simp [stored, part, lookup_updateRow, Function.comp_def, hid, Ne.symm hid]

def Sound (amount : Amount) : Prop := amount.value = amount.deltas.sum

theorem sound_zero : Sound .zero := rfl

theorem amountOf_eq_zero {store : List Entry} {id : Int} (h : id ∉ store.map Entry.id) : amountOf store id = .zero := by
  unfold amountOf
  cases hl : lookup Entry.id store id with
  | none => rfl
  | some e => exact absurd (List.mem_map.mpr ⟨e, mem_of_lookup hl, key_of_lookup hl⟩) h

theorem sum_single {ids : List Int} (hn : ids.Nodup) (f : Int → Multiset Int) (id : Int) :
    (ids.map fun i => if i = id then f i else 0).sum = if id ∈ ids then f id else 0 := by
  induction ids with
  | nil => rfl
  | cons x xs ih =>
    rw [List.nodup_cons] at hn
    rw [List.map_cons, List.sum_cons, ih hn.2]
    by_cases hx : x = id
    · subst hx
      simp [hn.1]
    · simp [hx, Ne.symm hx]

theorem sum_entries {store : List Entry} (hn : (store.map Entry.id).Nodup) (id : Int) :
    (store.map fun e => if e.id = id then (e.amount.deltas : Multiset Int) else 0).sum =
      ((amountOf store id).deltas : Multiset Int) := by
  have hread : ∀ e ∈ store, (if e.id = id then (e.amount.deltas : Multiset Int) else 0) =
      if e.id = id then ((amountOf store e.id).deltas : Multiset Int) else 0 := by
    intro e he
    unfold amountOf
    rw [lookup_of_mem hn he]
    rfl
  rw [List.map_congr_left hread]
  have hkeys := sum_single hn (fun i => ((amountOf store i).deltas : Multiset Int)) id
  rw [List.map_map] at hkeys
  refine hkeys.trans ?_
  split
  · rfl
  · rename_i hnot
    rw [amountOf_eq_zero hnot]
    rfl

def deltasOf (type : BatchType) (id : Int) (statement : Statement) : Multiset Int := (part type id statement).deltas

theorem sum_statements {stores : Stores} (hn : ∀ t, ((stores t).map Entry.id).Nodup) (type : BatchType) (id : Int) :
    ((statements stores).map (deltasOf type id)).sum = ((amountOf (stores type) id).deltas : Multiset Int) := by
  have husers : ∀ t, (t = .userQuota ∨ t = .usedQuota ∨ t = .requestCount) →
      ((userIds stores).map fun i => if i = id then ((amountOf (stores t) i).deltas : Multiset Int) else 0).sum =
        ((amountOf (stores t) id).deltas : Multiset Int) := by
    intro t ht
    rw [sum_single (show (userIds stores).Nodup from List.nodup_dedup _)]
    split
    · rfl
    rename_i hnot
    rw [amountOf_eq_zero]
    · rfl
    intro hmem
    apply hnot
    unfold userIds
    rw [List.mem_dedup, List.mem_append, List.mem_append]
    rcases ht with rfl | rfl | rfl <;> simp [hmem]
  unfold statements
  cases type with
  | userQuota => simpa [deltasOf, part, Function.comp_def, apply_ite] using husers .userQuota (by simp)
  | usedQuota => simpa [deltasOf, part, Function.comp_def, apply_ite] using husers .usedQuota (by simp)
  | requestCount => simpa [deltasOf, part, Function.comp_def, apply_ite] using husers .requestCount (by simp)
  | tokenQuota => simpa [deltasOf, part, Function.comp_def, apply_ite] using sum_entries (hn .tokenQuota) id
  | channelUsedQuota => simpa [deltasOf, part, Function.comp_def, apply_ite] using sum_entries (hn .channelUsedQuota) id

theorem sound_statements {stores : Stores} (hn : ∀ t, ((stores t).map Entry.id).Nodup)
    (hs : ∀ t i, Sound (amountOf (stores t) i)) {statement : Statement} (h : statement ∈ statements stores)
    (type : BatchType) (id : Int) : Sound (part type id statement) := by
  have hentry : ∀ t, ∀ e ∈ stores t, Sound e.amount := by
    intro t e he
    have hread := hs t e.id
    unfold amountOf at hread
    rw [lookup_of_mem (hn t) he] at hread
    exact hread
  unfold statements at h
  rw [List.mem_append, List.mem_append] at h
  rcases h with (h | h) | h
  · obtain ⟨e, he, rfl⟩ := List.mem_map.mp h
    simp only [part]
    split
    · exact hentry _ e he
    · exact sound_zero
  · obtain ⟨e, he, rfl⟩ := List.mem_map.mp h
    simp only [part]
    split
    · exact hentry _ e he
    · exact sound_zero
  · obtain ⟨i, -, rfl⟩ := List.mem_map.mp h
    simp only [part]
    split
    · cases type
      · exact hs _ i
      · exact sound_zero
      · exact hs _ i
      · exact sound_zero
      · exact hs _ i
    · exact sound_zero

/-! ## The queue -/

section Queue

variable {stores : Stores} {store : List Entry} {type : BatchType} {id value : Int}

def Fits (store : List Entry) (id value : Int) : Prop :=
  -2 ^ 63 ≤ (amountOf store id).value + value ∧ (amountOf store id).value + value < 2 ^ 63

theorem amountOf_some {e : Entry} (h : lookup Entry.id store id = some e) : amountOf store id = e.amount := by
  unfold amountOf
  rw [h]
  rfl

theorem amountOf_none (h : lookup Entry.id store id = none) : amountOf store id = .zero := by
  unfold amountOf
  rw [h]
  rfl

theorem amountOf_addToStore (hfits : Fits store id value) (i : Int) : amountOf (addToStore store id value) i =
      if i = id then ⟨(amountOf store i).value + value, (amountOf store i).deltas ++ [value]⟩
      else amountOf store i := by
  obtain ⟨hlow, hhigh⟩ := hfits
  unfold addToStore
  cases hold : lookup Entry.id store id with
  | none =>
    by_cases hi : i = id
    · subst hi
      rw [if_pos rfl, amountOf_some (lookup_append_new (r := (⟨i, value, [value]⟩ : Entry)) hold), amountOf_none hold]
      simp [Amount.zero]
    have hsame : lookup Entry.id (store ++ [⟨id, value, [value]⟩]) i = lookup Entry.id store i := by
      unfold lookup
      rw [List.find?_append]
      simp [Ne.symm hi]
    rw [if_neg hi]
    unfold amountOf
    rw [hsame]
  | some =>
    rw [amountOf_some hold] at hlow hhigh
    dsimp only
    rw [saturatingAdd_eq hlow hhigh]
    by_cases hi : i = id
    · subst hi
      rw [if_pos rfl, amountOf_some (lookup_save_self (r := (⟨i, _, _⟩ : Entry)) hold), amountOf_some hold]
    · rw [if_neg hi]
      unfold amountOf
      rw [lookup_save_ne (Ne.symm hi)]

theorem keys_addToStore (hn : (store.map Entry.id).Nodup) : ((addToStore store id value).map Entry.id).Nodup := by
  unfold addToStore
  split
  · rename_i hnone
    rw [List.map_append]
    refine List.Nodup.append hn (List.nodup_singleton _) ?_
    intro x hx hx'
    obtain rfl := List.mem_singleton.mp hx'
    obtain ⟨e, he, hid⟩ := List.mem_map.mp hx
    exact List.find?_eq_none.mp hnone e he (decide_eq_true hid)
  · rw [keys_save]
    exact hn

theorem amountOf_add (hfits : Fits (stores type) id value) (t : BatchType) (i : Int) :
    amountOf (addNewRecord stores type id value t) i =
      if t = type ∧ i = id then ⟨(amountOf (stores t) i).value + value, (amountOf (stores t) i).deltas ++ [value]⟩
      else amountOf (stores t) i := by
  unfold addNewRecord
  by_cases ht : t = type
  · subst ht
    rw [Function.update_self, amountOf_addToStore hfits]
    simp
  · rw [Function.update_of_ne ht, if_neg fun h => ht h.1]

theorem keys_add (hn : ∀ t, ((stores t).map Entry.id).Nodup) (t : BatchType) :
    ((addNewRecord stores type id value t).map Entry.id).Nodup := by
  unfold addNewRecord
  by_cases ht : t = type
  · subst ht
    rw [Function.update_self]
    exact keys_addToStore (hn t)
  · rw [Function.update_of_ne ht]
    exact hn t

end Queue

/-! ## The places of a delta -/

def inFlight (type : BatchType) (id : Int) : BatchRun → Multiset Int
  | .swapping _ stores => (amountOf (stores type) id).deltas
  | .draining pending => (pending.map (deltasOf type id)).sum
  | _ => 0

def RunOk : BatchRun → Prop
  | .swapping rest stores => rest.Nodup ∧ (∀ t ∈ rest, stores t = []) ∧ (∀ t, ((stores t).map Entry.id).Nodup) ∧
      ∀ t i, Sound (amountOf (stores t) i)
  | .draining pending => ∀ statement ∈ pending, ∀ t i, Sound (part t i statement)
  | _ => True

/-- Every delta is written, in flight or queued. -/
structure Inv (start : Balances) (s : State) : Prop where
  keys : ∀ t, ((s.queue t).map Entry.id).Nodup
  sound : ∀ t i, Sound (amountOf (s.queue t) i)
  runs : ∀ run ∈ s.runs, RunOk run
  columns : ∀ t i, stored s.db t i = (stored start t i).map (· + (s.written t i).sum)
  kept : ∀ t i, (s.written t i : Multiset Int) + (s.runs.map (inFlight t i)).sum +
    ((amountOf (s.queue t) i).deltas : Multiset Int) = s.accepted t i

section Steps

variable {start : Balances} {s t : State} {run next : BatchRun} {queue : Stores}

theorem amountOf_nil (id : Int) : amountOf [] id = .zero := rfl

theorem advance_spec (hkeys : ∀ t, ((s.queue t).map Entry.id).Nodup) (hsound : ∀ t i, Sound (amountOf (s.queue t) i))
    (hrun : RunOk run) (h : run.advance s.queue = (next, queue)) :
    (∀ t, ((queue t).map Entry.id).Nodup) ∧ (∀ t i, Sound (amountOf (queue t) i)) ∧ RunOk next ∧
      ∀ t i, inFlight t i next + ((amountOf (queue t) i).deltas : Multiset Int) =
        inFlight t i run + ((amountOf (s.queue t) i).deltas : Multiset Int) := by
  cases run with
  | checking rest =>
    cases rest with
    | nil =>
      cases h
      exact ⟨hkeys, hsound, trivial, fun _ _ => rfl⟩
    | cons =>
      unfold BatchRun.advance at h
      dsimp only at h
      split at h
      · cases h
        exact ⟨hkeys, hsound, trivial, fun _ _ => rfl⟩
      · cases h
        exact ⟨hkeys, hsound, ⟨by decide, fun _ _ => rfl, fun _ => List.nodup_nil, fun _ _ => sound_zero⟩, fun _ _ => rfl⟩
  | swapping rest =>
    obtain ⟨hnodup, hempty, hn, hs⟩ := hrun
    cases rest with
    | nil =>
      cases h
      refine ⟨hkeys, hsound, fun statement hst => sound_statements hn hs hst, ?_⟩
      intro t i
      simp only [inFlight]
      rw [sum_statements hn]
    | cons type =>
      cases h
      rw [List.nodup_cons] at hnodup
      have hnil := hempty type List.mem_cons_self
      -- The map of `type` moves from the queue to the run, the others stay where they are.
      refine ⟨?_, ?_, ⟨hnodup.2, ?_, ?_, ?_⟩, ?_⟩
      · intro t
        by_cases ht : t = type
        · subst ht
          simp
        · rw [Function.update_of_ne ht]
          exact hkeys t
      · intro t i
        by_cases ht : t = type
        · subst ht
          rw [Function.update_self]
          exact sound_zero
        · rw [Function.update_of_ne ht]
          exact hsound t i
      · intro t ht
        have hne : t ≠ type := by
          rintro rfl
          exact hnodup.1 ht
        rw [Function.update_of_ne hne]
        exact hempty t (List.mem_cons_of_mem _ ht)
      · intro t
        by_cases ht : t = type
        · subst ht
          rw [Function.update_self]
          exact hkeys t
        · rw [Function.update_of_ne ht]
          exact hn t
      · intro t i
        by_cases ht : t = type
        · subst ht
          rw [Function.update_self]
          exact hsound t i
        · rw [Function.update_of_ne ht]
          exact hs t i
      · intro t i
        simp only [inFlight]
        by_cases ht : t = type
        · subst ht
          simp [hnil, amountOf_nil]
        · simp [Function.update_of_ne ht]
  | draining pending =>
    cases pending with
    | nil =>
      cases h
      exact ⟨hkeys, hsound, trivial, fun _ _ => rfl⟩
    | cons =>
      cases h
      exact ⟨hkeys, hsound, hrun, fun _ _ => rfl⟩
  | finished =>
    cases h
    exact ⟨hkeys, hsound, trivial, fun _ _ => rfl⟩

def Healthy (s : State) : Event → Prop
  | .add type id value => Fits (s.queue type) id value
  | .flush _ _ ok => ok = true
  | _ => True

theorem add_inv {type : BatchType} {id value : Int} (hok : Fits (s.queue type) id value) (h : Inv start s)
    (hstep : step s (.add type id value) = some t) : Inv start t := by
  cases hstep
  refine ⟨keys_add h.keys, ?_, h.runs, h.columns, ?_⟩
  · intro t i
    have hs := h.sound t i
    rw [amountOf_add hok]
    split
    · unfold Sound at hs ⊢
      simp only [List.sum_append, List.sum_singleton]
      rw [hs]
    · exact hs
  · intro t i
    have hkept := h.kept t i
    simp only
    rw [amountOf_add hok]
    split
    · simp only
      rw [← Multiset.coe_add, ← Multiset.coe_add, ← hkept]
      abel
    · exact hkept

theorem advance_inv {i : Nat} (h : Inv start s) (hstep : step s (.advance i) = some t) : Inv start t := by
  unfold step at hstep
  dsimp only at hstep
  split at hstep
  · cases hstep
  rename_i run hrun
  obtain ⟨⟨next, queue⟩, hadv⟩ : ∃ x, run.advance s.queue = x := ⟨_, rfl⟩
  rw [hadv] at hstep
  cases hstep
  obtain ⟨hkeys, hsound, hnext, hmoves⟩ :=
    advance_spec h.keys h.sound (h.runs run (List.mem_of_getElem? hrun)) hadv
  refine ⟨hkeys, hsound, ?_, h.columns, ?_⟩
  · intro x hx
    rcases List.mem_or_eq_of_mem_set hx with hx | rfl
    · exact h.runs x hx
    · exact hnext
  · intro t i'
    have hset := sum_set (inFlight t i') hrun next
    refine add_right_cancel (b := inFlight t i' run) ?_
    calc (s.written t i' : Multiset Int) + ((s.runs.set i next).map (inFlight t i')).sum +
            ((amountOf (queue t) i').deltas : Multiset Int) + inFlight t i' run
        = s.written t i' + (((s.runs.set i next).map (inFlight t i')).sum + inFlight t i' run) +
            (amountOf (queue t) i').deltas := by abel
      _ = s.written t i' + (s.runs.map (inFlight t i')).sum +
            (inFlight t i' next + (amountOf (queue t) i').deltas) := by rw [hset]; abel
      _ = s.written t i' + (s.runs.map (inFlight t i')).sum + (amountOf (s.queue t) i').deltas +
            inFlight t i' run := by rw [hmoves t i']; abel
      _ = s.accepted t i' + inFlight t i' run := by rw [h.kept t i']

theorem flush_inv {i j : Nat} (h : Inv start s) (hstep : step s (.flush i j true) = some t) : Inv start t := by
  unfold step at hstep
  dsimp only at hstep
  split at hstep
  · rename_i pending hrun
    split at hstep
    · cases hstep
    rename_i statement hst
    rw [if_pos rfl] at hstep
    cases hstep
    have hsound : ∀ x ∈ pending, ∀ t i, Sound (part t i x) := h.runs _ (List.mem_of_getElem? hrun)
    have hmem : statement ∈ pending := List.mem_of_getElem? hst
    refine ⟨h.keys, h.sound, ?_, ?_, ?_⟩
    · intro x hx
      rcases List.mem_or_eq_of_mem_set hx with hx | rfl
      · exact h.runs x hx
      · intro x hx
        exact hsound x (List.mem_of_mem_eraseIdx hx)
    · intro t i'
      have hpart : (part t i' statement).value = (part t i' statement).deltas.sum := hsound statement hmem t i'
      simp only
      rw [exec_stored, h.columns t i', hpart, Option.map_map]
      congr 1
      funext b
      simp only [Function.comp_apply, List.sum_append]
      omega
    · intro t i'
      obtain ⟨hj, rfl⟩ := List.getElem?_eq_some_iff.mp hst
      have hset := sum_set (inFlight t i') hrun (.draining (pending.eraseIdx j))
      have hpick := sum_eraseIdx (deltasOf t i') (List.getElem?_eq_getElem hj)
      simp only [inFlight] at hset
      -- What the run gives up is what is written.
      have hless : ((s.runs.set i (.draining (pending.eraseIdx j))).map (inFlight t i')).sum +
          deltasOf t i' pending[j] = (s.runs.map (inFlight t i')).sum := by
        refine add_right_cancel (b := ((pending.eraseIdx j).map (deltasOf t i')).sum) ?_
        rw [add_assoc, hpick, hset]
      simp only
      rw [← Multiset.coe_add, ← h.kept t i', ← hless]
      unfold deltasOf
      abel
  · cases hstep

theorem step_inv (e : Event) (hok : Healthy s e) (h : Inv start s) (hstep : step s e = some t) : Inv start t := by
  cases e with
  | add => exact add_inv hok h hstep
  | start =>
    cases hstep
    refine ⟨h.keys, h.sound, ?_, h.columns, ?_⟩
    · intro run hrun
      rcases List.mem_append.mp hrun with hrun | hrun
      · exact h.runs run hrun
      · rw [List.mem_singleton.mp hrun]
        trivial
    · intro t i
      simpa [inFlight] using h.kept t i
  | advance => exact advance_inv h hstep
  | flush i j ok =>
    obtain rfl : ok = true := hok
    exact flush_inv h hstep

end Steps

/-! ## Every run -/

structure Initial (s : State) : Prop where
  queue : ∀ t, s.queue t = []
  runs : s.runs = []
  accepted : ∀ t i, s.accepted t i = []
  written : ∀ t i, s.written t i = []

theorem Initial.inv {s : State} (h : Initial s) : Inv s.db s := by
  refine ⟨?_, ?_, ?_, ?_, ?_⟩
  · intro t
    rw [h.queue t]
    exact List.nodup_nil
  · intro t i
    rw [h.queue t]
    exact sound_zero
  · rw [h.runs]
    intro run hrun
    cases hrun
  · intro t i
    simp [h.written t i]
  · intro t i
    simp [h.written t i, h.runs, h.accepted t i, h.queue t, amountOf_nil]

def NothingLost (start : Balances) (s : State) : Prop :=
  ∀ type id, stored s.db type id =
      (stored start type id).map (· + (s.accepted type id).sum - (amountOf (s.queue type) id).value) ∧
    (s.written type id ++ (amountOf (s.queue type) id).deltas).Perm (s.accepted type id)

theorem Inv.nothingLost {start : Balances} {s : State} (h : Inv start s) (hidle : ∀ run ∈ s.runs, run = .finished) :
    NothingLost start s := by
  intro type id
  have hflight : (s.runs.map (inFlight type id)).sum = 0 := by
    rw [List.sum_eq_zero]
    intro x hx
    obtain ⟨run, hrun, rfl⟩ := List.mem_map.mp hx
    rw [hidle run hrun]
    rfl
  have hkept := h.kept type id
  rw [hflight, add_zero, Multiset.coe_add] at hkept
  have hperm := Multiset.coe_eq_coe.mp hkept
  refine ⟨?_, hperm⟩
  have hvalue : (amountOf (s.queue type) id).value = (amountOf (s.queue type) id).deltas.sum := h.sound type id
  rw [h.columns type id, hvalue, ← hperm.sum_eq, List.sum_append]
  congr 1
  funext b
  omega

theorem batch_loses_nothing (s t : State) (es : List Event) (hs : Initial s) (h : Steps step Healthy s es t)
    (hidle : ∀ run ∈ t.runs, run = .finished) : NothingLost s.db t :=
  (h.invariant (fun _ e _ hok hinv hstep => step_inv e hok hinv hstep) hs.inv).nothingLost hidle

def sampleState : State where
  db := ⟨[⟨1, 1000, 0, 0⟩], [], []⟩
  queue := .empty
  runs := []
  accepted := fun _ _ => []
  written := fun _ _ => []

theorem sampleState_initial : Initial sampleState := ⟨fun _ => rfl, rfl, fun _ _ => rfl, fun _ _ => rfl⟩

def chargeAndFlush (ok : Bool) : List Event :=
  [.add .userQuota 1 (-100), .start, .advance 0, .advance 0, .advance 0, .advance 0, .advance 0, .advance 0,
    .advance 0, .flush 0 0 ok, .advance 0]

/-- The flush fails, and the user still has 1000. -/
theorem failed_flush_loses_charge :
    Initial sampleState ∧ ∃ t, Steps step free sampleState (chargeAndFlush false) t ∧
      (∀ run ∈ t.runs, run = .finished) ∧ stored t.db .userQuota 1 = some 1000 ∧ amountOf (t.queue .userQuota) 1 = .zero ∧
      t.accepted .userQuota 1 = [-100] ∧ ¬ NothingLost sampleState.db t := by
  refine ⟨sampleState_initial, _, steps_of_run (by rfl), ?_, by decide, by decide, by decide, ?_⟩
  · intro run hrun
    exact List.mem_singleton.mp hrun
  · intro h
    exact absurd (h .userQuota 1).1 (by decide)

theorem batch_loses_nothing_flushed :
    ∃ t, Steps step Healthy sampleState (chargeAndFlush true) t ∧ (∀ run ∈ t.runs, run = .finished) ∧
      NothingLost sampleState.db t := by
  have hrun : ∃ t, Steps step Healthy sampleState (chargeAndFlush true) t ∧ (∀ run ∈ t.runs, run = .finished) := by
    refine ⟨_, .more ?_ rfl (.more trivial rfl (.more trivial rfl (.more trivial rfl (.more trivial rfl (.more trivial rfl
      (.more trivial rfl (.more trivial rfl (.more trivial rfl (.more rfl rfl (.more trivial rfl (.done _))))))))))), ?_⟩
    · exact ⟨by decide, by decide⟩
    · intro run hrun
      exact List.mem_singleton.mp hrun
  obtain ⟨t, ht, hidle⟩ := hrun
  exact ⟨t, ht, hidle, batch_loses_nothing sampleState t _ sampleState_initial ht hidle⟩

end NewApi.Batch
