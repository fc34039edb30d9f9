import NewApi.Restore

/-!
# What an expiry may undo

A run looks for the row that says where the user's group goes among all expired rows, however old.
-/

namespace NewApi.Expiry

open GoText Table Code Ledger Reset Restore

variable {s t : Store} {sub row : UserSubscription} {writes : List Write} {user userId now : Int}

/-! ## The rows after one transaction -/

def mark (userId now : Int) (sub : UserSubscription) : UserSubscription :=
  if sub.userId = userId ∧ sub.dueAt now then { sub with status := .expired } else sub

theorem commit_saves (rows : List UserSubscription) (kind : SaveKind) (s : Store) :
    (s.commit (rows.map fun row => .saveSub kind row)).subs = rows.foldl (save UserSubscription.id) s.subs := by
  induction rows generalizing s with
  | nil => rfl
  | cons row rows ih => exact ih _

theorem subs_marked (hkeys : (s.subs.map UserSubscription.id).Nodup) :
    (s.commit (markExpired s userId now)).subs = s.subs.map (mark userId now) := by
  have hmarks : markExpired s userId now =
      ((s.subs.filter fun sub => sub.userId = userId ∧ sub.dueAt now).map fun sub =>
        { sub with status := .expired }).map fun row => .saveSub .status row := by
    rw [List.map_map]
    rfl
  rw [hmarks, commit_saves, foldl_save_filter hkeys _ (fun sub => { sub with status := .expired }) fun _ => rfl]
  simp only [decide_eq_true_eq]
  rfl

theorem subs_expired (hkeys : (s.subs.map UserSubscription.id).Nodup)
    (h : expireUserSubscriptions s userId now = .ok writes) :
    (s.commit writes).subs = s.subs.map (mark userId now) := by
  rcases expire_spec h with rfl | ⟨_, _, -, -, -, -, rfl⟩
  · exact subs_marked hkeys
  · rw [commit_append, commit_cons, commit_nil]
    exact subs_marked hkeys

theorem mark_id (sub : UserSubscription) : (mark userId now sub).id = sub.id := by
  unfold mark
  split <;> rfl

theorem keys_marked (hkeys : (s.subs.map UserSubscription.id).Nodup) :
    ((s.subs.map (mark userId now)).map UserSubscription.id).Nodup := by
  rw [List.map_map, List.map_congr_left (g := UserSubscription.id)]
  · exact hkeys
  · intro sub _
    exact mark_id sub

theorem mark_of_not_active (h : sub.status ≠ .active) : mark userId now sub = sub := by
  unfold mark
  rw [if_neg]
  rintro ⟨-, hactive, -⟩
  exact h hactive

theorem mark_of_running (h : sub.activeAt now) : mark userId now sub = sub := by
  unfold mark
  rw [if_neg]
  rintro ⟨-, -, -, hend⟩
  exact absurd h.2 (by omega)

theorem mark_active (h : (mark userId now sub).status = .active) : mark userId now sub = sub := by
  unfold mark at h ⊢
  split
  · rename_i hdue
    rw [if_pos hdue] at h
    cases h
  · rfl

/-! ## The condition -/

def Moves (user : Int) (sub : UserSubscription) : Prop :=
  sub.userId = user ∧ sub.status = .expired ∧ (sub.downgradeGroup ≠ "" ∨ sub.upgradeGroup ≠ "")

def Leaves (g : String) (sub : UserSubscription) : Prop :=
  (trimSpace sub.downgradeGroup ≠ "" → trimSpace sub.downgradeGroup = g) ∧
    (trimSpace sub.downgradeGroup = "" → trimSpace sub.upgradeGroup ≠ "" → trimSpace sub.upgradeGroup = g →
      trimSpace sub.prevUserGroup = "" ∨ trimSpace sub.prevUserGroup = g)

def Settled (s : Store) (user now : Int) : Prop :=
  hasActiveUpgrade s user now ∨
    ∀ last ∈ s.subs, Moves user last → (∀ sub ∈ s.subs, Moves user sub → EndsBefore sub last) →
      Leaves (group s user) last

def Plain (sub : UserSubscription) : Prop := sub.upgradeGroup = "" ∧ sub.downgradeGroup = ""

theorem expiryTarget_of_leaves {g : String} (h : Leaves g sub) : expiryTarget sub g = "" ∨ expiryTarget sub g = g := by
  unfold expiryTarget
  split
  · rename_i hdown
    exact .inr (h.1 hdown)
  rename_i hdown
  rw [not_not] at hdown
  split
  · exact .inl rfl
  rename_i hgroups
  rw [not_or] at hgroups
  split
  · exact .inl rfl
  · rename_i hup
    rw [not_not] at hup
    exact h.2 hdown hgroups.1 hup.symm

/-! ## One transaction -/

theorem mem_moves_marked (hplain : ∀ sub ∈ s.subs, sub.userId = userId → sub.dueAt now → userId = user → Plain sub) :
    sub ∈ s.subs.map (mark userId now) ∧ Moves user sub ↔ sub ∈ s.subs ∧ Moves user sub := by
  constructor
  · rintro ⟨hmem, hmoves⟩
    obtain ⟨old, hold, rfl⟩ := List.mem_map.mp hmem
    by_cases hdue : old.userId = userId ∧ old.dueAt now
    · -- A row that is marked now and moves the user would be one of the plain ones.
      unfold mark at hmoves
      rw [if_pos hdue] at hmoves
      obtain ⟨hup, hdown⟩ := hplain old hold hdue.1 hdue.2 (hdue.1.symm.trans hmoves.1)
      rcases hmoves.2.2 with h | h
      · exact absurd hdown h
      · exact absurd hup h
    · have hsame : mark userId now old = old := if_neg hdue
      rw [hsame] at hmoves ⊢
      exact ⟨hold, hmoves⟩
  · rintro ⟨hmem, hmoves⟩
    refine ⟨List.mem_map.mpr ⟨sub, hmem, mark_of_not_active ?_⟩, hmoves⟩
    rw [hmoves.2.1]
    decide

theorem hasActiveUpgrade_marked (hsubs : t.subs = s.subs.map (mark userId now)) (h : hasActiveUpgrade s user now) :
    hasActiveUpgrade t user now := by
  obtain ⟨sub, hsub, huser, hactive, hup⟩ := h
  refine ⟨sub, ?_, huser, hactive, hup⟩
  rw [hsubs]
  exact List.mem_map.mpr ⟨sub, hsub, mark_of_running hactive⟩

theorem settled_marked (hsubs : t.subs = s.subs.map (mark userId now)) (hgroup : group t user = group s user)
    (hplain : ∀ sub ∈ s.subs, sub.userId = userId → sub.dueAt now → userId = user → Plain sub)
    (h : Settled s user now) : Settled t user now := by
  rcases h with h | h
  · exact .inl (hasActiveUpgrade_marked hsubs h)
  refine .inr ?_
  rw [hsubs, hgroup]
  intro last hlast hmoves hlatest
  obtain ⟨hold, -⟩ := (mem_moves_marked hplain).mp ⟨hlast, hmoves⟩
  refine h last hold hmoves ?_
  intro sub hsub hsubMoves
  exact hlatest sub ((mem_moves_marked hplain).mpr ⟨hsub, hsubMoves⟩).1 hsubMoves

theorem group_markExpired : group (s.commit (markExpired s userId now)) user = group s user := by
  unfold group
  rw [users_kept]
  rintro w hw u rfl
  obtain ⟨_, -, -, -, he⟩ := mem_markExpired hw
  cases he

theorem group_setGroup_same : group (s.write (.setGroup ⟨user, group s user⟩)) user = group s user := by
  cases hu : lookup User.id s.users user with
  | none =>
    unfold group
    show (lookup User.id (save User.id s.users _) user).elim "" User.group = _
    rw [lookup_save, if_pos rfl, hu]
    rfl
  | some u => exact group_setGroup ⟨u, hu⟩ _

theorem expire_group (hkeys : (s.subs.map UserSubscription.id).Nodup)
    (h : expireUserSubscriptions s userId now = .ok writes) (hsettled : Settled s user now)
    (hplain : ∀ sub ∈ s.subs, sub.userId = userId → sub.dueAt now → userId = user → Plain sub) :
    group (s.commit writes) user = group s user := by
  rcases expire_spec h with rfl | ⟨last, g, hactive, hlast, hg, htarget, rfl⟩
  · exact group_markExpired
  rw [commit_append, commit_cons, commit_nil]
  by_cases huser : userId = user
  · subst huser
    obtain ⟨-, rfl⟩ := getUserGroupById_spec hg
    rw [group_markExpired] at htarget ⊢
    obtain ⟨hmem, hlatest⟩ := latest_spec hlast
    simp only [List.mem_filter, decide_eq_true_eq, subs_marked hkeys] at hmem hlatest
    obtain ⟨hold, hmoves⟩ := (mem_moves_marked hplain).mp hmem
    have hleaves : Leaves (group s userId) last := by
      rcases hsettled with hrunning | hsettled
      · exact absurd (hasActiveUpgrade_marked (subs_marked hkeys) hrunning) hactive
      · refine hsettled last hold hmoves ?_
        intro sub hsub hsubMoves
        exact hlatest sub ((mem_moves_marked hplain).mpr ⟨hsub, hsubMoves⟩)
    have hsame : expiryTarget last (group s userId) = group s userId :=
      (expiryTarget_of_leaves hleaves).resolve_left htarget
    have hmarked : group (s.commit (markExpired s userId now)) userId = group s userId := group_markExpired
    rw [hsame, ← hmarked]
    exact group_setGroup_same
  · have hkeep : group ((s.commit (markExpired s userId now)).write (.setGroup ⟨userId, expiryTarget last g⟩)) user =
        group (s.commit (markExpired s userId now)) user := by
      unfold group
      rw [← commit_nil (s := Store.write _ _), ← commit_cons, users_kept]
      simpa using huser
    exact hkeep.trans group_markExpired

/-! ## Every run -/

variable {fails : ExpiryFaults} {users : List Int} {count : Nat}

def Marked (s t : Store) (sub : UserSubscription) : Prop :=
  sub ∈ s.subs ∧ sub.status = .active ∧ ∃ row ∈ t.subs, row.id = sub.id ∧ row.status = .expired

theorem expired_stays (hkeys : (s.subs.map UserSubscription.id).Nodup) (hrow : row ∈ s.subs)
    (hstatus : row.status = .expired) : row ∈ (expireUsers now fails count s users).2.subs := by
  induction users generalizing s count with
  | nil => exact hrow
  | cons userId rest ih =>
    unfold expireUsers
    split
    · exact hrow
    split
    · exact hrow
    split
    · exact hrow
    rename_i writes hwrites
    have hsubs := subs_expired hkeys hwrites
    apply ih
    · rw [hsubs]
      exact keys_marked hkeys
    rw [hsubs]
    refine List.mem_map.mpr ⟨row, hrow, mark_of_not_active ?_⟩
    rw [hstatus]
    decide

theorem expireUsers_group (hkeys : (s.subs.map UserSubscription.id).Nodup) (hsettled : Settled s user now)
    (hplain : ∀ sub, sub.userId = user → Marked s (expireUsers now fails count s users).2 sub → Plain sub) :
    group (expireUsers now fails count s users).2 user = group s user := by
  induction users generalizing s count with
  | nil => rfl
  | cons userId rest ih =>
    unfold expireUsers at hplain ⊢
    split
    · rfl
    rename_i hmark
    rw [if_neg hmark] at hplain
    split
    · rfl
    rename_i hfinish
    rw [if_neg hfinish] at hplain
    split
    · rfl
    rename_i writes hwrites
    rw [hwrites] at hplain
    have hsubs := subs_expired hkeys hwrites
    have hkeys' : ((s.commit writes).subs.map UserSubscription.id).Nodup := by
      rw [hsubs]
      exact keys_marked hkeys
    -- What this transaction marks is expired at the end of the run, and so it is plain.
    have hdue : ∀ sub ∈ s.subs, sub.userId = userId → sub.dueAt now → userId = user → Plain sub := by
      intro sub hsub hown hdue huser
      refine hplain sub (hown.trans huser) ⟨hsub, hdue.1, { sub with status := .expired }, ?_, rfl, rfl⟩
      apply expired_stays hkeys' _ rfl
      rw [hsubs]
      exact List.mem_map.mpr ⟨sub, hsub, if_pos ⟨hown, hdue⟩⟩
    have hgroup := expire_group hkeys hwrites hsettled hdue
    rw [← hgroup]
    refine ih hkeys' (settled_marked hsubs hgroup hdue hsettled) ?_
    rintro _ hown ⟨hsub, hactive, hexpired⟩
    rw [hsubs] at hsub
    obtain ⟨old, hold, rfl⟩ := List.mem_map.mp hsub
    have hsame := mark_active hactive
    rw [hsame] at hown hactive hexpired ⊢
    exact hplain old hown ⟨hold, hactive, hexpired⟩

def endedLongAgo (downgradeGroup : String) : UserSubscription :=
  { sampleSub 1600000000 with status := .expired, endTime := 1650000000, downgradeGroup }

def justEnded : UserSubscription := { sampleSub 1700000000 with id := 2, endTime := 1700000500 }

def assigned (downgradeGroup : String) : Store where
  plans := []
  subs := [endedLongAgo downgradeGroup, justEnded]
  nextSubId := 3
  records := []
  users := [⟨1, "vip"⟩]

def asGiven : MapOrder := ⟨id, fun _ => .refl _⟩

def noFaults : ExpiryFaults := ⟨false, fun _ => false, fun _ => false⟩

theorem marked_plain {downgradeGroup : String} {t : Store} (h : Marked (assigned downgradeGroup) t sub) : Plain sub := by
  obtain ⟨hsub, hactive, -⟩ := h
  simp only [assigned, List.mem_cons, List.not_mem_nil, or_false] at hsub
  rcases hsub with rfl | rfl
  · cases hactive
  · exact ⟨rfl, rfl⟩

end NewApi.Expiry
