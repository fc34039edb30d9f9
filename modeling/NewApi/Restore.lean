import NewApi.Budget

/-!
# The group after the last subscription

A purchase remembers the user's group in the row that changed it. The end of a subscription looks at one row.
-/

namespace NewApi.Restore

open GoTime GoText Table Code Ledger Run Reset Budget

variable {fuel : Nat} {loc : Location} {s t : Store} {sub row old : UserSubscription} {w : Write}
  {writes : List Write} {base : String} {user now : Int}

/-! ## Users and running subscriptions -/

def group (s : Store) (user : Int) : String := (lookup User.id s.users user).elim "" User.group

def Runs (user : Int) (sub : UserSubscription) : Prop :=
  sub.userId = user ∧ sub.upgradeGroup ≠ "" ∧ sub.status = .active

def Running (s : Store) (user : Int) : Prop := ∃ sub ∈ s.subs, Runs user sub

/-- It remembers no group but the base, and has an end. -/
structure RowOk (base : String) (sub : UserSubscription) : Prop where
  downgrade : sub.downgradeGroup = ""
  trimmed : sub.upgradeGroup ≠ "" → trimSpace sub.upgradeGroup = sub.upgradeGroup
  prev : sub.upgradeGroup ≠ "" → sub.prevUserGroup = "" ∨ sub.prevUserGroup = base
  ends : sub.upgradeGroup ≠ "" → sub.status = .active → 0 < sub.endTime

structure Tied (base : String) (user : Int) (s : Store) : Prop where
  valid : Valid s
  exists_user : ∃ u, lookup User.id s.users user = some u
  rows : ∀ sub ∈ s.subs, sub.userId = user → RowOk base sub
  restored : ¬ Running s user → group s user = base

theorem group_setGroup (h : ∃ u, lookup User.id s.users user = some u) (g : String) :
    group (s.write (.setGroup ⟨user, g⟩)) user = g := by
  obtain ⟨u, hu⟩ := h
  have hself : lookup User.id (save User.id s.users ⟨user, g⟩) user = some ⟨user, g⟩ :=
    lookup_save_self (r := (⟨user, g⟩ : User)) hu
  show (lookup User.id (save User.id s.users ⟨user, g⟩) user).elim "" User.group = g
  rw [hself]
  rfl

theorem exists_setGroup (h : ∃ u, lookup User.id s.users user = some u) (u' : User) :
    ∃ u, lookup User.id (s.write (.setGroup u')).users user = some u := by
  obtain ⟨u, hu⟩ := h
  by_cases hid : u'.id = user
  · subst hid
    exact ⟨u', lookup_save_self hu⟩
  · exact ⟨u, (lookup_save_ne hid).trans hu⟩

theorem getUserGroupById_spec {g : String} (h : getUserGroupById s user = .ok g) : 0 < user ∧ g = group s user := by
  unfold getUserGroupById at h
  split at h
  · cases h
  · cases h
    exact ⟨by omega, rfl⟩

/-! ## Transactions that leave the user's group alone -/

def SameGroup (old row : UserSubscription) : Prop :=
  row.status = old.status ∧ row.endTime = old.endTime ∧ row.upgradeGroup = old.upgradeGroup ∧
    row.prevUserGroup = old.prevUserGroup ∧ row.downgradeGroup = old.downgradeGroup

def Quiet (user : Int) (s : Store) : Write → Prop
  | .createSub sub => sub.userId = user → sub.upgradeGroup = "" ∧ sub.downgradeGroup = ""
  | .saveSub _ row => ∃ old ∈ s.subs, row.id = old.id ∧ row.userId = old.userId ∧
      (old.userId = user → SameGroup old row ∨
        old.upgradeGroup = "" ∧ row.upgradeGroup = "" ∧ row.downgradeGroup = old.downgradeGroup)
  | .deleteSub id => ∀ sub ∈ s.subs, sub.id = id → sub.userId = user → sub.upgradeGroup = ""
  | .setGroup u => u.id ≠ user
  | _ => True

theorem RowOk.same (h : RowOk base old) (hs : SameGroup old row) : RowOk base row := by
  obtain ⟨hst, hend, hup, hprev, hdown⟩ := hs
  refine ⟨hdown ▸ h.downgrade, ?_, ?_, ?_⟩
  · rw [hup]
    exact h.trimmed
  · rw [hup, hprev]
    exact h.prev
  · rw [hup, hst, hend]
    exact h.ends

theorem RowOk.plain (hdown : sub.downgradeGroup = "") (hup : sub.upgradeGroup = "") : RowOk base sub :=
  ⟨hdown, fun h => absurd hup h, fun h => absurd hup h, fun h => absurd hup h⟩

theorem users_kept (h : ∀ w ∈ writes, ∀ u, w = .setGroup u → u.id ≠ user) :
    lookup User.id (s.commit writes).users user = lookup User.id s.users user := by
  induction writes generalizing s with
  | nil => rfl
  | cons w ws ih =>
    rw [commit_cons, ih fun x hx => h x (List.mem_cons_of_mem _ hx)]
    cases w with
    | setGroup u => exact lookup_save_ne (h _ List.mem_cons_self u rfl)
    | _ => rfl

theorem users_commit (hw : ∀ w ∈ writes, Quiet user s w) :
    lookup User.id (s.commit writes).users user = lookup User.id s.users user := by
  apply users_kept
  rintro w hmem u rfl
  exact hw _ hmem

theorem mem_save_self {rows : List UserSubscription} (h : old ∈ rows) (hid : old.id = row.id) :
    row ∈ save UserSubscription.id rows row := by
  refine List.mem_map.mpr ⟨old, h, ?_⟩
  rw [if_pos hid]

theorem mem_save_other {rows : List UserSubscription} (h : old ∈ rows) (hid : old.id ≠ row.id) :
    old ∈ save UserSubscription.id rows row := by
  refine List.mem_map.mpr ⟨old, h, ?_⟩
  rw [if_neg hid]

theorem runs_write (hvalid : Valid s) (hsub : sub ∈ s.subs) (hruns : Runs user sub) (hw : Quiet user s w)
    (h : ∃ row ∈ t.subs, row.id = sub.id ∧ Runs user row) :
    ∃ row ∈ (t.write w).subs, row.id = sub.id ∧ Runs user row := by
  obtain ⟨row, hrow, hid, hrunning⟩ := h
  cases w with
  | createSub => exact ⟨row, List.mem_append_left _ hrow, hid, hrunning⟩
  | saveSub kind new =>
    obtain ⟨old, hold, hnew, huser, hsame⟩ := hw
    by_cases hkey : new.id = sub.id
    · obtain rfl : old = sub := hvalid.eq_of_id hold hsub (hnew.symm.trans hkey)
      refine ⟨new, mem_save_self hrow (hid.trans hkey.symm), hkey, huser.trans hruns.1, ?_⟩
      rcases hsame hruns.1 with ⟨hst, -, hup, -⟩ | ⟨hplain, -⟩
      · exact ⟨hup ▸ hruns.2.1, hst.trans hruns.2.2⟩
      · exact absurd hplain hruns.2.1
    · exact ⟨row, mem_save_other hrow fun he => hkey (he.symm.trans hid), hid, hrunning⟩
  | deleteSub =>
    refine ⟨row, List.mem_filter.mpr ⟨hrow, ?_⟩, hid, hrunning⟩
    rw [decide_eq_true_eq]
    intro hdel
    exact hruns.2.1 (hw sub hsub (hid.symm.trans hdel) hruns.1)
  | createRecord | saveRecord | setGroup => exact ⟨row, hrow, hid, hrunning⟩

theorem running_commit (hvalid : Valid s) (hw : ∀ w ∈ writes, Quiet user s w) (h : Running s user) :
    Running (s.commit writes) user := by
  obtain ⟨sub, hsub, hruns⟩ := h
  have hall : ∀ (ws : List Write) (t : Store), (∀ w ∈ ws, Quiet user s w) →
      (∃ row ∈ t.subs, row.id = sub.id ∧ Runs user row) →
      ∃ row ∈ (t.commit ws).subs, row.id = sub.id ∧ Runs user row := by
    intro ws
    induction ws with
    | nil => intro t _ ht; exact ht
    | cons w ws ih =>
      intro t hq ht
      exact ih _ (fun x hx => hq x (List.mem_cons_of_mem _ hx))
        (runs_write hvalid hsub hruns (hq w List.mem_cons_self) ht)
  obtain ⟨row, hrow, -, hrunning⟩ := hall writes s hw ⟨sub, hsub, rfl, hruns⟩
  exact ⟨row, hrow, hrunning⟩

theorem quiet_tied (h : Tied base user s) (hvalid : Valid (s.commit writes)) (hw : ∀ w ∈ writes, Quiet user s w) :
    Tied base user (s.commit writes) := by
  refine ⟨hvalid, ?_, ?_, ?_⟩
  · rw [users_commit hw]
    exact h.exists_user
  · intro sub hsub huser
    rcases mem_commit_subs hsub with ⟨hold, -⟩ | ⟨_, hsave⟩ | hnew
    · exact h.rows sub hold huser
    · obtain ⟨old, hold, -, huser', hsame⟩ := hw _ hsave
      have hown : old.userId = user := huser'.symm.trans huser
      rcases hsame hown with hsame | ⟨-, hplain, hdown⟩
      · exact (h.rows old hold hown).same hsame
      · exact .plain (hdown.trans (h.rows old hold hown).downgrade) hplain
    · obtain ⟨hup, hdown⟩ := hw _ hnew huser
      exact .plain hdown hup
  · intro hnone
    have hgroup : group (s.commit writes) user = group s user := by
      unfold group
      rw [users_commit hw]
    rw [hgroup]
    exact h.restored fun hrun => hnone (running_commit h.valid hw hrun)

/-! ## The writers of the counter are quiet -/

theorem quiet_save {kind : SaveKind} (hold : old ∈ s.subs) (hid : row.id = old.id) (huser : row.userId = old.userId)
    (hsame : SameGroup old row) : Quiet user s (.saveSub kind row) :=
  ⟨old, hold, hid, huser, fun _ => .inl hsame⟩

theorem quiet_afterReset {kind : Option SaveKind} {k : SaveKind} {last next : Int} (hsub : sub ∈ s.subs)
    (hrow : row = afterReset sub kind last next) : Quiet user s (.saveSub k row) := by
  subst hrow
  exact quiet_save hsub rfl rfl ⟨rfl, rfl, rfl, rfl, rfl⟩

variable {id userId : Int} {target : String} {last : UserSubscription}

theorem delta_quiet {amount : Int} (h : postConsumeUserSubscriptionDelta s id amount = .ok writes)
    (hw : w ∈ writes) : Quiet user s w := by
  rcases delta_spec h with ⟨-, rfl⟩ | ⟨_, hsub, -, rfl⟩
  · cases hw
  · rw [List.mem_singleton.mp hw]
    exact quiet_save (mem_of_sub hsub) rfl rfl ⟨rfl, rfl, rfl, rfl, rfl⟩

theorem preConsume_quiet {requestId : String} {amount : Int} {result : SubscriptionPreConsumeResult}
    (h : preConsumeUserSubscription fuel loc s requestId userId amount now = .ok (result, writes))
    (hw : w ∈ writes) : Quiet user s w := by
  cases preConsume_writes h hw with
  | refreshed hsub hrow =>
    obtain ⟨last, next, hrow, -⟩ := refresh_spec hrow
    exact quiet_afterReset hsub hrow
  | charged hsub hrow =>
    obtain ⟨_, _, rfl, -⟩ := refresh_spec hrow
    exact quiet_save hsub rfl rfl ⟨rfl, rfl, rfl, rfl, rfl⟩
  | recorded => trivial

theorem refund_quiet {requestId : String} {fails : Faults}
    (hw : w ∈ (refundSubscriptionPreConsume s requestId fails).2) : Quiet user s w := by
  rcases refund_writes hw with ⟨_, _, _, hdelta, hw⟩ | ⟨_, rfl⟩
  · exact delta_quiet hdelta hw
  · trivial

theorem reset_quiet {e : Event} (hw : w ∈ e.writes fuel loc s) (he : IsReset e) : Quiet user s w := by
  obtain ⟨_, hsub, _, _, _, -, rfl⟩ := reset_writes hw he
  exact quiet_afterReset hsub rfl

/-! ## The condition -/

def Decides (s : Store) (user : Int) (sub : UserSubscription) : Prop :=
  sub.prevUserGroup ≠ "" ∧ sub.upgradeGroup = group s user

def LastToEnd (s : Store) (user id : Int) : Prop := ∀ sub ∈ s.subs, Runs user sub → sub.id = id

/-- The last end finds the user in the base group, or is decided by a row that remembers a group. -/
def EndsWell (base : String) (user : Int) (s : Store) (id : Int) : Prop :=
  ∀ sub, s.sub id = some sub → sub.userId = user → sub.upgradeGroup ≠ "" → LastToEnd s user id →
    group s user = base ∨ Decides s user sub

def Ended (user now : Int) (sub : UserSubscription) : Prop :=
  sub.userId = user ∧ sub.upgradeGroup ≠ "" ∧ (sub.status = .expired ∨ sub.dueAt now)

def EndedLast (s : Store) (user now : Int) (last : UserSubscription) : Prop :=
  last ∈ s.subs ∧ Ended user now last ∧ ∀ sub ∈ s.subs, Ended user now sub → EndsBefore sub last

def NoDowngrade (user : Int) (s : Store) : Event → Prop
  | .purchase userId planId _ _ => userId = user → ∀ plan, getSubscriptionPlanById s.plans planId = .ok plan →
      trimSpace plan.downgradeGroup = ""
  | _ => True

/-- Purchases upgrade from the base group or not at all, and what ends last brings the user back. -/
def ComesBack (loc : Location) (base : String) (user : Int) (s : Store) : Event → Prop
  | .purchase userId planId _ now => userId = user → ∀ plan, getSubscriptionPlanById s.plans planId = .ok plan →
      trimSpace plan.upgradeGroup ≠ "" →
      (group s user = base ∨ group s user = trimSpace plan.upgradeGroup) ∧
        ∀ endUnix, calcPlanEndTime loc now plan = .ok endUnix → 0 < endUnix
  | .expire userId now => userId = user → (∀ sub ∈ s.subs, Runs user sub → sub.dueAt now) →
      group s user = base ∨ ∃ last, EndedLast s user now last ∧ Decides s user last
  | .invalidate id _ => EndsWell base user s id
  | .delete id _ => EndsWell base user s id
  | _ => True

/-! ## Purchases -/

theorem purchase_quiet {planId : Int} {source : String}
    (hclaim : NoDowngrade user s (.purchase userId planId source now))
    (hplain : userId = user → ∀ plan, getSubscriptionPlanById s.plans planId = .ok plan →
      trimSpace plan.upgradeGroup = "")
    (hw : w ∈ (Event.purchase userId planId source now).writes fuel loc s) : Quiet user s w := by
  obtain ⟨_, hplan, ⟨_, _, rfl⟩ | ⟨hgroup, rfl⟩⟩ := mem_purchase hw
  · exact fun he => ⟨hplain he _ hplan, hclaim he _ hplan⟩
  · exact fun he => hgroup (hplain he _ hplan)

theorem purchase_tied {planId : Int} {source : String} (h : Tied base user s)
    (hvalid : Valid (s.step fuel loc (.purchase user planId source now)))
    (hclaim : NoDowngrade user s (.purchase user planId source now))
    (hok : ComesBack loc base user s (.purchase user planId source now)) :
    Tied base user (s.step fuel loc (.purchase user planId source now)) := by
  unfold Store.step at hvalid ⊢
  rcases purchase_writes fuel loc s user planId source now with hnil | ⟨plan, sub, hplan, hr⟩
  · rw [hnil]
    exact h
  by_cases hup : trimSpace plan.upgradeGroup = ""
  · refine quiet_tied h hvalid fun w hw => purchase_quiet hclaim ?_ hw
    intro _ plan' hplan'
    rw [hplan] at hplan'
    cases hplan'
    exact hup
  · obtain ⟨hfrom, hend⟩ := hok rfl plan hplan hup
    obtain ⟨endUnix, g, hcalc, hg, hnew, hwrites⟩ := purchase_spec hr
    obtain ⟨-, rfl⟩ := getUserGroupById_spec hg
    have hruns : Runs user sub := by
      rw [hnew]
      exact ⟨rfl, hup, rfl⟩
    have hrow : RowOk base sub := by
      rw [hnew]
      refine ⟨hclaim rfl plan hplan, fun _ => trimSpace_trimSpace _, fun _ => ?_, fun _ _ => hend endUnix hcalc⟩
      simp only [newSubscription]
      rcases hfrom with hbase | hsame
      · split
        · exact .inr hbase
        · exact .inl rfl
      · exact .inl (if_neg fun hmove => hmove.2 hsame)
    rw [hwrites, commit_append] at hvalid ⊢
    refine ⟨hvalid, ?_, ?_, ?_⟩
    · split
      · exact exists_setGroup h.exists_user _
      · exact h.exists_user
    · intro row hmem huser
      have hcases : row ∈ s.subs ∨ row = sub := by
        split at hmem
        all_goals
          rcases List.mem_append.mp hmem with hold | hlast
          · exact .inl hold
          · exact .inr (List.mem_singleton.mp hlast)
      rcases hcases with hold | rfl
      · exact h.rows row hold huser
      · exact hrow
    · intro hnone
      refine absurd ⟨sub, ?_, hruns⟩ hnone
      split
      all_goals exact List.mem_append_right _ List.mem_cons_self

/-! ## Endings -/

theorem target_eq_base (hbase : trimSpace base = base) (hrow : RowOk base sub) (hup : sub.upgradeGroup ≠ "")
    (hprev : trimSpace sub.prevUserGroup ≠ "") : trimSpace sub.prevUserGroup = base := by
  rcases hrow.prev hup with he | he
  · rw [he] at hprev
    exact absurd rfl hprev
  · rw [he]
    exact hbase

theorem downgrade_eq (sub : UserSubscription) (hbase : trimSpace base = base) (huser : sub.userId = user)
    (hup : sub.upgradeGroup ≠ "") (hrow : RowOk base sub)
    (h : downgradeUserGroupForSubscription s sub now = .ok (target, writes)) :
    (writes = [] ∨ writes = [.setGroup ⟨user, base⟩]) ∧
    ((∀ other ∈ s.subs, other.id ≠ sub.id → ¬ Runs user other) → Decides s user sub →
      writes = [.setGroup ⟨user, base⟩] ∨ group s user = base) := by
  have hdown : trimSpace sub.downgradeGroup = "" := by
    rw [hrow.downgrade]
    decide
  unfold downgradeUserGroupForSubscription at h
  simp only [hdown, hrow.trimmed hup, hup, and_false, if_false, true_and, if_true] at h
  split at h
  · cases h
  rename_i g hg
  rw [huser] at hg h
  obtain ⟨-, rfl⟩ := getUserGroupById_spec hg
  split at h
  · rename_i hactive
    cases h
    refine ⟨.inl rfl, ?_⟩
    intro hlast _
    obtain ⟨other, hother, hown, hact, hgroup⟩ := hactive
    obtain ⟨hmem, hne⟩ := List.mem_filter.mp hother
    exact absurd ⟨hown, hgroup, hact.1⟩ (hlast other hmem (of_decide_eq_true hne))
  · split at h
    · rename_i hne
      cases h
      exact ⟨.inl rfl, fun _ hdec => absurd hdec.2.symm hne⟩
    split at h
    · rename_i hnone
      cases h
      refine ⟨.inl rfl, ?_⟩
      intro _ hdec
      rcases hrow.prev hup with he | he
      · exact absurd he hdec.1
      rw [he, hbase] at hnone
      rcases hnone with hempty | hsame
      · exact absurd (he.trans hempty) hdec.1
      · exact .inr hsame.symm
    · rename_i hsome
      rw [not_or] at hsome
      cases h
      rw [target_eq_base hbase hrow hup hsome.1]
      exact ⟨.inr rfl, fun _ _ => .inl rfl⟩

theorem group_congr (h : t.users = s.users) : group t user = group s user := by
  unfold group
  rw [h]

theorem ending_tied (h : Tied base user s) (hvalid : Valid t)
    (hrows : ∀ row ∈ t.subs, row.userId = user → RowOk base row)
    (hgroup : t.users = s.users ∧ (¬ Running t user → group s user = base) ∨
      t.users = (s.write (.setGroup ⟨user, base⟩)).users) : Tied base user t := by
  refine ⟨hvalid, ?_, hrows, ?_⟩
  · rcases hgroup with ⟨he, -⟩ | he
    · rw [he]
      exact h.exists_user
    · rw [he]
      exact exists_setGroup h.exists_user _
  · intro hnone
    rcases hgroup with ⟨he, hback⟩ | he
    · rw [group_congr he]
      exact hback hnone
    · rw [group_congr he]
      exact group_setGroup h.exists_user base

theorem downgrade_plain (hdown : sub.downgradeGroup = "") (hup : sub.upgradeGroup = "")
    (h : downgradeUserGroupForSubscription s sub now = .ok (target, writes)) : writes = [] := by
  have hempty : trimSpace "" = "" := by decide
  unfold downgradeUserGroupForSubscription at h
  simp only [hdown, hup, hempty, and_self, if_true] at h
  cases h
  rfl

theorem downgrade_quiet {mid : Store} (hdown : sub.userId = user → sub.downgradeGroup = "")
    (hplain : sub.userId = user → sub.upgradeGroup = "")
    (h : downgradeUserGroupForSubscription mid sub now = .ok (target, writes)) (hw : w ∈ writes) : Quiet user s w := by
  by_cases huser : sub.userId = user
  · rw [downgrade_plain (hdown huser) (hplain huser) h] at hw
    cases hw
  rcases downgrade_spec h with rfl | rfl
  · cases hw
  · rw [List.mem_singleton.mp hw]
    exact huser

theorem back_of_decides {mid : Store} {ended : UserSubscription} (hok : EndsWell base user s id)
    (hsub : s.sub id = some sub) (huser : sub.userId = user) (hup : sub.upgradeGroup ≠ "")
    (hlast : LastToEnd s user id) (hgroup : group mid user = group s user)
    (hended : ended.prevUserGroup = sub.prevUserGroup ∧ ended.upgradeGroup = sub.upgradeGroup)
    (hdecides : Decides mid user ended → ([] : List Write) = [.setGroup ⟨user, base⟩] ∨ group mid user = base) :
    group s user = base := by
  rcases hok sub hsub huser hup hlast with hdone | hdec
  · exact hdone
  have hdec' : Decides mid user ended := by
    unfold Decides
    rw [hended.1, hended.2, hgroup]
    exact hdec
  rcases hdecides hdec' with hset | hgroup'
  · cases hset
  · exact hgroup.symm.trans hgroup'

section

variable (hbase : trimSpace base = base) (h : Tied base user s) (hok : EndsWell base user s id)
include hbase h hok

theorem invalidate_tied (hr : adminInvalidateUserSubscription s id now = .ok (target, writes))
    (hvalid : Valid (s.commit writes)) : Tied base user (s.commit writes) := by
  obtain ⟨sub, rest, hsub, hdown, rfl⟩ := invalidate_spec hr
  have hmem := mem_of_sub hsub
  have hid := id_of_sub hsub
  by_cases hplain : sub.userId = user → sub.upgradeGroup = ""
  · refine quiet_tied h hvalid ?_
    intro w hw
    rcases List.mem_cons.mp hw with rfl | hw
    · exact ⟨sub, hmem, rfl, rfl, fun hu => .inr ⟨hplain hu, hplain hu, rfl⟩⟩
    · exact downgrade_quiet (fun hu => (h.rows sub hmem hu).downgrade) hplain hdown hw
  obtain ⟨huser, hup⟩ := Classical.not_imp.mp hplain
  have hrow := h.rows sub hmem huser
  have hcancelled : RowOk base (cancelledAt sub now) :=
    ⟨hrow.downgrade, hrow.trimmed, hrow.prev, fun _ hst => by cases hst⟩
  obtain ⟨hwrites, hdecides⟩ := downgrade_eq (cancelledAt sub now) hbase huser hup hcancelled hdown
  have hsubs : (s.commit (.saveSub .status (cancelledAt sub now) :: rest)).subs =
      save UserSubscription.id s.subs (cancelledAt sub now) := by
    rcases hwrites with rfl | rfl <;> rfl
  refine ending_tied h hvalid ?_ ?_
  · intro row hrow' huser'
    rw [hsubs] at hrow'
    rcases mem_save hrow' with rfl | ⟨hold, -⟩
    · exact hcancelled
    · exact h.rows row hold huser'
  · rcases hwrites with rfl | rfl
    · refine .inl ⟨rfl, ?_⟩
      intro hnone
      -- Another running row would still be there.
      have hlast : LastToEnd s user id := by
        intro other hother hruns
        by_contra hne
        refine hnone ⟨other, ?_, hruns⟩
        rw [hsubs]
        exact mem_save_other hother fun he => hne (he.trans hid)
      refine back_of_decides hok hsub huser hup hlast rfl ⟨rfl, rfl⟩ (hdecides ?_)
      intro other hother hne hruns
      rcases mem_save hother with rfl | ⟨hold, -⟩
      · exact hne rfl
      · exact hne ((hlast other hold hruns).trans hid.symm)
    · exact .inr rfl

theorem delete_tied (hr : adminDeleteUserSubscription s id now = .ok (target, writes))
    (hvalid : Valid (s.commit writes)) : Tied base user (s.commit writes) := by
  obtain ⟨sub, rest, hsub, hdown, rfl⟩ := delete_spec hr
  have hmem := mem_of_sub hsub
  have hid := id_of_sub hsub
  by_cases hplain : sub.userId = user → sub.upgradeGroup = ""
  · refine quiet_tied h hvalid ?_
    intro w hw
    rcases List.mem_append.mp hw with hw | hw
    · exact downgrade_quiet (fun hu => (h.rows sub hmem hu).downgrade) hplain hdown hw
    rw [List.mem_singleton.mp hw]
    intro other hother he hu
    obtain rfl : other = sub := h.valid.eq_of_id hother hmem (he.trans hid.symm)
    exact hplain hu
  obtain ⟨huser, hup⟩ := Classical.not_imp.mp hplain
  have hrow := h.rows sub hmem huser
  obtain ⟨hwrites, hdecides⟩ := downgrade_eq sub hbase huser hup hrow hdown
  have hsubs : (s.commit (rest ++ [.deleteSub id])).subs = s.subs.filter fun x => x.id ≠ id := by
    rcases hwrites with rfl | rfl <;> rfl
  refine ending_tied h hvalid ?_ ?_
  · intro row hrow' huser'
    rw [hsubs] at hrow'
    exact h.rows row (List.mem_of_mem_filter hrow') huser'
  rcases hwrites with rfl | rfl
  · refine .inl ⟨rfl, ?_⟩
    intro hnone
    have hlast : LastToEnd s user id := by
      intro other hother hruns
      by_contra hne
      refine hnone ⟨other, ?_, hruns⟩
      rw [hsubs]
      exact List.mem_filter.mpr ⟨hother, decide_eq_true hne⟩
    refine back_of_decides hok hsub huser hup hlast rfl ⟨rfl, rfl⟩ (hdecides ?_)
    intro other hother hne hruns
    exact hne ((hlast other hother hruns).trans hid.symm)
  · exact .inr rfl

end

/-! ## Expiry -/

theorem markExpired_keys {w : Write} (hw : w ∈ markExpired s user now) : KeepsKeys w := by
  obtain ⟨_, -, -, -, rfl⟩ := mem_markExpired hw
  trivial

theorem mem_marked (h : row ∈ (s.commit (markExpired s user now)).subs) :
    row ∈ s.subs ∧ (row.userId = user → ¬ row.dueAt now) ∨
      ∃ sub ∈ s.subs, sub.userId = user ∧ sub.dueAt now ∧ row = { sub with status := .expired } := by
  rcases mem_commit_subs h with ⟨hold, hkeys⟩ | ⟨_, hsave⟩ | hnew
  · refine .inl ⟨hold, ?_⟩
    intro huser hdue
    have hmark : Write.saveSub .status { row with status := .expired } ∈ markExpired s user now :=
      List.mem_map.mpr ⟨row, List.mem_filter.mpr ⟨hold, decide_eq_true ⟨huser, hdue⟩⟩, rfl⟩
    exact hkeys _ _ hmark rfl
  · obtain ⟨sub, hsub, huser, hdue, he⟩ := mem_markExpired hsave
    cases he
    exact .inr ⟨sub, hsub, huser, hdue, rfl⟩
  · exact (markExpired_keys hnew).elim

theorem running_marked (hvalid : Valid s) (hsub : sub ∈ s.subs) (hruns : Runs user sub) (hdue : ¬ sub.dueAt now) :
    Running (s.commit (markExpired s user now)) user := by
  rcases sub_commit_saves (fun w hw => markExpired_keys hw) (hvalid.sub_eq hsub) with hrow | ⟨_, _, hrow, hid, -⟩
  · exact ⟨sub, mem_of_sub hrow, hruns⟩
  obtain ⟨old, hold, -, hold', he⟩ := mem_markExpired hrow
  cases he
  obtain rfl : old = sub := hvalid.eq_of_id hold hsub hid
  exact absurd hold' hdue

theorem marked_of_ended (hvalid : Valid s) (hsub : sub ∈ s.subs) (hended : Ended user now sub) :
    ∃ row ∈ (s.commit (markExpired s user now)).subs, row.status = .expired ∧ row.id = sub.id ∧
      row.endTime = sub.endTime ∧ row.userId = sub.userId ∧ row.upgradeGroup = sub.upgradeGroup ∧
      row.prevUserGroup = sub.prevUserGroup := by
  rcases sub_commit_saves (fun w hw => markExpired_keys hw) (hvalid.sub_eq hsub) with
    hrow | ⟨kind, row, hrow, hid, hstored⟩
  · rcases hended.2.2 with hst | hdue
    · exact ⟨sub, mem_of_sub hrow, hst, rfl, rfl, rfl, rfl, rfl⟩
    rcases mem_marked (mem_of_sub hrow) with ⟨-, hnot⟩ | ⟨old, hold, -, -, he⟩
    · exact absurd hdue (hnot hended.1)
    · have hst := congrArg UserSubscription.status he
      rw [hdue.1] at hst
      cases hst
  · obtain ⟨old, hold, -, -, he⟩ := mem_markExpired hrow
    cases he
    obtain rfl : old = sub := hvalid.eq_of_id hold hsub hid
    exact ⟨_, mem_of_sub hstored, rfl, rfl, rfl, rfl, rfl, rfl⟩

theorem ended_of_marked (h : Tied base user s) (hrow : row ∈ (s.commit (markExpired s user now)).subs)
    (hfound : row.userId = user ∧ row.status = .expired ∧ (row.downgradeGroup ≠ "" ∨ row.upgradeGroup ≠ "")) :
    ∃ sub ∈ s.subs, sub.id = row.id ∧ sub.endTime = row.endTime ∧
      (row.prevUserGroup = sub.prevUserGroup ∧ row.upgradeGroup = sub.upgradeGroup) ∧ Ended user now sub := by
  obtain ⟨huser, hst, hmoves⟩ := hfound
  rcases mem_marked hrow with ⟨hold, -⟩ | ⟨sub, hsub, hown, hdue, rfl⟩
  · have hup := hmoves.resolve_left fun hne => hne (h.rows row hold huser).downgrade
    exact ⟨row, hold, rfl, rfl, ⟨rfl, rfl⟩, huser, hup, .inl hst⟩
  · have hup := hmoves.resolve_left fun hne => hne (h.rows sub hsub hown).downgrade
    exact ⟨sub, hsub, rfl, rfl, ⟨rfl, rfl⟩, hown, hup, .inr hdue⟩

theorem latest_spec {subs : List UserSubscription} (h : latest subs = some last) :
    last ∈ subs ∧ ∀ sub ∈ subs, EndsBefore sub last := by
  have hsorted := endsBefore_sorted subs
  obtain ⟨_, hfront⟩ := List.getLast?_eq_some_iff.mp h
  rw [hfront] at hsorted
  constructor
  · rw [← List.mem_insertionSort EndsBefore, hfront]
    exact List.mem_append_right _ List.mem_cons_self
  intro sub hsub
  rw [← List.mem_insertionSort EndsBefore, hfront] at hsub
  rcases List.mem_append.mp hsub with hsub | hsub
  · exact (List.pairwise_append.mp hsorted).2.2 sub hsub last List.mem_cons_self
  · rw [List.mem_singleton.mp hsub]
    exact .inr ⟨rfl, Int.le_refl _⟩

theorem lastExpired_spec (h : lastExpired s user = some last) :
    last ∈ s.subs ∧ last.userId = user ∧ (last.downgradeGroup ≠ "" ∨ last.upgradeGroup ≠ "") := by
  have hmem := (latest_spec h).1
  rw [List.mem_filter, decide_eq_true_eq] at hmem
  exact ⟨hmem.1, hmem.2.1, hmem.2.2.2⟩

theorem lastExpired_marked (h : Tied base user s) (hlast : EndedLast s user now last) :
    ∃ row, lastExpired (s.commit (markExpired s user now)) user = some row ∧
      row.prevUserGroup = last.prevUserGroup ∧ row.upgradeGroup = last.upgradeGroup := by
  obtain ⟨hmem, hended, hbefore⟩ := hlast
  obtain ⟨row, hrow, hst, hid, hend, huser, hup, -⟩ := marked_of_ended h.valid hmem hended
  have hin : row ∈ (s.commit (markExpired s user now)).subs.filter fun sub => sub.userId = user ∧
      sub.status = .expired ∧ (sub.downgradeGroup ≠ "" ∨ sub.upgradeGroup ≠ "") := by
    rw [List.mem_filter, decide_eq_true_eq]
    exact ⟨hrow, huser.trans hended.1, hst, .inr (hup ▸ hended.2.1)⟩
  cases hfound : lastExpired (s.commit (markExpired s user now)) user with
  | none =>
    have hnil := List.getLast?_eq_none_iff.mp hfound
    rw [← List.mem_insertionSort EndsBefore, hnil] at hin
    cases hin
  | some found =>
    obtain ⟨hfoundMem, hmax⟩ := latest_spec hfound
    have hafter := hmax row hin
    rw [List.mem_filter, decide_eq_true_eq] at hfoundMem
    obtain ⟨old, hold, hoid, hoend, hosame, hoended⟩ := ended_of_marked h hfoundMem.1 hfoundMem.2
    -- The row found and `last` are each at least as late as the other.
    have hle := hbefore old hold hoended
    have hkey : old.id = last.id := by
      unfold EndsBefore at hle hafter
      omega
    obtain rfl : old = last := h.valid.eq_of_id hold hmem hkey
    exact ⟨found, rfl, hosame⟩

theorem expiryTarget_eq {g : String} (hbase : trimSpace base = base) (hrow : RowOk base sub)
    (hup : sub.upgradeGroup ≠ "") : (expiryTarget sub g = "" ∨ expiryTarget sub g = base) ∧
      (sub.prevUserGroup ≠ "" → sub.upgradeGroup = g → expiryTarget sub g = base) := by
  have hdown : trimSpace sub.downgradeGroup = "" := by
    rw [hrow.downgrade]
    decide
  unfold expiryTarget
  rw [if_neg (not_not_intro hdown), hrow.trimmed hup]
  rcases hrow.prev hup with hprev | hprev
  · rw [if_pos (Or.inr (by rw [hprev]; decide))]
    exact ⟨.inl rfl, fun hne => absurd hprev hne⟩
  rw [hprev, hbase]
  by_cases hempty : base = ""
  · rw [if_pos (Or.inr hempty)]
    exact ⟨.inl rfl, fun _ _ => hempty.symm⟩
  rw [if_neg (not_or.mpr ⟨hup, hempty⟩)]
  split
  · rename_i hne
    exact ⟨.inl rfl, fun _ he => absurd he.symm hne⟩
  · exact ⟨.inr rfl, fun _ _ => rfl⟩

theorem expire_eq (hbase : trimSpace base = base)
    (hrows : ∀ row ∈ (s.commit (markExpired s user now)).subs, row.userId = user → RowOk base row)
    (h : expireUserSubscriptions s user now = .ok writes) :
    (writes = markExpired s user now ∨ writes = markExpired s user now ++ [.setGroup ⟨user, base⟩]) ∧
    (¬ Running (s.commit (markExpired s user now)) user →
      (∃ last, lastExpired (s.commit (markExpired s user now)) user = some last ∧
        Decides (s.commit (markExpired s user now)) user last) →
      writes = markExpired s user now ++ [.setGroup ⟨user, base⟩] ∨
        group (s.commit (markExpired s user now)) user = base) := by
  unfold expireUserSubscriptions at h
  dsimp only at h
  split at h
  · rename_i hactive
    cases h
    refine ⟨.inl rfl, ?_⟩
    intro hnone _
    obtain ⟨sub, hsub, huser, hact, hup⟩ := hactive
    exact absurd ⟨sub, hsub, huser, hup, hact.1⟩ hnone
  · split at h
    · rename_i hlast
      cases h
      refine ⟨.inl rfl, ?_⟩
      rintro _ ⟨last, hsome, -⟩
      rw [hlast] at hsome
      cases hsome
    · cases h
    rename_i last g hlast hg
    obtain ⟨-, rfl⟩ := getUserGroupById_spec hg
    obtain ⟨hmem, huser, hmoves⟩ := lastExpired_spec hlast
    have hrow := hrows last hmem huser
    have hup : last.upgradeGroup ≠ "" := hmoves.resolve_left fun hne => hne hrow.downgrade
    obtain ⟨htarget, hdecides⟩ := expiryTarget_eq (g := group (s.commit (markExpired s user now)) user) hbase hrow hup
    split at h
    · rename_i hnone
      cases h
      refine ⟨.inl rfl, ?_⟩
      rintro - ⟨_, hsome, hdec⟩
      rw [hlast] at hsome
      cases hsome
      -- An empty target is the base only if the row remembers the empty group.
      have hto := hdecides hdec.1 hdec.2
      have hne : base ≠ "" := fun hb => hdec.1 ((hrow.prev hup).elim id fun he => he.trans hb)
      rw [hto] at hnone
      exact .inr (hnone.resolve_left hne).symm
    · rename_i hsome
      cases h
      rw [htarget.resolve_left fun he => hsome (.inl he)]
      exact ⟨.inr rfl, fun _ _ => .inl rfl⟩

theorem users_marked : (s.commit (markExpired s user now)).users = s.users := by
  have hsaves : ∀ (ws : List Write) (t : Store), (∀ w ∈ ws, ∃ sub, w = .saveSub .status sub) →
      (t.commit ws).users = t.users := by
    intro ws
    induction ws with
    | nil => intro t _; rfl
    | cons w ws ih =>
      intro t ht
      obtain ⟨sub, rfl⟩ := ht w List.mem_cons_self
      rw [commit_cons, ih _ fun x hx => ht x (List.mem_cons_of_mem _ hx)]
      rfl
  refine hsaves _ _ ?_
  intro w hw
  obtain ⟨_, -, -, -, rfl⟩ := mem_markExpired hw
  exact ⟨_, rfl⟩

theorem rows_marked (h : Tied base user s) :
    ∀ row ∈ (s.commit (markExpired s user now)).subs, row.userId = user → RowOk base row := by
  intro row hrow huser
  rcases mem_marked hrow with ⟨hold, -⟩ | ⟨sub, hsub, hown, -, rfl⟩
  · exact h.rows row hold huser
  · have hok := h.rows sub hsub hown
    exact ⟨hok.downgrade, hok.trimmed, hok.prev, fun _ hst => by cases hst⟩

theorem expire_tied (hbase : trimSpace base = base) (h : Tied base user s)
    (hok : ComesBack loc base user s (.expire userId now)) (hr : expireUserSubscriptions s userId now = .ok writes)
    (hvalid : Valid (s.commit writes)) : Tied base user (s.commit writes) := by
  by_cases hmine : userId = user
  · subst hmine
    obtain ⟨hwrites, hdecides⟩ := expire_eq hbase (rows_marked h) hr
    have hsubs : (s.commit writes).subs = (s.commit (markExpired s userId now)).subs := by
      rcases hwrites with rfl | rfl
      · rfl
      · rw [commit_append]
        rfl
    refine ending_tied h hvalid ?_ ?_
    · rw [hsubs]
      exact rows_marked h
    rcases hwrites with rfl | rfl
    · refine .inl ⟨users_marked, ?_⟩
      intro hnone
      have hdue : ∀ sub ∈ s.subs, Runs userId sub → sub.dueAt now := by
        intro sub hsub hruns
        by_contra hnot
        exact hnone (running_marked h.valid hsub hruns hnot)
      rcases hok rfl hdue with hgroup | ⟨last, hlast, hdec⟩
      · exact hgroup
      obtain ⟨row, hrow, hprev, hup⟩ := lastExpired_marked h hlast
      have hdec' : Decides (s.commit (markExpired s userId now)) userId row := by
        unfold Decides
        rw [hprev, hup, group_congr users_marked]
        exact hdec
      rcases hdecides hnone ⟨row, hrow, hdec'⟩ with hset | hgroup
      · exact absurd (congrArg List.length hset) (by simp)
      · rw [← hgroup, group_congr users_marked]
    · refine .inr ?_
      rw [commit_append]
      exact congrArg (fun users => save User.id users ⟨userId, base⟩) users_marked
  · refine quiet_tied h hvalid ?_
    intro w hw
    have hmark : w ∈ markExpired s userId now → Quiet user s w := by
      intro hw
      obtain ⟨sub, hsub, huser, -, rfl⟩ := mem_markExpired hw
      exact ⟨sub, hsub, rfl, rfl, fun hu => absurd (huser.symm.trans hu) hmine⟩
    rcases expire_spec hr with rfl | ⟨_, g, -, -, -, -, rfl⟩
    · exact hmark hw
    rcases List.mem_append.mp hw with hw | hw
    · exact hmark hw
    · rw [List.mem_singleton.mp hw]
      exact hmine

/-! ## Whole histories -/

theorem tied_of_committed {r : Except Error (List Write)} (h : Tied base user s)
    (hvalid : Valid (s.commit (committed r)))
    (hok : ∀ writes, r = .ok writes → Valid (s.commit writes) → Tied base user (s.commit writes)) :
    Tied base user (s.commit (committed r)) := by
  cases r with
  | ok writes => exact hok writes rfl hvalid
  | error => exact h

theorem step_tied (e : Event) (hbase : trimSpace base = base) (h : Tied base user s)
    (hclaim : NoDowngrade user s e) (hok : ComesBack loc base user s e) : Tied base user (s.step fuel loc e) := by
  have hvalid : Valid (s.step fuel loc e) := step_valid e h.valid
  have hquiet (hw : ∀ w ∈ e.writes fuel loc s, Quiet user s w) : Tied base user (s.step fuel loc e) :=
    quiet_tied h hvalid hw
  cases e with
  | purchase userId =>
    by_cases hmine : userId = user
    · subst hmine
      exact purchase_tied h hvalid hclaim hok
    · exact hquiet fun w hw => purchase_quiet hclaim (fun he => absurd he hmine) hw
  | preConsume =>
    refine hquiet fun w hw => ?_
    obtain ⟨writes, hr, hw⟩ := mem_committed hw
    obtain ⟨_, hr⟩ := map_eq_ok hr
    exact preConsume_quiet hr hw
  | delta =>
    refine hquiet fun w hw => ?_
    obtain ⟨writes, hr, hw⟩ := mem_committed hw
    exact delta_quiet hr hw
  | refund => exact hquiet fun w hw => refund_quiet hw
  | resetDue | resetUser | resetPlan => exact hquiet fun w hw => reset_quiet hw trivial
  | expire =>
    exact tied_of_committed h hvalid fun writes hr hvalid => expire_tied hbase h hok hr hvalid
  | invalidate =>
    refine tied_of_committed h hvalid fun writes hr hvalid => ?_
    obtain ⟨target, hr⟩ := map_eq_ok hr
    exact invalidate_tied hbase h hok hr hvalid
  | delete =>
    refine tied_of_committed h hvalid fun writes hr hvalid => ?_
    obtain ⟨_, hr⟩ := map_eq_ok hr
    exact delete_tied hbase h hok hr hvalid

/-- The user is in the base group, and no row names a group. -/
structure Start (base : String) (user : Int) (s : Store) : Prop where
  valid : Valid s
  account : lookup User.id s.users user = some ⟨user, base⟩
  rows : ∀ sub ∈ s.subs, sub.userId = user → sub.upgradeGroup = "" ∧ sub.downgradeGroup = ""

theorem Start.tied (h : Start base user s) : Tied base user s := by
  refine ⟨h.valid, ⟨_, h.account⟩, ?_, ?_⟩
  · intro sub hsub huser
    obtain ⟨hup, hdown⟩ := h.rows sub hsub huser
    exact .plain hdown hup
  intro _
  unfold group
  rw [h.account]
  rfl

def Restored (base : String) (user : Int) (s : Store) : Prop :=
  ∀ now, (∀ sub ∈ s.subs, sub.userId = user → sub.upgradeGroup ≠ "" → ¬ sub.activeAt now) →
    (∀ sub ∈ s.subs, sub.userId = user → ¬ sub.dueAt now) → group s user = base

theorem Tied.back (h : Tied base user s) : Restored base user s := by
  intro now hactive hdue
  refine h.restored ?_
  rintro ⟨sub, hsub, huser, hup, hst⟩
  have hend := (h.rows sub hsub huser).ends hup hst
  -- An active row with an end is either active now or due now.
  by_cases hnow : now < sub.endTime
  · exact hactive sub hsub huser hup ⟨hst, hnow⟩
  · exact hdue sub hsub huser ⟨hst, hend, by omega⟩

theorem group_is_restored (fuel : Nat) (loc : Location) (base : String) (user : Int) (s t : Store) (es : List Event)
    (hbase : trimSpace base = base) (hs : Start base user s)
    (h : Steps (fun s e => some (s.step fuel loc e))
      (fun s e => NoDowngrade user s e ∧ ComesBack loc base user s e) s es t) : Restored base user t := by
  refine (h.invariant ?_ hs.tied).back
  intro s e t hok hinv hstep
  cases hstep
  exact step_tied e hbase hinv hok.1 hok.2

def vipStore : Store where
  plans := [{ samplePlan .never 0 with id := 1, upgradeGroup := "vip" }]
  subs := []
  nextSubId := 1
  records := []
  users := [⟨1, "default"⟩]

theorem vipStore_start : Start "default" 1 vipStore where
  valid := ⟨by decide, by decide, by decide, by intro sub hsub; cases hsub⟩
  account := by rfl
  rows := by
    intro sub hsub
    cases hsub

theorem vip_noDowngrade {s : Store} (hplans : s.plans = vipStore.plans) (user : Int) (source : String) (now : Int) :
    NoDowngrade 1 s (.purchase user 1 source now) := by
  intro _ plan hplan
  rw [hplans] at hplan
  cases hplan
  decide

/-- The renewal finds the user in `vip` and remembers nothing. -/
theorem renewal_keeps_group :
    Start "default" 1 vipStore ∧
    ∃ t, Steps (fun s e => some (s.step 0 (.fixed 0) e)) (NoDowngrade 1) vipStore
        [.purchase 1 1 "order" 1700000000, .purchase 1 1 "order" 1701000000,
          .expire 1 1702592000, .expire 1 1710000000] t ∧
      group t 1 = "vip" ∧ ¬ Restored "default" 1 t := by
  refine ⟨vipStore_start, _, .more (vip_noDowngrade rfl 1 "order" 1700000000) rfl
    (.more (vip_noDowngrade rfl 1 "order" 1701000000) rfl
      (.more trivial rfl (.more trivial rfl (.done _)))), by decide, ?_⟩
  intro h
  exact absurd (h 1710000000 (by decide) (by decide)) (by decide)

theorem group_is_restored_after_a_month :
    ∃ t, Steps (fun s e => some (s.step 0 (.fixed 0) e))
        (fun s e => NoDowngrade 1 s e ∧ ComesBack (.fixed 0) "default" 1 s e) vipStore
        [.purchase 1 1 "order" 1700000000, .expire 1 1702592000] t ∧ Restored "default" 1 t := by
  have hrun : ∃ t, Steps (fun s e => some (s.step 0 (.fixed 0) e))
      (fun s e => NoDowngrade 1 s e ∧ ComesBack (.fixed 0) "default" 1 s e) vipStore
      [.purchase 1 1 "order" 1700000000, .expire 1 1702592000] t := by
    refine ⟨_, .more ⟨vip_noDowngrade rfl 1 "order" 1700000000, ?_⟩ rfl (.more ⟨trivial, ?_⟩ rfl (.done _))⟩
    · intro _ plan hplan _
      cases hplan
      refine ⟨.inl (by decide), ?_⟩
      intro endUnix hend
      cases hend
      decide
    · intro _ _
      refine .inr ⟨_, ⟨List.mem_cons_self, ⟨by decide, by decide, by decide⟩, ?_⟩, by decide, by decide⟩
      intro sub hsub _
      rw [List.mem_singleton.mp hsub]
      decide
  obtain ⟨t, ht⟩ := hrun
  exact ⟨t, ht, group_is_restored 0 (.fixed 0) "default" 1 vipStore t _ (by decide) vipStore_start ht⟩

end NewApi.Restore

