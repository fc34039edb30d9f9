import NewApi.Auth.UserCache

/-!
# The group in the cache

A change of the group keeps the version, so no fence orders the writes of it.
-/

namespace NewApi.Auth.GroupCache

open Calls Run Code.UserAuthCache

/-- Answers of accesses that have not written the group of the row. -/
def Silent (group : String) : (op : Op) → Ans op → Prop
  | .find, r => ∀ row, r = .ok row → row.group = group
  | .updateField .group value _, r => value = group → r ≠ some true
  | _, _ => True

/-- No return without an error before the group is written. -/
def Mends (group : String) : Call Answer → Prop
  | .done a => a ≠ .unit (.ok ())
  | .access op next => ∀ r, Silent group op r → Mends group (next r)

def Fit (cfg : Settings) (version : Int) (name : Name) : (op : Op) → (Ans op → Call Answer) → Prop
  | .find, _ | .hGetAll, _ | .mGet, _ => True
  | .writeUserCache user _, _ => cfg.redisEnabled = true ∧ user.authVersion = version
  | .updateField field value authVersion, next =>
    name = .refreshUserGroupCache ∧ cfg.redisEnabled = true ∧ field = .group ∧ authVersion = version ∧
      ∀ group, value ≠ group → ∀ r, Mends group (next r)
  | _, _ => False

def Answered (version : Int) : (op : Op) → Ans op → Prop
  | .find, r => ∀ row, r = .ok row → row.authVersion = version
  | _, _ => True

def Sound (cfg : Settings) (version : Int) (name : Name) : Call Answer → Prop
  | .done _ => True
  | .access op next => Fit cfg version name op next ∧ ∀ r, Answered version op r → Sound cfg version name (next r)

variable {cfg : Settings} {version : Int} {name : Name} {user : User} {group : String}

/-! ## The calls -/

def refreshing (cfg : Settings) (user : User) (attempts : Nat) : Call Answer :=
  (refreshLoop cfg user attempts).bind fun r => .done (.unit r)

/-- The rest of a refresh, once the script has answered. -/
def written (cfg : Settings) (user : User) (attempts : Nat) : Option Bool → Call Answer
  | none => .done (.unit (.error .redis))
  | some false => .done (.unit (.error .pending))
  | some true =>
    match attempts with
    | 0 => .done (.unit (.error .changedRepeatedly))
    | attempts + 1 => .access .find fun
      | .error e => .done (.unit (.error e))
      | .ok verified =>
        if verified.authVersion = user.authVersion ∧ verified.group = user.group then .done (.unit (.ok ()))
        else refreshing cfg verified attempts

section

variable (hredis : cfg.redisEnabled = true)
include hredis

theorem refreshing_eq (attempts : Nat) :
    refreshing cfg user attempts = if cfg.userId ≤ 0 ∨ user.authVersion ≤ 0 then .done (.unit (.error .invalid))
      else .access (.updateField .group user.group user.authVersion) (written cfg user attempts) := by
  unfold refreshing
  cases attempts with
  | zero =>
    simp only [refreshLoop, updateUserCacheFieldAtVersion, hredis, not_true_eq_false, if_false]
    split
    · rfl
    refine congrArg (Prog.access _) (funext fun r => ?_)
    rcases r with _ | _ | _ <;> rfl
  | succ =>
    simp only [refreshLoop, updateUserCacheFieldAtVersion, hredis, not_true_eq_false, if_false]
    split
    · rfl
    refine congrArg (Prog.access _) (funext fun r => ?_)
    rcases r with _ | _ | _
    · rfl
    · rfl
    refine congrArg (Prog.access _) (funext fun r => ?_)
    rcases r with e | _
    · rfl
    dsimp only
    split <;> rfl

theorem written_mends (hgroup : user.group ≠ group) (attempts : Nat) (r : Option Bool) :
    Mends group (written cfg user attempts r) := by
  induction attempts generalizing user r with
  | zero => rcases r with _ | _ | _ <;> simp [written, Mends]
  | succ =>
    rcases r with _ | _ | _
    · simp [written, Mends]
    · simp [written, Mends]
    intro r hr
    rcases r with e | verified
    · simp [Mends]
    have hverified : verified.group = group := hr verified rfl
    dsimp only
    rw [if_neg fun h => hgroup (h.2.symm.trans hverified), refreshing_eq hredis]
    split
    · simp [Mends]
    · intro r hr
      rcases r with _ | _ | _
      · simp [written, Mends]
      · simp [written, Mends]
      · exact absurd rfl (hr hverified)

theorem refreshing_mends (attempts : Nat) : Mends group (refreshing cfg user attempts) := by
  rw [refreshing_eq hredis]
  split
  · simp [Mends]
  intro r hr
  by_cases hgroup : user.group = group
  · rcases r with _ | _ | _
    · simp [written, Mends]
    · simp [written, Mends]
    · exact absurd rfl (hr hgroup)
  · exact written_mends hredis hgroup attempts r

theorem refreshing_sound (huser : user.authVersion = version) (attempts : Nat) :
    Sound cfg version .refreshUserGroupCache (refreshing cfg user attempts) := by
  induction attempts using Nat.strong_induction_on generalizing user with
  | _ attempts ih =>
    rw [refreshing_eq hredis]
    split
    · trivial
    refine ⟨⟨rfl, hredis, rfl, huser, fun group hgroup r => written_mends hredis hgroup _ r⟩, fun r _ => ?_⟩
    rcases r with _ | _ | _
    · trivial
    · trivial
    cases attempts with
    | zero => trivial
    | succ attempts =>
      refine ⟨trivial, fun r hr => ?_⟩
      rcases r with e | verified
      · trivial
      dsimp only
      split
      · trivial
      · exact ih attempts (Nat.lt_succ_self _) (hr verified rfl)

theorem refresh_cases : body cfg .refreshUserGroupCache = .done (.unit (.error .invalid)) ∨
      body cfg .refreshUserGroupCache = .access .find fun
        | .error e => .done (.unit (.error e))
        | .ok user => refreshing cfg user 3 := by
  simp only [body, refreshUserGroupCache, hredis, not_true_eq_false, if_false]
  split
  · exact .inl rfl
  · refine .inr (congrArg (Prog.access _) (funext fun r => ?_))
    rcases r with e | _ <;> rfl

theorem refresh_mends : Mends group (body cfg .refreshUserGroupCache) := by
  rcases refresh_cases hredis with h | h
  · simp [h, Mends]
  rw [h]
  intro r _
  rcases r with e | _
  · simp [Mends]
  · exact refreshing_mends hredis 3

end

theorem refresh_sound : Sound cfg version .refreshUserGroupCache (body cfg .refreshUserGroupCache) := by
  by_cases hredis : cfg.redisEnabled = true
  · rcases refresh_cases hredis with h | h
    · simp [h, Sound]
    rw [h]
    refine ⟨trivial, fun r hr => ?_⟩
    rcases r with e | user
    · trivial
    · exact refreshing_sound hredis (hr user rfl) 3
  · simp [body, refreshUserGroupCache, hredis, Prog.bind, Sound]

/-! A reader. -/

theorem Sound.bind {α : Type} {p : Call α} {f : α → Call Answer} (hp : p.All fun op => op = .hGetAll ∨ op = .mGet)
    (hf : ∀ a, Sound cfg version name (f a)) : Sound cfg version name (p.bind f) := by
  induction p with
  | done a => exact hf a
  | access op next ih =>
    refine ⟨?_, fun r _ => ih r (hp.2 r)⟩
    rcases hp.1 with rfl | rfl <;> trivial

theorem getUserAuthVersionFloor_all : (getUserAuthVersionFloor cfg).All fun op => op = .hGetAll ∨ op = .mGet := by
  unfold getUserAuthVersionFloor
  split
  · trivial
  · refine ⟨.inr rfl, fun r => ?_⟩
    rcases r with _ | _ <;> trivial

theorem cacheGetUserBase_all : (cacheGetUserBase cfg).All fun op => op = .hGetAll ∨ op = .mGet := by
  unfold cacheGetUserBase
  split
  · trivial
  refine ⟨.inl rfl, fun r => ?_⟩
  rcases r with _ | _
  · trivial
  dsimp only
  split
  · trivial
  refine Prog.All.bind getUserAuthVersionFloor_all fun r => ?_
  rcases r with e | _ <;> trivial

theorem populate_sound (huser : user.authVersion = version) {f : Except CacheError Unit → Call Answer}
    (hf : ∀ r, Sound cfg version name (f r)) : Sound cfg version name ((populateUserCache cfg user).bind f) := by
  unfold populateUserCache writeUserCache
  split
  · exact hf _
  rename_i hredis
  split
  · exact hf _
  split
  · exact hf _
  refine ⟨⟨not_not.mp hredis, huser⟩, fun r _ => ?_⟩
  rcases r with _ | _ | _ <;> exact hf _

theorem reader_sound : Sound cfg version .getUserCache (body cfg .getUserCache) := by
  have hdatabase : Sound cfg version .getUserCache ((getUserFromDatabase cfg).bind fun r => .done (.user r)) := by
    unfold getUserFromDatabase getUserById
    split
    · trivial
    refine ⟨trivial, fun r hr => ?_⟩
    rcases r with e | user
    · trivial
    simp only [Prog.bind]
    split
    · trivial
    rw [Prog.bind_assoc]
    refine Sound.bind getUserAuthVersionFloor_all fun floor => ?_
    split
    · trivial
    rw [Prog.bind_assoc]
    refine populate_sound (hr user rfl) fun r => ?_
    split <;> trivial
  unfold body getUserCache
  rw [Prog.bind_assoc]
  refine Sound.bind cacheGetUserBase_all fun r => ?_
  rcases r with e | _
  · exact hdatabase
  · trivial

/-! ## One access -/

variable {call : Nat} {fails : Bool} {s t : Store}

theorem act_find {r : Ans .find} (h : act cfg call .find fails s = some (r, t)) :
    (t.row = s.row ∧ t.cached = s.cached) ∧ ∀ row, r = .ok row → s.row = some row := by
  unfold act at h
  cases fails with
  | true =>
    cases h
    exact ⟨⟨rfl, rfl⟩, fun row hrow => by cases hrow⟩
  | false =>
    simp only [Bool.false_eq_true, if_false] at h
    split at h
    · cases h
      exact ⟨⟨rfl, rfl⟩, fun row hrow => by cases hrow⟩
    · rename_i found hfound
      cases h
      refine ⟨⟨rfl, rfl⟩, fun row hrow => ?_⟩
      cases hrow
      exact (UserCache.find_ok hfound).1

theorem act_hGetAll {r : Ans .hGetAll} (h : act cfg call .hGetAll fails s = some (r, t)) :
    t.row = s.row ∧ t.cached = s.cached := by
  unfold act at h
  cases fails with
  | true =>
    cases h
    exact ⟨rfl, rfl⟩
  | false =>
    simp only [Bool.false_eq_true, if_false] at h
    split at h <;> cases h <;> exact ⟨rfl, rfl⟩

theorem act_writeUserCache {user : UserBase} {includeQuota : Bool} {r : Ans (.writeUserCache user includeQuota)}
    (h : act cfg call (.writeUserCache user includeQuota) fails s = some (r, t)) :
    t.row = s.row ∧ ∀ u ∈ t.cached, u ∈ s.cached ∨ u.group = user.group ∧ u.authVersion = user.authVersion := by
  obtain rfl : (act cfg call (.writeUserCache user includeQuota) fails s).elim s Prod.snd = t := by rw [h]; rfl
  unfold act
  cases fails with
  | true => exact ⟨rfl, fun u hu => .inl hu⟩
  | false =>
    simp only [Bool.false_eq_true, if_false, Option.elim_some]
    unfold Store.writeUserCache
    split
    · exact ⟨rfl, fun u hu => .inl hu⟩
    rename_i hadmitted
    obtain ⟨-, -, rfl⟩ := UserCache.admit_eq_some hadmitted
    split
    · exact ⟨rfl, fun u hu => .inl hu⟩
    refine ⟨rfl, fun u hu => .inr ?_⟩
    obtain ⟨x, hx, -⟩ := UserCache.cached_eq_some hu
    cases hx
    exact ⟨rfl, rfl⟩

theorem act_updateField {value : String} {r : Ans (.updateField .group value version)}
    (h : act cfg call (.updateField .group value version) fails s = some (r, t)) :
    t.row = s.row ∧ ∀ u ∈ t.cached, u ∈ s.cached ∧ (r = some true → u.authVersion ≠ version) ∨
      u.group = value ∧ u.authVersion = version := by
  unfold act at h
  cases fails with
  | true =>
    cases h
    exact ⟨rfl, fun u hu => .inl ⟨hu, fun hr => by cases hr⟩⟩
  | false =>
    simp only [Bool.false_eq_true, if_false] at h
    unfold Store.updateField at h
    split at h
    · cases h
      exact ⟨rfl, fun u hu => .inl ⟨hu, fun hr => by cases hr⟩⟩
    rename_i hadmitted
    obtain ⟨-, -, rfl⟩ := UserCache.admit_eq_some hadmitted
    split at h
    · rename_i user hhash hcached
      split at h
      · rename_i hversion
        cases h
        refine ⟨rfl, fun u hu => .inl ⟨hu, fun _ => ?_⟩⟩
        obtain rfl : user = u := Option.some.inj (hcached.symm.trans hu)
        exact hversion
      · rename_i hversion
        cases h
        refine ⟨rfl, fun u hu => .inr ?_⟩
        obtain ⟨x, hx, -⟩ := UserCache.cached_eq_some hu
        cases hx
        exact ⟨rfl, not_not.mp hversion⟩
    · rename_i hnone
      cases h
      refine ⟨rfl, fun u hu => ?_⟩
      obtain ⟨x, hx, -⟩ := UserCache.cached_eq_some (s := s) hu
      exact absurd hu (hnone _ x u hx)

/-! ## The system -/

abbrev Readers := System Store Name Op Ans Answer

abbrev Happening := Event Name Bool Outside

def Agrees (s : Store) : Prop := ∀ user ∈ s.cached, ∀ row ∈ s.row, user.group = row.group

def Mended (s : Readers) : Prop :=
  ∃ p, (.refreshUserGroupCache, p) ∈ s.calls ∧ ∀ row ∈ s.store.row, Mends row.group p

structure Good (cfg : Settings) (version : Int) (s : Readers) : Prop where
  row : ∀ row ∈ s.store.row, row.authVersion = version
  cached : ∀ user ∈ s.store.cached, user.authVersion = version
  disabled : cfg.redisEnabled = false → s.store.cached = none
  calls : ∀ c ∈ s.calls, Sound cfg version c.1 c.2

variable {s t : Readers} {store : Store} {op : Op} {next : Ans op → Call Answer} {r : Ans op}

theorem Mended.access (h : Mended s) (hcall : s.calls[call]? = some (name, .access op next))
    (hrow : store.row = s.store.row) (hsilent : ∀ row ∈ s.store.row, Silent row.group op r) :
    Mended ⟨store, s.calls.set call (name, next r)⟩ := by
  obtain ⟨p, hp, hmends⟩ := h
  obtain ⟨i, hi⟩ := List.mem_iff_getElem?.mp hp
  by_cases hic : call = i
  · subst hic
    cases hcall.symm.trans hi
    refine ⟨next r, List.mem_set (List.getElem?_eq_some_iff.mp hi).1 _, fun row hr => ?_⟩
    rw [hrow] at hr
    exact hmends row hr r (hsilent row hr)
  · refine ⟨p, List.mem_of_getElem? (i := i) ?_, by rwa [hrow]⟩
    rw [List.getElem?_set_ne hic]
    exact hi

/-- An access that is not silent leaves the cache in agreement or mended. -/
structure Outcome (cfg : Settings) (version : Int) (s store : Store) (op : Op) (next : Ans op → Call Answer) (name : Name)
    (r : Ans op) : Prop where
  row : store.row = s.row
  cached : ∀ user ∈ store.cached, user.authVersion = version
  disabled : cfg.redisEnabled = false → store.cached = none
  answered : Answered version op r
  agrees : Agrees s → Agrees store ∨ name = .refreshUserGroupCache ∧ ∀ row ∈ s.row, Mends row.group (next r)
  silent : (∀ row ∈ s.row, Silent row.group op r) ∨ Agrees store

theorem Outcome.of_same (h : Good cfg version s) (hsame : store.row = s.store.row ∧ store.cached = s.store.cached)
    (hanswered : Answered version op r) (hsilent : ∀ row ∈ s.store.row, Silent row.group op r) :
    Outcome cfg version s.store store op next name r := by
  obtain ⟨hrow, hcached⟩ := hsame
  refine ⟨hrow, by rw [hcached]; exact h.cached, by rw [hcached]; exact h.disabled, hanswered, fun hagrees => .inl ?_,
    .inl hsilent⟩
  unfold Agrees
  rw [hrow, hcached]
  exact hagrees

/-- A reader that fills the cache still has the group of the row. -/
def Current (s : Store) : Op → Prop
  | .writeUserCache user _ => ∀ row ∈ s.row, user.group = row.group
  | _ => True

section

variable (h : Good cfg version s) (hcall : s.calls[call]? = some (name, .access op next))
  (hcurrent : Current s.store op) (hact : act cfg call op fails s.store = some (r, store))
include h hcall hcurrent hact

theorem Good.outcome : Outcome cfg version s.store store op next name r := by
  obtain ⟨hfit, -⟩ := h.calls _ (List.mem_of_getElem? hcall)
  cases op with
  | find =>
    obtain ⟨hsame, hfound⟩ := act_find hact
    refine .of_same h hsame (fun row hr => h.row row (hfound row hr)) fun row hrow row' hr => ?_
    cases (hfound row' hr).symm.trans hrow
    rfl
  | hGetAll => exact .of_same h (act_hGetAll hact) trivial fun _ _ => trivial
  | mGet =>
    cases hact
    exact .of_same h ⟨rfl, rfl⟩ trivial fun _ _ => trivial
  | writeUserCache =>
    obtain ⟨hredis, hversion⟩ := hfit
    obtain ⟨hrow, hcached⟩ := act_writeUserCache hact
    refine ⟨hrow, fun u hu => ?_, fun hoff => by simp [hredis] at hoff, trivial, fun hagrees => .inl fun u hu row hr => ?_,
      .inl fun _ _ => trivial⟩
    · rcases hcached u hu with hold | hnew
      · exact h.cached u hold
      · exact hnew.2.trans hversion
    · rw [hrow] at hr
      rcases hcached u hu with hold | hnew
      · exact hagrees u hold row hr
      · exact hnew.1.trans (hcurrent row hr)
  | updateField field value authVersion =>
    obtain ⟨hname, hredis, rfl, rfl, hmends⟩ := hfit
    obtain ⟨hrow, hcached⟩ := act_updateField hact
    have hversion : ∀ u ∈ store.cached, u.authVersion = authVersion := by
      intro u hu
      rcases hcached u hu with hold | hnew
      · exact h.cached u hold.1
      · exact hnew.2
    refine ⟨hrow, hversion, fun hoff => by simp [hredis] at hoff, trivial, fun hagrees => ?_, ?_⟩
    · by_cases hgroup : ∀ row ∈ s.store.row, value = row.group
      · refine .inl fun u hu row hr => ?_
        rw [hrow] at hr
        rcases hcached u hu with hold | hnew
        · exact hagrees u hold.1 row hr
        · exact hnew.1.trans (hgroup row hr)
      · refine .inr ⟨hname, fun row hr => hmends row.group (fun heq => hgroup fun row' hr' => ?_) r⟩
        cases hr.symm.trans hr'
        exact heq
    · by_cases hr : r = some true
      · by_cases hgroup : ∀ row ∈ s.store.row, value ≠ row.group
        · exact .inl fun row hrow heq => absurd heq (hgroup row hrow)
        · simp only [not_forall, not_not] at hgroup
          obtain ⟨_, hfound, hgroup⟩ := hgroup
          refine .inr fun u hu row' hrow' => ?_
          cases (hrow ▸ hrow').symm.trans hfound
          rcases hcached u hu with hold | hnew
          · exact absurd (h.cached u hold.1) (hold.2 hr)
          · exact hnew.1.trans hgroup
      · exact .inl fun _ _ _ => hr
  | _ => exact absurd hfit id

theorem Good.access : Good cfg version ⟨store, s.calls.set call (name, next r)⟩ ∧
      (Agrees s.store ∨ Mended s → Agrees store ∨ Mended ⟨store, s.calls.set call (name, next r)⟩) := by
  obtain ⟨hrow, hcached, hdisabled, hanswered, hagrees, hsilent⟩ := h.outcome hcall hcurrent hact
  obtain ⟨-, hnext⟩ := h.calls _ (List.mem_of_getElem? hcall)
  constructor
  · refine ⟨by rw [hrow]; exact h.row, hcached, hdisabled, fun c hc => ?_⟩
    rcases List.mem_or_eq_of_mem_set hc with hc | rfl
    · exact h.calls c hc
    · exact hnext r hanswered
  · rintro (hs | hs)
    · rcases hagrees hs with hs | ⟨rfl, hmends⟩
      · exact .inl hs
      · exact .inr ⟨next r, List.mem_set (List.getElem?_eq_some_iff.mp hcall).1 _, by rwa [hrow]⟩
    · exact hsilent.symm.imp_right fun hsilent => hs.access hcall hrow hsilent

end

/-! ## Runs -/

def isWrite : Happening → Bool
  | .env (.write _ _) => true
  | _ => false

def isRefresh : Happening → Bool
  | .begin .refreshUserGroupCache => true
  | _ => false

/-- Every change of the row is followed by a refresh. -/
def followed : List Happening → Bool
  | [] => true
  | e :: es => (!isWrite e || es.any isRefresh) && followed es

/-- Every call has returned, and the refreshes without an error. -/
def finished (s : Readers) : Bool :=
  s.calls.all fun (name, p) => p.answer.any fun a => name ≠ .refreshUserGroupCache ∨ a = .unit (.ok ())

/-- Only readers and refreshes begin. -/
def Involved (_ : Readers) : Happening → Prop
  | .begin name => name = .getUserCache ∨ name = .refreshUserGroupCache
  | _ => True

def Undisturbed (s : Readers) : Happening → Prop
  | .begin name => name = .getUserCache ∨ name = .refreshUserGroupCache
  | .step i _ => ∀ c ∈ s.pending i, Current s.store c.2
  | .env _ => True

instance (s : Store) : (op : Op) → Decidable (Current s op)
  | .writeUserCache user _ => inferInstanceAs (Decidable (∀ row ∈ s.row, user.group = row.group))
  | .find | .lock | .save _ | .hGetAll | .mGet | .updateField _ _ _ | .setFence _ | .publish _ | .commit _ _ _ | .del =>
    .isTrue trivial

instance (s : Readers) (e : Happening) : Decidable (Involved s e) := by
  unfold Involved
  split <;> infer_instance

instance (s : Readers) (e : Happening) : Decidable (Undisturbed s e) := by
  unfold Undisturbed
  split <;> infer_instance

theorem cached_env (a : Store) (e : Outside) :
    ∀ u ∈ (a.env e).cached, ∃ old ∈ a.cached, u.group = old.group ∧ u.authVersion = old.authVersion := by
  intro u hu
  obtain ⟨x, hx, hlive⟩ := UserCache.cached_eq_some hu
  cases e with
  | elapse ms =>
    have hlive : a.now + ms ≤ x := hlive
    refine ⟨u, ?_, rfl, rfl⟩
    unfold Store.cached
    rw [show a.hash = some (u, x) from hx]
    simp only [Option.bind_some, Option.mem_def]
    rw [if_pos (by omega)]
  | write => exact ⟨u, hu, rfl, rfl⟩
  | quota =>
    obtain ⟨⟨old, _⟩, hold, heq⟩ := Option.map_eq_some_iff.mp hx
    cases heq
    refine ⟨old, ?_, rfl, rfl⟩
    unfold Store.cached
    rw [hold]
    exact if_pos hlive

theorem row_env (a : Store) (e : Outside) : (∀ row ∈ (a.env e).row, ∃ old ∈ a.row, row.authVersion = old.authVersion) ∧
      (isWrite (.env e) = false → (a.env e).row = a.row) := by
  cases e with
  | elapse | quota => exact ⟨fun row hrow => ⟨row, hrow, rfl⟩, fun _ => rfl⟩
  | write =>
    refine ⟨fun row hrow => ?_, fun h => by cases h⟩
    obtain ⟨old, hold, rfl⟩ := Option.map_eq_some_iff.mp hrow
    exact ⟨old, hold, rfl⟩

theorem Good.step (h : Good cfg version s) {e : Happening} (hok : Undisturbed s e) (hstep : (machine cfg).step s e = some t) :
    Good cfg version t ∧ (isWrite e = false → Agrees s.store ∨ Mended s → Agrees t.store ∨ Mended t) ∧
      (isRefresh e = true → Agrees t.store ∨ Mended t) := by
  rcases Machine.step_cases hstep with ⟨name, rfl, rfl⟩ | ⟨i, _, name, op, _, r, store, rfl, hcall, hact, rfl⟩ |
    ⟨e, store, rfl, henv, rfl⟩
  · have hmore : Mended s → Mended { s with calls := s.calls ++ [(name, (machine cfg).body name)] } := by
      rintro ⟨p, hp, hmends⟩
      exact ⟨p, List.mem_append_left _ hp, hmends⟩
    refine ⟨⟨h.row, h.cached, h.disabled, fun c hc => ?_⟩, fun _ => Or.imp_right hmore, fun hrefresh => ?_⟩
    · rcases List.mem_append.mp hc with hc | hc
      · exact h.calls c hc
      rw [List.mem_singleton.mp hc]
      rcases hok with rfl | rfl
      · exact reader_sound
      · exact refresh_sound
    · rcases hok with rfl | rfl
      · cases hrefresh
      cases hredis : cfg.redisEnabled with
      | false =>
        refine .inl fun u hu => ?_
        rw [h.disabled hredis] at hu
        cases hu
      | true => exact .inr ⟨_, List.mem_append_right _ (List.mem_singleton_self _), fun _ _ => refresh_mends hredis⟩
  · obtain ⟨hgood, hkeep⟩ := h.access hcall (hok (name, op) (by simp [System.pending, hcall, Prog.asked])) hact
    exact ⟨hgood, fun _ => hkeep, fun hrefresh => by cases hrefresh⟩
  · obtain rfl : s.store.env e = store := Option.some.inj henv
    have hcached := cached_env s.store e
    obtain ⟨hrow, hsame⟩ := row_env s.store e
    refine ⟨⟨fun row hr => ?_, fun u hu => ?_, fun hoff => ?_, h.calls⟩, fun hwrite hs => ?_,
      fun hrefresh => by cases hrefresh⟩
    · obtain ⟨old, hold, heq⟩ := hrow row hr
      exact heq.trans (h.row old hold)
    · obtain ⟨old, hold, -, heq⟩ := hcached u hu
      exact heq.trans (h.cached old hold)
    · refine Option.eq_none_iff_forall_not_mem.mpr fun u hu => ?_
      obtain ⟨old, hold, -⟩ := hcached u hu
      rw [h.disabled hoff] at hold
      cases hold
    · rcases hs with hagrees | ⟨p, hp, hmends⟩
      · refine .inl fun u hu row hr => ?_
        obtain ⟨old, hold, heq, -⟩ := hcached u hu
        rw [hsame hwrite] at hr
        exact heq.trans (hagrees old hold row hr)
      · exact .inr ⟨p, hp, by rwa [hsame hwrite]⟩

theorem converges {es : List Happening} (hsteps : Steps (machine cfg).step Undisturbed s es t) (h : Good cfg version s)
    (hfollowed : followed es = true) (hs : Agrees s.store ∨ Mended s ∨ es.any isRefresh = true) :
    Agrees t.store ∨ Mended t := by
  induction hsteps with
  | done => simpa using hs
  | more hok hstep _ ih =>
    obtain ⟨hgood, hkeep, hrefresh⟩ := h.step hok hstep
    simp only [followed, Bool.and_eq_true, Bool.or_eq_true, Bool.not_eq_true'] at hfollowed
    refine ih hgood hfollowed.2 ?_
    rcases hfollowed.1 with hwrite | hlater
    · rcases hs with hs | hs | hs
      · exact or_assoc.mp (.inl (hkeep hwrite (.inl hs)))
      · exact or_assoc.mp (.inl (hkeep hwrite (.inr hs)))
      · simp only [List.any_cons, Bool.or_eq_true] at hs
        rcases hs with hs | hs
        · exact or_assoc.mp (.inl (hrefresh hs))
        · exact .inr (.inr hs)
    · exact .inr (.inr hlater)

theorem group_cache_converges (cfg : Settings) (store : Store) (row : User) (hrow : store.row = some row)
    (hcached : ∀ user ∈ store.cached, user.group = row.group ∧ user.authVersion = row.authVersion)
    (hdisabled : cfg.redisEnabled = false → store.cached = none) (es : List Happening) (t : Readers)
    (hsteps : Steps (machine cfg).step Undisturbed (System.start store) es t) (hfollowed : followed es = true)
    (hfinished : finished t = true) : ∀ user ∈ t.store.cached, ∀ row ∈ t.store.row, user.group = row.group := by
  have hgood : Good cfg row.authVersion (System.start store) := by
    refine ⟨fun row' hrow' => ?_, fun user hu => (hcached user hu).2, hdisabled, fun c hc => by cases hc⟩
    cases hrow.symm.trans hrow'
    rfl
  have hagrees : Agrees store := by
    intro user hu row' hrow'
    cases hrow.symm.trans hrow'
    exact (hcached user hu).1
  rcases converges hsteps hgood hfollowed (.inl hagrees) with h | ⟨p, hp, hmends⟩
  · exact h
  intro user hu row' hrow'
  have hdone := List.all_eq_true.mp hfinished _ hp
  -- The call has returned, so it is not one that has still to write.
  cases p with
  | done a =>
    have ha : a = .unit (.ok ()) := by simpa [Prog.answer] using hdone
    exact absurd ha (hmends row' hrow')
  | access => simp [Prog.answer] at hdone

/-! Where the reader fills the cache before the change, the refresh corrects it; where it comes last, the old group
stays. -/

def member : User := ⟨1, "default", "", 0, 1, 1, "", "", 1, false⟩

def settings : Settings := ⟨1, true, 60⟩

def found : List Happening := [.begin .getUserCache, .step 0 false, .step 0 false, .step 0 false]

def upgraded : List Happening := [.env (.write { member with group := "vip" } 0), .begin .refreshUserGroupCache,
  .step 1 false, .step 1 false, .step 1 false]

theorem group_cache_converges_filled : ∃ t : Readers, finished t = true ∧
    (∃ user, t.store.cached = some user) ∧ ∀ user ∈ t.store.cached, ∀ row ∈ t.store.row, user.group = row.group := by
  have hrun : (run (machine settings).step Undisturbed (System.start (Store.start 0 member))
      (found ++ .step 0 false :: upgraded)).any (fun t => finished t && t.store.cached.isSome) = true := by decide +kernel
  obtain ⟨t, hsteps, ht⟩ := exists_of_run hrun
  simp only [Bool.and_eq_true] at ht
  exact ⟨t, ht.1, Option.isSome_iff_exists.mp ht.2, group_cache_converges settings _ member rfl (fun user hu => by cases hu)
    (fun h => by cases h) _ t hsteps (by decide +kernel) ht.1⟩

theorem late_reader_leaves_old_group : ∃ t : Readers, Steps (machine settings).step Involved
      (System.start (Store.start 0 member)) (found ++ upgraded ++ [.step 0 false]) t ∧
    followed (found ++ upgraded ++ [.step 0 false]) = true ∧ finished t = true ∧
    t.store.cached.map UserBase.group = some "default" ∧ t.store.row.map User.group = some "vip" := by
  have hrun : (run (machine settings).step Involved (System.start (Store.start 0 member))
      (found ++ upgraded ++ [.step 0 false])).any (fun t => finished t &&
        t.store.cached.map UserBase.group = some "default" && t.store.row.map User.group = some "vip") = true := by
    decide +kernel
  obtain ⟨t, hsteps, ht⟩ := exists_of_run hrun
  simp only [Bool.and_eq_true, decide_eq_true_eq] at ht
  exact ⟨t, hsteps, by decide +kernel, ht.1.1, ht.1.2, ht.2⟩

end NewApi.Auth.GroupCache

