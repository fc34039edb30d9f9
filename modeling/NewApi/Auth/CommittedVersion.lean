import NewApi.Auth.UserCache

/-!
# What `GetUserCache` returns

A read that begins after a commit does not return a lower version, as long as the calls are fast enough.
-/

namespace NewApi.Auth.UserCache

open Calls Run Code.UserAuthCache

abbrev Sys := System Store Name Op Ans Answer

abbrev Happening := Event Name Bool Outside

variable {cfg : Settings} {s t u : Store} {call : Nat} {n tx fill : Int} {timed : Prop} (e : Outside)

/-! ## What happens elsewhere -/

theorem truthful_env (h : Truthful cfg s) : Truthful cfg (s.env e) := by
  cases e with
  | elapse =>
    refine ⟨fun x hx => (h.times x hx).trans (by simp [Store.env]), h.known, h.row, h.fence, h.floor, fun user x hx => ?_⟩
    have hle := (h.hash user x hx).2
    refine ⟨(h.hash user x hx).1, ?_⟩
    simp only [Store.env]
    omega
  | write =>
    refine ⟨h.times, h.known, fun row hrow => ?_, h.fence, h.floor, h.hash⟩
    obtain ⟨row', hrow', rfl⟩ := Option.map_eq_some_iff.mp hrow
    exact h.row row' hrow'
  | quota =>
    refine ⟨h.times, h.known, h.row, h.fence, h.floor, fun user x hx => ?_⟩
    obtain ⟨⟨user', _⟩, hhash, heq⟩ := Option.map_eq_some_iff.mp hx
    cases heq
    exact h.hash user' x hhash

theorem tame_env : Tame cfg s (s.env e) := by
  cases e with
  | elapse => exact .of_same (by simp [Store.env]) rfl rfl (.inl rfl)
  | write => exact .of_same le_rfl rfl rfl (.inl rfl)
  | quota =>
    refine ⟨le_rfl, le_rfl, fun m x h _ => .inr ⟨m, x, h, le_rfl, .inl le_rfl⟩, fun user x hx => ?_⟩
    obtain ⟨⟨user', _⟩, hhash, heq⟩ := Option.map_eq_some_iff.mp hx
    cases heq
    exact ⟨user', hhash, rfl⟩

@[simp] theorem env_version : (s.env e).version = s.version := by cases e <;> rfl

@[simp] theorem env_snapshots : (s.env e).snapshots = s.snapshots := by cases e <;> rfl

@[simp] theorem env_fences : (s.env e).fences = s.fences := by cases e <;> rfl

theorem later_env : Later cfg s (s.env e) :=
  (tame_env e).later (by simp) (by simp) (by simp)

theorem Good.env (h : Good cfg tx timed n s) : Good cfg tx timed n (s.env e) where
  truthful := truthful_env e h.truthful
  settled htimed henabled := settled_of_tame (h.settled htimed henabled) (tame_env e) (by simp) (by simp)
  version := by simpa using h.version

theorem good_start (now : Int) (user : User) : Good cfg tx timed user.authVersion (Store.start now user) where
  truthful := by
    refine ⟨fun x hx => ?_, fun x hx => ?_, fun row hrow => ?_, fun m x hx => ?_, ?_, fun user x hx => ?_⟩
    · cases hx
    · cases hx
    · cases hrow
      rfl
    · cases hx
    · simp [Store.start]
    · cases hx
  settled _ _ := by
    -- Nothing has been announced, as if the fence had expired long ago.
    refine .inr ⟨now - |fenceLife cfg| - 1, ⟨?_, .inr ?_, fun user x hx => ?_⟩, fun x hx => ?_⟩
    · have := abs_nonneg (fenceLife cfg)
      simp only [Store.start]
      omega
    · have := le_abs_self (fenceLife cfg)
      simp only [Store.start]
      omega
    · cases hx
    · cases hx
  version := le_rfl

/-! ## All calls together -/

def Answered (timed : Prop) (n : Int) (first i : Nat) : Name → Answer → Store → Prop
  | .getUserCache, .user r, _ => first ≤ i → timed → Fresh n r
  | _, _, _ => True

theorem answered_unit {first i : Nat} {name : Name} {r : Except CacheError Unit} : Answered timed n first i name (.unit r) s := by
  cases name <;> trivial

def contract (cfg : Settings) (tx fill : Int) (timed : Prop) (n : Int) (first : Nat) : Contract (machine cfg) where
  allowed i _ op _ s := timed → Brisk tx fill i op s
  inv := Good cfg tx timed n
  rely _ _ := Later cfg
  does _ _ := Later cfg
  post := Answered timed n first
  apart _ _ := True
  trans := Later.trans
  others _ _ _ _ h := h
  env := by
    intro e a b h ha
    cases h
    exact ⟨ha.env e, fun _ _ => later_env e⟩

theorem body_ok {first i : Nat} (hpace : timed → Paced cfg tx fill) (name : Name) (hs : Good cfg tx timed n s) :
    (contract cfg tx fill timed n first).Sat i name (body cfg name) s := by
  have hunit : ∀ {p : Call (Except CacheError Unit)} {name}, Ok cfg tx fill timed n i (fun _ _ => True) p s →
      (contract cfg tx fill timed n first).Sat i name (p.bind fun r => .done (.unit r)) s :=
    fun h => Ok.bind h hs fun _ _ _ _ => Ok.done fun _ _ _ => answered_unit
  cases name with
  | getUserCache =>
    exact Ok.bind (getUserCache_ok hpace hs) hs fun r t _ hr => Ok.done fun _ _ _ _ htimed => hr htimed
  | updateUserCacheField => exact hunit (updateUserCacheField_ok hpace)
  | refreshUserGroupCache => exact hunit (refreshUserGroupCache_ok hpace)
  | publishUserAuthCache => exact hunit (publishUserAuthCache_ok hpace hs)
  | bumpUserAuthVersion => exact hunit (bumpUserAuthVersion_ok hpace hs)
  | updateUser => exact hunit (updateUser_ok hpace hs)
  | deleteUser => exact hunit (deleteUser_ok hpace hs)
  | hardDeleteUser => exact hunit (hardDeleteUser_ok hpace hs)

def Timely (tx fill : Int) (s : Sys) : Happening → Prop
  | .step i _ => ∀ c ∈ s.pending i, Brisk tx fill i c.2 s.store
  | _ => True

theorem keeps_of_timely {first : Nat} (s : Sys) (e : Happening)
    (h : Timely tx fill s e) : (contract cfg tx fill timed n first).Keeps s e := by
  cases e with
  | begin => exact fun _ _ => ⟨trivial, trivial⟩
  | step => exact fun c hc _ => h c hc
  | env => trivial

theorem fine_from {s : Sys} (hfine : Fine (contract cfg tx fill timed n 0) s) :
    Fine (contract cfg tx fill timed s.store.version s.calls.length) s := by
  refine ⟨⟨hfine.inv.truthful, hfine.inv.settled, le_rfl⟩, fun i name p hi => ?_, fun _ _ _ _ _ _ _ _ _ => trivial⟩
  refine Sat.restrict (hfine.sat i name p hi) (K := fun a => s.store.version ≤ a.version) ?_ (fun _ _ _ => id) ?_ ?_
  · intro a
    exact ⟨fun h => ⟨⟨h.truthful, h.settled, hfine.inv.version.trans h.version⟩, h.version⟩,
      fun h => ⟨h.1.truthful, h.1.settled, h.2⟩⟩
  · exact fun _ _ _ _ _ ha _ _ hab => ha.trans hab.version
  intro a t _ _
  have hlt := (List.getElem?_eq_some_iff.mp hi).1
  unfold contract Answered
  dsimp only
  split
  · exact fun hle => absurd hlt (Nat.not_lt.mpr hle)
  · trivial

theorem read_fresh {now : Int} {user : User} {s t : Sys} {es es' : List (Happening)}
    {j : Nat} {r : Except CacheError UserBase} (hpace : Paced cfg tx fill)
    (hrun : Steps (machine cfg).step (Timely tx fill) (.start (.start now user)) es s)
    (hlater : Steps (machine cfg).step (Timely tx fill) s es' t) (hj : s.calls.length ≤ j)
    (hread : t.result j = some (.getUserCache, .user r)) : Fresh s.store.version r := by
  have hstart : Fine (contract cfg tx fill True user.authVersion 0) (.start (.start now user)) :=
    Fine.start (good_start now user)
  have hfine := hstart.run (fun _ _ => Later.refl) (fun _ name _ => body_ok (fun _ => hpace) name) keeps_of_timely hrun
  have hafter := (fine_from hfine).run (fun _ _ => Later.refl) (fun _ name _ => body_ok (fun _ => hpace) name)
    keeps_of_timely hlater
  exact hafter.post (fun _ _ => Later.refl) hread hj trivial

/-! ## After a rollback -/

structure AtRest (version : Int) (s : Store) : Prop where
  pending : s.pending = 0
  version : s.version = version
  found : ∃ row, s.find = .ok row

def Resting (j i : Nat) (op : Op) (fails : Bool) : Prop :=
  match op with
  | .setFence _ | .commit _ _ _ => fails = true
  | .find => i = j → fails = false
  | _ => True

variable {version : Int} {j : Nat}

theorem pending_publish {incoming : Int} (h : s.pending = 0) : (s.publish incoming).pending = 0 := by
  have hfence : (s.publish incoming).fence = s.fence := by
    unfold Store.publish
    rw [if_neg (by omega)]
  unfold Store.pending at h ⊢
  rw [hfence]
  exact h

section

variable (h : AtRest version s)
include h

theorem AtRest.of_same (hpending : t.pending = s.pending) (hversion : t.version = s.version) (hrow : t.row = s.row)
    : AtRest version t := by
  refine ⟨hpending.trans h.pending, hversion.trans h.version, ?_⟩
  unfold Store.find
  rw [hrow]
  exact h.found

theorem AtRest.admitted {incoming : Int} {hash : Option (UserBase × Int)} (hadmitted : s.admit incoming = some t)
    : AtRest version { t with hash } := by
  obtain ⟨-, -, rfl⟩ := admit_eq_some hadmitted
  exact h.of_same ((pending_publish h.pending).trans h.pending.symm) rfl rfl

theorem AtRest.edit {row values : User} (hrow : s.find = .ok row) :
    AtRest version { s with row := some (row.edit values) } := by
  refine ⟨h.pending, h.version, row.edit values, ?_⟩
  have hdeleted : (row.edit values).deleted = false := (find_ok hrow).2
  simp [Store.find, hdeleted]

theorem act_rests {op : Op} {fails : Bool} {r : Ans op} (hrest : Resting j call op fails)
    (hact : act cfg call op fails s = some (r, t)) : AtRest version t := by
  cases act_effect hact with
  | same => exact h
  | find | hGetAll | del => exact h.of_same rfl rfl rfl
  | save values hrow => exact (h.edit hrow).of_same rfl rfl rfl
  | admitted hop hadmitted => exact h.admitted hadmitted
  | setFence | commit => cases hrest
  | publish => exact h.of_same ((pending_publish h.pending).trans h.pending.symm) rfl rfl

theorem AtRest.env : AtRest version (s.env e) := by
  cases e with
  | elapse ms =>
    refine ⟨?_, h.version, h.found⟩
    have hpending := h.pending
    show Store.pending { s with now := s.now + ms } = 0
    unfold Store.pending at hpending ⊢
    cases hfence : s.fence with
    | none => rfl
    | some =>
      rw [hfence] at hpending
      dsimp only [Option.bind_some] at hpending ⊢
      split
      · rwa [if_pos (by omega)] at hpending
      · rfl
  | write values quota =>
    obtain ⟨row, hrow⟩ := h.found
    obtain ⟨hsome, hdeleted⟩ := find_ok hrow
    refine ⟨h.pending, h.version, { row.edit values with quota }, ?_⟩
    have hdeleted' : (row.edit values).deleted = false := hdeleted
    simp [Store.find, Store.env, hsome, hdeleted']
  | quota => exact h.of_same rfl rfl rfl

end

def Calm (cfg : Settings) (version : Int) (s : Store) : Prop := Good cfg 0 False version s ∧ AtRest version s

def Succeeds (cfg : Settings) (version : Int) (j : Nat) {α : Type} (Q : α → Store → Prop) : Call α → Store → Prop :=
  Sat (act cfg j) (fun op fails _ => Resting j j op fails) (Calm cfg version) (Later cfg) (Later cfg) Q

variable {α β : Type} {Q : α → Store → Prop}

theorem Succeeds.access {op : Op} {next : Ans op → Call α} (hlawful : ∀ t, Later cfg s t → Lawful cfg j op t)
    (hnext : ∀ t fails r u, Later cfg s u → Calm cfg version t → Resting j j op fails → act cfg j op fails t = some (r, u) →
      Calm cfg version u → Succeeds cfg version j Q (next r) u) : Succeeds cfg version j Q (.access op next) s := by
  intro t ht hcalm fails r u hrest hact
  obtain ⟨htruthful, hlater⟩ := act_keeps hcalm.1.truthful (hlawful t ht) hact
  have hcalm' : Calm cfg version u :=
    ⟨⟨htruthful, False.elim, hcalm.1.version.trans hlater.version⟩, act_rests hcalm.2 hrest hact⟩
  exact ⟨hcalm', hlater, hnext t fails r u (ht.trans hlater) hcalm hrest hact hcalm'⟩

theorem Succeeds.done {a : α} (h : ∀ t, Later cfg s t → Q a t) : Succeeds cfg version j Q (.done a) s := fun t ht _ => h t ht

theorem Succeeds.bind {P : β → Store → Prop} {p : Call β} {f : β → Call α} (h : Succeeds cfg version j P p s)
    (hs : Calm cfg version s) (hf : ∀ b t, Calm cfg version t → P b t → Succeeds cfg version j Q (f b) t) :
    Succeeds cfg version j Q (p.bind f) s := Sat.bind Later.refl h hs hf

theorem Calm.admits (h : Calm cfg version s) (hversion : 0 ≤ version) : s.admit version = some (s.publish version) := by
  have hfloor := h.1.truthful.floor
  have hcached : (s.cached.map UserBase.authVersion).getD 0 ≤ version := by
    cases hc : s.cached with
    | none => exact hversion
    | some user =>
      obtain ⟨x, hhash, -⟩ := cached_eq_some hc
      exact h.2.version ▸ (h.1.truthful.hash user x hhash).1
  have hpending := h.2.pending
  have hat := h.2.version
  unfold Store.admit
  rw [if_neg (by omega)]

theorem floor_succeeds (hversion : 0 ≤ version) :
    Succeeds cfg version j (fun r t => Later cfg s t ∧ ∀ floor, r = .ok floor → floor ≤ version)
      (getUserAuthVersionFloor cfg) s := by
  unfold getUserAuthVersionFloor
  split
  · refine Succeeds.done fun t ht => ⟨ht, fun floor h => ?_⟩
    cases h
    exact hversion
  refine Succeeds.access (fun _ _ => trivial) fun t fails r u hu hcalm _ hact _ => ?_
  split
  · exact Succeeds.done fun _ hv => ⟨hu.trans hv, fun _ h => by cases h⟩
  rename_i floor
  refine Succeeds.done fun _ hv => ⟨hu.trans hv, fun floor' h => ?_⟩
  cases h
  cases fails with
  | true => cases hact
  | false =>
    have hfloor : max (max t.pending t.floor) 0 = floor := Option.some.inj (congrArg Prod.fst (Option.some.inj hact))
    have hle := hcalm.1.truthful.floor
    have hpending := hcalm.2.pending
    have hat := hcalm.2.version
    omega

theorem populate_succeeds {user : User} (hversion : 0 ≤ version) (huser : user.authVersion = version)
    (hseen : Seen j user.authVersion s) :
    Succeeds cfg version j (fun r _ => r ≠ .error .pending) (populateUserCache cfg user) s := by
  unfold populateUserCache
  split
  · exact Succeeds.done fun _ _ h => by cases h
  unfold writeUserCache
  split
  · exact Succeeds.done fun _ _ h => by cases h
  split
  · exact Succeeds.done fun _ _ h => by cases h
  refine Succeeds.access (fun t ht => hseen.later ht) fun t fails r u _ hcalm _ hact _ => ?_
  split
  · exact Succeeds.done fun _ _ h => by cases h
  · -- The script refuses only what is behind.
    exfalso
    cases fails with
    | true => cases hact
    | false =>
      have hanswer := Option.some.inj (congrArg Prod.fst (Option.some.inj hact))
      have hadmitted : t.admit user.toBaseUser.authVersion = some (t.publish version) := by
        rw [show user.toBaseUser.authVersion = version from huser]
        exact hcalm.admits hversion
      simp only [hadmitted] at hanswer
      split at hanswer <;> cases hanswer
  · exact Succeeds.done fun _ _ h => by cases h

theorem getUserFromDatabase_succeeds (hid : cfg.userId ≠ 0) (hversion : 0 ≤ version) (hs : Calm cfg version s) :
    Succeeds cfg version j (fun r _ => ∃ user, r = .ok user) (getUserFromDatabase cfg) s := by
  have hfind : Succeeds cfg version j
      (fun r t => ∃ user, r = .ok user ∧ user.authVersion = version ∧ Seen j user.authVersion t) (getUserById cfg) s := by
    unfold getUserById
    rw [if_neg hid]
    refine Succeeds.access (fun _ _ => trivial) fun t fails r u _ hcalm hrest hact _ => ?_
    obtain rfl : fails = false := hrest rfl
    obtain ⟨row, hrow⟩ := hcalm.2.found
    simp only [act, Bool.false_eq_true, if_false, hrow] at hact
    cases hact
    refine Succeeds.done fun v hv => ⟨row, rfl, ?_, (seen_note _).later hv⟩
    exact (hcalm.1.truthful.row row (find_ok hrow).1).trans hcalm.2.version
  refine Succeeds.bind hfind hs ?_
  rintro r t hcalm ⟨user, rfl, huser, hseen⟩
  dsimp only
  split
  · exact Succeeds.done fun _ _ => ⟨_, rfl⟩
  refine Succeeds.bind (floor_succeeds hversion) hcalm fun floor u hcalm' hfloor => ?_
  have hbelow : ¬ (floor.toOption.any fun floor => floor > user.authVersion) = true := by
    cases floor with
    | error => simp [Except.toOption]
    | ok floor =>
      have hle := hfloor.2 floor rfl
      simp only [Except.toOption, Option.any_some, gt_iff_lt, decide_eq_true_eq, not_lt]
      omega
  rw [if_neg hbelow]
  refine Succeeds.bind (populate_succeeds hversion huser (hseen.later hfloor.1)) hcalm' fun r v _ hr => ?_
  split
  · exact absurd rfl hr
  · exact Succeeds.done fun _ _ => ⟨_, rfl⟩

/-- What a call keeps in any case, it keeps at rest. -/
theorem calm_of_ok {i : Nat} {Q' : α → Store → Prop} {p : Call α} (h : Ok cfg 0 0 False n i Q p s) (hn : n ≤ version)
    (hQ : ∀ a t, Q a t → Q' a t) :
    Sat (act cfg i) (fun op fails _ => Resting j i op fails) (Calm cfg version) (Later cfg) (Later cfg) Q' p s := by
  refine Sat.restrict h (K := fun a => version ≤ a.version ∧ AtRest version a) ?_ (fun _ _ _ _ => False.elim) ?_
    fun a t _ => hQ a t
  · intro a
    exact ⟨fun ha => ⟨⟨ha.1.truthful, False.elim, hn.trans ha.1.version⟩, ha.1.version, ha.2⟩,
      fun ha => ⟨⟨ha.1.truthful, False.elim, ha.2.1⟩, ha.2.2⟩⟩
  · exact fun _ _ _ _ _ ha hrest hact hab => ⟨ha.1.trans hab.version, act_rests ha.2 hrest hact⟩

theorem getUserCache_succeeds (hid : cfg.userId ≠ 0) (hversion : 0 ≤ version) (hs : Calm cfg version s) :
    Succeeds cfg version j (fun r _ => ∃ user, r = .ok user) (getUserCache cfg) s := by
  have hcached : Succeeds cfg version j (fun _ _ => True) (cacheGetUserBase cfg) s :=
    calm_of_ok (cacheGetUserBase_ok False.elim) le_rfl fun _ _ _ => trivial
  refine Succeeds.bind hcached hs fun r t hcalm _ => ?_
  split
  · exact Succeeds.done fun _ _ => ⟨_, rfl⟩
  · exact getUserFromDatabase_succeeds hid hversion hcalm

def Healed (j i : Nat) : Name → Answer → Store → Prop
  | .getUserCache, .user r, _ => i = j → ∃ user, r = .ok user
  | _, _, _ => True

def calmContract (cfg : Settings) (version : Int) (j : Nat) : Contract (machine cfg) where
  allowed i _ op fails _ := Resting j i op fails
  inv := Calm cfg version
  rely _ _ := Later cfg
  does _ _ := Later cfg
  post := Healed j
  apart _ _ := True
  trans := Later.trans
  others _ _ _ _ h := h
  env := by
    intro e a b h ha
    cases h
    exact ⟨⟨ha.1.env e, ha.2.env e⟩, fun _ _ => later_env e⟩

theorem calm_of_sat {i : Nat} {name : Name} {p : Call Answer}
    (h : (contract cfg 0 0 False n 0).Sat i name p s) (hn : n ≤ version) (hne : name = .getUserCache → i ≠ j) :
    (calmContract cfg version j).Sat i name p s := by
  refine calm_of_ok h hn fun a t _ => ?_
  unfold calmContract Healed
  dsimp only
  split
  · exact fun hi => absurd hi (hne rfl)
  · trivial

theorem calm_body_ok {i : Nat} (hid : cfg.userId ≠ 0) (hversion : 0 ≤ version) (name : Name) (hs : Calm cfg version s) :
    (calmContract cfg version j).Sat i name (body cfg name) s := by
  by_cases hread : name = .getUserCache ∧ i = j
  · obtain ⟨rfl, rfl⟩ := hread
    exact Sat.bind Later.refl (getUserCache_succeeds hid hversion hs) hs fun r t _ hr => Succeeds.done fun _ _ _ => hr
  · exact calm_of_sat (body_ok (fun h => h.elim) name hs.1) le_rfl fun hname hi => hread ⟨hname, hi⟩

def Rests (j : Nat) (s : Sys) : Happening → Prop
  | .step i fails => ∀ c ∈ s.pending i, Resting j i c.2 fails
  | _ => True

theorem keeps_of_rests (s : Sys) (e : Happening) (h : Rests j s e) : (calmContract cfg version j).Keeps s e := by
  cases e with
  | begin => exact fun _ _ => ⟨trivial, trivial⟩
  | step => exact h
  | env => trivial

theorem read_succeeds {now : Int} {user : User} {s t : Sys}
    {es es' : List (Happening)} {r : Except CacheError UserBase} (hid : cfg.userId ≠ 0)
    (huser : 0 ≤ user.authVersion) (hrun : Steps (machine cfg).step free (.start (.start now user)) es s)
    (hpending : s.store.pending = 0) (hfound : ∃ row, s.store.find = .ok row)
    (hlater : Steps (machine cfg).step (Rests j) s es' t) (hj : s.calls.length ≤ j)
    (hread : t.result j = some (.getUserCache, .user r)) : ∃ cached, r = .ok cached := by
  have hstart : Fine (contract cfg 0 0 False user.authVersion 0) (.start (.start now user)) :=
    Fine.start (good_start now user)
  have hkeeps : ∀ s e, free s e → (contract cfg 0 0 False user.authVersion 0).Keeps s e := by
    intro s e _
    cases e with
    | begin => exact fun _ _ => ⟨trivial, trivial⟩
    | step => exact fun _ _ => False.elim
    | env => trivial
  have hfine := hstart.run (fun _ _ => Later.refl) (fun _ name _ => body_ok (fun h => h.elim) name) hkeeps hrun
  have hversion : 0 ≤ s.store.version := huser.trans hfine.inv.version
  have hcalm : Fine (calmContract cfg s.store.version j) s := by
    refine ⟨⟨⟨hfine.inv.truthful, False.elim, le_rfl⟩, hpending, rfl, hfound⟩, fun i name p hi => ?_, fun _ _ _ _ _ _ _ _ _ => trivial⟩
    have hlt := (List.getElem?_eq_some_iff.mp hi).1
    exact calm_of_sat (hfine.sat i name p hi) hfine.inv.version fun _ => by omega
  have hafter := hcalm.run (fun _ _ => Later.refl) (fun _ name _ => calm_body_ok hid hversion name) keeps_of_rests hlater
  exact hafter.post (fun _ _ => Later.refl) hread rfl

theorem committed_version_kept {cfg : Settings} {now : Int} {user : User} :
    (∀ tx fill s t es es' j r, Paced cfg tx fill →
      Steps (machine cfg).step (Timely tx fill) (.start (.start now user)) es s →
      Steps (machine cfg).step (Timely tx fill) s es' t → s.calls.length ≤ j →
      t.result j = some (.getUserCache, .user r) → ∀ cached, r = .ok cached → s.store.version ≤ cached.authVersion) ∧
    (∀ s t es es' j r, cfg.userId ≠ 0 → 0 ≤ user.authVersion →
      Steps (machine cfg).step free (.start (.start now user)) es s →
      s.store.pending = 0 → (∃ row, s.store.find = .ok row) →
      Steps (machine cfg).step (Rests j) s es' t → s.calls.length ≤ j →
      t.result j = some (.getUserCache, .user r) → ∃ cached, r = .ok cached) := by
  constructor
  · intro tx fill s t es es' j r hpace hrun hlater hj hread
    exact read_fresh hpace hrun hlater hj hread
  · intro s t es es' j r hid huser hrun hpending hfound hlater hj hread
    exact read_succeeds hid huser hrun hpending hfound hlater hj hread

instance (tx fill : Int) (call : Nat) (op : Op) (s : Store) : Decidable (Brisk tx fill call op s) := by
  unfold Brisk
  split <;> infer_instance

instance (tx fill : Int) (s : Sys) (e : Happening) : Decidable (Timely tx fill s e) := by
  unfold Timely
  split <;> infer_instance

instance (j i : Nat) (op : Op) (fails : Bool) : Decidable (Resting j i op fails) := by
  unfold Resting
  split <;> infer_instance

instance (j : Nat) (s : Sys) (e : Happening) : Decidable (Rests j s e) := by
  unfold Rests
  split <;> infer_instance

def alice : User := ⟨7, "default", "", 100, 1, 1, "alice", "", 1, false⟩

def minutely : Settings := ⟨7, true, 60⟩

def steps (i k : Nat) : List (Happening) := List.replicate k (.step i false)

def disabled : User := { alice with status := 2 }

theorem committed_version_kept_alice : (∃ s t : System Store Name Op Ans Answer, ∃ es es' r,
    Paced minutely 30000 30000 ∧ Steps (machine minutely).step (Timely 30000 30000) (.start (.start 0 alice)) es s ∧
      Steps (machine minutely).step (Timely 30000 30000) s es' t ∧ s.store.version = 2 ∧
        t.result 1 = some (.getUserCache, .user (.ok r)) ∧ 2 ≤ r.authVersion) ∧
    (∃ s t : System Store Name Op Ans Answer, ∃ es es' r, Steps (machine minutely).step free (.start (.start 0 alice)) es s ∧
      s.result 0 = some (.updateUser disabled true, .unit (.error .database)) ∧
      Steps (machine minutely).step (Rests 1) s es' t ∧ t.result 1 = some (.getUserCache, .user r) ∧
        ∃ cached, r = .ok cached) := by
  constructor
  · have hpace : Paced minutely 30000 30000 := ⟨by decide, by decide⟩
    have hrun : (run (machine minutely).step (Timely 30000 30000) (.start (.start 0 alice))
        (.begin (.updateUser disabled true) :: steps 0 4)).any (fun s =>
          s.store.version = 2 ∧ s.calls.length = 1 ∧
          ((run (machine minutely).step (Timely 30000 30000) s (.begin .getUserCache :: steps 1 4)).any fun t =>
            t.result 1 = some (.getUserCache, .user (.ok { disabled.toBaseUser with authVersion := 2 })))) = true := by
      decide +kernel
    obtain ⟨s, hs, h⟩ := exists_of_run hrun
    obtain ⟨hversion, hlength, h⟩ := of_decide_eq_true h
    obtain ⟨t, ht, h⟩ := exists_of_run h
    have hr := of_decide_eq_true h
    refine ⟨s, t, _, _, _, hpace, hs, ht, hversion, hr, ?_⟩
    have := committed_version_kept.1 30000 30000 s t _ _ 1 _ hpace hs ht (by omega) hr _ rfl
    omega
  · have hrun : (run (machine minutely).step free (.start (.start 0 alice))
        ([.begin (.updateUser disabled true)] ++ steps 0 2 ++ [.step 0 true, .env (.elapse 120001)])).any (fun s =>
          s.result 0 = some (.updateUser disabled true, .unit (.error .database)) ∧ s.store.pending = 0 ∧
          s.store.find = .ok alice ∧ s.calls.length = 1 ∧
          ((run (machine minutely).step (Rests 1) s (.begin .getUserCache :: steps 1 4)).any fun t =>
            t.result 1 = some (.getUserCache, .user (.ok alice.toBaseUser)))) = true := by
      decide +kernel
    obtain ⟨s, hs, h⟩ := exists_of_run hrun
    obtain ⟨hfailed, hpending, hfind, hlength, h⟩ := of_decide_eq_true h
    obtain ⟨t, ht, h⟩ := exists_of_run h
    have hr := of_decide_eq_true h
    exact ⟨s, t, _, _, _, hs, hfailed, ht, hr,
      committed_version_kept.2 s t _ _ 1 _ (by decide) (by decide) hs hpending ⟨_, hfind⟩ ht (by omega) hr⟩

/-- A fill that read before the commit writes once the fence has expired. -/
theorem stale_version_read : ∃ s t : System Store Name Op Ans Answer, ∃ es es' r,
    Steps (machine minutely).step (Timely (fenceLife minutely) (fenceLife minutely)) (.start (.start 0 alice)) es s ∧
      Steps (machine minutely).step (Timely (fenceLife minutely) (fenceLife minutely)) s es' t ∧ s.store.version = 2 ∧
        s.calls.length ≤ 2 ∧ t.result 2 = some (.getUserCache, .user (.ok r)) ∧ r.authVersion = 1 := by
  have hrun : (run (machine minutely).step (Timely (fenceLife minutely) (fenceLife minutely)) (.start (.start 0 alice))
      ([.begin (.updateUser disabled true)] ++ steps 0 2 ++ [.env (.elapse 110000), .begin .getUserCache] ++ steps 1 2 ++
        steps 0 1)).any (fun s =>
        s.store.version = 2 ∧ s.calls.length = 2 ∧
        ((run (machine minutely).step (Timely (fenceLife minutely) (fenceLife minutely)) s
          ([.env (.elapse 11000)] ++ steps 1 2 ++ [.begin .getUserCache] ++ steps 2 2)).any fun t =>
            t.result 2 = some (.getUserCache, .user (.ok alice.toBaseUser)))) = true := by
    decide +kernel
  obtain ⟨s, hs, h⟩ := exists_of_run hrun
  obtain ⟨hversion, hlength, h⟩ := of_decide_eq_true h
  obtain ⟨t, ht, h⟩ := exists_of_run h
  exact ⟨s, t, _, _, _, hs, ht, hversion, hlength.le, of_decide_eq_true h, rfl⟩

/-- Whatever fails or is rolled back, the cache has no version that was not committed. -/
theorem cached_version_committed {now expiresAt : Int} {user : User} {cached : UserBase} {s : Sys} {es : List Happening}
    (hrun : Steps (machine cfg).step free (.start (.start now user)) es s)
    (hcached : s.store.hash = some (cached, expiresAt)) :
    cached.authVersion ≤ s.store.version ∧ expiresAt ≤ s.store.now + cacheLife cfg := by
  have hstart : Fine (contract cfg 0 0 False user.authVersion 0) (.start (.start now user)) :=
    Fine.start (good_start now user)
  have hfine := hstart.run (fun _ _ => Later.refl) (fun _ name _ => body_ok (fun h => h.elim) name)
    (fun _ e _ => by cases e <;> simp [Contract.Keeps, contract]) hrun
  exact hfine.inv.truthful.hash cached expiresAt hcached

theorem cached_version_committed_alice : ∃ s es expiresAt,
    Steps (machine minutely).step free (.start (.start 0 alice)) es s ∧
      s.store.hash = some (alice.toBaseUser, expiresAt) ∧ 1 ≤ s.store.version := by
  have hrun : (run (machine minutely).step free (.start (.start 0 alice)) (.begin .getUserCache :: steps 0 4)).any
      (fun s => s.store.hash = some (alice.toBaseUser, 60000)) = true := by
    decide +kernel
  obtain ⟨s, hs, h⟩ := exists_of_run hrun
  have hcached := of_decide_eq_true h
  exact ⟨s, _, _, hs, hcached, (cached_version_committed hs hcached).1⟩

end NewApi.Auth.UserCache



