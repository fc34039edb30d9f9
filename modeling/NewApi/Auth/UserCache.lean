import NewApi.Code.UserAuthCache
import Mathlib.Tactic.Linarith

/-!
# A committed version is not undone by the cache

While the fence of a version lives no lower one is written to the cache.
-/

namespace NewApi.Auth.UserCache

open Calls Code.UserAuthCache

def cacheLife (cfg : Settings) : Int := 1000 * cfg.userCacheTTLSeconds

def fenceLife (cfg : Settings) : Int := 1000 * cfg.userAuthFenceTTLSeconds

section

variable (cfg : Settings)

/-- The fence of `n` lives on or its time is over, and what is cached below is from before. -/
structure Covered (n since : Int) (s : Store) : Prop where
  past : since ≤ s.now
  fence : (∃ m x, s.fence = some (m, x) ∧ n ≤ m ∧ since + fenceLife cfg ≤ x) ∨ since + fenceLife cfg < s.now
  hash : ∀ user x, s.hash = some (user, x) → user.authVersion < n → x ≤ since + cacheLife cfg

def Guarded (n since : Int) (s : Store) : Prop := n ≤ s.floor ∨ Covered cfg n since s

/-- The floor is the committed version, or a lower one was seen at most `wait` after the announcement. -/
def Settled (wait : Int) (s : Store) : Prop :=
  s.version ≤ s.floor ∨ ∃ since, Covered cfg s.version since s ∧
    ∀ x ∈ s.snapshots, x.2.1 < s.version → x.2.2 ≤ since + wait

structure Truthful (s : Store) : Prop where
  times : ∀ x ∈ s.snapshots, x.2.2 ≤ s.now
  known : ∀ x ∈ s.snapshots, x.2.1 ≤ s.version
  row : ∀ row ∈ s.row, row.authVersion = s.version
  fence : ∀ m x, s.fence = some (m, x) → m ≤ max s.version 1 + 1
  floor : s.floor ≤ max s.version 0
  hash : ∀ user x, s.hash = some (user, x) → user.authVersion ≤ s.version ∧ x ≤ s.now + cacheLife cfg

structure Later (s t : Store) : Prop where
  time : s.now ≤ t.now
  version : s.version ≤ t.version
  snapshots : s.snapshots ⊆ t.snapshots
  fences : s.fences ⊆ t.fences
  guarded : ∀ n since, t.now ≤ since + fenceLife cfg → Guarded cfg n since s → Guarded cfg n since t

def Lawful (call : Nat) (op : Op) (s : Store) : Prop :=
  match op with
  | .writeUserCache user _ => ∃ t, (call, user.authVersion, t) ∈ s.snapshots
  | .updateField _ _ authVersion => ∃ t, (call, authVersion, t) ∈ s.snapshots
  | .setFence authVersion => authVersion ≤ max s.version 1 + 1
  | .publish authVersion => authVersion ≤ s.version
  | .commit current next _ => next = max current 1 + 1 ∧ (cfg.redisEnabled = true → ∃ since, (call, next, since) ∈ s.fences ∧
      (s.version = current → s.now ≤ since + fenceLife cfg → Guarded cfg next since s))
  | _ => True

end

/-- At most `tx` from a fence to its commit, `fill` from a read to the next access. -/
def Brisk (tx fill : Int) (call : Nat) (op : Op) (s : Store) : Prop :=
  match op with
  | .writeUserCache user _ => ∀ x ∈ s.snapshots, x.1 = call → x.2.1 = user.authVersion → s.now ≤ x.2.2 + fill
  | .updateField _ _ authVersion => ∀ x ∈ s.snapshots, x.1 = call → x.2.1 = authVersion → s.now ≤ x.2.2 + fill
  | .mGet => ∀ x ∈ s.snapshots, x.1 = call → s.now ≤ x.2.2 + fill
  | .commit _ next _ => ∀ x ∈ s.fences, x.1 = call → x.2.1 = next → s.now ≤ x.2.2 + tx
  | _ => True

variable {cfg : Settings} {s t u : Store} {call : Nat} {n since tx fill wait : Int}

theorem Later.refl (s : Store) : Later cfg s s :=
  ⟨le_rfl, le_rfl, List.Subset.refl _, List.Subset.refl _, fun _ _ _ h => h⟩

theorem Later.trans (hst : Later cfg s t) (htu : Later cfg t u) : Later cfg s u where
  time := hst.time.trans htu.time
  version := hst.version.trans htu.version
  snapshots := List.Subset.trans hst.snapshots htu.snapshots
  fences := List.Subset.trans hst.fences htu.fences
  guarded n since hu h := htu.guarded n since hu (hst.guarded n since (htu.time.trans hu) h)

/-! ## Keys -/

theorem pending_of_live {m x : Int} (h : s.fence = some (m, x)) (hlive : s.now ≤ x) : s.pending = m := by
  simp [Store.pending, h, hlive]

theorem cached_eq_some {user : UserBase} (h : s.cached = some user) : ∃ x, s.hash = some (user, x) ∧ s.now ≤ x := by
  obtain ⟨⟨_, x⟩, hhash, hlive⟩ := Option.bind_eq_some_iff.mp h
  dsimp only at hlive
  split at hlive
  · cases hlive
    exact ⟨x, hhash, ‹_›⟩
  · cases hlive

theorem Covered.pending (h : Covered cfg n since s) (hnow : s.now ≤ since + fenceLife cfg) : n ≤ s.pending := by
  rcases h.fence with ⟨m, x, hfence, hm, hx⟩ | hlate
  · rw [pending_of_live hfence (hnow.trans hx)]
    exact hm
  · omega

variable {incoming version current next : Int} {hash : Option (UserBase × Int)} {change : Change} {op : Op}
  {fails : Bool}

theorem admit_eq_some (h : s.admit incoming = some t) :
    s.pending ≤ incoming ∧ s.floor ≤ incoming ∧ t = s.publish incoming := by
  unfold Store.admit at h
  split at h
  · cases h
  · rename_i hadmitted
    simp only [not_or, not_lt] at hadmitted
    exact ⟨hadmitted.1, hadmitted.2.1, (Option.some.inj h).symm⟩

theorem publish_floor (s : Store) (incoming : Int) : (s.publish incoming).floor = max s.floor incoming := by
  unfold Store.publish
  dsimp only
  split <;> omega

theorem Covered.admitted (h : Covered cfg n since s) (hadmitted : s.admit incoming = some t)
    (hnow : incoming < n → s.now ≤ since + fenceLife cfg) : n ≤ t.floor := by
  obtain ⟨hpending, -, rfl⟩ := admit_eq_some hadmitted
  rw [publish_floor]
  by_contra hlt
  have := h.pending (hnow (by omega))
  omega

structure Tame (cfg : Settings) (s t : Store) : Prop where
  now : s.now ≤ t.now
  floor : s.floor ≤ t.floor
  fence : ∀ m x, s.fence = some (m, x) → t.now ≤ x → m ≤ t.floor ∨
    ∃ m' x', t.fence = some (m', x') ∧ m ≤ m' ∧ (x ≤ x' ∨ s.now + fenceLife cfg ≤ x')
  hash : ∀ user x, t.hash = some (user, x) → ∃ user', s.hash = some (user', x) ∧ user'.authVersion = user.authVersion

theorem Tame.guarded (h : Tame cfg s t) (hs : Guarded cfg n since s) : Guarded cfg n since t := by
  rcases hs with hs | hs
  · exact .inl (hs.trans h.floor)
  have hpast := hs.past.trans h.now
  have hhash : ∀ user x, t.hash = some (user, x) → user.authVersion < n → x ≤ since + cacheLife cfg := by
    intro user x hx hlt
    obtain ⟨user', hx', hver⟩ := h.hash user x hx
    exact hs.hash user' x hx' (hver ▸ hlt)
  rcases hs.fence with ⟨m, x, hfence, hm, hx⟩ | hlate
  · by_cases hlive : t.now ≤ x
    · rcases h.fence m x hfence hlive with hfloor | ⟨m', x', hfence', hm', hx'⟩
      · exact .inl (hm.trans hfloor)
      · refine .inr ⟨hpast, .inl ⟨m', x', hfence', hm.trans hm', ?_⟩, hhash⟩
        have := hs.past
        omega
    · exact .inr ⟨hpast, .inr (by omega), hhash⟩
  · exact .inr ⟨hpast, .inr (hlate.trans_le h.now), hhash⟩

theorem Tame.of_same (hnow : s.now ≤ t.now) (hfloor : t.floor = s.floor) (hfence : t.fence = s.fence)
    (hhash : t.hash = s.hash ∨ t.hash = none) : Tame cfg s t := by
  refine ⟨hnow, hfloor.ge, fun m x h _ => .inr ⟨m, x, hfence.trans h, le_rfl, .inl le_rfl⟩, fun user x h => ?_⟩
  rcases hhash with hhash | hhash
  · exact ⟨user, hhash.symm.trans h, rfl⟩
  · rw [hhash] at h
    cases h

theorem tame_setFence (incoming : Int) : Tame cfg s (s.setFence call incoming cfg.userAuthFenceTTLSeconds) := by
  refine ⟨le_rfl, le_rfl, fun m x h hlive => .inr ?_, fun user x h => ⟨user, h, rfl⟩⟩
  unfold Store.setFence
  split
  · rename_i hle
    rw [pending_of_live h hlive] at hle
    exact ⟨incoming, _, rfl, hle, .inr le_rfl⟩
  · exact ⟨m, x, h, le_rfl, .inl le_rfl⟩

theorem tame_publish (incoming : Int) : Tame cfg s (s.publish incoming) := by
  refine ⟨le_rfl, ?_, fun m x h hlive => ?_, fun user x h => ⟨user, h, rfl⟩⟩
  · rw [publish_floor]
    exact le_max_left _ _
  have hpending := pending_of_live h hlive
  by_cases hdel : s.pending > 0 ∧ s.pending ≤ incoming
  · rw [publish_floor]
    exact .inl (by omega)
  refine .inr ⟨m, x, ?_, le_rfl, .inl le_rfl⟩
  unfold Store.publish
  rw [if_neg hdel]
  exact h

theorem Tame.later (h : Tame cfg s t) (hversion : s.version ≤ t.version) (hsnapshots : s.snapshots ⊆ t.snapshots)
    (hfences : s.fences ⊆ t.fences) : Later cfg s t :=
  ⟨h.now, hversion, hsnapshots, hfences, fun _ _ _ => h.guarded⟩

/-! ## One access -/

theorem truthful_note (h : Truthful cfg s) (hversion : version ≤ s.version) : Truthful cfg (s.note call version) := by
  refine ⟨fun x hx => ?_, fun x hx => ?_, h.row, h.fence, h.floor, h.hash⟩
  · rcases List.mem_append.mp hx with hx | hx
    · exact h.times x hx
    · rw [List.mem_singleton.mp hx]
      exact le_rfl
  · rcases List.mem_append.mp hx with hx | hx
    · exact h.known x hx
    · rw [List.mem_singleton.mp hx]
      exact hversion

theorem later_note (version : Int) : Later cfg s (s.note call version) := by
  have htame : Tame cfg s (s.note call version) := .of_same le_rfl rfl rfl (.inl rfl)
  exact htame.later le_rfl (List.subset_append_left _ _) (List.Subset.refl _)

theorem truthful_publish (h : Truthful cfg s) (hincoming : incoming ≤ s.version) :
    Truthful cfg (s.publish incoming) := by
  refine ⟨h.times, h.known, h.row, fun m x hx => ?_, ?_, h.hash⟩
  · refine h.fence m x ?_
    unfold Store.publish at hx
    split at hx
    · cases hx
    · exact hx
  · rw [publish_floor]
    have := h.floor
    show max s.floor incoming ≤ max s.version 0
    omega

theorem later_publish (incoming : Int) : Later cfg s (s.publish incoming) :=
  (tame_publish incoming).later le_rfl (List.Subset.refl _) (List.Subset.refl _)

theorem truthful_hash (h : Truthful cfg s)
    (hhash : ∀ user x, hash = some (user, x) → user.authVersion ≤ s.version ∧ x ≤ s.now + cacheLife cfg) :
    Truthful cfg { s with hash } := ⟨h.times, h.known, h.row, h.fence, h.floor, hhash⟩

theorem later_admitted (hadmitted : s.admit incoming = some t) : Later cfg s { t with hash } := by
  obtain ⟨-, -, rfl⟩ := admit_eq_some hadmitted
  refine ⟨le_rfl, le_rfl, List.Subset.refl _, List.Subset.refl _, fun n since hnow hs => .inl ?_⟩
  show n ≤ (s.publish incoming).floor
  rcases hs with hs | hs
  · rw [publish_floor]
    exact hs.trans (le_max_left _ _)
  · exact hs.admitted hadmitted fun _ => hnow

theorem set_authVersion (user : UserBase) (field : Field) (value : String) :
    (user.set field value).authVersion = user.authVersion := by
  cases field <;> rfl

theorem setFence_keeps (h : Truthful cfg s) (hincoming : incoming ≤ max s.version 1 + 1) :
    Truthful cfg (s.setFence call incoming cfg.userAuthFenceTTLSeconds) ∧
      Later cfg s (s.setFence call incoming cfg.userAuthFenceTTLSeconds) := by
  constructor
  · refine ⟨h.times, h.known, h.row, fun m x hx => ?_, h.floor, h.hash⟩
    unfold Store.setFence at hx
    split at hx
    · cases hx
      exact hincoming
    · exact h.fence m x hx
  · exact (tame_setFence incoming).later le_rfl (List.Subset.refl _) (List.subset_append_left _ _)

theorem commit_cases (s : Store) (call : Nat) (current next : Int) (change : Change) :
    s.commit call current next change = (none, s) ∨
    ∃ row written, s.row = some row ∧ row.authVersion = current ∧ written.authVersion = next ∧
      s.commit call current next change = (some written,
        { s with
          row := if change = .hardDelete then none else some written
          version := next
          snapshots := s.snapshots ++ [(call, next, s.now)] }) := by
  unfold Store.commit
  split
  · exact .inl rfl
  rename_i row hrow
  split
  · exact .inl rfl
  · rename_i hcurrent
    exact .inr ⟨row, _, hrow, not_not.mp hcurrent, rfl, rfl⟩

theorem commit_keeps (h : Truthful cfg s) (hnext : next = max current 1 + 1) :
    Truthful cfg (s.commit call current next change).2 ∧ Later cfg s (s.commit call current next change).2 := by
  rcases commit_cases s call current next change with hnone | ⟨row, _, hrow, hcurrent, hwritten, hsome⟩
  · rw [hnone]
    exact ⟨h, .refl s⟩
  rw [hsome]
  have hversion : current = s.version := hcurrent.symm.trans (h.row row hrow)
  have hlt : s.version < next := by omega
  constructor
  · refine ⟨fun x hx => ?_, fun x hx => ?_, fun row' hrow' => ?_, fun m x hx => ?_, ?_, fun user x hx => ?_⟩
    · rcases List.mem_append.mp hx with hx | hx
      · exact h.times x hx
      · obtain rfl := List.mem_singleton.mp hx
        exact le_rfl
    · rcases List.mem_append.mp hx with hx | hx
      · exact (h.known x hx).trans hlt.le
      · obtain rfl := List.mem_singleton.mp hx
        exact le_rfl
    · split at hrow'
      · cases hrow'
      · cases hrow'
        exact hwritten
    · have := h.fence m x hx
      dsimp only
      omega
    · have := h.floor
      dsimp only
      omega
    · exact ⟨(h.hash user x hx).1.trans hlt.le, (h.hash user x hx).2⟩
  · refine Tame.later (.of_same le_rfl rfl rfl (.inl rfl)) hlt.le ?_ (List.Subset.refl _)
    exact List.subset_append_left _ _

theorem find_ok {row : User} (h : s.find = .ok row) : s.row = some row ∧ row.deleted = false := by
  unfold Store.find at h
  split at h
  · cases h
  split at h
  · cases h
  · rename_i row' hrow hdeleted
    cases h
    exact ⟨hrow, by simpa using hdeleted⟩

def Writes (version : Int) : Op → Prop
  | .writeUserCache user _ => user.authVersion = version
  | .updateField _ _ authVersion => authVersion = version
  | _ => False

inductive Effect (cfg : Settings) (call : Nat) (s : Store) : Op → Bool → Store → Prop where
  | same (op : Op) (fails : Bool) : Effect cfg call s op fails s
  | find {row : User} (hrow : s.find = .ok row) : Effect cfg call s .find false (s.note call row.authVersion)
  | save {row : User} (values : User) (hrow : s.find = .ok row) :
    Effect cfg call s (.save values) false ({ s with row := some (row.edit values) }.note call row.authVersion)
  | hGetAll {user : UserBase} (hcached : s.cached = some user) :
    Effect cfg call s .hGetAll false (s.note call user.authVersion)
  | admitted {op : Op} {version : Int} {t : Store} {hash : Option (UserBase × Int)} (hop : Writes version op)
    (hadmitted : s.admit version = some t) (hhash : ∀ user x, hash = some (user, x) →
      user.authVersion = version ∧ x = s.now + cacheLife cfg ∨
        ∃ old, s.hash = some (old, x) ∧ old.authVersion = user.authVersion) : Effect cfg call s op false { t with hash }
  | setFence (authVersion : Int) :
    Effect cfg call s (.setFence authVersion) false (s.setFence call authVersion cfg.userAuthFenceTTLSeconds)
  | publish (authVersion : Int) : Effect cfg call s (.publish authVersion) false (s.publish authVersion)
  | commit (current next : Int) (change : Change) :
    Effect cfg call s (.commit current next change) false (s.commit call current next change).2
  | del : Effect cfg call s .del false { s with hash := none }

theorem Effect.of_admitted (hop : Writes version op) (hadmitted : s.admit version = some t) :
    Effect cfg call s op false t := by
  refine .admitted hop hadmitted fun user x hx => .inr ⟨user, ?_, rfl⟩
  obtain ⟨-, -, rfl⟩ := admit_eq_some hadmitted
  exact hx

theorem writeUserCache_effect (user : UserBase) (includeQuota : Bool) :
    Effect cfg call s (.writeUserCache user includeQuota) false
      (s.writeUserCache user includeQuota cfg.userCacheTTLSeconds).2 := by
  unfold Store.writeUserCache
  split
  · exact .same _ _
  rename_i hadmitted
  split
  · exact .of_admitted rfl hadmitted
  · refine .admitted rfl hadmitted fun user' x hx => .inl ?_
    cases hx
    exact ⟨rfl, rfl⟩

theorem updateField_effect (field : Field) (value : String) (authVersion : Int) :
    Effect cfg call s (.updateField field value authVersion) false (s.updateField field value authVersion).2 := by
  unfold Store.updateField
  split
  · exact .same _ _
  rename_i hadmitted
  split
  · rename_i expireAt user hhash hcached
    split
    · exact .of_admitted rfl hadmitted
    refine .admitted rfl hadmitted fun user' x hx => .inr ⟨user, ?_, ?_⟩
    · obtain ⟨_, hx', -⟩ := cached_eq_some hcached
      cases hx
      rw [hhash] at hx' ⊢
      cases hx'
      rfl
    · cases hx
      exact (set_authVersion user field value).symm
  · exact .of_admitted rfl hadmitted

theorem act_effect {r : Ans op} (hact : act cfg call op fails s = some (r, t)) : Effect cfg call s op fails t := by
  obtain rfl : (act cfg call op fails s).elim s Prod.snd = t := by rw [hact]; rfl
  cases fails with
  | true => cases op <;> exact .same _ _
  | false =>
    cases op with
    | find =>
      simp only [act, Bool.false_eq_true, if_false]
      split
      · exact .same _ _
      · exact .find ‹_›
    | lock | mGet => exact .same _ _
    | save values =>
      simp only [act, Bool.false_eq_true, if_false]
      split
      · exact .same _ _
      · exact .save values ‹_›
    | hGetAll =>
      simp only [act, Bool.false_eq_true, if_false]
      split
      · exact .same _ _
      · exact .hGetAll ‹_›
    | writeUserCache user includeQuota => exact writeUserCache_effect user includeQuota
    | updateField field value authVersion => exact updateField_effect field value authVersion
    | setFence authVersion => exact .setFence authVersion
    | publish authVersion => exact .publish authVersion
    | commit current next change => exact .commit current next change
    | del => exact .del

theorem truthful_admitted (h : Truthful cfg s) (hversion : version ≤ s.version)
    (hadmitted : s.admit version = some t) (hhash : ∀ user x, hash = some (user, x) →
      user.authVersion = version ∧ x = s.now + cacheLife cfg ∨
        ∃ old, s.hash = some (old, x) ∧ old.authVersion = user.authVersion) : Truthful cfg { t with hash } := by
  obtain ⟨-, -, rfl⟩ := admit_eq_some hadmitted
  refine truthful_hash (truthful_publish h hversion) fun user x hx => ?_
  rcases hhash user x hx with ⟨rfl, rfl⟩ | ⟨old, hold, hver⟩
  · exact ⟨hversion, le_rfl⟩
  · rw [← hver]
    exact h.hash old x hold

theorem lawful_writes (hop : Writes version op) (h : Lawful cfg call op s) : ∃ t, (call, version, t) ∈ s.snapshots := by
  cases op <;> cases hop <;> exact h

theorem act_keeps {r : Ans op} (h : Truthful cfg s) (hlawful : Lawful cfg call op s)
    (hact : act cfg call op fails s = some (r, t)) : Truthful cfg t ∧ Later cfg s t := by
  have same : s.snapshots ⊆ s.snapshots := List.Subset.refl _
  cases act_effect hact with
  | same => exact ⟨h, .refl s⟩
  | find hrow => exact ⟨truthful_note h (h.row _ (find_ok hrow).1).le, later_note _⟩
  | @save row values hrow =>
    have hversion := h.row row (find_ok hrow).1
    have hedited : Truthful cfg { s with row := some (row.edit values) } := by
      refine ⟨h.times, h.known, fun row' hrow' => ?_, h.fence, h.floor, h.hash⟩
      cases hrow'
      exact hversion
    have htame : Tame cfg s { s with row := some (row.edit values) } := .of_same le_rfl rfl rfl (.inl rfl)
    exact ⟨truthful_note hedited hversion.le, (htame.later le_rfl same (List.Subset.refl _)).trans (later_note _)⟩
  | hGetAll hcached =>
    obtain ⟨x, hhash, -⟩ := cached_eq_some hcached
    exact ⟨truthful_note h (h.hash _ x hhash).1, later_note _⟩
  | admitted hop hadmitted hhash =>
    obtain ⟨_, hseen⟩ := lawful_writes hop hlawful
    exact ⟨truthful_admitted h (h.known _ hseen) hadmitted hhash, later_admitted hadmitted⟩
  | setFence => exact setFence_keeps h hlawful
  | publish authVersion => exact ⟨truthful_publish h hlawful, later_publish authVersion⟩
  | commit => exact commit_keeps h hlawful.1
  | del =>
    have htame : Tame cfg s { s with hash := none } := .of_same le_rfl rfl rfl (.inr rfl)
    refine ⟨truthful_hash h (fun user x hx => ?_), htame.later le_rfl same (List.Subset.refl _)⟩
    cases hx

/-! ## The committed version -/

/-- Who has seen a lower version comes before the new fence expires. -/
structure Paced (cfg : Settings) (tx fill : Int) : Prop where
  nonneg : 0 ≤ fill
  fits : max tx (cacheLife cfg) + fill ≤ fenceLife cfg

theorem settled_of_admitted (hpace : Paced cfg tx fill)
    (h : Settled cfg (max tx (cacheLife cfg)) s) (hseen : ∃ x ∈ s.snapshots, x.2.1 = incoming ∧ s.now ≤ x.2.2 + fill)
    (hadmitted : s.admit incoming = some t) : Settled cfg (max tx (cacheLife cfg)) { t with hash } := by
  obtain ⟨-, -, rfl⟩ := admit_eq_some hadmitted
  left
  show s.version ≤ (s.publish incoming).floor
  rcases h with h | ⟨_, hc, hold⟩
  · rw [publish_floor]
    exact h.trans (le_max_left _ _)
  refine hc.admitted hadmitted fun hlt => ?_
  obtain ⟨x, hx, rfl, hfill⟩ := hseen
  have := hold x hx hlt
  have := hpace.fits
  omega

theorem settled_of_tame (h : Settled cfg wait s) (htame : Tame cfg s t) (hversion : t.version = s.version)
    (hsnapshots : t.snapshots = s.snapshots) : Settled cfg wait t := by
  unfold Settled
  rw [hversion, hsnapshots]
  rcases h with h | ⟨since, hc, hold⟩
  · exact .inl (h.trans htame.floor)
  · exact (htame.guarded (.inr hc)).imp_right fun hc => ⟨since, hc, hold⟩

theorem settled_note (h : Settled cfg (max tx (cacheLife cfg)) s)
    (hversion : version = s.version ∨ ∃ user x, s.hash = some (user, x) ∧ s.now ≤ x ∧ user.authVersion = version) :
    Settled cfg (max tx (cacheLife cfg)) (s.note call version) := by
  refine h.imp_right fun ⟨since, hc, hold⟩ => ⟨since, ⟨hc.past, hc.fence, hc.hash⟩, fun x hx hlt => ?_⟩
  rcases List.mem_append.mp hx with hx | hx
  · exact hold x hx hlt
  obtain rfl := List.mem_singleton.mp hx
  rcases hversion with rfl | ⟨user, x, hhash, hlive, rfl⟩
  · exact absurd hlt (lt_irrefl _)
  -- What is read from the hash is as old as the hash.
  have := hc.hash user x hhash hlt
  show s.now ≤ _
  omega

theorem settled_commit (hpace : Paced cfg tx fill) (h : Truthful cfg s)
    (hs : Settled cfg (max tx (cacheLife cfg)) s) (henabled : cfg.redisEnabled = true)
    (hlawful : Lawful cfg call (.commit current next change) s) (hbrisk : Brisk tx fill call (.commit current next change) s) :
    Settled cfg (max tx (cacheLife cfg)) (s.commit call current next change).2 := by
  rcases commit_cases s call current next change with hnone | ⟨row, _, hrow, hcurrent, hwritten, hsome⟩
  · rw [hnone]
    exact hs
  rw [hsome]
  obtain ⟨since, hfence, hready⟩ := hlawful.2 henabled
  have htime : s.now ≤ since + tx := hbrisk _ hfence rfl rfl
  have hfits := hpace.fits
  have hnonneg := hpace.nonneg
  have hguarded := hready ((h.row row hrow).symm.trans hcurrent) (by omega)
  refine hguarded.imp id fun hc => ⟨since, ⟨hc.past, hc.fence, hc.hash⟩, fun x hx hlt => ?_⟩
  rcases List.mem_append.mp hx with hx | hx
  · have := h.times x hx
    omega
  · obtain rfl := List.mem_singleton.mp hx
    exact absurd hlt (lt_irrefl _)

theorem brisk_writes (hop : Writes version op) (h : Brisk tx fill call op s) {time : Int}
    (hseen : (call, version, time) ∈ s.snapshots) : s.now ≤ time + fill := by
  cases op <;> cases hop <;> exact h _ hseen rfl rfl

theorem act_settled {r : Ans op} (hpace : Paced cfg tx fill) (henabled : cfg.redisEnabled = true)
    (h : Truthful cfg s) (hs : Settled cfg (max tx (cacheLife cfg)) s) (hlawful : Lawful cfg call op s)
    (hbrisk : Brisk tx fill call op s) (hact : act cfg call op fails s = some (r, t)) :
    Settled cfg (max tx (cacheLife cfg)) t := by
  cases act_effect hact with
  | same => exact hs
  | find hrow => exact settled_note hs (.inl (h.row _ (find_ok hrow).1))
  | save values hrow =>
    refine settled_note ?_ (.inl (h.row _ (find_ok hrow).1))
    exact settled_of_tame hs (.of_same le_rfl rfl rfl (.inl rfl)) rfl rfl
  | hGetAll hcached =>
    obtain ⟨x, hhash, hlive⟩ := cached_eq_some hcached
    exact settled_note hs (.inr ⟨_, x, hhash, hlive, rfl⟩)
  | admitted hop hadmitted =>
    obtain ⟨_, hseen⟩ := lawful_writes hop hlawful
    exact settled_of_admitted hpace hs ⟨_, hseen, rfl, brisk_writes hop hbrisk hseen⟩ hadmitted
  | setFence authVersion => exact settled_of_tame hs (tame_setFence authVersion) rfl rfl
  | publish authVersion => exact settled_of_tame hs (tame_publish authVersion) rfl rfl
  | commit => exact settled_commit hpace h hs henabled hlawful hbrisk
  | del => exact settled_of_tame hs (.of_same le_rfl rfl rfl (.inr rfl)) rfl rfl

/-! ## One call -/

structure Good (cfg : Settings) (tx : Int) (timed : Prop) (n : Int) (s : Store) : Prop where
  truthful : Truthful cfg s
  settled : timed → cfg.redisEnabled = true → Settled cfg (max tx (cacheLife cfg)) s
  version : n ≤ s.version

def Ok (cfg : Settings) (tx fill : Int) (timed : Prop) (n : Int) (call : Nat) {α : Type} (Q : α → Store → Prop) :
    Call α → Store → Prop :=
  Sat (act cfg call) (fun op _ s => timed → Brisk tx fill call op s) (Good cfg tx timed n) (Later cfg) (Later cfg) Q

variable {timed : Prop} {α β : Type} {Q : α → Store → Prop}

theorem Ok.access {next : Ans op → Call α} (hpace : timed → Paced cfg tx fill)
    (hlawful : ∀ t, Later cfg s t → Good cfg tx timed n t → Lawful cfg call op t)
    (hnext : ∀ t fails r u, Later cfg s t → Good cfg tx timed n t → (timed → Brisk tx fill call op t) →
      act cfg call op fails t = some (r, u) → Later cfg s u → Good cfg tx timed n u →
      Ok cfg tx fill timed n call Q (next r) u) : Ok cfg tx fill timed n call Q (.access op next) s := by
  intro t ht hgood fails r u hbrisk hact
  have hlaw := hlawful t ht hgood
  obtain ⟨htruthful, hlater⟩ := act_keeps hgood.truthful hlaw hact
  have hgood' : Good cfg tx timed n u :=
    ⟨htruthful, fun htimed henabled => act_settled (hpace htimed) henabled hgood.truthful (hgood.settled htimed henabled)
      hlaw (hbrisk htimed) hact, hgood.version.trans hlater.version⟩
  exact ⟨hgood', hlater, hnext t fails r u ht hgood hbrisk hact (ht.trans hlater) hgood'⟩

theorem Ok.done {a : α} (h : ∀ t, Later cfg s t → Good cfg tx timed n t → Q a t) :
    Ok cfg tx fill timed n call Q (.done a) s := h

theorem Ok.bind {P : β → Store → Prop} {p : Call β} {f : β → Call α} (h : Ok cfg tx fill timed n call P p s)
    (hs : Good cfg tx timed n s) (hf : ∀ b t, Good cfg tx timed n t → P b t → Ok cfg tx fill timed n call Q (f b) t) :
    Ok cfg tx fill timed n call Q (p.bind f) s := Sat.bind Later.refl h hs hf

abbrev Runs (cfg : Settings) (tx fill : Int) (timed : Prop) (n : Int) (call : Nat) {α : Type} : Call α → Store → Prop :=
  Ok cfg tx fill timed n call fun _ _ => True

theorem Runs.done {a : α} : Runs cfg tx fill timed n call (.done a) s := Ok.done fun _ _ _ => trivial

def Seen (call : Nat) (version : Int) (s : Store) : Prop := ∃ t, (call, version, t) ∈ s.snapshots

theorem Seen.later (h : Seen call version s) (hst : Later cfg s t) : Seen call version t := by
  obtain ⟨time, hmem⟩ := h
  exact ⟨time, hst.snapshots hmem⟩

theorem seen_note (version : Int) : Seen call version (s.note call version) :=
  ⟨s.now, by simp [Store.note]⟩

def Read (call : Nat) (n : Int) (r : Except CacheError User) (t : Store) : Prop :=
  ∀ user, r = .ok user → Seen call user.authVersion t ∧ n ≤ user.authVersion

theorem Read.later {r : Except CacheError User} (h : Read call n r s) (hst : Later cfg s t) : Read call n r t :=
  fun user hr => ⟨(h user hr).1.later hst, (h user hr).2⟩

theorem find_read {r : Ans .find} (h : Good cfg tx timed n s)
    (hact : act cfg call .find fails s = some (r, t)) : Read call n r t := by
  rintro user rfl
  cases fails with
  | true => cases hact
  | false =>
    simp only [act, Bool.false_eq_true, if_false] at hact
    split at hact
    · cases hact
    · rename_i row hrow
      cases hact
      exact ⟨seen_note _, (h.truthful.row user (find_ok hrow).1) ▸ h.version⟩

def Fresh (n : Int) (r : Except CacheError UserBase) : Prop := ∀ user, r = .ok user → n ≤ user.authVersion

theorem mGet_bounds (hpace : Paced cfg tx fill) (hs : Settled cfg (max tx (cacheLife cfg)) s)
    (hbrisk : Brisk tx fill call .mGet s) (hseen : Seen call version s) (hlt : version < s.version) :
    version < max (max s.pending s.floor) 0 := by
  rcases hs with hfloor | ⟨since, hc, hold⟩
  · omega
  obtain ⟨time, hmem⟩ := hseen
  have hfill : s.now ≤ time + fill := hbrisk _ hmem rfl
  have hwait : time ≤ since + max tx (cacheLife cfg) := hold _ hmem hlt
  have hfits := hpace.fits
  have hpending := hc.pending (by omega)
  omega

/-- The call has set the fence after `current`, and nothing has been committed since. -/
def Announced (cfg : Settings) (call : Nat) (current : Int) (s : Store) : Prop :=
  current ≤ s.version ∧ (cfg.redisEnabled = true → ∃ since, (call, max current 1 + 1, since) ∈ s.fences ∧
    (s.version = current → s.now ≤ since + fenceLife cfg → Guarded cfg (max current 1 + 1) since s))

theorem Announced.later (h : Announced cfg call current s) (hst : Later cfg s t) : Announced cfg call current t := by
  refine ⟨h.1.trans hst.version, fun henabled => ?_⟩
  obtain ⟨since, hmem, hguarded⟩ := h.2 henabled
  refine ⟨since, hst.fences hmem, fun hversion hnow => hst.guarded _ _ hnow (hguarded ?_ (hst.time.trans hnow))⟩
  exact le_antisymm (hversion ▸ hst.version) h.1

theorem setFence_announces (h : Truthful cfg s) (hcurrent : current ≤ s.version) :
    Announced cfg call current (s.setFence call (max current 1 + 1) cfg.userAuthFenceTTLSeconds) := by
  refine ⟨hcurrent, fun _ => ⟨s.now, by simp [Store.setFence], fun hversion _ => .inr ⟨le_rfl, .inl ?_, ?_⟩⟩⟩
  · have hversion : s.version = current := hversion
    have hpending : s.pending ≤ max current 1 + 1 := by
      unfold Store.pending
      cases hfence : s.fence with
      | none => simp; omega
      | some f =>
        obtain ⟨m, x⟩ := f
        have hm := h.fence m x hfence
        dsimp only [Option.bind_some]
        split
        · simp; omega
        · simp; omega
    unfold Store.setFence
    rw [if_pos hpending]
    exact ⟨_, _, rfl, le_rfl, le_rfl⟩
  · exact fun user x hx _ => (h.hash user x hx).2

theorem lock_ok (hact : act cfg call .lock fails s = some (.ok version, t)) :
    t = s ∧ ∃ row, s.row = some row ∧ row.authVersion = version := by
  obtain rfl : s = t := congrArg Prod.snd (Option.some.inj hact)
  have hread := congrArg Prod.fst (Option.some.inj hact)
  cases fails with
  | true => cases hread
  | false =>
    cases hrow : s.row with
    | none =>
      simp only [hrow] at hread
      cases hread
    | some row =>
      simp only [hrow] at hread
      cases hread
      exact ⟨rfl, row, rfl, rfl⟩

theorem commit_ok {written : User}
    (hact : act cfg call (.commit current next change) fails s = some (.ok (some written), t)) :
    written.authVersion = next ∧ t.version = next ∧ (call, next, s.now) ∈ t.snapshots := by
  cases fails with
  | true => cases hact
  | false =>
    obtain rfl : (s.commit call current next change).2 = t := congrArg Prod.snd (Option.some.inj hact)
    have hwritten : (s.commit call current next change).1 = some written :=
      Except.ok.inj (congrArg Prod.fst (Option.some.inj hact))
    rcases commit_cases s call current next change with hnone | ⟨_, _, -, -, hnext, hsome⟩
    · rw [hnone] at hwritten
      cases hwritten
    · rw [hsome] at hwritten ⊢
      cases hwritten
      exact ⟨hnext, rfl, by simp⟩

def Committed (call : Nat) (r : Except CacheError User) (t : Store) : Prop :=
  ∀ user, r = .ok user → Seen call user.authVersion t ∧ user.authVersion ≤ t.version

theorem Committed.later {r : Except CacheError User} (h : Committed call r s) (hst : Later cfg s t) : Committed call r t :=
  fun user hr => ⟨(h user hr).1.later hst, (h user hr).2.trans hst.version⟩

section Calls

variable (hpace : timed → Paced cfg tx fill)

include hpace

theorem Ok.find {next : Except CacheError User → Call α}
    (h : ∀ r t, Later cfg s t → Good cfg tx timed n t → Read call n r t → Ok cfg tx fill timed n call Q (next r) t) :
    Ok cfg tx fill timed n call Q (.access .find next) s :=
  Ok.access hpace (fun _ _ _ => trivial) fun _ _ r _ _ hgood _ hact hu hgood' => h r _ hu hgood' (find_read hgood hact)

theorem getUserById_ok : Ok cfg tx fill timed n call (Read call n) (getUserById cfg) s := by
  unfold getUserById
  split
  · exact Ok.done fun _ _ _ user h => by cases h
  · exact Ok.find hpace fun r t _ _ hr => Ok.done fun u hu _ => hr.later hu

theorem writeUserCache_ok {user : UserBase} {includeQuota : Bool} (hseen : Seen call user.authVersion s) :
    Runs cfg tx fill timed n call (writeUserCache cfg user includeQuota) s := by
  unfold writeUserCache
  split
  · exact Runs.done
  split
  · exact Runs.done
  · refine Ok.access hpace (fun t ht _ => hseen.later ht) fun _ _ r u _ _ _ _ hu _ => ?_
    split <;> exact Runs.done

theorem updateUserCache_ok {user : User} (hseen : Seen call user.authVersion s) :
    Runs cfg tx fill timed n call (updateUserCache cfg user) s := by
  unfold updateUserCache
  split
  · exact Runs.done
  · exact writeUserCache_ok hpace hseen

theorem floor_ok : Ok cfg tx fill timed n call
    (fun r t => Later cfg s t ∧ ∀ floor, r = .ok floor → timed → cfg.redisEnabled = true →
      ∀ version, Seen call version s → n ≤ version ∨ version < floor) (getUserAuthVersionFloor cfg) s := by
  unfold getUserAuthVersionFloor
  split
  · exact Ok.done fun _ ht _ => ⟨ht, fun _ _ _ henabled => absurd henabled ‹_›⟩
  refine Ok.access hpace (fun _ _ _ => trivial) fun t fails r u ht hgood hbrisk hact hu _ => ?_
  split
  · exact Ok.done fun _ hv _ => ⟨hu.trans hv, fun _ h => by cases h⟩
  rename_i floor
  refine Ok.done fun _ hv _ => ⟨hu.trans hv, fun floor' h htimed henabled version hseen => ?_⟩
  cases h
  cases fails with
  | true => cases hact
  | false =>
    have hfloor : max (max t.pending t.floor) 0 = floor := Option.some.inj (congrArg Prod.fst (Option.some.inj hact))
    rw [or_iff_not_imp_left, ← hfloor]
    intro hlt
    have := hgood.version
    exact mGet_bounds (hpace htimed) (hgood.settled htimed henabled) (hbrisk htimed) (hseen.later ht) (by omega)

theorem cacheGetUserBase_ok : Ok cfg tx fill timed n call (fun r _ => timed → Fresh n r) (cacheGetUserBase cfg) s := by
  unfold cacheGetUserBase
  split
  · exact Ok.done fun _ _ _ _ _ h => by cases h
  rename_i henabled
  refine Ok.access hpace (fun _ _ _ => trivial) fun t fails r u ht hgood _ hact _ hgood' => ?_
  split
  · exact Ok.done fun _ _ _ _ _ h => by cases h
  rename_i user
  have hseen : Seen call user.authVersion u := by
    cases fails with
    | true => cases hact
    | false =>
      simp only [act, Bool.false_eq_true, if_false] at hact
      split at hact
      · cases hact
      · cases hact
        exact seen_note _
  split
  · exact Ok.done fun _ _ _ _ _ h => by cases h
  refine Ok.bind (floor_ok hpace) hgood' fun r v _ hfloor => ?_
  split
  · exact Ok.done fun _ _ _ _ _ h => by cases h
  rename_i floor
  refine Ok.done fun _ _ _ htimed user' h => ?_
  split at h
  · cases h
  · rename_i hle
    cases h
    exact (hfloor.2 floor rfl htimed (not_not.mp henabled) _ hseen).resolve_right hle

theorem getUserFromDatabase_ok (hs : Good cfg tx timed n s) :
    Ok cfg tx fill timed n call (fun r _ => Fresh n r) (getUserFromDatabase cfg) s := by
  have herror : ∀ {e u}, Ok cfg tx fill timed n call (fun r _ => Fresh n r) (.done (.error e)) u :=
    Ok.done fun _ _ _ _ h => by cases h
  refine Ok.bind (getUserById_ok hpace) hs fun r t hgood hr => ?_
  split
  · exact herror
  rename_i user
  obtain ⟨hseen, hversion⟩ := hr user rfl
  have hok : ∀ {u}, Ok cfg tx fill timed n call (fun r _ => Fresh n r) (.done (.ok user.toBaseUser)) u := by
    refine Ok.done fun _ _ _ _ h => ?_
    cases h
    exact hversion
  split
  · exact hok
  refine Ok.bind (floor_ok hpace) hgood fun floor u hgood' hu => ?_
  split
  · exact herror
  have hwrite : Runs cfg tx fill timed n call (populateUserCache cfg user) u := by
    unfold populateUserCache
    split
    · exact Ok.done fun _ _ _ => trivial
    · exact writeUserCache_ok hpace (hseen.later hu.1)
  refine Ok.bind hwrite hgood' fun r v _ _ => ?_
  split
  · exact herror
  · exact hok

theorem getUserCache_ok (hs : Good cfg tx timed n s) :
    Ok cfg tx fill timed n call (fun r _ => timed → Fresh n r) (getUserCache cfg) s := by
  refine Ok.bind (cacheGetUserBase_ok hpace) hs fun r t hgood hr => ?_
  split
  · rename_i user
    refine Ok.done fun _ _ _ htimed user' h => ?_
    cases h
    exact hr htimed user rfl
  · exact Sat.weaken (getUserFromDatabase_ok hpace hgood) fun _ _ _ h _ => h

theorem updateUserCacheFieldAtVersion_ok {field : Field} {value : String} {authVersion : Int} (hseen : Seen call authVersion s) :
    Runs cfg tx fill timed n call (updateUserCacheFieldAtVersion cfg field value authVersion) s := by
  unfold updateUserCacheFieldAtVersion
  split
  · exact Runs.done
  split
  · exact Runs.done
  · refine Ok.access hpace (fun t ht _ => hseen.later ht) fun _ _ r u _ _ _ _ hu _ => ?_
    split <;> exact Runs.done

theorem updateUserCacheField_ok {field : Field} {value : String} : Runs cfg tx fill timed n call (updateUserCacheField cfg field value) s := by
  unfold updateUserCacheField
  split
  · exact Runs.done
  refine Ok.find hpace fun r t _ _ hr => ?_
  split
  · exact Runs.done
  · split
    · exact Runs.done
    · exact updateUserCacheFieldAtVersion_ok hpace (hr _ rfl).1

theorem refreshLoop_ok {user : User} {attempts : Nat}
    (hs : Good cfg tx timed n s) (hseen : Seen call user.authVersion s) :
    Runs cfg tx fill timed n call (refreshLoop cfg user attempts) s := by
  induction attempts generalizing s user with
  | zero =>
    rw [refreshLoop]
    refine Ok.bind (updateUserCacheFieldAtVersion_ok hpace hseen) hs fun r t _ _ => ?_
    split <;> exact Runs.done
  | succ attempts ih =>
    rw [refreshLoop]
    refine Ok.bind (updateUserCacheFieldAtVersion_ok hpace hseen) hs fun r t _ _ => ?_
    split
    · exact Runs.done
    refine Ok.find hpace fun r u _ hgood hr => ?_
    split
    · exact Runs.done
    · split
      · exact Runs.done
      · exact ih hgood (hr _ rfl).1

theorem refreshUserGroupCache_ok : Runs cfg tx fill timed n call (refreshUserGroupCache cfg) s := by
  unfold refreshUserGroupCache
  split
  · exact Runs.done
  split
  · exact Runs.done
  refine Ok.find hpace fun r t _ hgood hr => ?_
  split
  · exact Runs.done
  · exact refreshLoop_ok hpace hgood (hr _ rfl).1

theorem publishUserAuthCache_ok (hs : Good cfg tx timed n s) :
    Runs cfg tx fill timed n call (publishUserAuthCache cfg) s := by
  refine Ok.bind (getUserById_ok hpace) hs fun r t _ hr => ?_
  split
  · exact Runs.done
  · exact updateUserCache_ok hpace (hr _ rfl).1

theorem setUserAuthVersionFence_ok {current : Int} (hcurrent : current ≤ s.version) :
    Ok cfg tx fill timed n call (fun r t => r = .ok () → Announced cfg call current t)
      (setUserAuthVersionFence cfg (max current 1 + 1)) s := by
  unfold setUserAuthVersionFence
  split
  · exact Ok.done fun t ht _ _ => ⟨hcurrent.trans ht.version, fun henabled => absurd henabled ‹_›⟩
  split
  · exact Ok.done fun _ _ _ h => by cases h
  refine Ok.access hpace (fun t ht _ => ?_) fun t fails r u ht hgood _ hact _ _ => ?_
  · have := hcurrent.trans ht.version
    show max current 1 + 1 ≤ max t.version 1 + 1
    omega
  refine Ok.done fun v hv _ hr => ?_
  cases fails with
  | true =>
    obtain rfl : false = r := congrArg Prod.fst (Option.some.inj hact)
    cases hr
  | false =>
    obtain rfl := congrArg Prod.snd (Option.some.inj hact)
    exact (setFence_announces hgood.truthful (hcurrent.trans ht.version)).later hv

theorem incrementLoop_ok {change : Change} {attempts : Nat} :
    Ok cfg tx fill timed n call (Committed call) (incrementLoop cfg change attempts) s := by
  have herror : ∀ {e u}, Ok cfg tx fill timed n call (Committed call) (.done (.error e)) u :=
    Ok.done fun _ _ _ _ h => by cases h
  induction attempts generalizing s with
  | zero => exact herror
  | succ attempts ih =>
    rw [incrementLoop]
    refine Ok.access hpace (fun _ _ _ => trivial) fun t fails r u _ hgood _ hact _ hgood' => ?_
    split
    · exact herror
    obtain ⟨rfl, row, hrow, rfl⟩ := lock_ok hact
    have hversion := (hgood.truthful.row row hrow).le
    refine Ok.bind (setUserAuthVersionFence_ok hpace hversion) hgood' fun r v hgoodv hannounced => ?_
    split
    · exact herror
    have hannounced := hannounced rfl
    refine Ok.access hpace (fun w hw _ => ⟨rfl, (hannounced.later hw).2⟩) fun w fails r x hw hgoodw _ hact _ _ => ?_
    split
    · exact herror
    · exact ih
    obtain ⟨hnext, hversion, hmem⟩ := commit_ok hact
    refine Ok.done fun y hy _ => Committed.later ?_ hy
    rintro _ h
    cases h
    rw [hnext, hversion]
    exact ⟨⟨w.now, hmem⟩, le_rfl⟩

theorem incrementUserAuthVersionWithTx_ok {change : Change} :
    Ok cfg tx fill timed n call (Committed call) (incrementUserAuthVersionWithTx cfg change) s := by
  unfold incrementUserAuthVersionWithTx
  split
  · exact Ok.done fun _ _ _ _ h => by cases h
  · exact incrementLoop_ok hpace

theorem bumpUserAuthVersion_ok (hs : Good cfg tx timed n s) : Runs cfg tx fill timed n call (bumpUserAuthVersion cfg) s := by
  refine Ok.bind (incrementUserAuthVersionWithTx_ok hpace) hs fun r t hgood _ => ?_
  split
  · exact Runs.done
  · exact publishUserAuthCache_ok hpace hgood

theorem publishCommitted_ok {authVersion : Int} (hversion : authVersion ≤ s.version) :
    Runs cfg tx fill timed n call (publishCommittedUserAuthVersion cfg authVersion) s := by
  unfold publishCommittedUserAuthVersion
  split
  · exact Runs.done
  · split
    · exact Runs.done
    · exact Ok.access hpace (fun t ht _ => hversion.trans ht.version) fun _ _ _ _ _ _ _ _ _ _ => Runs.done

theorem invalidateUserCache_ok : Runs cfg tx fill timed n call (invalidateUserCache cfg) s := by
  unfold invalidateUserCache
  split
  · exact Runs.done
  · exact Ok.access hpace (fun _ _ _ => trivial) fun _ _ _ _ _ _ _ _ _ _ => Runs.done

theorem updateUser_ok {values : User} {authChanged : Bool} (hs : Good cfg tx timed n s) :
    Runs cfg tx fill timed n call (updateUser cfg values authChanged) s := by
  unfold updateUser
  split
  · refine Ok.bind (incrementUserAuthVersionWithTx_ok hpace) hs fun r t _ hr => ?_
    split
    · exact Runs.done
    · exact updateUserCache_ok hpace (hr _ rfl).1
  · refine Ok.access hpace (fun _ _ _ => trivial) fun t fails r u _ _ _ hact _ _ => ?_
    split
    · exact Runs.done
    refine updateUserCache_ok hpace ?_
    cases fails with
    | true => cases hact
    | false =>
      simp only [act, Bool.false_eq_true, if_false] at hact
      split at hact
      · cases hact
      · cases hact
        exact seen_note _

theorem deleteUser_ok (hs : Good cfg tx timed n s) : Runs cfg tx fill timed n call (deleteUser cfg) s := by
  refine Ok.bind (incrementUserAuthVersionWithTx_ok hpace) hs fun r t hgood hr => ?_
  split
  · exact Runs.done
  refine Ok.bind (publishCommitted_ok hpace (hr _ rfl).2) hgood fun r u _ _ => ?_
  split
  · exact Runs.done
  · exact invalidateUserCache_ok hpace

theorem hardDeleteUser_ok (hs : Good cfg tx timed n s) : Runs cfg tx fill timed n call (hardDeleteUser cfg) s := by
  refine Ok.bind (incrementUserAuthVersionWithTx_ok hpace) hs fun r t hgood hr => ?_
  split
  · exact Runs.done
  · refine Ok.bind (publishCommitted_ok hpace (hr _ rfl).2) hgood fun r u hgood _ => ?_
    refine Ok.bind (invalidateUserCache_ok hpace) hgood fun _ _ _ _ => ?_
    exact Runs.done

end Calls

end NewApi.Auth.UserCache
