import NewApi.Auth.Rotation

/-!
# What becomes of a hash that is presented

The current hash is exchanged, once. No other changes anything, but the previous one ends the session after its grace.
-/

namespace NewApi.Auth

open Calls Run Table Code.UserSessions

variable {cfg : Settings} {sid presentedHash nextHash : String} {call : Nat} {α : Type} {Q : α → Store → Prop}
  {s t : Store}

/-! ## An exchange is on record -/

def Grown (s t : Store) : Prop := s.exchanges ⊆ t.exchanges

theorem Grown.refl (s : Store) : Grown s s := List.Subset.refl _

variable {op : Op} {r : Ans op} {next : Ans op → Call α} {graceSeconds time : Int} {attempts : Nat}
  {ok : Sys → Happening → Prop} {es : List (Happening)}
  {x : UserSession} {P : Int → Prop} {p : UserSession → Bool}

theorem act_grown {fails : Bool} (hact : act call op fails s = some (r, t)) : Grown s t := by
  unfold Grown
  rcases effect_hash (act_effect hact).1 with ⟨-, h⟩ | ⟨_, _, _, _, _, _, _, -, -, -, -, h⟩
  · rw [h]
    exact List.Subset.refl _
  · rw [h]
    exact List.subset_append_left _ _

def Logged (call : Nat) (Q : α → Store → Prop) : Call α → Store → Prop :=
  Sat (act call) (fun _ _ _ => True) (fun _ => True) Grown Grown Q

theorem Logged.access (hnext : ∀ t fails r u, act call op fails t = some (r, u) → Logged call Q (next r) u) :
    Logged call Q (.access op next) s :=
  fun t _ _ fails r u _ hact => ⟨trivial, act_grown hact, hnext t fails r u hact⟩

theorem Logged.any (p : Call α) (h : ∀ a t, Grown s t → Q a t) : Logged call Q p s := by
  have htrans : ∀ a b, Grown a b → Grown s a → Grown s b := fun _ _ hab hsa => List.Subset.trans hsa hab
  refine Sat.any ?_ htrans htrans (fun a t _ => h a t) p (Grown.refl s)
  exact fun _ _ _ _ _ _ _ hact => ⟨trivial, act_grown hact⟩

theorem rotate_logged {fails : Bool} (h : act call op fails s = some (r, t)) {userID now : Int}
    {session : UserSession} (hop : op = .rotate userID sid session presentedHash nextHash now graceSeconds)
    (hr : HEq r (.ok true : Except SessionError Bool)) : (call, sid, presentedHash) ∈ t.exchanges := by
  subst hop
  obtain rfl := eq_of_heq hr
  cases fails with
  | true => cases h
  | false =>
    obtain ⟨hwon, rfl⟩ := Prod.mk.injEq .. ▸ Option.some.inj h
    have hwon := Except.ok.inj hwon
    obtain ⟨-, -, hexchanges⟩ := rotate_won (Prod.ext hwon rfl)
    rw [hexchanges]
    simp

def Exchanged (call : Nat) (sid presentedHash : String) (r : Except SessionError UserSession) (t : Store) : Prop :=
  ∀ x, r = .ok x → (call, sid, presentedHash) ∈ t.exchanges

theorem rotateLoop_logged {userID now : Int} : Logged call (Exchanged call sid presentedHash)
      (rotateLoop cfg userID sid presentedHash nextHash now graceSeconds attempts) s := by
  have herror : ∀ {e u}, Logged call (Exchanged call sid presentedHash) (.done (.error e)) u :=
    fun _ _ _ x hx => by cases hx
  induction attempts generalizing s with
  | zero => exact herror
  | succ attempts ih =>
    rw [rotateLoop]
    refine Logged.access fun _ _ _ _ _ => Logged.access fun _ _ r _ _ => ?_
    split
    · exact herror
    split
    · exact herror
    split
    · refine Logged.access fun t fails r u hact => ?_
      split
      · exact herror
      · exact ih
      · have hlogged : (call, sid, presentedHash) ∈ u.exchanges := rotate_logged hact rfl HEq.rfl
        exact Logged.any _ fun _ _ hsub _ _ => hsub hlogged
    · split
      · exact herror
      split
      · exact herror
      refine Sat.bind Grown.refl (Logged.any (Q := fun _ _ => True) _ fun _ _ _ => trivial)
        trivial fun r u _ _ => ?_
      split
      · exact herror
      refine Logged.access fun _ _ r _ _ => ?_
      split
      · exact herror
      · exact herror
      · exact Sat.bind Grown.refl (Logged.any (Q := fun _ _ => True) _ fun _ _ _ => trivial)
          trivial fun _ _ _ _ => herror

theorem rotateUserSessionRefresh_logged {userID now grace : Int} : Logged call (Exchanged call sid presentedHash)
      (rotateUserSessionRefresh cfg userID sid presentedHash nextHash now grace) s := by
  have herror : ∀ {e u}, Logged call (Exchanged call sid presentedHash) (.done (.error e)) u :=
    fun _ _ _ x hx => by cases hx
  unfold rotateUserSessionRefresh withNow
  split
  · exact herror
  dsimp only
  split
  · refine Logged.access fun _ _ r _ _ => ?_
    split
    · exact herror
    · exact rotateLoop_logged
  · split
    · exact herror
    · exact rotateLoop_logged

def redemptions (cfg : Settings) : Contract (machine cfg) where
  allowed _ _ _ _ _ := True
  inv _ := True
  rely _ _ := Grown
  does _ _ := Grown
  post i name a t :=
    match name, a with
    | .rotateUserSessionRefresh _ sid presentedHash _ _ _, .session r => Exchanged i sid presentedHash r t
    | _, _ => True
  apart _ _ := True
  trans hab hbc := List.Subset.trans hab hbc
  others _ _ _ _ h := h
  env := by
    rintro elapsed s t henv -
    cases henv
    exact ⟨trivial, fun _ _ => Grown.refl s⟩

theorem body_logged {i : Nat} (name : Name) : (redemptions cfg).Sat i name (body cfg name) s := by
  cases name with
  | rotateUserSessionRefresh =>
    refine Sat.bind Grown.refl rotateUserSessionRefresh_logged trivial fun r t _ hr => ?_
    exact fun u hu _ x hx => hu (hr x hx)
  | _ => exact Logged.any _ fun _ _ _ => trivial

theorem redeemed_logged {now : Int} {sessions : Sessions} {s : Sys} {i : Nat}
    {userID grace : Int} (hrun : Steps (machine cfg).step ok (.start (.start now sessions)) es s)
    (hi : s.result i = some (.rotateUserSessionRefresh userID sid presentedHash nextHash time grace, .session (.ok x))) :
    (i, sid, presentedHash) ∈ s.store.exchanges := by
  have hstart : Fine (redemptions cfg) (.start (.start now sessions)) := Fine.start trivial
  have hfine := hstart.run (fun _ _ => Grown.refl) (fun _ name _ _ => body_logged name)
    (fun _ e _ => by cases e <;> simp [Contract.Keeps, redemptions]) hrun
  exact hfine.post (fun _ _ => Grown.refl) hi x rfl

/-! ## A hash without power -/

def timeOf (now : Int) (s : Store) : Int := if now ≤ 0 then s.now / second else now

def Powerless (sid presentedHash : String) (now : Int) (s : Store) : Prop :=
  ∀ row ∈ s.sessions.find sid, row.refreshHash ≠ presentedHash ∧
    (row.afterFind.previousRefreshHash = presentedHash → timeOf now s ≤ row.previousValidUntil)

def Meets : Name → Op → Store → Prop
  | .rotateUserSessionRefresh _ sid presentedHash _ now _, .find _ _, s => Powerless sid presentedHash now s
  | _, _, _ => True

def IsRotation : Name → Prop
  | .rotateUserSessionRefresh _ _ _ _ _ _ => True
  | _ => False

def Idle (i : Nat) (s : Sys) : Happening → Prop
  | .step j _ => j = i → ∀ c ∈ s.pending j, Meets c.1 c.2 s.store
  | _ => True

def idling (cfg : Settings) (i : Nat) : Contract (machine cfg) where
  allowed j name op _ s := j = i → Meets name op s
  inv _ := True
  rely _ _ s t := s.now ≤ t.now
  does j name s t := s.now ≤ t.now ∧ (j = i → IsRotation name → t = s)
  post _ _ _ _ := True
  apart _ _ := True
  trans hab hbc := hab.trans hbc
  others _ _ _ _ h := h.1
  env := by
    rintro elapsed s t henv -
    cases henv
    exact ⟨trivial, fun _ _ => by simp⟩

theorem idling_refl (cfg : Settings) (i j : Nat) (name : Name) (s : Store) : (idling cfg i).rely j name s s :=
  Int.le_refl s.now

def Still (cfg : Settings) (call : Nat) (name : Name) (Q : α → Store → Prop) : Call α → Store → Prop :=
  Sat (act call) ((idling cfg call).allowed call name) (idling cfg call).inv ((idling cfg call).rely call name)
    ((idling cfg call).does call name) Q

variable {name : Name}

theorem Still.clock {next : Int → Call α} (h : ∀ t, s.now ≤ t.now → Still cfg call name Q (next t.now) t) :
    Still cfg call name Q (.access .now next) s := by
  intro t ht _ fails r u _ hact
  cases hact
  exact ⟨trivial, ⟨le_rfl, fun _ _ => rfl⟩, h t ht⟩

theorem Still.find {sid' : String} {userID : Option Int} {next : Except SessionError UserSession → Call α}
    (h : ∀ t r, s.now ≤ t.now → Meets name (.find sid' userID) t →
      (∀ x, r = .ok x → ∃ row, t.sessions.find sid' = some row ∧ x = row.afterFind) → Still cfg call name Q (next r) t) :
    Still cfg call name Q (.access (.find sid' userID) next) s := by
  intro t ht _ fails r u hmeets hact
  obtain rfl : t = u := congrArg Prod.snd (Option.some.inj hact)
  refine ⟨trivial, ⟨le_rfl, fun _ _ => rfl⟩, h t r ht (hmeets rfl) fun x hx => ?_⟩
  subst hx
  cases fails with
  | true => cases hact
  | false => exact find_row (congrArg Prod.fst (Option.some.inj hact))

section

variable {Q : Except SessionError UserSession → Store → Prop} (hQ : ∀ r t, Q r t)
include hQ

theorem rotateLoop_still {userID now grace : Int} (htime : ∀ t, s.now ≤ t.now → time ≤ timeOf now t) :
    Still cfg call (.rotateUserSessionRefresh userID sid presentedHash nextHash now grace) Q
      (rotateLoop cfg userID sid presentedHash nextHash time graceSeconds attempts) s := by
  have hdone : ∀ {r u}, Still cfg call (.rotateUserSessionRefresh userID sid presentedHash nextHash now grace) Q
      (.done r) u := fun _ _ _ => hQ _ _
  cases attempts with
  | zero => exact hdone
  | succ =>
    rw [rotateLoop]
    refine Still.clock fun t ht => Still.find fun u r hu hpower hfound => ?_
    split
    · exact hdone
    rename_i x
    obtain ⟨row, hrow, rfl⟩ := hfound x rfl
    obtain ⟨hcurrent, hgrace⟩ := hpower row hrow
    split
    · exact hdone
    rw [UserSession.afterFind_refreshHash, if_neg hcurrent]
    split
    · exact hdone
    rename_i hprevious
    simp only [not_or, not_not] at hprevious
    have hlate := (htime u (ht.trans hu)).trans (hgrace hprevious.2)
    rw [UserSession.afterFind_previousValidUntil, if_pos hlate]
    exact hdone

theorem rotateUserSessionRefresh_still {userID now grace : Int} :
    Still cfg call (.rotateUserSessionRefresh userID sid presentedHash nextHash now grace) Q
      (rotateUserSessionRefresh cfg userID sid presentedHash nextHash now grace) s := by
  have hdone : ∀ {r u}, Still cfg call (.rotateUserSessionRefresh userID sid presentedHash nextHash now grace) Q
      (.done r) u := fun _ _ _ => hQ _ _
  unfold rotateUserSessionRefresh withNow
  split
  · exact hdone
  dsimp only
  split
  · rename_i hnow
    refine Still.clock fun t ht => ?_
    split
    · exact hdone
    · refine rotateLoop_still hQ fun u hu => ?_
      rw [timeOf, if_pos hnow]
      exact Int.ediv_le_ediv (by decide) hu
  · rename_i hnow
    split
    · exact hdone
    · refine rotateLoop_still hQ fun u hu => ?_
      rw [timeOf, if_neg hnow]

end

theorem body_idle {i j : Nat} (name : Name) : (idling cfg i).Sat j name (body cfg name) s := by
  have hany : (j = i → ¬ IsRotation name) → ∀ p, (idling cfg i).Sat j name p s := by
    intro hfree p
    refine Sat.any (K := fun _ => True) ?_ (fun _ _ _ _ => trivial) (fun _ _ _ _ => trivial) (fun _ _ _ _ => trivial) p trivial
    intro op fails a r b _ _ hact
    exact ⟨trivial, (act_effect hact).2.ge, fun hj hrot => absurd hrot (hfree hj)⟩
  by_cases hj : j = i
  · cases name with
    | rotateUserSessionRefresh =>
      subst hj
      exact Sat.bind (idling_refl cfg j j _) (rotateUserSessionRefresh_still fun _ _ => trivial) trivial
        fun _ _ _ _ _ _ _ => trivial
    | _ => exact hany (fun _ h => h) _
  · exact hany (fun h => absurd h hj) _

theorem idle_step {now : Int} {sessions : Sessions} {s t : Sys} {i : Nat}
    {fails : Bool} (hok : ∀ s e, ok s e → Idle i s e)
    (hrun : Steps (machine cfg).step ok (.start (.start now sessions)) es s) (hi : ∀ c ∈ s.calls[i]?, IsRotation c.1)
    (hlast : Idle i s (.step i fails)) (hstep : (machine cfg).step s (.step i fails) = some t) : t.store = s.store := by
  have hkeeps : ∀ s e, Idle i s e → (idling cfg i).Keeps s e := by
    intro s e h
    cases e with
    | begin => exact fun _ _ => ⟨trivial, trivial⟩
    | step => exact fun c hc hj => h hj c hc
    | env => trivial
  have hstart : Fine (idling cfg i) (.start (.start now sessions)) := Fine.start trivial
  have hfine := hstart.run (idling_refl cfg i) (fun _ name _ _ => body_idle name) (fun s e h => hkeeps s e (hok s e h)) hrun
  rcases Machine.step_cases hstep with ⟨_, he, -⟩ | ⟨j, _, _, _, _, r, _, he, hcall, hact, rfl⟩ | ⟨_, _, he, -⟩
  · cases he
  · cases he
    exact (hfine.access (idling_refl cfg i) (hkeeps s _ hlast) hcall hact).1.2 rfl (hi _ (by rw [hcall]; rfl))
  · cases he

/-! ## The end of a session -/

def Dead (sid : String) (P : Int → Prop) (s : Store) : Prop :=
  ∀ row ∈ s.sessions.find sid, ∀ now, P now → row.inactiveAt now = true

theorem dead_update {f : UserSession → UserSession}
    (hf : ∀ r, (f r).sid = r.sid) (h : Dead sid P s) (ht : t.sessions = s.sessions.update p f hf)
    (hkeep : ∀ r now, r.inactiveAt now = true → (f r).inactiveAt now = true) : Dead sid P t := by
  intro row hrow now hnow
  rw [ht, Keyed.find_update] at hrow
  obtain ⟨r, hr, rfl⟩ := Option.map_eq_some_iff.mp hrow
  have hdead := h r hr now hnow
  split
  · exact hkeep r now hdead
  · exact hdead

theorem dead_effect (heffect : Effect call op s t) (h : Dead sid P s) : Dead sid P t := by
  cases heffect with
  | none hsessions =>
    unfold Dead
    rw [hsessions]
    exact h
  | revoke p now reason _ ht =>
    subst ht
    exact dead_update (by intro; rfl) h rfl fun r now _ => by simp [UserSession.revoke, UserSession.inactiveAt]
  | rotate userID sid' session presentedHash nextHash now graceSeconds _ ht =>
    obtain ⟨⟨row, hrow, -, -, hnew⟩, hothers, -⟩ := rotate_won ht
    by_cases hsid : sid = sid'
    · subst hsid
      intro row' hrow' now' hnow'
      obtain rfl : UserSession.rotated row session nextHash now graceSeconds = row' := Option.some.inj (hnew.symm.trans hrow')
      exact h row hrow now' hnow'
    · unfold Dead
      rw [hothers sid hsid]
      exact h
  | advance userID sid' expectedSessionVersion expectedUserAuthVersion nextUserAuthVersion now _ ht =>
    subst ht
    unfold Store.advanceTx
    split
    · exact h
    split
    · exact h
    dsimp only
    split
    · exact h
    · exact dead_update (by intro; rfl) h rfl fun r now hr => hr

def columns (sid : String) (sessions : Sessions) : Option (Int × Int × Int) :=
  (sessions.find sid).map fun row => (row.userID, row.version, row.expiresAt)

theorem columns_update {f : UserSession → UserSession} (hf : ∀ r, (f r).sid = r.sid)
    (ht : t.sessions = s.sessions.update p f hf)
    (hkeep : ∀ r, ((f r).userID, (f r).version, (f r).expiresAt) = (r.userID, r.version, r.expiresAt)) :
    columns sid t.sessions = columns sid s.sessions := by
  unfold columns
  rw [ht, Keyed.map_find_update hf hkeep]

theorem columns_effect (heffect : Effect call op s t)
    (hop : ∀ userID sid' a b c d, op ≠ .advanceTx userID sid' a b c d) :
    columns sid t.sessions = columns sid s.sessions := by
  cases heffect with
  | none hsessions => rw [hsessions]
  | revoke p now reason _ ht =>
    subst ht
    exact columns_update (by intro; rfl) rfl fun _ => rfl
  | rotate userID sid' session presentedHash nextHash now graceSeconds _ ht =>
    obtain ⟨⟨_, hrow, -, -, hnew⟩, hothers, -⟩ := rotate_won ht
    unfold columns
    by_cases hsid : sid = sid'
    · rw [hsid, hnew, hrow]
      rfl
    · rw [hothers sid hsid]
  | advance userID sid' a b c d h => exact absurd h (hop userID sid' a b c d)

structure Kept (cfg : Settings) (sid : String) (sessions : Sessions) (s : Store) : Prop where
  inv : Inv cfg sid s
  columns : columns sid s.sessions = columns sid sessions

structure Lasting (sid : String) (s t : Store) : Prop where
  time : s.now ≤ t.now
  dead : ∀ P, Dead sid P s → Dead sid P t

theorem Lasting.refl (sid : String) (s : Store) : Lasting sid s s := ⟨le_rfl, fun _ h => h⟩

theorem Lasting.trans {u : Store} (hst : Lasting sid s t) (htu : Lasting sid t u) : Lasting sid s u :=
  ⟨hst.time.trans htu.time, fun P h => htu.dead P (hst.dead P h)⟩

theorem act_lasting {fails : Bool} (hact : act call op fails s = some (r, t)) : Lasting sid s t := by
  obtain ⟨heffect, hnow⟩ := act_effect hact
  exact ⟨hnow.ge, fun _ => dead_effect heffect⟩

def Allowed (cfg : Settings) (sid : String) (sessions : Sessions) (calm : Prop) (i j : Nat) (fails : Bool) (s : Store) :
    Prop :=
  Kept cfg sid sessions s ∧ (j = i → calm → fails = false)

def Ending (cfg : Settings) (sid : String) (sessions : Sessions) (calm : Prop) (i : Nat) (Q : α → Store → Prop) :
    Call α → Store → Prop :=
  Sat (act i) (fun _ => Allowed cfg sid sessions calm i i) (fun _ => True) (Lasting sid) (Lasting sid) Q

variable {sessions : Sessions} {calm : Prop} {i : Nat}

theorem Ending.access
    (h : ∀ t fails r u, Lasting sid s t → Kept cfg sid sessions t → (fails = true → ¬ calm) →
      act i op fails t = some (r, u) → Ending cfg sid sessions calm i Q (next r) u) :
    Ending cfg sid sessions calm i Q (.access op next) s := by
  intro t ht _ fails r u hallow hact
  refine ⟨trivial, act_lasting hact, h t fails r u ht hallow.1 (fun hfails hcalm => ?_) hact⟩
  have := hallow.2 rfl hcalm
  rw [hfails] at this
  cases this

theorem Ending.any (p : Call α) (h : Dead sid P s) (hQ : ∀ a t, Dead sid P t → Q a t) :
    Ending cfg sid sessions calm i Q p s := by
  refine Sat.any (K := Dead sid P) ?_ (fun a b hab => hab.dead P) (fun a b hab => hab.dead P) (fun a t _ => hQ a t) p h
  exact fun _ _ _ _ _ _ _ hact => ⟨trivial, act_lasting hact⟩

theorem Ending.bind {β : Type} {P : β → Store → Prop} {p : Call β} {f : β → Call α}
    (h : Ending cfg sid sessions calm i P p s) (hf : ∀ b t, P b t → Ending cfg sid sessions calm i Q (f b) t) :
    Ending cfg sid sessions calm i Q (p.bind f) s :=
  Sat.bind (Lasting.refl sid) h trivial fun b t _ => hf b t

theorem fence_written {entry : UserSessionCacheEntry} {x : Int} {c : Int × Int × Int} (hkept : Kept cfg entry.sid sessions s)
    (hc : columns entry.sid sessions = some c) (hver : c.2.1 = entry.version) (hpos : 0 ≤ entry.version)
    (hstatus : entry.status ≠ .active) : (s.eval entry x).1 = true := by
  rcases eval_cases s entry x with ⟨hrefused, -⟩ | ⟨-, heval⟩
  · obtain ⟨row, hrow, hcols⟩ := Option.map_eq_some_iff.mp (hkept.columns.trans hc)
    have hrowver : row.version = entry.version := by
      rw [← hver, ← hcols]
    have hle := currentVersion_le hkept.inv hrow (by omega)
    rcases hrefused with ⟨hactive, -⟩ | hlt
    · exact absurd hactive hstatus
    · omega
  · rw [heval]

theorem fence_ends {now : Int} {reason : String} {c : Int × Int × Int} (hsid : x.sid = sid)
    (hc : columns sid sessions = some c) (hver : c.2.1 = x.version) (hpos : 0 ≤ x.version) :
    Ending cfg sid sessions calm i (fun r _ => ∀ e, r = .error e → e = .redis ∧ ¬ calm)
      (writeUserSessionDenyFence cfg x .revoking now reason) s := by
  subst hsid
  unfold writeUserSessionDenyFence
  split
  · exact fun _ _ _ e h => by cases h
  unfold writeUserSessionCache
  split
  · exact fun _ _ _ e h => by cases h
  refine Ending.access fun t _ time _ _ _ _ _ => ?_
  rw [if_neg (by simp)]
  refine Ending.access fun u fails r v _ hkept hcalm hact => ?_
  cases fails with
  | true =>
    obtain rfl := congrArg Prod.fst (Option.some.inj hact)
    exact fun _ _ _ e h => ⟨(Except.error.inj h).symm, hcalm rfl⟩
  | false =>
    have hwritten := congrArg Prod.fst (Option.some.inj hact)
    rw [fence_written hkept hc hver hpos (by simp)] at hwritten
    subst hwritten
    exact fun _ _ _ e h => by cases h

def Reported (sid : String) (calm : Prop) (P : Int → Prop) (r : Except SessionError UserSession) (t : Store) : Prop :=
  (¬ calm ∧ (r = .error .database ∨ r = .error .redis)) ∨ Dead sid P t

theorem dead_revokeWhere {now : Int} {reason : String}
    (h : ∀ row ∈ s.sessions.find sid, p row = true ∨ ∀ time, row.inactiveAt time = true) :
    Dead sid P (s.revokeWhere p now reason).2 := by
  intro row hrow time _
  obtain ⟨r, hr, rfl⟩ := Option.map_eq_some_iff.mp ((Keyed.find_update s.sessions p _ (by intro; rfl) sid).symm.trans hrow)
  rcases h r hr with hp | hdead
  · rw [if_pos hp]
    simp [UserSession.revoke, UserSession.inactiveAt]
  · split
    · simp [UserSession.revoke, UserSession.inactiveAt]
    · exact hdead time

theorem revokeReusedSession_ends {now : Int} (hsid : x.sid = sid)
    (hc : columns sid sessions = some (x.userID, x.version, x.expiresAt)) (hpos : 0 ≤ x.version) (hactive : now < x.expiresAt) :
    Ending cfg sid sessions calm i (Reported sid calm P) (revokeReusedSession cfg x now) s := by
  refine Ending.bind (fence_ends hsid hc rfl hpos) fun r t hr => ?_
  split
  · rename_i e
    obtain ⟨rfl, hcalm⟩ := hr e rfl
    exact fun _ _ _ => .inl ⟨hcalm, .inr rfl⟩
  refine Ending.access fun u fails r v _ hkept hcalm hact => ?_
  cases fails with
  | true =>
    obtain rfl := congrArg Prod.fst (Option.some.inj hact)
    exact fun _ _ _ => .inl ⟨hcalm rfl, .inl rfl⟩
  | false =>
    have hdead : Dead sid P v := by
      obtain rfl := congrArg Prod.snd (Option.some.inj hact)
      refine dead_revokeWhere fun row hrow => ?_
      obtain ⟨row', hrow', hcols⟩ := Option.map_eq_some_iff.mp (hkept.columns.trans hc)
      obtain rfl : row = row' := Option.some.inj (hrow.symm.trans hrow')
      rw [Prod.mk.injEq, Prod.mk.injEq] at hcols
      have hkey : row.sid = x.sid := (Keyed.key_of_find hrow).trans hsid.symm
      simp only [UserSession.inactiveAt, decide_eq_true_eq]
      by_cases hstatus : row.status = .active ∧ row.revokedAt = 0
      · exact .inl ⟨hkey, hcols.1, hstatus.1, hstatus.2, by rw [hcols.2.2]; exact hactive⟩
      · refine .inr fun time => ?_
        tauto
    split <;> exact Ending.any _ hdead fun _ _ h => .inr h

/-- The presented hash is found to be the previous one, after its grace. -/
def Reuses (sid presentedHash : String) (userID limit clock expiresAt : Int) (op : Op) (s : Store) : Prop :=
  op = .find sid (some userID) ∧ s.now / second = clock ∧
    ∃ row ∈ s.sessions.find sid, row.userID = userID ∧ row.expiresAt = expiresAt ∧ row.refreshHash ≠ presentedHash ∧
      row.afterFind.previousRefreshHash = presentedHash ∧ row.previousValidUntil < limit

def Onward (clock expiresAt now : Int) : Prop := expiresAt ≤ clock → clock ≤ now

def Tracked (cfg : Settings) (sid presentedHash : String) (sessions : Sessions) (calm : Prop) (i : Nat)
    (userID limit clock expiresAt : Int) (Q : α → Store → Prop) : Call α → Store → Prop :=
  After (act i) (fun _ => Allowed cfg sid sessions calm i i) (fun _ => True) (Lasting sid) (Lasting sid)
    (Reuses sid presentedHash userID limit clock expiresAt) Q

variable {userID limit clock expiresAt : Int}

theorem Tracked.access (hop : ∀ sid' userID', op ≠ .find sid' userID')
    (h : ∀ t fails r u, Lasting sid s t → act i op fails t = some (r, u) →
      Tracked cfg sid presentedHash sessions calm i userID limit clock expiresAt Q (next r) u) :
    Tracked cfg sid presentedHash sessions calm i userID limit clock expiresAt Q (.access op next) s :=
  fun t ht _ fails r u _ hact => ⟨fun hm => absurd hm.1 (hop _ _), h t fails r u ht hact⟩

theorem inactiveAt_onward {now : Int} (h : x.inactiveAt time = true) (htime : time ≤ clock)
    (hnow : Onward clock x.expiresAt now) : x.inactiveAt now = true := by
  have h : x.status ≠ .active ∨ x.revokedAt ≠ 0 ∨ x.expiresAt ≤ time := of_decide_eq_true h
  refine decide_eq_true (h.imp_right (Or.imp_right fun hexpired => ?_))
  exact hexpired.trans (htime.trans (hnow (hexpired.trans htime)))

theorem not_reuses (h : Plain op) (s : Store) : ¬ Reuses sid presentedHash userID limit clock expiresAt op s := by
  rintro ⟨rfl, -⟩
  exact h

theorem Tracked.find {sid' : String} {userID' : Option Int} {next : Except SessionError UserSession → Call α}
    (hreuse : ∀ t fails, Lasting sid s t → Allowed cfg sid sessions calm i i fails t →
      Reuses sid presentedHash userID limit clock expiresAt (.find sid' userID') t →
      Ending cfg sid sessions calm i Q (next (if fails then .error .database else t.find sid' userID')) t)
    (h : ∀ t r, Lasting sid s t →
      Tracked cfg sid presentedHash sessions calm i userID limit clock expiresAt Q (next r) t) :
    Tracked cfg sid presentedHash sessions calm i userID limit clock expiresAt Q (.access (.find sid' userID') next) s := by
  intro t ht _ fails r u hallow hact
  cases hact
  exact ⟨hreuse t fails ht hallow, h t _ ht⟩

theorem rotateLoop_tracked (hver : ∀ c ∈ columns sid sessions, 0 ≤ c.2.1)
    (hpresented : presentedHash ≠ "") (hlimit : limit ≤ time) (htime : time ≤ s.now / second) :
    Tracked cfg sid presentedHash sessions calm i userID limit clock expiresAt (Reported sid calm (Onward clock expiresAt))
      (rotateLoop cfg userID sid presentedHash nextHash time graceSeconds attempts) s := by
  induction attempts generalizing s with
  | zero => trivial
  | succ attempts ih =>
    rw [rotateLoop]
    refine Tracked.access (fun _ _ h => by cases h) fun t _ r t' ht hact => ?_
    cases hact
    have hclock : ∀ {u}, Lasting sid t u → time ≤ u.now / second := fun hu =>
      htime.trans (Int.ediv_le_ediv (by decide) (ht.time.trans hu.time))
    refine Tracked.find ?_ fun u r hu => ?_
    · rintro u fails hu hallow ⟨hop, rfl, row, hrow, rfl, rfl, hcurrent, hprevious, hlate⟩
      cases fails with
      | true => exact fun _ _ _ => .inl ⟨fun hcalm => by simpa using hallow.2 rfl hcalm, .inl rfl⟩
      | false =>
        have hfind : u.find sid (some row.userID) = .ok row.afterFind := by
          unfold Store.find
          rw [hrow]
          simp
        rw [if_neg (by simp), hfind]
        dsimp only
        split
        · rename_i hinactive
          rw [UserSession.afterFind_inactiveAt] at hinactive
          refine fun w hw _ => .inr (hw.dead _ fun row' hrow' now hnow => ?_)
          obtain rfl : row = row' := Option.some.inj (hrow.symm.trans hrow')
          exact inactiveAt_onward hinactive (hclock hu) hnow
        · rename_i hactive
          rw [UserSession.afterFind_inactiveAt] at hactive
          rw [UserSession.afterFind_refreshHash, if_neg hcurrent, if_neg (by simp [hprevious, hpresented]),
            UserSession.afterFind_previousValidUntil, if_neg (not_le.mpr (hlate.trans_le hlimit))]
          obtain ⟨-, -, hexpires⟩ := inactiveAt_eq_false hactive
          have hcols : columns sid sessions = some (row.userID, row.version, row.expiresAt) := by
            rw [← hallow.1.columns, columns, hrow]
            rfl
          exact revokeReusedSession_ends (row.afterFind_sid.trans (Keyed.key_of_find hrow)) hcols (hver _ hcols) hexpires
    · split
      · trivial
      split
      · trivial
      split
      · refine Tracked.access (fun _ _ h => by cases h) fun w _ r w' hw hact => ?_
        split
        · trivial
        · refine ih ((hclock hu).trans (Int.ediv_le_ediv (by decide) ?_))
          exact hw.time.trans (act_lasting hact : Lasting sid _ _).time
        · exact After.none (publishActive_all (fun _ => not_reuses) _ _)
      · split
        · trivial
        · split
          · trivial
          · exact After.none (revokeReusedSession_all (fun _ => not_reuses) _ _)

theorem rotateUserSessionRefresh_tracked {now grace : Int} (hver : ∀ c ∈ columns sid sessions, 0 ≤ c.2.1)
    (hnow : now ≤ 0 ∨ now = s.now / second) :
    Tracked cfg sid presentedHash sessions calm i userID (s.now / second) clock expiresAt
      (Reported sid calm (Onward clock expiresAt))
      (rotateUserSessionRefresh cfg userID sid presentedHash nextHash now grace) s := by
  unfold rotateUserSessionRefresh withNow
  split
  · trivial
  rename_i hvalid
  simp only [not_or] at hvalid
  dsimp only
  split
  · refine Tracked.access (fun _ _ h => by cases h) fun t _ r t' ht hact => ?_
    cases hact
    split
    · trivial
    · exact rotateLoop_tracked hver hvalid.2.2.1 (Int.ediv_le_ediv (by decide) ht.time) le_rfl
  · obtain rfl : now = s.now / second := hnow.resolve_left ‹_›
    split
    · trivial
    · exact rotateLoop_tracked hver hvalid.2.2.1 le_rfl le_rfl

/-! ## Runs without an advance -/

def Timely (s : Sys) : Happening → Prop
  | .begin (.rotateUserSessionRefresh _ _ _ _ now _) => now ≤ 0 ∨ now = s.store.now / second
  | .begin (.advanceUserSessionAuthVersion _ _ _ _ _) => False
  | _ => True

def IsAdvance : Name → Prop
  | .advanceUserSessionAuthVersion _ _ _ _ _ => True
  | _ => False

structure Sound (cfg : Settings) (sid : String) (sessions : Sessions) (s : Sys) : Prop where
  fine : Fine (contract cfg sid False (fun _ _ _ => True) 0) s
  all : s.All May
  plain : ∀ name ∈ s.names, ¬ IsAdvance name
  columns : columns sid s.store.sessions = columns sid sessions

theorem Sound.kept {s : Sys} (h : Sound cfg sid sessions s) : Kept cfg sid sessions s.store :=
  ⟨h.fine.inv.1, h.columns⟩

theorem sound_start (now : Int) : Sound cfg sid sessions (.start (.start now sessions)) where
  fine := Fine.start ⟨inv_start now sessions, False.elim⟩
  all c hc := by cases hc
  plain name hname := by cases hname
  columns := rfl

theorem not_advance {name : Name} (hname : ¬ IsAdvance name) (h : May name op) :
    ∀ userID sid' a b c d, op ≠ .advanceTx userID sid' a b c d := by
  rintro _ _ a b c d rfl
  cases name with
  | advanceUserSessionAuthVersion => exact hname trivial
  | _ => exact h

theorem Sound.step {s t : Sys} {e : Happening} (h : Sound cfg sid sessions s)
    (htimely : Timely s e) (hstep : (machine cfg).step s e = some t) : Sound cfg sid sessions t := by
  have hfine := h.fine.step (fun _ _ => Later.refl) (by cases e <;> simp [Contract.Keeps, contract])
    (fun name _ => body_ok name h.fine.inv) hstep
  have hone : Steps (machine cfg).step free s [e] t := .more trivial hstep (.done t)
  have hall : t.All May := h.all.steps body_may hone
  rcases Machine.step_cases hstep with ⟨name, rfl, rfl⟩ | ⟨i, _, name, _, _, r, store, rfl, hcall, hact, rfl⟩ |
    ⟨elapsed, store, rfl, henv, rfl⟩
  · refine ⟨hfine, hall, fun name' hname' => ?_, h.columns⟩
    simp only [System.names, List.map_append, List.mem_append, List.map_cons, List.map_nil, List.mem_singleton] at hname'
    rcases hname' with hname' | rfl
    · exact h.plain name' hname'
    · cases name' with
      | advanceUserSessionAuthVersion => exact False.elim htimely
      | _ => exact id
  · have hname : name ∈ s.names := List.mem_map_of_mem (List.mem_of_getElem? hcall)
    have hop := not_advance (h.plain name hname) (h.all _ (List.mem_of_getElem? hcall)).1
    refine ⟨hfine, hall, ?_, (columns_effect (act_effect hact).1 hop).trans h.columns⟩
    rw [System.names_set store hcall]
    exact h.plain
  · cases henv
    exact ⟨hfine, hall, h.plain, h.columns⟩

def ending (cfg : Settings) (sid : String) (sessions : Sessions) (calm : Prop) (i : Nat) : Contract (machine cfg) where
  allowed j _ _ := Allowed cfg sid sessions calm i j
  inv _ := True
  rely _ _ := Lasting sid
  does _ _ := Lasting sid
  post _ _ _ _ := True
  apart _ _ := True
  trans := Lasting.trans
  others _ _ _ _ h := h
  env := by
    rintro elapsed s t henv -
    cases henv
    exact ⟨trivial, fun _ _ => ⟨by simp, fun _ h => h⟩⟩

theorem lasting_any {j : Nat} (hQ : ∀ a t, Q a t) (p : Call α) :
    Sat (act j) (fun _ => Allowed cfg sid sessions calm i j) (fun _ => True) (Lasting sid) (Lasting sid) Q p s := by
  refine Sat.any (K := fun _ => True) ?_ (fun _ _ _ _ => trivial) (fun _ _ _ _ => trivial) (fun a t _ _ => hQ a t) p trivial
  exact fun _ _ _ _ _ _ _ hact => ⟨trivial, act_lasting hact⟩

theorem Reported.later {r : Except SessionError UserSession} (h : Reported sid calm P r s)
    (hst : Lasting sid s t) : Reported sid calm P r t := h.imp_right (hst.dead P)

section Runs

variable {s₀ s₁ s s' t u : Sys} {es₀ es₁ es₂ es₃ : List (Happening)} {fails : Bool}
  {now grace : Int} {a : Answer}

theorem Sound.steps (h : Sound cfg sid sessions s) (hrun : Steps (machine cfg).step Timely s es₁ t) :
    Sound cfg sid sessions t :=
  hrun.invariant (fun _ _ _ htimely h hstep => h.step htimely hstep) h

def Careful (cfg : Settings) (sid : String) (sessions : Sessions) (calm : Prop) (i : Nat)
    (s : Sys) (e : Happening) : Prop :=
  Sound cfg sid sessions s ∧ (calm → e ≠ .step i true)

theorem Careful.keeps {e : Happening} (h : Careful cfg sid sessions calm i s e) :
    (ending cfg sid sessions calm i).Keeps s e := by
  cases e with
  | begin => exact fun _ _ => ⟨trivial, trivial⟩
  | step =>
    refine fun c _ => ⟨h.1.kept, ?_⟩
    rintro rfl hcalm
    have := h.2 hcalm
    simpa using this
  | env => trivial

theorem careful_run (h : Sound cfg sid sessions s) (hrun : Steps (machine cfg).step Timely s es₁ t)
    (hcalm : calm → .step i true ∉ es₁) :
    ∃ ok, (∀ s e, ok s e → Careful cfg sid sessions calm i s e) ∧ Steps (machine cfg).step ok s es₁ t := by
  refine ⟨_, ?_, hrun.keeping (fun _ _ _ htimely h hstep => h.step htimely hstep) h⟩
  rintro s e ⟨-, hsound, hmem⟩
  exact ⟨hsound, fun h he => hcalm h (he ▸ hmem)⟩

theorem reuse_ends (hver : ∀ row ∈ sessions.find sid, 0 ≤ row.version)
    (hs₀ : Steps (machine cfg).step Timely (.start (.start clock sessions)) es₀ s₀)
    (htimely : Timely s₀ (.begin (.rotateUserSessionRefresh userID sid presentedHash nextHash now grace)))
    (hs₁ : (machine cfg).step s₀ (.begin (.rotateUserSessionRefresh userID sid presentedHash nextHash now grace)) = some s₁)
    (hs : Steps (machine cfg).step Timely s₁ es₁ s)
    (hpending : s.pending s₀.calls.length =
      some (.rotateUserSessionRefresh userID sid presentedHash nextHash now grace, .find sid (some userID)))
    (hreuse : Reuses sid presentedHash userID (s₀.store.now / second) (s.store.now / second) expiresAt
      (.find sid (some userID)) s.store)
    (hread : (machine cfg).step s (.step s₀.calls.length fails) = some s')
    (ht : Steps (machine cfg).step Timely s' es₂ t) {name : Name} (hresult : t.result s₀.calls.length = some (name, a)) :
    (.step s₀.calls.length true ∈ es₁ ++ .step s₀.calls.length fails :: es₂ ∧
      (a = .session (.error .database) ∨ a = .session (.error .redis))) ∨
    Dead sid (Onward (s.store.now / second) expiresAt) t.store := by
  have hcols : ∀ c ∈ columns sid sessions, 0 ≤ c.2.1 := by
    intro c hc
    obtain ⟨row, hrow, rfl⟩ := Option.map_eq_some_iff.mp hc
    exact hver row hrow
  have hsound₀ := (sound_start clock : Sound cfg sid sessions _).steps hs₀
  have hsound₁ := hsound₀.step htimely hs₁
  have hsound := hsound₁.steps hs
  let calm := Event.step s₀.calls.length true ∉ es₁ ++ .step s₀.calls.length fails :: es₂
  have hquiet : ∀ {es}, es ⊆ es₁ ++ .step s₀.calls.length fails :: es₂ → calm → .step s₀.calls.length true ∉ es :=
    fun hes hcalm hmem => hcalm (hes hmem)
  have hany : ∀ s name p u, (ending cfg sid sessions calm s₀.calls.length).Sat s name p u :=
    fun _ _ p _ => lasting_any (fun _ _ => trivial) p
  have hrefl : ∀ j name a, (ending cfg sid sessions calm s₀.calls.length).rely j name a a := fun _ _ => Lasting.refl sid
  have hwatched : Watched (ending cfg sid sessions calm s₀.calls.length) s₀.calls.length
      (Reuses sid presentedHash userID (s₀.store.now / second) (s.store.now / second) expiresAt)
      (fun a t => ∃ r, a = .session r ∧ Reported sid calm (Onward (s.store.now / second) expiresAt) r t) s₁ := by
    obtain rfl := Option.some.inj hs₁
    refine Watched.start ⟨trivial, fun _ _ p _ => hany _ _ p _, fun _ _ _ _ _ _ _ _ _ => trivial⟩
      (fun _ _ => ⟨trivial, trivial⟩) (hany _ _ _ _) ?_
    refine After.bind (Lasting.refl sid) (rotateUserSessionRefresh_tracked hcols htimely) ?_ trivial ?_ fun _ _ _ => trivial
    · exact lasting_any (fun _ _ => trivial) _
    · exact fun r u _ hr v huv _ => ⟨r, rfl, hr.later huv⟩
  obtain ⟨_, hok, hsteps⟩ := careful_run hsound₁ hs (hquiet (List.subset_append_left _ _))
  have hwatched' := hwatched.run hrefl (fun _ _ _ _ => hany _ _ _ _) (fun s e h => (hok s e h).keeps) hsteps
  have hcareful : Careful cfg sid sessions calm s₀.calls.length s (.step s₀.calls.length fails) :=
    ⟨hsound, fun hcalm he => hcalm (by simp [← he])⟩
  have hmarked := hwatched'.marked hrefl hcareful.keeps hpending hreuse hread
  obtain ⟨_, hok', hsteps'⟩ := careful_run (hsound.step (show Timely s (.step _ fails) from trivial) hread) ht (hquiet fun e he => by simp [he])
  have hfine := hmarked.answering_run hrefl (fun _ _ _ _ => hany _ _ _ _) (fun s e h => (hok' s e h).keeps)
    (hwatched'.begun.trans_le (Machine.step_length hread)) hsteps'
  obtain ⟨r, rfl, hreport⟩ : ∃ r, a = .session r ∧
      Reported sid calm (Onward (s.store.now / second) expiresAt) r t.store := by
    have hpost := hfine.post hrefl hresult
    simpa [Contract.answering] using hpost
  rcases hreport with ⟨hcalm, herror⟩ | hdead
  · refine Or.inl ⟨not_not.mp hcalm, ?_⟩
    rcases herror with rfl | rfl
    · exact Or.inl rfl
    · exact Or.inr rfl
  · exact Or.inr hdead

/-! ## After the end -/

def Over (sid : String) (clock expiresAt : Int) (s : Store) : Prop :=
  Dead sid (Onward clock expiresAt) s ∧ clock ≤ s.now / second

theorem act_over {op : Op} {r : Ans op} {s t : Store} (h : Over sid clock expiresAt s)
    (hact : act call op fails s = some (r, t)) : Over sid clock expiresAt t := by
  have hlasting : Lasting sid s t := act_lasting hact
  exact ⟨hlasting.dead _ h.1, h.2.trans (Int.ediv_le_ediv (by decide) hlasting.time)⟩

def ended (cfg : Settings) (sid : String) (clock expiresAt : Int) (n : Nat) : Contract (machine cfg) where
  allowed _ _ _ _ _ := True
  inv := Over sid clock expiresAt
  rely _ _ _ _ := True
  does _ _ _ _ := True
  post j name a _ := n ≤ j →
    match name, a with
    | .rotateUserSessionRefresh _ sid' _ _ _ _, .session r => sid' = sid → ∃ e, r = .error e
    | _, _ => True
  apart _ _ := True
  trans _ _ := trivial
  others _ _ _ _ _ := trivial
  env := by
    rintro elapsed s t henv hs
    cases henv
    exact ⟨⟨hs.1, hs.2.trans (Int.ediv_le_ediv (by decide) (by simp))⟩, fun _ _ => trivial⟩

def Denied (sid : String) (clock expiresAt : Int) (call : Nat) (Q : α → Store → Prop) : Call α → Store → Prop :=
  Sat (act call) (fun _ _ _ => True) (Over sid clock expiresAt) (fun _ _ => True) (fun _ _ => True) Q

theorem Denied.access {op : Op} {next : Ans op → Call α} {s : Store}
    (h : ∀ t fails r u, Over sid clock expiresAt t → act call op fails t = some (r, u) →
      Denied sid clock expiresAt call Q (next r) u) : Denied sid clock expiresAt call Q (.access op next) s :=
  fun t _ ht fails r u _ hact => ⟨act_over ht hact, trivial, h t fails r u ht hact⟩

theorem Denied.find {sid' : String} {userID' : Option Int} {next : Except SessionError UserSession → Call α} {s : Store}
    (h : ∀ t r, Over sid clock expiresAt t →
      (∀ x, r = .ok x → ∃ row, t.sessions.find sid' = some row ∧ x = row.afterFind) →
      Denied sid clock expiresAt call Q (next r) t) :
    Denied sid clock expiresAt call Q (.access (.find sid' userID') next) s := by
  refine Denied.access fun t fails r u ht hact => ?_
  cases hact
  refine h t _ ht fun x hx => ?_
  cases fails with
  | true => cases hx
  | false => exact find_row hx

theorem rotateLoop_denied {time graceSeconds : Int} {attempts : Nat} {s : Store} (htime : Onward clock expiresAt time) :
    Denied sid clock expiresAt call (fun r _ => ∃ e, r = .error e)
      (rotateLoop cfg userID sid presentedHash nextHash time graceSeconds attempts) s := by
  have herror : ∀ {e u}, Denied sid clock expiresAt call (fun (r : Except SessionError UserSession) _ => ∃ e, r = .error e)
      (.done (.error e)) u := fun _ _ _ => ⟨_, rfl⟩
  cases attempts with
  | zero => exact herror
  | succ =>
    rw [rotateLoop]
    refine Denied.access fun _ _ _ _ _ _ => Denied.find fun t r ht hfound => ?_
    split
    · exact herror
    rename_i x
    obtain ⟨row, hrow, rfl⟩ := hfound x rfl
    rw [UserSession.afterFind_inactiveAt, if_pos (ht.1 row hrow time htime)]
    exact herror

theorem rotateUserSessionRefresh_denied {s : Store} (hs : Over sid clock expiresAt s) (hnow : now ≤ 0 ∨ now = s.now / second) :
    Denied sid clock expiresAt call (fun r _ => ∃ e, r = .error e)
      (rotateUserSessionRefresh cfg userID sid presentedHash nextHash now grace) s := by
  have herror : ∀ {e u}, Denied sid clock expiresAt call (fun (r : Except SessionError UserSession) _ => ∃ e, r = .error e)
      (.done (.error e)) u := fun _ _ _ => ⟨_, rfl⟩
  unfold rotateUserSessionRefresh withNow
  split
  · exact herror
  dsimp only
  split
  · refine Denied.access fun t fails r u ht hact => ?_
    cases hact
    split
    · exact herror
    · exact rotateLoop_denied fun _ => ht.2
  · obtain rfl : now = s.now / second := hnow.resolve_left ‹_›
    split
    · exact herror
    · exact rotateLoop_denied fun _ => hs.2

theorem ended_any {n j : Nat} {name : Name} (hpost : ∀ a u, (ended cfg sid clock expiresAt n).post j name a u) (p : Call Answer)
    (s : Store) : (ended cfg sid clock expiresAt n).Sat j name p s := by
  refine Sat.any (K := fun _ => True) ?_ (fun _ _ _ _ => trivial) (fun _ _ _ _ => trivial) (fun a u _ _ => hpost a u) p trivial
  exact fun _ _ _ _ _ h _ hact => ⟨act_over h hact, trivial⟩

theorem body_over {n : Nat} (name : Name) (htimely : Timely s (.begin name)) (hs : Over sid clock expiresAt s.store) :
    (ended cfg sid clock expiresAt n).Sat s.calls.length name (body cfg name) s.store := by
  cases name with
  | rotateUserSessionRefresh userID sid' =>
    by_cases hsid : sid' = sid
    · subst hsid
      refine Sat.bind (fun _ => trivial) (rotateUserSessionRefresh_denied hs htimely) hs fun r u _ hr => ?_
      exact fun _ _ _ _ _ => hr
    · exact ended_any (fun a u _ => by cases a <;> first | trivial | exact fun h => absurd h hsid) _ _
  | _ => exact ended_any (fun _ _ _ => trivial) _ _

theorem rotation_denied (hover : Over sid clock expiresAt t.store) (hrun : Steps (machine cfg).step Timely t es₃ u) {j : Nat}
    (hj : t.calls.length ≤ j) {r : Except SessionError UserSession}
    (hresult : u.result j = some (.rotateUserSessionRefresh userID sid presentedHash nextHash now grace, .session r)) :
    ∃ e, r = .error e := by
  have hfine : Fine (ended cfg sid clock expiresAt t.calls.length) t := by
    refine ⟨hover, fun k name p hk => ended_any (fun a u hle => ?_) p _, fun _ _ _ _ _ _ _ _ _ => trivial⟩
    exact absurd (List.getElem?_eq_some_iff.mp hk).1 (Nat.not_lt.mpr hle)
  have hend := hfine.run (fun _ _ _ => trivial) (fun s name htimely hs => body_over name htimely hs)
    (fun s e _ => by cases e <;> simp [Contract.Keeps, ended]) hrun
  exact hend.post (fun _ _ _ => trivial) hresult hj rfl

theorem no_exchange {ok : Sys → Happening → Prop} (hdead : Dead sid (fun _ => True) t.store)
    (hrun : Steps (machine cfg).step ok t es₃ u) :
    ∀ j hash, (j, sid, hash) ∈ u.store.exchanges → (j, sid, hash) ∈ t.store.exchanges := by
  have hkeep : ∀ s e s', ok s e →
      (Dead sid (fun _ => True) s.store ∧ ∀ j hash, (j, sid, hash) ∈ s.store.exchanges → (j, sid, hash) ∈ t.store.exchanges) →
      (machine cfg).step s e = some s' →
      Dead sid (fun _ => True) s'.store ∧ ∀ j hash, (j, sid, hash) ∈ s'.store.exchanges → (j, sid, hash) ∈ t.store.exchanges := by
    rintro s e _ - ⟨hdead, hold⟩ hstep
    rcases Machine.step_cases hstep with ⟨_, rfl, rfl⟩ | ⟨i, _, _, _, _, r, store, rfl, hcall, hact, rfl⟩ |
      ⟨elapsed, store, rfl, henv, rfl⟩
    · exact ⟨hdead, hold⟩
    · have heffect := (act_effect hact).1
      refine ⟨dead_effect heffect hdead, fun j hash hj => hold j hash ?_⟩
      cases heffect with
      | none _ hexchanges => rwa [← hexchanges]
      | revoke p now reason _ ht =>
        subst ht
        exact hj
      | rotate userID sid' session presentedHash nextHash now graceSeconds _ ht =>
        obtain ⟨⟨row, hrow, -, hactive, -⟩, -, hexchanges⟩ := rotate_won ht
        rw [hexchanges, List.mem_append, List.mem_singleton, Prod.mk.injEq, Prod.mk.injEq] at hj
        rcases hj with hj | ⟨-, rfl, -⟩
        · exact hj
        · rw [hdead row hrow now trivial] at hactive
          cases hactive
      | advance userID sid' a b c d _ ht => rwa [(advanceTx_hash ht).2] at hj
    · cases henv
      exact ⟨hdead, hold⟩
  exact (hrun.invariant hkeep ⟨hdead, fun _ _ => id⟩).2

end Runs

/-! ## The life of a refresh hash -/

def Redeemed (s : Sys) (i : Nat) (sid hash : String) : Prop :=
  ∃ userID nextHash now grace x,
    s.result i = some (.rotateUserSessionRefresh userID sid hash nextHash now grace, .session (.ok x))

def Regular (sessions : Sessions) (s : Sys) (e : Happening) : Prop :=
  FreshNext sessions s e ∧ Timely s e

/-- A rotation from `s₀` on finds at `s` that its hash is the previous one, and has answered at `t`. -/
structure Replay (cfg : Settings) (ok : Sys → Happening → Prop)
    (s₀ s₁ s s' t : Sys) (es₁ es₂ : List (Happening)) (sid : String)
    (expiresAt : Int) (fails : Bool) (a : Answer) : Prop where
  reused : ∃ userID presentedHash nextHash now grace,
    ok s₀ (.begin (.rotateUserSessionRefresh userID sid presentedHash nextHash now grace)) ∧
    (machine cfg).step s₀ (.begin (.rotateUserSessionRefresh userID sid presentedHash nextHash now grace)) = some s₁ ∧
    s.pending s₀.calls.length =
      some (.rotateUserSessionRefresh userID sid presentedHash nextHash now grace, .find sid (some userID)) ∧
    Reuses sid presentedHash userID (s₀.store.now / second) (s.store.now / second) expiresAt (.find sid (some userID))
      s.store
  before : Steps (machine cfg).step ok s₁ es₁ s
  read : (machine cfg).step s (.step s₀.calls.length fails) = some s'
  after : Steps (machine cfg).step ok s' es₂ t
  answer : ∃ name, t.result s₀.calls.length = some (name, a)

theorem step_now_le {e : Happening} {s t : Sys} (h : (machine cfg).step s e = some t) : s.store.now ≤ t.store.now := by
  rcases Machine.step_cases h with ⟨_, rfl, rfl⟩ | ⟨i, _, _, _, _, r, store, rfl, hcall, hact, rfl⟩ |
    ⟨elapsed, store, rfl, henv, rfl⟩
  · exact le_rfl
  · exact (act_effect hact).2.ge
  · cases henv
    simp

theorem steps_now_le {s t : Sys} (h : Steps (machine cfg).step ok s es t) : s.store.now ≤ t.store.now := by
  induction h with
  | done => exact le_rfl
  | more _ hstep _ ih => exact (step_now_le hstep).trans ih

theorem exchanged_once {now : Int} {s : Sys}
    (hrun : Steps (machine cfg).step (Regular sessions) (.start (.start now sessions)) es s) :
    (s.store.exchanges.map Prod.snd).Nodup ∧ ∀ sid hash i j, Redeemed s i sid hash → Redeemed s j sid hash → i = j := by
  have honce := (chain_of_steps (fun _ _ h => h.1) hrun).once
  refine ⟨honce, ?_⟩
  rintro _ hash i j ⟨_, _, _, _, _, hi⟩ ⟨_, _, _, _, _, hj⟩
  have hsame := List.inj_on_of_nodup_map honce (redeemed_logged hrun hi) (redeemed_logged hrun hj) rfl
  exact congrArg Prod.fst hsame

theorem replay_ends {now expiresAt : Int} {es₀ es₁ es₂ es₃ : List (Happening)}
    {s₀ s₁ s s' t u : Sys} {fails : Bool} {a : Answer} (hver : ∀ row ∈ sessions.find sid, 0 ≤ row.version)
    (hs₀ : Steps (machine cfg).step (Regular sessions) (.start (.start now sessions)) es₀ s₀)
    (h : Replay cfg (Regular sessions) s₀ s₁ s s' t es₁ es₂ sid expiresAt fails a)
    (hfailed : ¬ (.step s₀.calls.length true ∈ es₁ ++ .step s₀.calls.length fails :: es₂ ∧
      (a = .session (.error .database) ∨ a = .session (.error .redis))))
    (hu : Steps (machine cfg).step (Regular sessions) t es₃ u) :
    (∀ hash j, t.calls.length ≤ j → ¬ Redeemed u j sid hash) ∧
    (s.store.now / second < expiresAt → ∀ j hash, (j, sid, hash) ∈ u.store.exchanges → (j, sid, hash) ∈ t.store.exchanges) := by
  have htimely : ∀ {s t es}, Steps (machine cfg).step (Regular sessions) s es t → Steps (machine cfg).step Timely s es t :=
    fun h => h.mono fun _ _ h => h.2
  obtain ⟨_, _, _, _, _, hbegin, hs₁, hpending, hreuse⟩ := h.reused
  obtain ⟨_, hanswer⟩ := h.answer
  have hdead := (reuse_ends hver (htimely hs₀) hbegin.2 hs₁ (htimely h.before) hpending hreuse h.read (htimely h.after)
    hanswer).resolve_left hfailed
  constructor
  · rintro hash j hj ⟨_, _, _, _, x, hx⟩
    have hclock : s.store.now / second ≤ t.store.now / second :=
      Int.ediv_le_ediv (by decide) ((step_now_le h.read).trans (steps_now_le h.after))
    obtain ⟨e, he⟩ := rotation_denied ⟨hdead, hclock⟩ (htimely hu) hj hx
    cases he
  · intro hactive
    refine no_exchange (fun row hrow now _ => hdead row hrow now fun hexpired => ?_) hu
    omega

instance (sid hash : String) (name : Name) : Decidable (Brings sid hash name) := by
  unfold Brings
  split <;> infer_instance

instance (sessions : Sessions) (s : Sys) (e : Happening) : Decidable (Regular sessions s e) := by
  have hfresh : Decidable (FreshNext sessions s e) := by
    unfold FreshNext
    split <;> infer_instance
  have htimely : Decidable (Timely s e) := by
    unfold Timely
    split <;> infer_instance
  exact inferInstanceAs (Decidable (_ ∧ _))

instance (sid presentedHash : String) (now : Int) (s : Store) : Decidable (Powerless sid presentedHash now s) := by
  unfold Powerless
  infer_instance

instance (name : Name) (op : Op) (s : Store) : Decidable (Meets name op s) := by
  unfold Meets
  split <;> infer_instance

instance (i : Nat) (s : Sys) (e : Happening) : Decidable (Idle i s e) :=
  match e with
  | .step j _ => inferInstanceAs (Decidable (j = i → ∀ c ∈ s.pending j, Meets c.1 c.2 s.store))
  | .begin _ | .env _ => inferInstanceAs (Decidable True)

instance (sid presentedHash : String) (userID limit clock expiresAt : Int) (op : Op) (s : Store) :
    Decidable (Reuses sid presentedHash userID limit clock expiresAt op s) := by
  unfold Reuses
  infer_instance

def refresh (presentedHash nextHash : String) (now : Int) : Name :=
  .rotateUserSessionRefresh 1 "laptop" presentedHash nextHash now (10 * second)

end NewApi.Auth

