import NewApi.Budget

/-!
# Usage in the current period

The counter does not say which request a unit belongs to, so a refund may reach back over a reset.
-/

namespace NewApi.Period

open GoTime Table Code Ledger Run Reset Budget

/-! ## Requests -/

inductive Phase where
  | running | settled | refunded
deriving DecidableEq

/-- Pre-consumed and charged net. `current`: not reset since. -/
structure Request where
  requestId : String
  subId : Int
  preConsumed : Int
  net : Int
  phase : Phase
  current : Bool
deriving DecidableEq

structure State where
  store : Store
  requests : List Request

def resetIds (writes : List Write) : List Int :=
  writes.filterMap fun
    | .saveSub .reset row => some row.id
    | _ => none

def age (writes : List Write) (r : Request) : Request :=
  if r.subId ∈ resetIds writes then { r with current := false } else r

def State.commit (s : State) (writes : List Write) : State :=
  { store := s.store.commit writes, requests := s.requests.map (age writes) }

def State.request (s : State) (requestId : String) : Option Request :=
  lookup Request.requestId s.requests requestId

def State.put (s : State) (r : Request) : State :=
  { s with requests := save Request.requestId s.requests r }

def applyDelta (s : State) (r : Request) (delta : Int) (phase : Phase) : State :=
  match postConsumeUserSubscriptionDelta s.store r.subId delta with
  | .error _ => s
  | .ok writes => (s.commit writes).put { r with net := r.net + delta, phase }

inductive Action where
  | charge (requestId : String) (userId amount now : Int)
  | reserve (requestId : String) (delta : Int)
  | settle (requestId : String) (delta : Int)
  | refund (requestId : String)
  | release (requestId : String) (delta : Int)
  | system (e : Event)

/-- A repeated pre-consume finds the record and charges nothing. -/
def charge (fuel : Nat) (loc : Location) (s : State) (requestId : String) (userId amount now : Int) : State :=
  match preConsumeUserSubscription fuel loc s.store requestId userId amount now with
  | .error _ => s
  | .ok (result, writes) =>
    if s.store.record requestId = none then
      let t := s.commit writes
      { t with requests := ⟨requestId, result.userSubscriptionId, amount, amount, .running, true⟩ :: t.requests }
    else s

def refund (s : State) (r : Request) : State :=
  match refundSubscriptionPreConsume s.store r.requestId (fun _ => false) with
  | (.error _, _) => s
  | (.ok (), writes) => (s.commit writes).put { r with net := r.net - r.preConsumed, phase := .refunded }

def isSystem : Event → Bool
  | .preConsume .. | .delta .. | .refund .. => false
  | _ => true

def step (fuel : Nat) (loc : Location) (s : State) : Action → Option State
  | .charge requestId userId amount now => some (charge fuel loc s requestId userId amount now)
  | .reserve requestId delta =>
    match s.request requestId with
    | some r =>
      if r.phase = .running ∧ r.preConsumed ≤ r.net + delta then some (applyDelta s r delta .running) else none
    | none => none
  | .settle requestId delta =>
    match s.request requestId with
    | some r =>
      if r.phase = .running then some (applyDelta s r delta .settled) else none
    | none => none
  | .refund requestId =>
    match s.request requestId with
    | some r => if r.phase = .running then some (refund s r) else none
    | none => none
  | .release requestId delta =>
    match s.request requestId with
    | some r => if r.phase = .refunded ∧ 0 ≤ r.net + delta then some (applyDelta s r delta .refunded) else none
    | none => none
  | .system e => if isSystem e then some (s.commit (e.writes fuel loc s.store)) else none

def counted (id : Int) (r : Request) : Int := if r.subId = id ∧ r.current then r.net else 0

def countedLive (id : Int) (r : Request) : Int := if r.phase = .refunded then 0 else counted id r

/-- Every counter covers the net charges of its period that are not refunded. -/
def Covered (s : State) : Prop :=
  ∀ sub ∈ s.store.subs, (s.requests.map (countedLive sub.id)).sum ≤ sub.amountUsed

/-! ## The condition -/

def Exact (s : State) (id delta : Int) : Prop :=
  ∀ sub, s.store.sub id = some sub → -2 ^ 63 ≤ sub.amountUsed + delta ∧ sub.amountUsed + delta < 2 ^ 63

def OwnPeriod (s : State) (requestId : String) (delta : Int) : Prop :=
  ∀ r, s.request requestId = some r → Exact s r.subId delta ∧ (delta < 0 → r.current = true)

/-- Nothing is given back over a reset, and no unlimited counter overflows. -/
def WithinPeriod (s : State) : Action → Prop
  | .charge _ userId amount _ =>
    ∀ sub ∈ s.store.subs, sub.userId = userId → sub.amountTotal ≤ 0 → sub.amountUsed + amount < 2 ^ 63
  | .reserve requestId delta => OwnPeriod s requestId delta
  | .settle requestId delta => OwnPeriod s requestId delta
  | .refund requestId => ∀ r, s.request requestId = some r → OwnPeriod s requestId (-r.preConsumed)
  | .release requestId delta => OwnPeriod s requestId delta
  | .system _ => True

/-! ## Sums over the requests -/

variable {fuel : Nat} {loc : Location} {s t : State} {store : Store} {sub row : UserSubscription}
  {writes : List Write} {w : Write} {r : Request} {id : Int}

theorem sum_age (rs : List Request) : ((rs.map (age writes)).map (counted id)).sum =
    if id ∈ resetIds writes then 0 else (rs.map (counted id)).sum := by
  induction rs with
  | nil => simp
  | cons r rs ih =>
    have hr : counted id (age writes r) = if id ∈ resetIds writes then 0 else counted id r := by
      unfold age counted
      by_cases hid : r.subId = id
      · subst hid
        by_cases hin : r.subId ∈ resetIds writes <;> simp [hin]
      · by_cases hin : r.subId ∈ resetIds writes <;> simp [hid, hin]
    rw [List.map_cons, List.map_cons, List.sum_cons, ih, hr]
    split <;> simp

theorem sum_age_le (rs : List Request) {used : Int} (hpos : 0 ≤ used) (h : (rs.map (counted id)).sum ≤ used) :
    ((rs.map (age writes)).map (counted id)).sum ≤ used := by
  rw [sum_age]
  split <;> omega

theorem mem_resetIds {kind : SaveKind} (h : .saveSub kind row ∈ writes) (hk : kind = .reset) :
    row.id ∈ resetIds writes := by
  subst hk
  exact List.mem_filterMap.mpr ⟨_, h, rfl⟩

theorem age_eq_self (h : resetIds writes = []) (rs : List Request) : rs.map (age writes) = rs := by
  have hage : age writes = fun r => r := by
    funext r
    unfold age
    rw [h, if_neg List.not_mem_nil]
  rw [hage, List.map_id']

theorem sum_zero_of_fresh {rs : List Request} (h : ∀ r ∈ rs, r.subId < id) : (rs.map (counted id)).sum = 0 := by
  induction rs with
  | nil => rfl
  | cons r rs ih =>
    have hne : counted id r = 0 := by
      unfold counted
      rw [if_neg]
      rintro ⟨hid, -⟩
      have := h r List.mem_cons_self
      omega
    rw [List.map_cons, List.sum_cons, hne, ih fun x hx => h x (List.mem_cons_of_mem _ hx), zero_add]

@[simp] theorem age_requestId : (age writes r).requestId = r.requestId := by
  unfold age; split <;> rfl

@[simp] theorem age_subId : (age writes r).subId = r.subId := by
  unfold age; split <;> rfl

@[simp] theorem age_preConsumed : (age writes r).preConsumed = r.preConsumed := by
  unfold age; split <;> rfl

@[simp] theorem age_net : (age writes r).net = r.net := by
  unfold age; split <;> rfl

@[simp] theorem age_phase : (age writes r).phase = r.phase := by
  unfold age; split <;> rfl

/-! ## The invariant -/

/-- A running request has its pre-consume on the counter; a refunded one has given back no more than it had. -/
structure Sound (store : Store) (r : Request) : Prop where
  linked : ∃ record, store.record r.requestId = some record ∧ record.userSubscriptionId = r.subId ∧
    record.preConsumed = r.preConsumed
  fresh : r.subId < store.nextSubId
  pos : 0 < r.preConsumed
  running : r.phase = .running → r.preConsumed ≤ r.net
  refunded : r.phase = .refunded → 0 ≤ r.net

structure Inv (s : State) : Prop where
  valid : Valid s.store
  nonneg : ∀ sub ∈ s.store.subs, 0 ≤ sub.amountUsed
  covered : ∀ sub ∈ s.store.subs, (s.requests.map (counted sub.id)).sum ≤ sub.amountUsed
  keys : (s.requests.map Request.requestId).Nodup
  sound : ∀ r ∈ s.requests, Sound s.store r

theorem Sound.age (h : Sound store r) : Sound store (age writes r) := by
  refine ⟨?_, ?_, ?_, ?_, ?_⟩
  · rw [age_requestId, age_subId, age_preConsumed]
    exact h.linked
  · rw [age_subId]
    exact h.fresh
  · rw [age_preConsumed]
    exact h.pos
  · rw [age_phase, age_preConsumed, age_net]
    exact h.running
  · rw [age_phase, age_net]
    exact h.refunded

theorem keys_age (rs : List Request) : (rs.map (age writes)).map Request.requestId = rs.map Request.requestId := by
  rw [List.map_map]
  exact List.map_congr_left fun r _ => age_requestId

theorem Sound.commit (h : Sound store r) (hw : ∀ w ∈ writes, KeepsRecords w) : Sound (store.commit writes) r := by
  refine ⟨?_, lt_of_lt_of_le h.fresh commit_nextSubId, h.pos, h.running, h.refunded⟩
  rw [Store.record, commit_records hw]
  exact h.linked

theorem Inv.covers (h : Inv s) : Covered s := by
  intro sub hsub
  refine le_trans ?_ (h.covered sub hsub)
  have hle : ∀ rs : List Request, (∀ r ∈ rs, Sound s.store r) →
      (rs.map (countedLive sub.id)).sum ≤ (rs.map (counted sub.id)).sum := by
    intro rs
    induction rs with
    | nil => intro _; exact le_rfl
    | cons r rs ih =>
      intro hrs
      have hrest := ih fun x hx => hrs x (List.mem_cons_of_mem _ hx)
      have hr : countedLive sub.id r ≤ counted sub.id r := by
        unfold countedLive
        split
        · rename_i hphase
          have := (hrs r List.mem_cons_self).refunded hphase
          unfold counted
          split <;> omega
        · exact le_rfl
      rw [List.map_cons, List.map_cons, List.sum_cons, List.sum_cons]
      omega
  exact hle s.requests h.sound

/-! ## Resets and the other transactions of the system -/

def Mild (store : Store) : Write → Prop
  | .createSub sub => sub.id = store.nextSubId ∧ sub.amountUsed = 0
  | .saveSub .reset row => row.amountUsed = 0
  | .saveSub _ row => ∃ old ∈ store.subs, old.id = row.id ∧ row.amountUsed = old.amountUsed
  | .createRecord _ | .saveRecord _ => False
  | _ => True

theorem Mild.keepsRecords (h : Mild store w) : KeepsRecords w := by
  cases w with
  | createRecord | saveRecord => exact h.elim
  | _ => trivial

theorem mild_afterReset {kind : Option SaveKind} {k : SaveKind} {last next : Int} (hsub : sub ∈ store.subs)
    (hrow : row = afterReset sub kind last next)
    (hkind : kind = none ∧ row = sub ∨ kind = some .reset ∨ kind = some .schedule) (hk : kind = some k) :
    Mild store (.saveSub k row) := by
  subst hrow
  rcases hkind with ⟨rfl, -⟩ | rfl | rfl
  · cases hk
  · cases hk
    rfl
  · cases hk
    exact ⟨sub, hsub, rfl, rfl⟩

theorem covered_mild (h : Inv s) (hw : ∀ w ∈ writes, Mild s.store w) (hsub : sub ∈ (s.store.commit writes).subs) :
    0 ≤ sub.amountUsed ∧ ((s.requests.map (age writes)).map (counted sub.id)).sum ≤ sub.amountUsed := by
  rcases mem_commit_subs hsub with ⟨hold, -⟩ | ⟨kind, hsave⟩ | hnew
  · exact ⟨h.nonneg sub hold, sum_age_le _ (h.nonneg sub hold) (h.covered sub hold)⟩
  · by_cases hk : kind = .reset
    · -- The reset takes the requests with it.
      have hin := mem_resetIds hsave hk
      subst hk
      have hzero : sub.amountUsed = 0 := hw _ hsave
      rw [sum_age, if_pos hin, hzero]
      exact ⟨le_rfl, le_rfl⟩
    · have hmild := hw _ hsave
      obtain ⟨old, hold, hid, hused⟩ : ∃ old ∈ s.store.subs, old.id = sub.id ∧ sub.amountUsed = old.amountUsed := by
        cases kind with
        | reset => exact absurd rfl hk
        | _ => exact hmild
      rw [hused, ← hid]
      exact ⟨h.nonneg old hold, sum_age_le _ (h.nonneg old hold) (h.covered old hold)⟩
  · obtain ⟨hid, hzero⟩ := hw _ hnew
    have hfresh : (s.requests.map (counted sub.id)).sum = 0 :=
      sum_zero_of_fresh fun r hr => by rw [hid]; exact (h.sound r hr).fresh
    rw [hzero]
    exact ⟨le_rfl, sum_age_le _ le_rfl (by rw [hfresh])⟩

theorem commit_mild (h : Inv s) (hvalid : Valid (s.store.commit writes)) (hw : ∀ w ∈ writes, Mild s.store w) :
    Inv (s.commit writes) := by
  refine ⟨hvalid, fun sub hsub => (covered_mild h hw hsub).1, fun sub hsub => (covered_mild h hw hsub).2, ?_, ?_⟩
  · show ((s.requests.map (age writes)).map Request.requestId).Nodup
    rw [keys_age]
    exact h.keys
  · intro r hr
    obtain ⟨old, hold, rfl⟩ := List.mem_map.mp hr
    exact ((h.sound old hold).commit fun w hw' => (hw w hw').keepsRecords).age

theorem reset_mild {e : Event} (hw : w ∈ e.writes fuel loc store) (he : IsReset e) : Mild store w := by
  obtain ⟨sub, hsub, _, _, _, rfl | rfl, rfl⟩ := reset_writes hw he
  · rfl
  · exact ⟨sub, hsub, rfl, rfl⟩

theorem ending_mild {e : Event} (hw : w ∈ e.writes fuel loc store) (he : IsEnding e) : Mild store w := by
  cases ending_writes hw he with
  | @status sub row hsub hid htotal hused => exact ⟨sub, hsub, hid.symm, hused⟩
  | delete | group => trivial

theorem system_mild (e : Event) (he : isSystem e = true) (hw : w ∈ e.writes fuel loc store) : Mild store w := by
  cases e with
  | preConsume | delta | refund => cases he
  | purchase =>
    obtain ⟨_, -, ⟨_, _, rfl⟩ | ⟨-, rfl⟩⟩ := mem_purchase hw
    · exact ⟨rfl, rfl⟩
    · trivial
  | resetDue | resetUser | resetPlan => exact reset_mild hw trivial
  | expire | invalidate | delete => exact ending_mild hw trivial

theorem system_inv (e : Event) (he : isSystem e = true) (h : Inv s) : Inv (s.commit (e.writes fuel loc s.store)) :=
  commit_mild h (step_valid e h.valid) fun _ hw => system_mild e he hw

/-! ## Pre-consume -/

variable {userId amount now : Int} {chosen : UserSubscription} {requestId : String}

theorem select_mild (h : preConsumeSelect fuel loc store userId amount now = .ok (chosen, writes)) (hw : w ∈ writes) :
    Mild store w := by
  obtain ⟨x, hx, y, k, hy, rfl⟩ := (select_writes h).2.2 w hw
  obtain ⟨_, _, hrow, hkind⟩ := refresh_spec hy
  exact mild_afterReset hx hrow hkind rfl

theorem chosen_covered (h : Inv s)
    (hselect : preConsumeSelect fuel loc s.store userId amount now = .ok (chosen, writes)) :
    ((s.requests.map (age writes)).map (counted chosen.id)).sum ≤ chosen.amountUsed ∧ 0 ≤ chosen.amountUsed ∧
      chosen.id < s.store.nextSubId ∧
      ∃ candidate ∈ s.store.subs, candidate.userId = userId ∧ candidate.amountTotal = chosen.amountTotal ∧
        chosen.amountUsed ≤ candidate.amountUsed := by
  obtain ⟨skipped, candidate, _, kind, earlier, hsubs, hc, -, -, -, rfl⟩ :=
    selectCandidate_spec (preConsumeSelect_spec hselect)
  have hcandidate := mem_activeSubs.mp (hsubs ▸ List.mem_append_right skipped List.mem_cons_self)
  have hpos := h.nonneg candidate hcandidate.1
  have hcover := h.covered candidate hcandidate.1
  have hfresh := h.valid.fresh candidate hcandidate.1
  obtain ⟨last, next, rfl, hkind⟩ := refresh_spec hc
  by_cases hreset : kind = some .reset
  · subst hreset
    have hin : (afterReset candidate (some .reset) last next).id ∈
        resetIds (earlier ++ saveOf (afterReset candidate (some .reset) last next) (some .reset)) :=
      mem_resetIds (List.mem_append_right _ List.mem_cons_self) rfl
    rw [sum_age, if_pos hin]
    exact ⟨le_rfl, le_rfl, hfresh, candidate, hcandidate.1, hcandidate.2.1, rfl, hpos⟩
  · have hused : (afterReset candidate kind last next).amountUsed = candidate.amountUsed := if_neg hreset
    rw [hused]
    exact ⟨sum_age_le _ hpos hcover, hpos, hfresh, candidate, hcandidate.1, hcandidate.2.1, rfl, le_rfl⟩

theorem Sound.createRecord (h : Sound store r) (record : SubscriptionPreConsumeRecord) :
    Sound (store.write (.createRecord record)) r := by
  obtain ⟨old, hold, hsub, hpre⟩ := h.linked
  exact ⟨⟨old, lookup_append_old hold, hsub, hpre⟩, h.fresh, h.pos, h.running, h.refunded⟩

theorem mem_charge (hexact : wrap64 (chosen.amountUsed + amount) = chosen.amountUsed + amount)
    (hsub : sub ∈ (store.commit (writes ++ (Ledger.charge requestId userId amount chosen).2)).subs) :
    sub.id = chosen.id ∧ sub.amountUsed = chosen.amountUsed + amount ∨
      sub.id ≠ chosen.id ∧ sub ∈ (store.commit writes).subs := by
  rw [commit_append] at hsub
  rcases mem_save hsub with rfl | ⟨hold, hne⟩
  · exact .inl ⟨rfl, hexact⟩
  · exact .inr ⟨hne, hold⟩

theorem age_charge (writes : List Write) (requestId : String) (userId amount : Int) (chosen : UserSubscription) :
    age (writes ++ (Ledger.charge requestId userId amount chosen).2) = age writes := by
  funext r
  unfold age resetIds
  rw [List.filterMap_append]
  simp [Ledger.charge]

def newRequest (requestId : String) (chosen : UserSubscription) (amount : Int) : Request :=
  ⟨requestId, chosen.id, amount, amount, .running, true⟩

theorem counted_newRequest (requestId : String) (chosen : UserSubscription) (amount : Int) :
    counted id (newRequest requestId chosen amount) = if chosen.id = id then amount else 0 := by
  simp [counted, newRequest]

theorem charge_commit_inv (h : Inv s) (hamount : 0 < amount) (hnew : s.store.record requestId = none)
    (hselect : preConsumeSelect fuel loc s.store userId amount now = .ok (chosen, writes))
    (hexact : wrap64 (chosen.amountUsed + amount) = chosen.amountUsed + amount)
    (hvalid : Valid (s.store.commit (writes ++ (Ledger.charge requestId userId amount chosen).2))) :
    Inv { store := s.store.commit (writes ++ (Ledger.charge requestId userId amount chosen).2)
          requests := newRequest requestId chosen amount :: s.requests.map (age writes) } := by
  obtain ⟨hcover, hpos, hfresh, -⟩ := chosen_covered h hselect
  have hmild : ∀ w ∈ writes, Mild s.store w := fun w hw => select_mild hselect hw
  have hkeep : ∀ w ∈ writes, KeepsRecords w := fun w hw => (hmild w hw).keepsRecords
  refine ⟨hvalid, ?_, ?_, ?_, ?_⟩
  · intro sub hsub
    rcases mem_charge hexact hsub with ⟨-, hused⟩ | ⟨-, hold⟩
    · omega
    · exact (covered_mild h hmild hold).1
  · intro sub hsub
    rw [List.map_cons, List.sum_cons, counted_newRequest]
    rcases mem_charge hexact hsub with ⟨hid, hused⟩ | ⟨hne, hold⟩
    · rw [hid, if_pos rfl, hused]
      omega
    · have hrest := (covered_mild h hmild hold).2
      rw [if_neg hne.symm]
      omega
  · -- The request id is new, since every request has a record.
    rw [List.map_cons, keys_age, List.nodup_cons]
    refine ⟨?_, h.keys⟩
    intro hin
    obtain ⟨r, hr, hid⟩ := List.mem_map.mp hin
    obtain ⟨_, hrecord, -⟩ := (h.sound r hr).linked
    rw [hid] at hrecord
    exact absurd (hnew.symm.trans hrecord) (by simp)
  · have hrecord : (s.store.commit writes).record requestId = none := by
      rw [Store.record, commit_records hkeep]
      exact hnew
    intro r hr
    rw [commit_append]
    rcases List.mem_cons.mp hr with rfl | hr
    · refine ⟨⟨_, record_createRecord ⟨requestId, userId, chosen.id, amount, .consumed⟩ hrecord, rfl, rfl⟩, ?_,
        hamount, ?_, ?_⟩
      · exact lt_of_lt_of_le hfresh commit_nextSubId
      · intro _
        exact le_rfl
      · intro hphase
        cases hphase
    · obtain ⟨old, hold, rfl⟩ := List.mem_map.mp hr
      have hsound := ((h.sound old hold).commit hkeep).createRecord ⟨requestId, userId, chosen.id, amount, .consumed⟩
      exact Sound.age ⟨hsound.linked, hsound.fresh, hsound.pos, hsound.running, hsound.refunded⟩

theorem charge_inv (h : Inv s) (hok : WithinPeriod s (.charge requestId userId amount now)) :
    Inv (charge fuel loc s requestId userId amount now) := by
  unfold charge
  split
  · exact h
  rename_i result writes hr
  split
  · rename_i hnew
    have hvalid : Valid (s.store.commit writes) := valid_commit h.valid fun w hw => preConsume_keeps h.valid hr hw
    obtain ⟨hguard, ⟨hsome, -⟩ | ⟨chosen, resets, -, hselect, rfl, rfl⟩⟩ := preConsume_spec hr
    · exact absurd hnew hsome
    have hamount := (preConsumeGuard_spec hguard).2.2
    obtain ⟨-, hpos, -, candidate, hcandidate, huser, htotal, hle⟩ := chosen_covered h hselect
    obtain ⟨hhold, ⟨sub, hsub, _, hrow⟩, -⟩ := select_writes hselect
    have hbudget := inBudget_refresh (h.valid.budget sub hsub) hrow
    have hexact : wrap64 (chosen.amountUsed + amount) = chosen.amountUsed + amount := by
      apply wrap64_eq (by omega)
      by_cases hlimit : 0 < chosen.amountTotal
      · have := (canHold_iff hbudget).mp hhold hlimit
        have := hbudget.1
        omega
      · have := hok candidate hcandidate huser (by omega)
        omega
    have hinv := charge_commit_inv h hamount hnew hselect hexact hvalid
    rw [← age_charge resets requestId userId amount chosen] at hinv
    exact hinv
  · exact h

/-! ## Deltas and refunds -/

theorem counted_delta {r' : Request} (hsub : r'.subId = r.subId) (hcur : r'.current = r.current)
    (hnet : r'.net = r.net + amount) :
    counted id r' = counted id r + if r.subId = id ∧ r.current then amount else 0 := by
  unfold counted
  rw [hsub, hcur, hnet]
  split <;> omega

theorem mem_of_request (h : s.request requestId = some r) : r ∈ s.requests :=
  mem_of_lookup h

theorem put_inv {r' : Request} {store : Store} (h : Inv s) (hr : s.request r.requestId = some r)
    (hkey : r'.requestId = r.requestId) (hsub : r'.subId = r.subId) (hpre : r'.preConsumed = r.preConsumed)
    (hcur : r'.current = r.current) (hnet : r'.net = r.net + amount)
    (hrun : r'.phase = .running → r'.preConsumed ≤ r'.net) (href : r'.phase = .refunded → 0 ≤ r'.net)
    (hvalid : Valid store) (hnonneg : ∀ sub ∈ store.subs, 0 ≤ sub.amountUsed)
    (hmove : ∀ sub ∈ store.subs, ∃ old ∈ s.store.subs, old.id = sub.id ∧
      old.amountUsed + (if r.subId = sub.id ∧ r.current then amount else 0) ≤ sub.amountUsed)
    (hsound : ∀ x ∈ s.requests, Sound store x) : Inv { store, requests := save Request.requestId s.requests r' } := by
  refine ⟨hvalid, hnonneg, ?_, ?_, ?_⟩
  · intro sub hsub'
    obtain ⟨old, hold, hid, hle⟩ := hmove sub hsub'
    have hcover := h.covered old hold
    have hlookup : lookup Request.requestId s.requests r'.requestId = some r := by
      rw [hkey]
      exact hr
    rw [sum_save _ h.keys hlookup, counted_delta hsub hcur hnet, ← hid]
    rw [← hid] at hle
    omega
  · show ((save Request.requestId s.requests r').map Request.requestId).Nodup
    rw [keys_save]
    exact h.keys
  intro x hx
  rcases mem_save hx with rfl | ⟨hold, -⟩
  · have hs := hsound r (mem_of_request hr)
    refine ⟨?_, ?_, ?_, hrun, href⟩
    · rw [hkey, hsub, hpre]
      exact hs.linked
    · rw [hsub]
      exact hs.fresh
    · rw [hpre]
      exact hs.pos
  · exact hsound x hold

theorem delta_moves (h : Inv s) (hexact : Exact s r.subId amount) (hown : amount < 0 → r.current = true)
    (hdelta : postConsumeUserSubscriptionDelta s.store r.subId amount = .ok writes)
    (hsub : sub ∈ (s.store.commit writes).subs) : 0 ≤ sub.amountUsed ∧ ∃ old ∈ s.store.subs, old.id = sub.id ∧
      old.amountUsed + (if r.subId = sub.id ∧ r.current then amount else 0) ≤ sub.amountUsed := by
  rcases delta_spec hdelta with ⟨rfl, rfl⟩ | ⟨row, hrow, -, rfl⟩
  · refine ⟨h.nonneg sub hsub, sub, hsub, rfl, ?_⟩
    split <;> omega
  rcases mem_save hsub with rfl | ⟨hold, hne⟩
  · obtain ⟨hlow, hhigh⟩ := hexact row hrow
    refine ⟨le_max_right _ _, row, mem_of_sub hrow, rfl, ?_⟩
    simp only
    rw [wrap64_eq hlow hhigh]
    split
    · omega
    -- A request of an earlier period only adds to the counter.
    rename_i hnot
    have hid := id_of_sub hrow
    have : ¬ amount < 0 := fun hneg => hnot ⟨hid.symm, hown hneg⟩
    omega
  · have hid := id_of_sub hrow
    refine ⟨h.nonneg sub hold, sub, hold, rfl, ?_⟩
    rw [if_neg]
    · omega
    · rintro ⟨he, -⟩
      exact hne (he.symm.trans hid.symm)

theorem delta_saves {id : Int} (hdelta : postConsumeUserSubscriptionDelta store id amount = .ok writes) :
    resetIds writes = [] ∧ ∀ w ∈ writes, KeepsRecords w := by
  rcases delta_spec hdelta with ⟨-, rfl⟩ | ⟨_, -, -, rfl⟩
  · exact ⟨rfl, by simp⟩
  refine ⟨rfl, ?_⟩
  intro w hw
  rw [List.mem_singleton.mp hw]
  trivial

theorem commit_put (h : resetIds writes = []) :
    (s.commit writes).put r = { store := s.store.commit writes, requests := save Request.requestId s.requests r } := by
  unfold State.put State.commit
  rw [age_eq_self h]

theorem applyDelta_inv {phase : Phase} (h : Inv s) (hr : s.request r.requestId = some r)
    (hok : OwnPeriod s r.requestId amount) (hrun : phase = .running → r.preConsumed ≤ r.net + amount)
    (href : phase = .refunded → 0 ≤ r.net + amount) : Inv (applyDelta s r amount phase) := by
  unfold applyDelta
  split
  · exact h
  rename_i writes hdelta
  obtain ⟨hexact, hown⟩ := hok r hr
  obtain ⟨hreset, hkeep⟩ := delta_saves hdelta
  have hvalid : Valid (s.store.commit writes) := valid_commit h.valid fun w hw => delta_keeps h.valid hdelta hw
  have hmoves := fun (sub : UserSubscription) (hsub : sub ∈ (s.store.commit writes).subs) =>
    delta_moves h hexact hown hdelta hsub
  rw [commit_put hreset]
  exact put_inv h hr rfl rfl rfl rfl rfl hrun href hvalid (fun sub hs => (hmoves sub hs).1)
    (fun sub hs => (hmoves sub hs).2) (fun x hx => (h.sound x hx).commit hkeep)

theorem refund_ok_spec (h : refundSubscriptionPreConsume store requestId (fun _ => false) =
    (.ok (), writes)) : ∃ record, store.record requestId = some record ∧
      (writes = [] ∨ ∃ inner, (record.preConsumed ≤ 0 ∧ inner = [] ∨
          postConsumeUserSubscriptionDelta store record.userSubscriptionId (-record.preConsumed) = .ok inner) ∧
        writes = inner ++ [.saveRecord { record with status := .refunded }]) := by
  unfold refundSubscriptionPreConsume at h
  split at h
  · cases h
  simp only [Bool.false_eq_true, if_false] at h
  split at h
  · cases h
  rename_i record hrecord
  refine ⟨record, hrecord, ?_⟩
  split at h
  · cases h
    exact .inl rfl
  split at h
  · rename_i hpre
    cases h
    exact .inr ⟨[], .inl ⟨hpre, rfl⟩, rfl⟩
  split at h
  · cases h
  · rename_i inner hinner
    cases h
    exact .inr ⟨inner, .inr hinner, rfl⟩

theorem Sound.saveRecord {record : SubscriptionPreConsumeRecord} (h : Sound store r)
    (hrecord : store.record record.requestId = some record) :
    Sound (store.write (.saveRecord { record with status := .refunded })) r := by
  refine ⟨?_, h.fresh, h.pos, h.running, h.refunded⟩
  obtain ⟨old, hold, hsub, hpre⟩ := h.linked
  by_cases hid : record.requestId = r.requestId
  · rw [← hid, hrecord] at hold
    cases hold
    rw [← hid]
    exact ⟨_, record_saveRecord { record with status := .refunded } hrecord, hsub, hpre⟩
  · exact ⟨old, (record_saveRecord_ne { record with status := .refunded } hid).trans hold, hsub, hpre⟩

theorem refund_inv (h : Inv s) (hr : s.request r.requestId = some r) (hrunning : r.phase = .running)
    (hok : OwnPeriod s r.requestId (-r.preConsumed)) : Inv (refund s r) := by
  unfold refund
  have hsound := h.sound r (mem_of_request hr)
  have hpos := hsound.pos
  have hpending : 0 ≤ r.net - r.preConsumed := by
    have := hsound.running hrunning
    omega
  obtain ⟨hexact, hown⟩ := hok r hr
  split
  · exact h
  rename_i writes hwrites
  obtain ⟨record, hrecord, hcases⟩ := refund_ok_spec hwrites
  obtain ⟨record', hrecord', hsub', hpre'⟩ := hsound.linked
  obtain rfl : record' = record := Option.some.inj (hrecord'.symm.trans hrecord)
  have hput : ∀ {store : Store} (_ : Valid store) (_ : ∀ sub ∈ store.subs, 0 ≤ sub.amountUsed)
      (_ : ∀ sub ∈ store.subs, ∃ old ∈ s.store.subs, old.id = sub.id ∧
        old.amountUsed + (if r.subId = sub.id ∧ r.current then -r.preConsumed else 0) ≤ sub.amountUsed)
      (_ : ∀ x ∈ s.requests, Sound store x),
      Inv ⟨store, save Request.requestId s.requests { r with net := r.net - r.preConsumed, phase := .refunded }⟩ := by
    intro store hv hn hm hs
    exact put_inv h hr rfl rfl rfl rfl (Int.sub_eq_add_neg : r.net - r.preConsumed = r.net + -r.preConsumed)
      (fun hp => by cases hp)
      (fun _ => hpending) hv hn hm hs
  rcases hcases with rfl | ⟨inner, hinner, rfl⟩
  · rw [commit_put rfl]
    refine hput h.valid h.nonneg ?_ h.sound
    intro sub hsub
    refine ⟨sub, hsub, rfl, ?_⟩
    split <;> omega
  · rcases hinner with ⟨hnonpos, -⟩ | hdelta
    · omega
    rw [hsub', hpre'] at hdelta
    obtain ⟨hreset, hkeep⟩ := delta_saves hdelta
    have hmoves := fun (sub : UserSubscription) (hsub : sub ∈ (s.store.commit inner).subs) =>
      delta_moves h hexact hown hdelta hsub
    have hvalid : Valid (s.store.commit inner) := valid_commit h.valid fun w hw => delta_keeps h.valid hdelta hw
    have hresets : resetIds (inner ++ [.saveRecord { record' with status := .refunded }]) = [] := by
      rw [resetIds, List.filterMap_append]
      rw [resetIds] at hreset
      rw [hreset]
      rfl
    rw [commit_put hresets, commit_append]
    have hvalid' : Valid ((s.store.commit inner).write (.saveRecord { record' with status := .refunded })) :=
      valid_write hvalid trivial
    refine hput hvalid' (fun sub hs => (hmoves sub hs).1) (fun sub hs => (hmoves sub hs).2) ?_
    intro x hx
    apply ((h.sound x hx).commit hkeep).saveRecord
    rw [Store.record, commit_records hkeep]
    rw [requestId_of_record hrecord]
    exact hrecord

/-! ## Every run -/

theorem request_eq (h : s.request requestId = some r) : r.requestId = requestId :=
  key_of_lookup h

theorem step_inv (a : Action) (hok : WithinPeriod s a) (h : Inv s) (hstep : step fuel loc s a = some t) : Inv t := by
  cases a with
  | charge =>
    cases hstep
    exact charge_inv h hok
  | reserve =>
    simp only [step] at hstep
    split at hstep
    · rename_i r hr
      obtain rfl := request_eq hr
      split at hstep
      · rename_i hguard
        cases hstep
        exact applyDelta_inv h hr hok (fun _ => hguard.2) (fun hp => by cases hp)
      · cases hstep
    · cases hstep
  | settle =>
    simp only [step] at hstep
    split at hstep
    · rename_i r hr
      obtain rfl := request_eq hr
      split at hstep
      · cases hstep
        exact applyDelta_inv h hr hok (fun hp => by cases hp) (fun hp => by cases hp)
      · cases hstep
    · cases hstep
  | refund =>
    simp only [step] at hstep
    split at hstep
    · rename_i r hr
      obtain rfl := request_eq hr
      split at hstep
      · rename_i hrunning
        obtain rfl := Option.some.inj hstep
        exact refund_inv h hr hrunning (hok r hr)
      · cases hstep
    · cases hstep
  | release =>
    simp only [step] at hstep
    split at hstep
    · rename_i r hr
      obtain rfl := request_eq hr
      split at hstep
      · rename_i hguard
        cases hstep
        exact applyDelta_inv h hr hok (fun hp => by cases hp) (fun _ => hguard.2)
      · cases hstep
    · cases hstep
  | system e =>
    obtain ⟨he, rfl⟩ := Option.ite_some_none_eq_some.mp hstep
    exact system_inv e he h

theorem usage_survives_refunds (fuel : Nat) (loc : Location) (s t : State) (actions : List Action)
    (hvalid : Valid s.store) (hpos : ∀ sub ∈ s.store.subs, 0 ≤ sub.amountUsed) (hnone : s.requests = [])
    (h : Steps (step fuel loc) WithinPeriod s actions t) : Covered t := by
  have hinv : Inv s := by
    refine ⟨hvalid, hpos, ?_, ?_, ?_⟩
    · intro sub hsub
      rw [hnone]
      exact hpos sub hsub
    · rw [hnone]
      exact List.nodup_nil
    · rw [hnone]
      intro r hr
      cases hr
  exact (h.invariant (fun _ a _ hok hi hstep => step_inv a hok hi hstep) hinv).covers

def emptyPeriod : State where
  store := { sampleStore with subs := [{ sampleSub 1700000000 with amountUsed := 0 }] }
  requests := []

theorem emptyPeriod_valid : Valid emptyPeriod.store where
  nodup := by decide
  fresh := by decide
  plans := by decide
  budget := by
    intro sub hsub
    rw [List.mem_singleton.mp hsub]
    exact ⟨by decide, by decide⟩

/-- After a reset, the refund of `a` takes the 100 of `b` off the counter. -/
theorem refund_erases_later_usage :
    ∃ t, Steps (step 0 (.fixed 0)) free emptyPeriod
        [.charge "a" 1 100 1700000100, .system (.resetUser 1 1 1700000200 false),
          .charge "b" 1 100 1700000300, .refund "a"] t ∧
      t.store.subs.map UserSubscription.amountUsed = [0] ∧ ¬ Covered t := by
  refine ⟨_, steps_of_run (by rfl), by rfl, ?_⟩
  intro h
  exact absurd (h _ List.mem_cons_self) (by decide)

theorem usage_survives_own_refund :
    ∃ t, Steps (step 0 (.fixed 0)) WithinPeriod emptyPeriod
        [.charge "a" 1 100 1700000100, .refund "a", .charge "b" 1 100 1700000300, .settle "b" (-40)] t ∧
      Covered t := by
  have hrun : ∃ t, Steps (step 0 (.fixed 0)) WithinPeriod emptyPeriod
      [.charge "a" 1 100 1700000100, .refund "a", .charge "b" 1 100 1700000300, .settle "b" (-40)] t := by
    refine ⟨_, .more ?_ rfl (.more ?_ rfl (.more ?_ rfl (.more ?_ rfl (.done _))))⟩
    · intro sub hsub
      rw [List.mem_singleton.mp hsub]
      decide
    · intro r hr r' hr'
      cases hr
      cases hr'
      refine ⟨?_, fun _ => rfl⟩
      intro sub hsub
      cases hsub
      decide
    · intro sub hsub
      rw [List.mem_singleton.mp hsub]
      decide
    intro r hr
    cases hr
    refine ⟨?_, fun _ => rfl⟩
    intro sub hsub
    cases hsub
    decide
  obtain ⟨t, ht⟩ := hrun
  exact ⟨t, ht, usage_survives_refunds 0 (.fixed 0) emptyPeriod t _ emptyPeriod_valid (by decide) rfl ht⟩

end NewApi.Period
