import NewApi.Budget

/-!
# Pre-consume with one request id

Only the insert of the record tells a call of `PreConsumeUserSubscription` whether another one was there before.
-/

namespace NewApi.Idempotent

open GoTime Code Ledger Run Reset Budget

/-! ## The calls -/

structure Call where
  amount : Int
  now : Int
deriving DecidableEq

structure Held where
  call : Call
  locked : List Int
  sub : UserSubscription
  resets : List Write
deriving DecidableEq

/-- `waiting` calls have found no record. `charges` has each charged row, before and after. -/
structure State where
  store : Store
  waiting : List Call
  holding : List Held
  answers : List (Except Error SubscriptionPreConsumeResult)
  charges : List (UserSubscription × UserSubscription)

inductive Action where
  | start (call : Call)
  | select (call : Call)
  | finish (held : Held)
  | abort (held : Held)
deriving DecidableEq

def State.answer (s : State) (r : Except Error SubscriptionPreConsumeResult) : State :=
  { s with answers := r :: s.answers }

def start (requestId : String) (userId : Int) (s : State) (call : Call) : State :=
  match preConsumeGuard requestId userId call.amount, preConsumeLookup s.store requestId with
  | .error e, _ => s.answer (.error e)
  | _, .error e => s.answer (.error e)
  | .ok (), .ok (some result) => s.answer (.ok result)
  | .ok (), .ok none => { s with waiting := call :: s.waiting }

/-- It waits while another call has one of the rows. -/
def select (fuel : Nat) (loc : Location) (userId : Int) (s : State) (call : Call) : Option State :=
  let locked := (s.store.activeSubs userId call.now).map UserSubscription.id
  if call ∈ s.waiting ∧ ∀ held ∈ s.holding, ∀ id ∈ held.locked, id ∉ locked then
    let s := { s with waiting := s.waiting.erase call }
    match preConsumeSelect fuel loc s.store userId call.amount call.now with
    | .error e => some (s.answer (.error e))
    | .ok (sub, resets) => some { s with holding := ⟨call, locked, sub, resets⟩ :: s.holding }
  else none

def chargesOf (before : UserSubscription) (writes : List Write) : List (UserSubscription × UserSubscription) :=
  writes.filterMap fun
    | .saveSub .charge after => some (before, after)
    | _ => none

def finish (requestId : String) (userId : Int) (s : State) (held : Held) : Option State :=
  if held ∈ s.holding then
    let s := { s with holding := s.holding.erase held }
    match preConsumeInsert s.store requestId userId held.call.amount held.sub with
    | .error e => some (s.answer (.error e))
    | .ok (result, writes) => some
        { s with
          store := s.store.commit (held.resets ++ writes)
          answers := .ok result :: s.answers
          charges := s.charges ++ chargesOf held.sub writes }
  else none

def abort (s : State) (held : Held) : Option State :=
  if held ∈ s.holding then
    some ({ s with holding := s.holding.erase held }.answer (.error .database))
  else none

def step (fuel : Nat) (loc : Location) (requestId : String) (userId : Int) (s : State) : Action → Option State
  | .start call => some (start requestId userId s call)
  | .select call => select fuel loc userId s call
  | .finish held => finish requestId userId s held
  | .abort held => abort s held

structure Initial (requestId : String) (s : State) : Prop where
  record : s.store.record requestId = none
  waiting : s.waiting = []
  holding : s.holding = []
  answers : s.answers = []
  charges : s.charges = []

def ChargedOnce (requestId : String) (s : State) : Prop :=
  s.charges.length ≤ 1 ∧
  ∀ result, .ok result ∈ s.answers → ∃ record before after, s.store.record requestId = some record ∧
    s.charges = [(before, after)] ∧ before.id = record.userSubscriptionId ∧
    after = { before with amountUsed := wrap64 (before.amountUsed + record.preConsumed) } ∧
    result.userSubscriptionId = record.userSubscriptionId ∧ result.preConsumed = record.preConsumed

def FirstWithRoom (fuel : Nat) (loc : Location) (s : Store) (userId : Int) (call : Call) (id : Int) : Prop :=
  ∃ first ∈ s.activeSubs userId call.now, first.id = id ∧
    (∃ row kind, refresh fuel loc s.plans call.now first = .ok (row, kind) ∧ row.canHold call.amount) ∧
    ∀ other ∈ s.activeSubs userId call.now, other.id ≠ first.id → EndsBefore other first →
      ∀ row kind, refresh fuel loc s.plans call.now other = .ok (row, kind) → ¬ row.canHold call.amount

def MeetsRecord (fuel : Nat) (loc : Location) (requestId : String) (userId : Int) (s : State) : Action → Prop
  | .select call => ∀ record, s.store.record requestId = some record →
      FirstWithRoom fuel loc s.store userId call record.userSubscriptionId
  | _ => True

/-! ## The invariant -/

variable {fuel : Nat} {loc : Location} {requestId : String} {userId : Int} {s t : State}

def Once (requestId : String) (s : State) : Prop :=
  (s.store.record requestId = none ∧ s.charges = [] ∧ ∀ result, .ok result ∉ s.answers) ∨
  ∃ record before after, s.store.record requestId = some record ∧ record.status = .consumed ∧
    s.charges = [(before, after)] ∧ before.id = record.userSubscriptionId ∧
    after = { before with amountUsed := wrap64 (before.amountUsed + record.preConsumed) } ∧
    ∀ result, .ok result ∈ s.answers →
      result.userSubscriptionId = record.userSubscriptionId ∧ result.preConsumed = record.preConsumed

structure Sees (fuel : Nat) (loc : Location) (requestId : String) (userId : Int) (store : Store) (held : Held) :
    Prop where
  locked : held.locked = (store.activeSubs userId held.call.now).map UserSubscription.id
  select : preConsumeSelect fuel loc store userId held.call.amount held.call.now = .ok (held.sub, held.resets)
  choice : ∀ record, store.record requestId = some record → held.sub.id = record.userSubscriptionId

structure Inv (fuel : Nat) (loc : Location) (requestId : String) (userId : Int) (s : State) : Prop where
  once : Once requestId s
  alone : s.holding.length ≤ 1
  sees : ∀ held ∈ s.holding, Sees fuel loc requestId userId s.store held

theorem Once.answer_error (h : Once requestId s) (e : Error) : Once requestId (s.answer (.error e)) := by
  rcases h with ⟨hnone, hcharges, hanswers⟩ | ⟨record, before, after, hr, hst, hc, hid, hafter, hanswers⟩
  · refine .inl ⟨hnone, hcharges, ?_⟩
    intro result hmem
    rcases List.mem_cons.mp hmem with he | hmem
    · cases he
    · exact hanswers result hmem
  · refine .inr ⟨record, before, after, hr, hst, hc, hid, hafter, ?_⟩
    intro result hmem
    rcases List.mem_cons.mp hmem with he | hmem
    · cases he
    · exact hanswers result hmem

theorem Once.answer_ok (h : Once requestId s) {record : SubscriptionPreConsumeRecord}
    {result : SubscriptionPreConsumeResult} (hrecord : s.store.record requestId = some record)
    (hsub : result.userSubscriptionId = record.userSubscriptionId)
    (hpre : result.preConsumed = record.preConsumed) : Once requestId (s.answer (.ok result)) := by
  rcases h with ⟨hnone, -⟩ | ⟨record', before, after, hr, hst, hc, hid, hafter, hanswers⟩
  · rw [hrecord] at hnone
    cases hnone
  obtain rfl : record' = record := Option.some.inj (hr.symm.trans hrecord)
  refine .inr ⟨record', before, after, hr, hst, hc, hid, hafter, ?_⟩
  intro r hmem
  rcases List.mem_cons.mp hmem with he | hmem
  · cases he
    exact ⟨hsub, hpre⟩
  · exact hanswers r hmem

theorem locks_meet {store : Store} {now now' : Int} (h : store.activeSubs userId now ≠ [])
    (h' : store.activeSubs userId now' ≠ []) : ∃ id, id ∈ (store.activeSubs userId now).map UserSubscription.id ∧
      id ∈ (store.activeSubs userId now').map UserSubscription.id := by
  obtain ⟨x, hx⟩ := List.exists_mem_of_ne_nil _ h
  obtain ⟨y, hy⟩ := List.exists_mem_of_ne_nil _ h'
  have hx' := mem_activeSubs.mp hx
  have hy' := mem_activeSubs.mp hy
  -- The row that is active at the later time is active at the earlier one.
  rcases le_total now now' with hle | hle
  · refine ⟨y.id, List.mem_map_of_mem (mem_activeSubs.mpr ⟨hy'.1, hy'.2.1, hy'.2.2.1, ?_⟩), List.mem_map_of_mem hy⟩
    exact lt_of_le_of_lt hle hy'.2.2.2
  · refine ⟨x.id, List.mem_map_of_mem hx, List.mem_map_of_mem (mem_activeSubs.mpr ⟨hx'.1, hx'.2.1, hx'.2.2.1, ?_⟩)⟩
    exact lt_of_le_of_lt hle hx'.2.2.2

theorem activeSubs_ne_nil {store : Store} {amount now : Int} {r : UserSubscription × List Write}
    (h : preConsumeSelect fuel loc store userId amount now = .ok r) : store.activeSubs userId now ≠ [] := by
  intro hnil
  unfold preConsumeSelect at h
  rw [hnil] at h
  cases h

/-! ## One statement -/

theorem start_inv (call : Call) (h : Inv fuel loc requestId userId s) :
    Inv fuel loc requestId userId (start requestId userId s call) := by
  unfold start
  split
  · exact ⟨h.once.answer_error _, h.alone, h.sees⟩
  · exact ⟨h.once.answer_error _, h.alone, h.sees⟩
  · rename_i result hguard hlookup
    obtain ⟨_, _, hrecord, -, hsub, rfl⟩ := preConsumeLookup_spec hlookup
    exact ⟨h.once.answer_ok hrecord (id_of_sub hsub) rfl, h.alone, h.sees⟩
  · exact ⟨h.once, h.alone, h.sees⟩

theorem select_inv (call : Call) (hok : MeetsRecord fuel loc requestId userId s (.select call))
    (h : Inv fuel loc requestId userId s) (hstep : select fuel loc userId s call = some t) :
    Inv fuel loc requestId userId t := by
  unfold select at hstep
  dsimp only at hstep
  split at hstep
  · rename_i hfree
    split at hstep
    · cases hstep
      exact ⟨Once.answer_error (s := { s with waiting := s.waiting.erase call }) h.once _, h.alone, h.sees⟩
    rename_i sub resets hselect
    cases hstep
    -- A call that has rows already would have one of these, so there is none.
    have hnone : s.holding = [] := by
      cases hh : s.holding with
      | nil => rfl
      | cons held =>
        have hmem : held ∈ s.holding := by rw [hh]; exact List.mem_cons_self
        have hheld := h.sees held hmem
        obtain ⟨id, hid, hid'⟩ := locks_meet (activeSubs_ne_nil hheld.select) (activeSubs_ne_nil hselect)
        rw [← hheld.locked] at hid
        exact absurd hid' (hfree.2 held hmem id hid)
    refine ⟨h.once, by simp [hnone], ?_⟩
    intro held hmem
    rw [hnone] at hmem
    rw [List.mem_singleton.mp hmem]
    refine ⟨rfl, hselect, ?_⟩
    intro record hrecord
    obtain ⟨_, hfirst, hid, hroom, hbefore⟩ := hok record hrecord
    rw [← hid]
    exact select_first hselect hfirst hroom hbefore
  · cases hstep

theorem finish_inv (held : Held) (h : Inv fuel loc requestId userId s)
    (hstep : finish requestId userId s held = some t) : Inv fuel loc requestId userId t := by
  unfold finish at hstep
  split at hstep
  · rename_i hmem
    have hnone : s.holding.erase held = [] := by
      have hlen := List.length_erase_of_mem hmem
      have := h.alone
      exact List.length_eq_zero_iff.mp (by omega)
    have hheld := h.sees held hmem
    have hsaves := select_saves hheld.select
    have hkeep : ∀ w ∈ held.resets, KeepsRecords w := by
      intro w hw
      obtain ⟨_, row, rfl⟩ := hsaves w hw
      trivial
    unfold preConsumeInsert at hstep
    cases hrecord : s.store.record requestId with
    | some dup =>
      -- The record is there: the answer names the row the loop stopped at.
      rcases h.once with ⟨hno, -⟩ | hone
      · rw [hrecord] at hno
        cases hno
      obtain ⟨record, before, after, hr, hst, hc, hid, hafter, hanswers⟩ := hone
      obtain rfl : record = dup := Option.some.inj (hr.symm.trans hrecord)
      simp only [hrecord, hst, reduceCtorEq, if_false, Option.some.injEq] at hstep
      subst hstep
      have hrec : (s.store.commit (held.resets ++ [])).record requestId = some record := by
        rw [List.append_nil, Store.record, commit_records hkeep]
        exact hrecord
      refine ⟨.inr ⟨record, before, after, hrec, hst, ?_, hid, hafter, ?_⟩, by simp [hnone], by simp [hnone]⟩
      · simpa [chargesOf] using hc
      intro r hmem'
      rcases List.mem_cons.mp hmem' with he | hmem'
      · cases he
        exact ⟨hheld.choice record hrecord, rfl⟩
      · exact hanswers r hmem'
    | none =>
      simp only [hrecord, Option.some.injEq] at hstep
      subst hstep
      rcases h.once with ⟨-, hcharges, hanswers⟩ | ⟨_, -, -, hr, -⟩
      · refine ⟨.inr ⟨⟨requestId, userId, held.sub.id, held.call.amount, .consumed⟩, held.sub, _, ?_, rfl, ?_, rfl,
          rfl, ?_⟩, by simp [hnone], by simp [hnone]⟩
        · rw [commit_append]
          have hrecords : (s.store.commit held.resets).record requestId = none := by
            rw [Store.record, commit_records hkeep]
            exact hrecord
          exact record_createRecord ⟨requestId, userId, held.sub.id, held.call.amount, .consumed⟩ hrecords
        · simp [hcharges, chargesOf]
        intro r hmem'
        rcases List.mem_cons.mp hmem' with he | hmem'
        · cases he
          exact ⟨rfl, rfl⟩
        · exact absurd hmem' (hanswers r)
      · rw [hrecord] at hr
        cases hr
  · cases hstep

theorem abort_inv (held : Held) (h : Inv fuel loc requestId userId s) (hstep : abort s held = some t) :
    Inv fuel loc requestId userId t := by
  unfold abort at hstep
  split at hstep
  · cases hstep
    refine ⟨Once.answer_error (s := { s with holding := s.holding.erase held }) h.once _, ?_, ?_⟩
    · exact le_trans (List.length_erase_le) h.alone
    · intro other hother
      exact h.sees other (List.mem_of_mem_erase hother)
  · cases hstep

theorem step_inv (a : Action) (hok : MeetsRecord fuel loc requestId userId s a)
    (h : Inv fuel loc requestId userId s) (hstep : step fuel loc requestId userId s a = some t) :
    Inv fuel loc requestId userId t := by
  cases a with
  | start call =>
    cases hstep
    exact start_inv call h
  | select call => exact select_inv call hok h hstep
  | finish held => exact finish_inv held h hstep
  | abort held => exact abort_inv held h hstep

theorem Initial.inv (h : Initial requestId s) : Inv fuel loc requestId userId s := by
  refine ⟨.inl ⟨h.record, h.charges, ?_⟩, ?_, ?_⟩
  · intro result
    rw [h.answers]
    exact List.not_mem_nil
  · rw [h.holding]
    exact Nat.zero_le 1
  · rw [h.holding]
    intro held hheld
    cases hheld

/-! ## Every interleaving -/

theorem preConsume_charges_once (fuel : Nat) (loc : Location) (requestId : String) (userId : Int)
    (s t : State) (actions : List Action) (hs : Initial requestId s)
    (h : Steps (step fuel loc requestId userId) (MeetsRecord fuel loc requestId userId) s actions t) :
    ChargedOnce requestId t := by
  have hinv : Inv fuel loc requestId userId t :=
    h.invariant (fun _ a _ hok hi hstep => step_inv a hok hi hstep) hs.inv
  rcases hinv.once with ⟨-, hcharges, hanswers⟩ | ⟨record, before, after, hr, -, hc, hid, hafter, hanswers⟩
  · refine ⟨by simp [hcharges], ?_⟩
    intro result hmem
    exact absurd hmem (hanswers result)
  · refine ⟨by simp [hc], ?_⟩
    intro result hmem
    exact ⟨record, before, after, hr, hc, hid, hafter, hanswers result hmem⟩

def twoSubs : State where
  store := { sampleStore with
    subs := [sampleSub 1700000000, { sampleSub 1700000000 with id := 2, endTime := 1900000000 }]
    nextSubId := 3 }
  waiting := []
  holding := []
  answers := []
  charges := []

theorem twoSubs_initial : Initial "r" twoSubs := ⟨by decide, rfl, rfl, rfl, rfl⟩

def firstSub (used : Int) : UserSubscription := { sampleSub 1700000000 with amountUsed := used }

def secondSub : UserSubscription := { sampleSub 1700000000 with id := 2, endTime := 1900000000 }

def sampleCall (amount : Int) : Call := ⟨amount, 1700000100⟩

def race (amount : Int) (sub sub' : UserSubscription) : List Action :=
  [.start (sampleCall amount), .start (sampleCall amount),
    .select (sampleCall amount), .finish ⟨sampleCall amount, [1, 2], sub, []⟩,
    .select (sampleCall amount), .finish ⟨sampleCall amount, [1, 2], sub', []⟩]

/-- The second call no longer fits into subscription 1 and answers with subscription 2. -/
theorem preConsume_names_wrong_subscription :
    ∃ t, Initial "r" twoSubs ∧ Steps (step 0 (.fixed 0) "r" 1) free twoSubs (race 500 (firstSub 300) secondSub) t ∧
      t.store.record "r" = some ⟨"r", 1, 1, 500, .consumed⟩ ∧
      .ok ⟨2, 500, 1000, 300, 300⟩ ∈ t.answers ∧ ¬ ChargedOnce "r" t := by
  refine ⟨_, twoSubs_initial, steps_of_run (by rfl), by rfl, List.mem_cons_self, ?_⟩
  intro h
  obtain ⟨record, _, _, hrecord, -, -, -, hsub, -⟩ := h.2 ⟨2, 500, 1000, 300, 300⟩ List.mem_cons_self
  have hwinner : some record = some ⟨"r", 1, 1, 500, .consumed⟩ := hrecord.symm.trans (by rfl)
  cases hwinner
  exact absurd hsub (by decide)

/-- With 300 each, both calls meet subscription 1. -/
theorem preConsume_charges_once_for_two :
    ∃ t, Steps (step 0 (.fixed 0) "r" 1) (MeetsRecord 0 (.fixed 0) "r" 1) twoSubs
        (race 300 (firstSub 300) (firstSub 600)) t ∧ ChargedOnce "r" t := by
  have hrun : ∃ t, Steps (step 0 (.fixed 0) "r" 1) (MeetsRecord 0 (.fixed 0) "r" 1) twoSubs
      (race 300 (firstSub 300) (firstSub 600)) t := by
    refine ⟨_, .more trivial rfl (.more trivial rfl (.more ?_ rfl (.more trivial rfl (.more ?_ rfl
      (.more trivial rfl (.done _))))))⟩
    · -- The first call locks the rows before there is a record.
      intro record hrecord
      cases hrecord
    intro record hrecord
    cases hrecord
    refine ⟨firstSub 600, by decide, rfl, ⟨firstSub 600, none, by rfl, by decide⟩, ?_⟩
    intro other hother hne hbefore
    exact absurd hbefore ((by decide : ∀ x ∈ [firstSub 600, secondSub], x.id ≠ (firstSub 600).id →
      ¬ EndsBefore x (firstSub 600)) other hother hne)
  obtain ⟨t, ht⟩ := hrun
  exact ⟨t, ht, preConsume_charges_once 0 (.fixed 0) "r" 1 twoSubs t _ twoSubs_initial ht⟩

end NewApi.Idempotent
