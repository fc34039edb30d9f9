import NewApi.Code.Group
import NewApi.Lib.Run

/-!
# What the transactions write

One lemma for each function of the ledger says everything that a successful call can do.
-/

namespace NewApi.Ledger

open GoTime Table Code Run

variable {fuel : Nat} {loc : Location} {s : Store} {sub row : UserSubscription} {plan : SubscriptionPlan}
  {plans : List SubscriptionPlan} {requestId : String} {userId amount now id : Int} {writes : List Write}

/-! ## Writes and reads -/

@[simp] theorem commit_nil : s.commit [] = s := rfl

@[simp] theorem commit_cons (w : Write) : s.commit (w :: writes) = (s.write w).commit writes := rfl

theorem commit_append (ws₁ ws₂ : List Write) : s.commit (ws₁ ++ ws₂) = (s.commit ws₁).commit ws₂ :=
  List.foldl_append

@[simp] theorem write_plans (w : Write) : (s.write w).plans = s.plans := by cases w <;> rfl

@[simp] theorem commit_plans : (s.commit writes).plans = s.plans := by
  induction writes generalizing s with
  | nil => rfl
  | cons w ws ih => rw [commit_cons, ih, write_plans]

def KeepsRecords : Write → Prop
  | .createRecord _ | .saveRecord _ => False
  | _ => True

variable {w : Write} {kind : Option SaveKind} {subs : List UserSubscription} {chosen : UserSubscription}
  {advance : Bool} {planId : Int} {target : String} (record : SubscriptionPreConsumeRecord)

theorem write_record (h : KeepsRecords w) : (s.write w).records = s.records := by
  cases w <;> first | rfl | exact h.elim

theorem commit_records (h : ∀ w ∈ writes, KeepsRecords w) : (s.commit writes).records = s.records := by
  induction writes generalizing s with
  | nil => rfl
  | cons w ws ih =>
    rw [commit_cons, ih fun x hx => h x (List.mem_cons_of_mem _ hx), write_record (h w List.mem_cons_self)]

theorem sub_saveSub_self {kind : SaveKind} (h : s.sub row.id = some sub) :
    (s.write (.saveSub kind row)).sub row.id = some row :=
  lookup_save_self h

theorem sub_saveSub_ne {kind : SaveKind} (h : row.id ≠ id) : (s.write (.saveSub kind row)).sub id = s.sub id :=
  lookup_save_ne h

theorem record_createRecord (h : s.record record.requestId = none) :
    (s.write (.createRecord record)).record record.requestId = some record :=
  lookup_append_new h

theorem record_saveRecord {old : SubscriptionPreConsumeRecord} (h : s.record record.requestId = some old) :
    (s.write (.saveRecord record)).record record.requestId = some record :=
  lookup_save_self h

theorem record_saveRecord_ne (h : record.requestId ≠ requestId) :
    (s.write (.saveRecord record)).record requestId = s.record requestId :=
  lookup_save_ne h

theorem requestId_of_record {record : SubscriptionPreConsumeRecord} (h : s.record requestId = some record) :
    record.requestId = requestId := key_of_lookup h

def KeepsKeys : Write → Prop
  | .createSub _ | .deleteSub _ => False
  | _ => True

theorem sub_commit_saves (h : ∀ w ∈ writes, KeepsKeys w) (hsub : s.sub id = some sub) :
    (s.commit writes).sub id = some sub ∨
      ∃ kind row, .saveSub kind row ∈ writes ∧ row.id = id ∧ (s.commit writes).sub id = some row := by
  induction writes generalizing s sub with
  | nil => exact .inl hsub
  | cons w ws ih =>
    have hws : ∀ w ∈ ws, KeepsKeys w := fun w hw => h w (List.mem_cons_of_mem _ hw)
    -- What the rest does to the row that this write leaves.
    have hrest : ∀ {x : UserSubscription}, (s.write w).sub id = some x → (s.commit (w :: ws)).sub id = some x ∨
          ∃ kind row, .saveSub kind row ∈ w :: ws ∧ row.id = id ∧ (s.commit (w :: ws)).sub id = some row := by
      intro x hx
      rcases ih hws hx with hrow | ⟨k, r, hr, hk, hrow⟩
      · exact .inl hrow
      · exact .inr ⟨k, r, List.mem_cons_of_mem _ hr, hk, hrow⟩
    cases w with
    | saveSub kind row =>
      by_cases hid : row.id = id
      · subst hid
        rcases hrest (sub_saveSub_self hsub) with hrow | hsaved
        · exact .inr ⟨kind, row, List.mem_cons_self, rfl, hrow⟩
        · exact .inr hsaved
      · exact hrest ((sub_saveSub_ne hid).trans hsub)
    | createSub => exact (h _ List.mem_cons_self).elim
    | deleteSub => exact (h _ List.mem_cons_self).elim
    | createRecord => exact hrest hsub
    | saveRecord => exact hrest hsub
    | setGroup => exact hrest hsub

theorem mem_commit_subs (h : sub ∈ (s.commit writes).subs) :
    (sub ∈ s.subs ∧ ∀ kind row, .saveSub kind row ∈ writes → row.id ≠ sub.id) ∨
      (∃ kind, .saveSub kind sub ∈ writes) ∨ .createSub sub ∈ writes := by
  induction writes generalizing s with
  | nil => exact .inl ⟨h, by simp⟩
  | cons w ws ih =>
    rcases ih h with ⟨h, hkeys⟩ | ⟨kind, h⟩ | h
    · -- Only a save can add a key, so for the other writes the keys are those of the rest.
      have hrest : (∀ kind row, w ≠ .saveSub kind row) → ∀ kind row, .saveSub kind row ∈ w :: ws → row.id ≠ sub.id := by
        intro hne kind row hmem
        rcases List.mem_cons.mp hmem with he | hmem
        · exact absurd he.symm (hne kind row)
        · exact hkeys kind row hmem
      cases w with
      | createSub =>
        rcases List.mem_append.mp h with h | h
        · exact .inl ⟨h, hrest (by simp)⟩
        · rw [List.mem_singleton.mp h]
          exact .inr (.inr List.mem_cons_self)
      | saveSub kind =>
        rcases mem_save h with rfl | ⟨h, hne⟩
        · exact .inr (.inl ⟨kind, List.mem_cons_self⟩)
        refine .inl ⟨h, ?_⟩
        intro kind' row' hmem
        rcases List.mem_cons.mp hmem with he | hmem
        · cases he
          exact hne.symm
        · exact hkeys kind' row' hmem
      | deleteSub => exact .inl ⟨List.mem_of_mem_filter h, hrest (by simp)⟩
      | createRecord => exact .inl ⟨h, hrest (by simp)⟩
      | saveRecord => exact .inl ⟨h, hrest (by simp)⟩
      | setGroup => exact .inl ⟨h, hrest (by simp)⟩
    · exact .inr (.inl ⟨kind, List.mem_cons_of_mem _ h⟩)
    · exact .inr (.inr (List.mem_cons_of_mem _ h))

theorem commit_nextSubId : s.nextSubId ≤ (s.commit writes).nextSubId := by
  induction writes generalizing s with
  | nil => exact le_rfl
  | cons w ws ih =>
    refine le_trans ?_ ih
    cases w with
    | createSub => exact Int.le_add_one le_rfl
    | _ => exact le_rfl

theorem mem_of_sub (h : s.sub id = some sub) : sub ∈ s.subs := mem_of_lookup h

theorem id_of_sub (h : s.sub id = some sub) : sub.id = id := key_of_lookup h

theorem mem_activeSubs : sub ∈ s.activeSubs userId now ↔ sub ∈ s.subs ∧ sub.userId = userId ∧ sub.activeAt now := by
  simp [Store.activeSubs]

theorem endsBefore_sorted (subs : List UserSubscription) : (subs.insertionSort EndsBefore).Pairwise EndsBefore := by
  have : IsTrans UserSubscription EndsBefore := ⟨fun a b c => by unfold EndsBefore; omega⟩
  have : Std.Total EndsBefore := ⟨fun a b => by unfold EndsBefore; omega⟩
  exact List.pairwise_insertionSort EndsBefore subs

theorem activeSubs_sorted (s : Store) (userId now : Int) : (s.activeSubs userId now).Pairwise EndsBefore :=
  endsBefore_sorted _

theorem endTime_le_of_endsBefore {a b : UserSubscription} (h : EndsBefore a b) : a.endTime ≤ b.endTime := by
  unfold EndsBefore at h
  omega

/-! ## Resets -/

/-- The counter is kept or set to zero, and the schedule may move. -/
def afterReset (sub : UserSubscription) (kind : Option SaveKind) (last next : Int) : UserSubscription :=
  { sub with
    amountUsed := if kind = some .reset then 0 else sub.amountUsed
    lastResetTime := last
    nextResetTime := next }

theorem maybeReset_spec (h : maybeReset fuel loc sub plan now = .ok (row, kind)) :
    ∃ last next, row = afterReset sub kind last next ∧
      (kind = none ∧ row = sub ∨ kind = some .reset ∨ kind = some .schedule) := by
  unfold maybeReset at h
  split at h
  · cases h
    exact ⟨_, _, rfl, .inl ⟨rfl, rfl⟩⟩
  split at h
  · cases h
    exact ⟨_, _, rfl, .inl ⟨rfl, rfl⟩⟩
  dsimp only at h
  split at h
  · cases h
  split at h
  · cases h
    exact ⟨_, _, rfl, .inr (.inl rfl)⟩
  split at h
  · cases h
    exact ⟨_, _, rfl, .inr (.inr rfl)⟩
  · cases h
    exact ⟨_, _, rfl, .inl ⟨rfl, rfl⟩⟩

theorem refresh_spec (h : refresh fuel loc plans now sub = .ok (row, kind)) :
    ∃ last next, row = afterReset sub kind last next ∧
      (kind = none ∧ row = sub ∨ kind = some .reset ∨ kind = some .schedule) := by
  unfold refresh at h
  split at h
  · cases h
  · exact maybeReset_spec h

theorem mem_saveOf : w ∈ saveOf sub kind ↔ ∃ k, kind = some k ∧ w = .saveSub k sub := by
  cases kind <;> simp [saveOf]

theorem resetDueSubscription_spec (h : resetDueSubscription fuel loc s plan id now = .ok writes) :
    writes = [] ∨ ∃ sub row kind, s.sub id = some sub ∧ maybeReset fuel loc sub plan now = .ok (row, kind) ∧
      writes = saveOf row kind := by
  unfold resetDueSubscription at h
  split at h
  · cases h
    exact .inl rfl
  rename_i locked hlocked
  split at h
  · split at h
    · cases h
    · rename_i row kind hreset
      cases h
      exact .inr ⟨locked, row, kind, hlocked, hreset, rfl⟩
  · cases h
    exact .inl rfl

/-! ## Pre-consume -/

theorem selectCandidate_spec (h : selectCandidate fuel loc plans amount now subs = .ok (chosen, writes)) :
    ∃ skipped candidate rest kind earlier, subs = skipped ++ candidate :: rest ∧
      refresh fuel loc plans now candidate = .ok (chosen, kind) ∧ chosen.canHold amount ∧
      (∀ x ∈ skipped, ∃ y k, refresh fuel loc plans now x = .ok (y, k) ∧ ¬ y.canHold amount) ∧
      (∀ w ∈ earlier, ∃ x ∈ skipped, ∃ y k, refresh fuel loc plans now x = .ok (y, some k) ∧
        w = .saveSub k y) ∧
      writes = earlier ++ saveOf chosen kind := by
  induction subs generalizing writes with
  | nil => cases h
  | cons candidate rest ih =>
    unfold selectCandidate at h
    split at h
    · cases h
    rename_i y k hy
    split at h
    · rename_i hhold
      cases h
      exact ⟨[], candidate, rest, k, [], rfl, hy, hhold, by simp, by simp, rfl⟩
    rename_i hfull
    split at h
    · cases h
    rename_i ws hrest
    cases h
    obtain ⟨skipped, c, rest', kind, earlier, rfl, hc, hhold, hskip, hsaves, rfl⟩ := ih hrest
    refine ⟨candidate :: skipped, c, rest', kind, saveOf y k ++ earlier, rfl, hc, hhold, ?_, ?_, by simp⟩
    · rintro x (_ | ⟨_, hx⟩)
      · exact ⟨y, k, hy, hfull⟩
      · exact hskip x hx
    intro w hw
    rcases List.mem_append.mp hw with hw | hw
    · obtain ⟨k', rfl, rfl⟩ := mem_saveOf.mp hw
      exact ⟨candidate, List.mem_cons_self, y, k', hy, rfl⟩
    · obtain ⟨x, hx, hw⟩ := hsaves w hw
      exact ⟨x, List.mem_cons_of_mem _ hx, hw⟩

theorem preConsumeSelect_spec (h : preConsumeSelect fuel loc s userId amount now = .ok (chosen, writes)) :
    selectCandidate fuel loc s.plans amount now (s.activeSubs userId now) = .ok (chosen, writes) := by
  unfold preConsumeSelect at h
  split at h
  · cases h
  · exact h

theorem preConsumeGuard_spec (h : preConsumeGuard requestId userId amount = .ok ()) :
    0 < userId ∧ GoText.trimSpace requestId ≠ "" ∧ 0 < amount := by
  unfold preConsumeGuard at h
  split at h
  · cases h
  split at h
  · cases h
  · split at h
    · cases h
    · refine ⟨by omega, ‹_›, by omega⟩

theorem consumed_of_ne {status : RecordStatus} (h : status ≠ .refunded) : status = .consumed := by
  cases status with
  | consumed => rfl
  | refunded => exact absurd rfl h

theorem preConsumeLookup_spec {result : SubscriptionPreConsumeResult}
    (h : preConsumeLookup s requestId = .ok (some result)) :
    ∃ record sub, s.record requestId = some record ∧ record.status = .consumed ∧
      s.sub record.userSubscriptionId = some sub ∧
      result = ⟨sub.id, record.preConsumed, sub.amountTotal, sub.amountUsed, sub.amountUsed⟩ := by
  unfold preConsumeLookup at h
  split at h
  · cases h
  rename_i record hrecord
  split at h
  · cases h
  rename_i hstatus
  split at h
  · cases h
  · rename_i sub hsub
    cases h
    exact ⟨record, sub, hrecord, consumed_of_ne hstatus, hsub, rfl⟩

theorem preConsumeLookup_none : preConsumeLookup s requestId = .ok none ↔ s.record requestId = none := by
  unfold preConsumeLookup
  constructor
  · intro h
    split at h
    · assumption
    · split at h
      · cases h
      · split at h <;> cases h
  · intro h
    rw [h]

def charge (requestId : String) (userId amount : Int) (chosen : UserSubscription) :
    SubscriptionPreConsumeResult × List Write :=
  (⟨chosen.id, amount, chosen.amountTotal, chosen.amountUsed, wrap64 (chosen.amountUsed + amount)⟩,
    [.createRecord ⟨requestId, userId, chosen.id, amount, .consumed⟩,
      .saveSub .charge { chosen with amountUsed := wrap64 (chosen.amountUsed + amount) }])

theorem preConsumeInsert_new (h : s.record requestId = none) :
    preConsumeInsert s requestId userId amount sub = .ok (charge requestId userId amount sub) := by
  unfold preConsumeInsert
  rw [h]
  rfl

theorem preConsume_spec {result : SubscriptionPreConsumeResult}
    (h : preConsumeUserSubscription fuel loc s requestId userId amount now = .ok (result, writes)) :
    preConsumeGuard requestId userId amount = .ok () ∧
    ((s.record requestId ≠ none ∧ writes = []) ∨
      ∃ chosen resets, s.record requestId = none ∧
        preConsumeSelect fuel loc s userId amount now = .ok (chosen, resets) ∧
        result = (charge requestId userId amount chosen).1 ∧
        writes = resets ++ (charge requestId userId amount chosen).2) := by
  unfold preConsumeUserSubscription at h
  split at h
  · cases h
  · cases h
  · rename_i r hguard hlookup
    cases h
    obtain ⟨_, _, hrecord, -⟩ := preConsumeLookup_spec hlookup
    exact ⟨hguard, .inl ⟨by rw [hrecord]; exact Option.some_ne_none _, rfl⟩⟩
  · rename_i hguard hlookup
    have hnone := preConsumeLookup_none.mp hlookup
    split at h
    · cases h
    rename_i chosen resets hselect
    rw [preConsumeInsert_new hnone] at h
    cases h
    exact ⟨hguard, .inr ⟨chosen, resets, hnone, hselect, rfl, rfl⟩⟩

theorem keepsKeys_of_saves (h : ∀ w ∈ writes, ∃ kind row, w = .saveSub kind row) : ∀ w ∈ writes, KeepsKeys w := by
  intro w hw
  obtain ⟨_, _, rfl⟩ := h w hw
  trivial

section

variable (h : preConsumeSelect fuel loc s userId amount now = .ok (chosen, writes))
include h

theorem select_writes :
    chosen.canHold amount ∧ (∃ sub ∈ s.subs, ∃ kind, refresh fuel loc s.plans now sub = .ok (chosen, kind)) ∧
      ∀ w ∈ writes, ∃ sub ∈ s.subs, ∃ row kind, refresh fuel loc s.plans now sub = .ok (row, some kind) ∧
        w = .saveSub kind row := by
  obtain ⟨skipped, candidate, rest, kind, _, hsubs, hc, hhold, -, hsaves, rfl⟩ :=
    selectCandidate_spec (preConsumeSelect_spec h)
  have hmem : ∀ x ∈ skipped ++ candidate :: rest, x ∈ s.subs := by
    intro x hx
    rw [← hsubs] at hx
    exact (mem_activeSubs.mp hx).1
  have hcandidate := hmem candidate (by simp)
  refine ⟨hhold, ⟨candidate, hcandidate, kind, hc⟩, fun w hw => ?_⟩
  rcases List.mem_append.mp hw with hw | hw
  · obtain ⟨x, hx, y, k, hy, rfl⟩ := hsaves w hw
    exact ⟨x, hmem x (List.mem_append_left _ hx), y, k, hy, rfl⟩
  · obtain ⟨k, rfl, rfl⟩ := mem_saveOf.mp hw
    exact ⟨candidate, hcandidate, chosen, k, hc, rfl⟩

theorem select_saves : ∀ w ∈ writes, ∃ kind row, w = .saveSub kind row := by
  intro w hw
  obtain ⟨-, -, row, kind, -, rfl⟩ := (select_writes h).2.2 w hw
  exact ⟨kind, row, rfl⟩

end

inductive ConsumeWrite (fuel : Nat) (loc : Location) (s : Store) (now : Int) : Write → Prop
  | refreshed {sub row : UserSubscription} {kind : SaveKind} (hsub : sub ∈ s.subs)
      (hrow : refresh fuel loc s.plans now sub = .ok (row, some kind)) : ConsumeWrite fuel loc s now (.saveSub kind row)
  | charged {sub row : UserSubscription} {kind : Option SaveKind} {amount : Int} (hsub : sub ∈ s.subs)
      (hrow : refresh fuel loc s.plans now sub = .ok (row, kind)) (hamount : 0 < amount) (hhold : row.canHold amount) :
      ConsumeWrite fuel loc s now (.saveSub .charge { row with amountUsed := wrap64 (row.amountUsed + amount) })
  | recorded (record : SubscriptionPreConsumeRecord) : ConsumeWrite fuel loc s now (.createRecord record)

theorem preConsume_writes {result : SubscriptionPreConsumeResult}
    (h : preConsumeUserSubscription fuel loc s requestId userId amount now = .ok (result, writes)) (hw : w ∈ writes) :
    ConsumeWrite fuel loc s now w := by
  obtain ⟨hguard, ⟨-, rfl⟩ | ⟨_, _, -, hselect, -, rfl⟩⟩ := preConsume_spec h
  · cases hw
  obtain ⟨hhold, ⟨_, hsub, _, hrow⟩, hsaves⟩ := select_writes hselect
  rcases List.mem_append.mp hw with hw | hw
  · obtain ⟨x, hx, y, k, hy, rfl⟩ := hsaves w hw
    exact .refreshed hx hy
  · simp only [charge, List.mem_cons, List.not_mem_nil, or_false] at hw
    rcases hw with rfl | rfl
    · exact .recorded _
    · exact .charged hsub hrow (preConsumeGuard_spec hguard).2.2 hhold

theorem select_first {first : UserSubscription}
    (h : preConsumeSelect fuel loc s userId amount now = .ok (chosen, writes)) (hmem : first ∈ s.activeSubs userId now)
    (hroom : ∃ row kind, refresh fuel loc s.plans now first = .ok (row, kind) ∧ row.canHold amount)
    (hfirst : ∀ other ∈ s.activeSubs userId now, other.id ≠ first.id → EndsBefore other first →
      ∀ row kind, refresh fuel loc s.plans now other = .ok (row, kind) → ¬ row.canHold amount) :
    chosen.id = first.id := by
  obtain ⟨_, candidate, _, kind, _, hsubs, hc, hhold, hskip, -⟩ :=
    selectCandidate_spec (preConsumeSelect_spec h)
  have hid : chosen.id = candidate.id := by
    obtain ⟨_, _, rfl, -⟩ := refresh_spec hc
    rfl
  rw [hid]
  have hsorted := activeSubs_sorted s userId now
  have hcandidate : candidate ∈ s.activeSubs userId now := by
    rw [hsubs]
    exact List.mem_append_right _ List.mem_cons_self
  rw [hsubs] at hmem hsorted
  rcases List.mem_append.mp hmem with hmem | hmem
  · -- A row that the loop has passed over has no room.
    obtain ⟨_, k, hrow, hyes⟩ := hroom
    obtain ⟨y, _, hy, hno⟩ := hskip first hmem
    rw [hrow] at hy
    cases hy
    exact absurd hyes hno
  · rcases List.mem_cons.mp hmem with rfl | hmem
    · rfl
    · by_contra hne
      have hbefore := List.rel_of_pairwise_cons (List.pairwise_append.mp hsorted).2.1 hmem
      exact hfirst candidate hcandidate hne hbefore chosen kind hc hhold

/-! ## Deltas and refunds -/

theorem delta_spec {delta : Int} (h : postConsumeUserSubscriptionDelta s id delta = .ok writes) :
    (delta = 0 ∧ writes = []) ∨ ∃ sub, s.sub id = some sub ∧
      (0 < sub.amountTotal → max (wrap64 (sub.amountUsed + delta)) 0 ≤ sub.amountTotal) ∧
      writes = [.saveSub .charge { sub with amountUsed := max (wrap64 (sub.amountUsed + delta)) 0 }] := by
  unfold postConsumeUserSubscriptionDelta at h
  split at h
  · cases h
  split at h
  · cases h
    exact .inl ⟨‹_›, rfl⟩
  split at h
  · cases h
  rename_i sub hsub
  dsimp only at h
  split at h
  · cases h
  rename_i hroom
  cases h
  refine .inr ⟨sub, hsub, ?_, rfl⟩
  intro hpos
  by_contra hlt
  exact hroom ⟨hpos, by omega⟩

theorem finishRefund_spec (fails : Faults) (inner : List Write) : (finishRefund record fails inner).2 = inner ∨
      (finishRefund record fails inner).2 = inner ++ [.saveRecord { record with status := .refunded }] := by
  unfold finishRefund
  split
  · exact .inl rfl
  · exact .inr rfl

theorem refund_spec (fails : Faults) : (refundSubscriptionPreConsume s requestId fails).2 = [] ∨
    ∃ record inner, s.record requestId = some record ∧ record.status = .consumed ∧
      (record.preConsumed ≤ 0 ∧ inner = [] ∨ 0 < record.preConsumed ∧
        postConsumeUserSubscriptionDelta s record.userSubscriptionId (-record.preConsumed) = .ok inner) ∧
      ((refundSubscriptionPreConsume s requestId fails).2 = inner ∨
        (refundSubscriptionPreConsume s requestId fails).2 =
          inner ++ [.saveRecord { record with status := .refunded }]) := by
  unfold refundSubscriptionPreConsume
  split
  · exact .inl rfl
  split
  · exact .inl rfl
  split
  · exact .inl rfl
  rename_i record hrecord
  split
  · split <;> exact .inl rfl
  rename_i hstatus
  have hconsumed := consumed_of_ne hstatus
  split
  · rename_i hpre
    exact .inr ⟨record, [], hrecord, hconsumed, .inl ⟨hpre, rfl⟩, finishRefund_spec record fails []⟩
  split
  · exact .inl rfl
  split
  · exact .inl rfl
  · rename_i inner hinner
    exact .inr ⟨record, inner, hrecord, hconsumed, .inr ⟨by omega, hinner⟩,
      finishRefund_spec record fails inner⟩

theorem refund_writes {fails : Faults} (hw : w ∈ (refundSubscriptionPreConsume s requestId fails).2) :
    (∃ id delta writes, postConsumeUserSubscriptionDelta s id delta = .ok writes ∧ w ∈ writes) ∨
      ∃ record, w = .saveRecord record := by
  rcases refund_spec fails with h | ⟨record, inner, -, -, hinner, hwrites⟩
  · rw [h] at hw
    cases hw
  have hmem : w ∈ inner ∨ w = .saveRecord { record with status := .refunded } := by
    rcases hwrites with h | h <;> rw [h] at hw
    · exact .inl hw
    · exact (List.mem_append.mp hw).imp_right List.mem_singleton.mp
  rcases hmem with hw | rfl
  · rcases hinner with ⟨-, rfl⟩ | ⟨-, hdelta⟩
    · cases hw
    · exact .inl ⟨_, _, inner, hdelta, hw⟩
  · exact .inr ⟨_, rfl⟩

/-! ## Administrator resets -/

theorem mem_resetAll (h : w ∈ resetAll loc plan now advance subs) :
    ∃ sub ∈ subs, w = .saveSub .reset (resetUserSubscription loc sub plan now advance) := by
  obtain ⟨sub, hsub, rfl⟩ := List.mem_map.mp h
  exact ⟨sub, hsub, rfl⟩

theorem resetUserSubscription_spec (loc : Location) (sub : UserSubscription) (plan : SubscriptionPlan) (now : Int)
    (advance : Bool) :
    ∃ last next, resetUserSubscription loc sub plan now advance = afterReset sub (some .reset) last next := by
  unfold resetUserSubscription
  split
  · exact ⟨_, _, rfl⟩
  · exact ⟨sub.lastResetTime, sub.nextResetTime, rfl⟩

theorem adminResetUser_spec {result : SubscriptionResetResult}
    (h : adminResetUserSubscriptionsByPlan loc s userId planId now advance = .ok (result, writes)) :
    ∃ plan subs, getSubscriptionPlanById s.plans planId = .ok plan ∧ writes = resetAll loc plan now advance subs ∧
      ∀ sub ∈ subs, sub ∈ s.subs ∧ sub.planId = plan.id := by
  unfold adminResetUserSubscriptionsByPlan at h
  split at h
  · cases h
  split at h
  · cases h
  rename_i plan hplan
  split at h
  · cases h
  cases h
  refine ⟨plan, _, hplan, rfl, ?_⟩
  intro sub hsub
  obtain ⟨hactive, hid⟩ := List.mem_filter.mp hsub
  exact ⟨(mem_activeSubs.mp hactive).1, of_decide_eq_true hid⟩

theorem adminResetPlan_spec {result : SubscriptionResetResult}
    (h : adminResetPlanSubscriptions loc s planId now advance = .ok (result, writes)) :
    ∃ plan subs, getSubscriptionPlanById s.plans planId = .ok plan ∧ writes = resetAll loc plan now advance subs ∧
      ∀ sub ∈ subs, sub ∈ s.subs ∧ sub.planId = plan.id := by
  unfold adminResetPlanSubscriptions at h
  split at h
  · cases h
  split at h
  · cases h
  rename_i plan hplan
  cases h
  refine ⟨plan, _, hplan, rfl, ?_⟩
  intro sub hsub
  obtain ⟨hmem, hactive⟩ := List.mem_filter.mp ((List.mem_insertionSort _).mp hsub)
  exact ⟨hmem, (of_decide_eq_true hactive).1⟩

/-! ## Purchases and endings -/

theorem id_of_plan (h : getSubscriptionPlanById plans planId = .ok plan) : plan.id = planId := by
  unfold getSubscriptionPlanById at h
  split at h
  · cases h
  split at h
  · rename_i stored hstored
    cases h
    have hid := key_of_lookup hstored
    exact hid
  · cases h

theorem getSubscriptionPlanById_spec (h : getSubscriptionPlanById plans planId = .ok plan) :
    ∃ stored ∈ plans, plan = { stored with allowWalletOverflow := some (stored.allowWalletOverflow.getD true) } := by
  unfold getSubscriptionPlanById at h
  split at h
  · cases h
  split at h
  · rename_i stored hstored
    cases h
    exact ⟨stored, mem_of_lookup hstored, rfl⟩
  · cases h

theorem purchase_spec {source : String}
    (h : createUserSubscriptionFromPlan loc s userId plan source now = .ok (sub, writes)) :
    ∃ endUnix group, calcPlanEndTime loc now plan = .ok endUnix ∧ getUserGroupById s userId = .ok group ∧
      sub = newSubscription loc s.nextSubId userId plan source now endUnix group ∧
      writes = (if GoText.trimSpace plan.upgradeGroup ≠ "" ∧ group ≠ GoText.trimSpace plan.upgradeGroup
        then [.setGroup ⟨userId, GoText.trimSpace plan.upgradeGroup⟩] else []) ++ [.createSub sub] := by
  unfold createUserSubscriptionFromPlan at h
  split at h
  · cases h
  split at h
  · cases h
  split at h
  · cases h
  split at h
  · cases h
  · cases h
  rename_i endUnix group hend hgroup
  dsimp only at h
  split at h
  · rename_i hmove
    cases h
    exact ⟨endUnix, group, hend, hgroup, rfl, by rw [if_pos hmove]; rfl⟩
  · rename_i hmove
    cases h
    exact ⟨endUnix, group, hend, hgroup, rfl, by rw [if_neg hmove]; rfl⟩

theorem downgrade_spec (h : downgradeUserGroupForSubscription s sub now = .ok (target, writes)) :
    writes = [] ∨ writes = [.setGroup ⟨sub.userId, target⟩] := by
  unfold downgradeUserGroupForSubscription at h
  dsimp only at h
  split at h
  · cases h
    exact .inl rfl
  split at h
  · cases h
  split at h
  · cases h
    exact .inl rfl
  split at h
  · cases h
    exact .inl rfl
  -- Where the target comes from does not matter.
  generalize (if GoText.trimSpace sub.downgradeGroup = "" then GoText.trimSpace sub.prevUserGroup
    else GoText.trimSpace sub.downgradeGroup) = chosen at h
  split at h <;> cases h
  · exact .inl rfl
  · exact .inr rfl

def cancelledAt (sub : UserSubscription) (now : Int) : UserSubscription :=
  { sub with status := .cancelled, endTime := now }

theorem invalidate_spec (h : adminInvalidateUserSubscription s id now = .ok (target, writes)) :
    ∃ sub rest, s.sub id = some sub ∧
      downgradeUserGroupForSubscription (s.write (.saveSub .status (cancelledAt sub now))) (cancelledAt sub now)
        now = .ok (target, rest) ∧
      writes = .saveSub .status (cancelledAt sub now) :: rest := by
  unfold adminInvalidateUserSubscription at h
  split at h
  · cases h
  split at h
  · cases h
  rename_i sub hsub
  dsimp only at h
  split at h
  · cases h
  · rename_i rest hrest
    cases h
    exact ⟨sub, rest, hsub, hrest, rfl⟩

theorem delete_spec (h : adminDeleteUserSubscription s id now = .ok (target, writes)) :
    ∃ sub rest, s.sub id = some sub ∧ downgradeUserGroupForSubscription s sub now = .ok (target, rest) ∧
      writes = rest ++ [.deleteSub id] := by
  unfold adminDeleteUserSubscription at h
  split at h
  · cases h
  split at h
  · cases h
  rename_i sub hsub
  split at h
  · cases h
  · rename_i rest hrest
    cases h
    exact ⟨sub, rest, hsub, hrest, rfl⟩

theorem mem_markExpired (h : w ∈ markExpired s userId now) : ∃ sub ∈ s.subs, sub.userId = userId ∧ sub.dueAt now ∧
      w = .saveSub .status { sub with status := .expired } := by
  obtain ⟨sub, hsub, rfl⟩ := List.mem_map.mp h
  obtain ⟨hmem, hdue⟩ := List.mem_filter.mp hsub
  rw [decide_eq_true_eq] at hdue
  exact ⟨sub, hmem, hdue.1, hdue.2, rfl⟩

theorem expire_spec (h : expireUserSubscriptions s userId now = .ok writes) : writes = markExpired s userId now ∨
    ∃ last group, ¬ hasActiveUpgrade (s.commit (markExpired s userId now)) userId now ∧
      lastExpired (s.commit (markExpired s userId now)) userId = some last ∧
      getUserGroupById (s.commit (markExpired s userId now)) userId = .ok group ∧
      expiryTarget last group ≠ "" ∧
      writes = markExpired s userId now ++ [.setGroup ⟨userId, expiryTarget last group⟩] := by
  unfold expireUserSubscriptions at h
  dsimp only at h
  split at h
  · cases h
    exact .inl rfl
  rename_i hactive
  split at h
  · cases h
    exact .inl rfl
  · cases h
  rename_i last group hlast hgroup
  split at h
  · cases h
    exact .inl rfl
  rename_i htarget
  rw [not_or] at htarget
  cases h
  exact .inr ⟨last, group, hactive, hlast, hgroup, htarget.1, rfl⟩

theorem mem_committed {r : Except Error (List Write)} (h : w ∈ committed r) :
    ∃ writes, r = .ok writes ∧ w ∈ writes := by
  cases r with
  | ok writes => exact ⟨writes, rfl, h⟩
  | error => cases h

theorem map_eq_ok {α : Type} {r : Except Error (α × List Write)} (h : r.map Prod.snd = .ok writes) :
    ∃ a, r = .ok (a, writes) := by
  obtain ⟨⟨a, _⟩, hr, rfl⟩ := ok_of_map h
  exact ⟨a, hr⟩

theorem purchase_writes (fuel : Nat) (loc : Location) (s : Store) (userId planId : Int) (source : String) (now : Int) :
    (Event.purchase userId planId source now).writes fuel loc s = [] ∨
    ∃ plan sub, getSubscriptionPlanById s.plans planId = .ok plan ∧
      createUserSubscriptionFromPlan loc s userId plan source now =
        .ok (sub, (Event.purchase userId planId source now).writes fuel loc s) := by
  simp only [Event.writes]
  cases hplan : getSubscriptionPlanById s.plans planId with
  | error => exact .inl rfl
  | ok plan =>
    cases hr : createUserSubscriptionFromPlan loc s userId plan source now with
    | error => exact .inl (by simp [hr, Except.map, committed])
    | ok p => exact .inr ⟨plan, p.1, rfl, by simp [hr, Except.map, committed]⟩

theorem mem_purchase {source : String} (hw : w ∈ (Event.purchase userId planId source now).writes fuel loc s) :
    ∃ plan, getSubscriptionPlanById s.plans planId = .ok plan ∧
      ((∃ endUnix group, w = .createSub (newSubscription loc s.nextSubId userId plan source now endUnix group)) ∨
        GoText.trimSpace plan.upgradeGroup ≠ "" ∧ w = .setGroup ⟨userId, GoText.trimSpace plan.upgradeGroup⟩) := by
  rcases purchase_writes fuel loc s userId planId source now with hnil | ⟨plan, _, hplan, hr⟩
  · rw [hnil] at hw
    cases hw
  obtain ⟨endUnix, group, -, -, rfl, hwrites⟩ := purchase_spec hr
  rw [hwrites] at hw
  refine ⟨plan, hplan, ?_⟩
  rcases List.mem_append.mp hw with hw | hw
  · split at hw
    · exact .inr ⟨(‹_ ∧ _›).1, List.mem_singleton.mp hw⟩
    · cases hw
  · exact .inl ⟨endUnix, group, List.mem_singleton.mp hw⟩

/-! ## What the scheduler and the administrators write -/

def IsReset : Event → Prop
  | .resetDue _ _ _ | .resetUser _ _ _ _ | .resetPlan _ _ _ => True
  | _ => False

def IsEnding : Event → Prop
  | .expire _ _ | .invalidate _ _ | .delete _ _ => True
  | _ => False

theorem resetAll_writes (hsubs : ∀ sub ∈ subs, sub ∈ s.subs) (hw : w ∈ resetAll loc plan now advance subs) :
    ∃ sub ∈ s.subs, ∃ last next, w = .saveSub .reset (afterReset sub (some .reset) last next) := by
  obtain ⟨sub, hsub, rfl⟩ := mem_resetAll hw
  obtain ⟨last, next, hrow⟩ := resetUserSubscription_spec loc sub plan now advance
  exact ⟨sub, hsubs sub hsub, last, next, by rw [hrow]⟩

theorem reset_writes {e : Event} (hw : w ∈ e.writes fuel loc s) (he : IsReset e) :
    ∃ sub ∈ s.subs, ∃ kind last next, (kind = .reset ∨ kind = .schedule) ∧
      w = .saveSub kind (afterReset sub (some kind) last next) := by
  cases e with
  | resetDue =>
    obtain ⟨writes, hr, hw⟩ := mem_committed hw
    rcases resetDueSubscription_spec hr with rfl | ⟨sub, _, _, hsub, hreset, rfl⟩
    · cases hw
    · obtain ⟨k, rfl, rfl⟩ := mem_saveOf.mp hw
      obtain ⟨last, next, rfl, hkind⟩ := maybeReset_spec hreset
      exact ⟨sub, mem_of_sub hsub, k, last, next, by simpa using hkind, rfl⟩
  | resetUser =>
    obtain ⟨writes, hr, hw⟩ := mem_committed hw
    obtain ⟨result, hr⟩ := map_eq_ok hr
    obtain ⟨plan, subs, -, rfl, hsubs⟩ := adminResetUser_spec hr
    obtain ⟨sub, hsub, last, next, rfl⟩ := resetAll_writes (fun sub hsub => (hsubs sub hsub).1) hw
    exact ⟨sub, hsub, .reset, last, next, .inl rfl, rfl⟩
  | resetPlan =>
    obtain ⟨_, hr, hw⟩ := mem_committed hw
    obtain ⟨_, hr⟩ := map_eq_ok hr
    obtain ⟨_, _, -, rfl, hsubs⟩ := adminResetPlan_spec hr
    obtain ⟨sub, hsub, last, next, rfl⟩ := resetAll_writes (fun sub hsub => (hsubs sub hsub).1) hw
    exact ⟨sub, hsub, .reset, last, next, .inl rfl, rfl⟩
  | _ => exact he.elim

inductive EndingWrite (s : Store) : Write → Prop
  | status {sub row : UserSubscription} (hsub : sub ∈ s.subs) (hid : row.id = sub.id)
      (htotal : row.amountTotal = sub.amountTotal) (hused : row.amountUsed = sub.amountUsed) :
      EndingWrite s (.saveSub .status row)
  | delete (id : Int) : EndingWrite s (.deleteSub id)
  | group (user : User) : EndingWrite s (.setGroup user)

theorem downgrade_writes {s' : Store}
    (h : downgradeUserGroupForSubscription s' sub now = .ok (target, writes)) (hw : w ∈ writes) : EndingWrite s w := by
  rcases downgrade_spec h with rfl | rfl
  · cases hw
  · rw [List.mem_singleton.mp hw]
    exact .group _

theorem ending_writes {e : Event} (hw : w ∈ e.writes fuel loc s) (he : IsEnding e) : EndingWrite s w := by
  cases e with
  | expire userId now =>
    obtain ⟨writes, hr, hw⟩ := mem_committed hw
    have hmarks : ∀ w ∈ markExpired s userId now, EndingWrite s w := by
      intro w hw
      obtain ⟨sub, hsub, -, -, rfl⟩ := mem_markExpired hw
      exact .status hsub rfl rfl rfl
    rcases expire_spec hr with rfl | ⟨_, _, -, -, -, -, rfl⟩
    · exact hmarks w hw
    rcases List.mem_append.mp hw with hw | hw
    · exact hmarks w hw
    · rw [List.mem_singleton.mp hw]
      exact .group _
  | invalidate =>
    obtain ⟨writes, hr, hw⟩ := mem_committed hw
    obtain ⟨target, hr⟩ := map_eq_ok hr
    obtain ⟨sub, rest, hsub, hdown, rfl⟩ := invalidate_spec hr
    rcases List.mem_cons.mp hw with rfl | hw
    · exact .status (mem_of_sub hsub) rfl rfl rfl
    · exact downgrade_writes hdown hw
  | delete id =>
    obtain ⟨_, hr, hw⟩ := mem_committed hw
    obtain ⟨_, hr⟩ := map_eq_ok hr
    obtain ⟨_, _, -, hdown, rfl⟩ := delete_spec hr
    rcases List.mem_append.mp hw with hw | hw
    · exact downgrade_writes hdown hw
    · rw [List.mem_singleton.mp hw]
      exact .delete id
  | _ => exact he.elim

end NewApi.Ledger



