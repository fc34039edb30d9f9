import Mathlib.Algebra.Order.Ring.Int
import NewApi.Budget

/-!
# Refunds that are tried again

A refund lowers the counter in a transaction of its own. An attempt that gets no further leaves the record as it was.
-/

namespace NewApi.Refund

open GoTime GoText Code Ledger Reset Budget

variable {s : Store} {requestId : String} {record : SubscriptionPreConsumeRecord} {sub : UserSubscription}
  {fails : Faults}

/-! ## Calls and attempts -/

/-- With the faults of its attempts, or one plain call. -/
inductive Call where
  | retried (attempts : Nat → Faults)
  | single (fails : Faults)

def call (requestId : String) (preConsumed : Int) (s : Store) : Call → Store
  | .retried attempts => (subscriptionRefund s requestId preConsumed attempts).2
  | .single fails => s.commit (refundSubscriptionPreConsume s requestId fails).2

def calls (requestId : String) (preConsumed : Int) (s : Store) (cs : List Call) : Store :=
  cs.foldl (call requestId preConsumed) s

def attemptsOf (cs : List Call) : List Faults :=
  cs.flatMap fun
    | .retried attempts => (List.range maxAttempts).map attempts
    | .single fails => [fails]

def attempts (requestId : String) (s : Store) (fs : List Faults) : Store :=
  fs.foldl (fun s fails => s.commit (refundSubscriptionPreConsume s requestId fails).2) s

def Stopped (fails : Faults) : Prop := fails .lockRecord = true ∨ fails .inner = true

def Leaks (fails : Faults) : Prop := fails .saveRecord = true ∨ fails .commit = true

instance : Decidable (Stopped fails) := inferInstanceAs (Decidable (_ ∨ _))

instance : Decidable (Leaks fails) := inferInstanceAs (Decidable (_ ∨ _))

/-- Those that stop there, and the first that goes on. -/
def deltas : List Faults → Nat
  | [] => 0
  | fails :: rest => if Stopped fails then deltas rest else if Leaks fails then deltas rest + 1 else 1

structure Charged (s : Store) (requestId : String) (record : SubscriptionPreConsumeRecord)
    (sub : UserSubscription) : Prop where
  named : trimSpace requestId ≠ ""
  recorded : s.record requestId = some record
  stored : s.sub record.userSubscriptionId = some sub
  id : 0 < record.userSubscriptionId
  preConsumed : 0 < record.preConsumed ∧ record.preConsumed < 2 ^ 63
  used : 0 ≤ sub.amountUsed ∧ sub.amountUsed < 2 ^ 63
  budget : 0 < sub.amountTotal → sub.amountUsed ≤ sub.amountTotal

/-! ## One attempt -/

def lowered (sub : UserSubscription) (amount : Int) : UserSubscription :=
  { sub with amountUsed := max (sub.amountUsed - amount) 0 }

section

variable (h : Charged s requestId record sub)
include h

theorem delta_eq : postConsumeUserSubscriptionDelta s record.userSubscriptionId (-record.preConsumed) =
      .ok [.saveSub .charge (lowered sub record.preConsumed)] := by
  have hid := h.id
  have hpre := h.preConsumed
  have hused := h.used
  have hwrap : wrap64 (sub.amountUsed + -record.preConsumed) = sub.amountUsed - record.preConsumed := by
    rw [wrap64_eq (by omega) (by omega)]
    omega
  unfold postConsumeUserSubscriptionDelta
  rw [if_neg (by omega), if_neg (by omega), h.stored]
  simp only [hwrap]
  rw [if_neg]
  · rfl
  · rintro ⟨hpos, hlt⟩
    have := h.budget hpos
    omega

theorem attempt_stopped (hst : record.status = .consumed) (hf : Stopped fails)
    : (refundSubscriptionPreConsume s requestId fails).2 = [] := by
  unfold refundSubscriptionPreConsume
  rw [if_neg h.named]
  split
  · rfl
  rename_i hlock
  have hpre := h.preConsumed
  rw [h.recorded]
  simp only [hst, reduceCtorEq, if_false]
  rw [if_neg (by omega), if_pos (hf.resolve_left hlock)]

theorem attempt_deltas (hst : record.status = .consumed) (hf : ¬ Stopped fails)
    : (refundSubscriptionPreConsume s requestId fails).2 =
      .saveSub .charge (lowered sub record.preConsumed) ::
        if Leaks fails then [] else [.saveRecord { record with status := .refunded }] := by
  have hpre := h.preConsumed
  unfold Stopped at hf
  rw [not_or] at hf
  unfold refundSubscriptionPreConsume
  rw [if_neg h.named, if_neg hf.1, h.recorded]
  simp only [hst, reduceCtorEq, if_false]
  rw [if_neg (by omega), if_neg hf.2, delta_eq h]
  show (finishRefund record fails [.saveSub .charge (lowered sub record.preConsumed)]).2 = _
  unfold finishRefund
  by_cases hleak : Leaks fails
  · have hfault : fails .saveRecord = true ∨ fails .commit = true := hleak
    rw [if_pos hfault, if_pos hleak]
  · have hfault : ¬ (fails .saveRecord = true ∨ fails .commit = true) := hleak
    rw [if_neg hfault, if_neg hleak]
    rfl

end

theorem attempt_refunded (h : s.record requestId = some record) (hst : record.status = .refunded) :
    (refundSubscriptionPreConsume s requestId fails).2 = [] := by
  unfold refundSubscriptionPreConsume
  split
  · rfl
  split
  · rfl
  · rw [h]
    simp only [hst, if_true]
    split <;> rfl

theorem attempts_refunded (h : s.record requestId = some record) (hst : record.status = .refunded)
    (fs : List Faults) : attempts requestId s fs = s := by
  induction fs with
  | nil => rfl
  | cons f fs ih =>
    unfold attempts at ih ⊢
    rw [List.foldl_cons, attempt_refunded h hst, commit_nil]
    exact ih

theorem Charged.lower (h : Charged s requestId record sub) :
    Charged (s.write (.saveSub .charge (lowered sub record.preConsumed))) requestId record
      (lowered sub record.preConsumed) := by
  have hpre := h.preConsumed
  have hused := h.used
  have hid : sub.id = record.userSubscriptionId := id_of_sub h.stored
  refine ⟨h.named, h.recorded, ?_, h.id, h.preConsumed, ?_, ?_⟩
  · rw [← hid]
    apply sub_saveSub_self
    show s.sub sub.id = some sub
    rw [hid]
    exact h.stored
  · simp only [lowered]
    omega
  intro hpos
  have := h.budget hpos
  simp only [lowered]
  omega

theorem record_refunded (h : s.record requestId = some record) :
    (s.write (.saveRecord { record with status := .refunded })).record requestId =
      some { record with status := .refunded } := by
  have hid := requestId_of_record h
  subst hid
  exact record_saveRecord { record with status := .refunded } h

/-! ## Any number of attempts -/

theorem attempts_spec (fs : List Faults) (h : Charged s requestId record sub) (hst : record.status = .consumed) :
    (attempts requestId s fs).sub record.userSubscriptionId = some (lowered sub (deltas fs * record.preConsumed)) := by
  induction fs generalizing s sub with
  | nil =>
    have hsame : lowered sub (deltas [] * record.preConsumed) = sub := by
      have := h.used.1
      simp only [lowered, deltas, Nat.cast_zero, zero_mul, sub_zero, max_eq_left this]
    rw [hsame]
    exact h.stored
  | cons f fs ih =>
    unfold attempts
    rw [List.foldl_cons]
    by_cases hstop : Stopped f
    · rw [attempt_stopped h hst hstop, commit_nil, deltas, if_pos hstop]
      exact ih h
    rw [attempt_deltas h hst hstop, commit_cons, deltas, if_neg hstop]
    by_cases hleak : Leaks f
    · -- The record is as before, so the next attempt starts from the lowered row.
      rw [if_pos hleak, commit_nil, if_pos hleak]
      have hrest := ih h.lower
      unfold attempts at hrest
      rw [hrest]
      have hmul : 0 ≤ (deltas fs : Int) * record.preConsumed :=
        mul_nonneg (Int.natCast_nonneg _) h.preConsumed.1.le
      simp only [lowered, Nat.cast_add, Nat.cast_one, add_mul, one_mul]
      congr 2
      omega
    · -- The record is refunded, and nothing happens any more.
      rw [if_neg hleak, if_neg hleak, commit_cons, commit_nil]
      have hdone := attempts_refunded (record_refunded h.lower.recorded) rfl fs
      unfold attempts at hdone
      rw [hdone]
      simp only [Nat.cast_one, one_mul]
      exact h.lower.stored

/-! ## Calls -/

theorem refund_ok (h : (refundSubscriptionPreConsume s requestId fails).1 = .ok ()) :
    ∃ record, (s.commit (refundSubscriptionPreConsume s requestId fails).2).record requestId = some record ∧
      record.status = .refunded := by
  unfold refundSubscriptionPreConsume at h ⊢
  split at h
  · cases h
  rename_i hid
  rw [if_neg hid]
  split at h
  · cases h
  rename_i hlock
  rw [if_neg hlock]
  split at h
  · cases h
  rename_i record hrecord
  split at h
  · rename_i hst
    rw [if_pos hst]
    split at h
    · cases h
    · rename_i hcommit
      rw [if_neg hcommit]
      exact ⟨record, hrecord, hst⟩
  · rename_i hst
    rw [if_neg hst]
    have hfinish : ∀ inner : List Write, (∀ w ∈ inner, KeepsRecords w) → (finishRefund record fails inner).1 = .ok () →
        (s.commit (finishRefund record fails inner).2).record requestId =
          some { record with status := .refunded } := by
      intro inner hinner hok
      unfold finishRefund at hok ⊢
      split at hok
      · cases hok
      rename_i hfault
      rw [if_neg hfault, commit_append]
      apply record_refunded
      rw [Store.record, commit_records hinner]
      exact hrecord
    split at h
    · rename_i hpre
      rw [if_pos hpre]
      exact ⟨_, hfinish [] (by simp) h, rfl⟩
    rename_i hpre
    rw [if_neg hpre]
    split at h
    · cases h
    rename_i hinner
    rw [if_neg hinner]
    split at h
    · cases h
    rename_i inner hdelta
    refine ⟨_, hfinish inner ?_ h, rfl⟩
    intro w hw
    rcases delta_spec hdelta with ⟨-, rfl⟩ | ⟨_, -, -, rfl⟩
    · cases hw
    · rw [List.mem_singleton.mp hw]
      trivial

theorem refundWithRetry_eq (lastErr : Except Error Unit) (fs : List Faults) :
    (refundWithRetry (fun s fails => refundSubscriptionPreConsume s requestId fails) lastErr s fs).2 =
      attempts requestId s fs := by
  induction fs generalizing s lastErr with
  | nil => rfl
  | cons f fs ih =>
    unfold refundWithRetry attempts
    rw [List.foldl_cons]
    split
    · rename_i writes hok
      have hwrites : (refundSubscriptionPreConsume s requestId f).2 = writes := by rw [hok]
      obtain ⟨_, hrecord, hst⟩ := refund_ok (by rw [hok] : (refundSubscriptionPreConsume s requestId f).1 = .ok ())
      rw [hwrites] at hrecord ⊢
      exact (attempts_refunded hrecord hst fs).symm
    · rename_i e writes herr
      have hwrites : (refundSubscriptionPreConsume s requestId f).2 = writes := by rw [herr]
      rw [hwrites]
      exact ih _

theorem calls_eq (preConsumed : Int) (hpre : 0 < preConsumed) (cs : List Call) :
    calls requestId preConsumed s cs = attempts requestId s (attemptsOf cs) := by
  induction cs generalizing s with
  | nil => rfl
  | cons c cs ih =>
    unfold calls at ih ⊢
    unfold attempts attemptsOf at ih ⊢
    rw [List.foldl_cons, ih, List.flatMap_cons, List.foldl_append]
    congr 1
    cases c with
    | retried =>
      simp only [call, subscriptionRefund]
      rw [if_neg (by omega), refundWithRetry_eq]
      rfl
    | single => simp only [call, List.foldl_cons, List.foldl_nil]

theorem refund_at_most_once_iff (s : Store) (requestId : String) (record : SubscriptionPreConsumeRecord)
    (sub : UserSubscription) (cs : List Call) (h : Charged s requestId record sub) :
    (∃ after, (calls requestId record.preConsumed s cs).sub record.userSubscriptionId = some after ∧
      sub.amountUsed - after.amountUsed ≤ record.preConsumed) ↔
    (record.status = .refunded ∨ deltas (attemptsOf cs) ≤ 1 ∨ sub.amountUsed ≤ record.preConsumed) := by
  have hpre := h.preConsumed.1
  have hused := h.used.1
  rw [calls_eq record.preConsumed hpre]
  by_cases hst : record.status = .refunded
  · rw [attempts_refunded h.recorded hst]
    refine iff_of_true ⟨sub, h.stored, by omega⟩ (.inl hst)
  rw [attempts_spec _ h (consumed_of_ne hst)]
  simp only [Option.some.injEq, exists_eq_left', hst, false_or]
  generalize deltas (attemptsOf cs) = k
  simp only [lowered]
  constructor
  · intro hle
    by_contra hnot
    rw [not_or, Nat.not_le] at hnot
    -- From the second delta on, twice the amount or all that is left is gone.
    have htwice : 2 * record.preConsumed ≤ (k : Int) * record.preConsumed :=
      mul_le_mul_of_nonneg_right (by omega) hpre.le
    omega
  · rintro (hone | hsmall)
    · have hmul : (k : Int) * record.preConsumed ≤ 1 * record.preConsumed :=
        mul_le_mul_of_nonneg_right (by omega) hpre.le
      omega
    · omega

def sampleRecord : SubscriptionPreConsumeRecord := ⟨"r", 1, 1, 100, .consumed⟩

def chargedStore : Store := { sampleStore with records := [sampleRecord] }

theorem chargedStore_charged : Charged chargedStore "r" sampleRecord (sampleSub 1700000000) :=
  ⟨by decide, by decide, by decide, by decide, by decide, by decide, by decide⟩

def commitFailsOnce : Nat → Faults := fun attempt step => attempt = 0 ∧ step = .commit

/-- One failed commit, and the retry takes the 100 off a second time. -/
theorem refund_lowers_twice :
    Charged chargedStore "r" sampleRecord (sampleSub 1700000000) ∧
    (calls "r" 100 chargedStore [.retried commitFailsOnce]).sub 1 =
      some { sampleSub 1700000000 with amountUsed := 100 } ∧
    ¬ (300 - 100 : Int) ≤ sampleRecord.preConsumed :=
  ⟨chargedStore_charged, by decide, by decide⟩

theorem refund_once_without_faults :
    ∃ after, (calls "r" 100 chargedStore [.retried fun _ _ => false, .single fun _ => false]).sub 1 = some after ∧
      (sampleSub 1700000000).amountUsed - after.amountUsed ≤ 100 :=
  (refund_at_most_once_iff chargedStore "r" sampleRecord (sampleSub 1700000000)
    [.retried fun _ _ => false, .single fun _ => false] chargedStore_charged).mpr (.inr (.inl (by decide)))

end NewApi.Refund

