import NewApi.Tasks.System

/-!
# A task is billed once

The guard of an update is the status of the copy, so one copy at most takes a task to a terminal status.
-/

namespace NewApi.Tasks

open Table Code.Tasks Run

def State.winsOf (s : State) (id : Int) : List TaskStatus := (s.wins.filter fun w => w.1 = id).map Prod.snd

def State.billsOf (s : State) (id : Int) : List Bill := s.bills.filter fun b => b.task.id = id

def State.settlementsOf (s : State) (id : Int) : List Settlement := s.settlements.filter fun x => x.id = id

/-- No copy that is done is looked at again, and no unguarded update names the task. -/
def Once (id : Int) (s : State) : Event → Prop
  | .work w _ _ => ∀ copy ∈ s.target w, copy.2.id = id → copy.2.status.isDone = false
  | .nullTasks pass fails => fails = false → ∀ p ∈ s.passes[pass]?, id ∉ p.nullTaskIds
  | .missingChannel pass channelId fails => fails = false → ∀ p ∈ s.passes[pass]?, id ∉ s.failedIDs p channelId
  | _ => True

instance (id : Int) (s : State) (e : Event) : Decidable (Once id s e) := by
  cases e <;> unfold Once <;> infer_instance

/-- Moved once, billed at most once, and paid back at most its charge. -/
def Finalised (id charge : Int) (s : State) : Prop :=
  ∃ row, s.db.find id = some row ∧
    (row.status.isDone = false →
      row.quota = charge ∧ s.winsOf id = [] ∧ s.billsOf id = [] ∧ s.settlementsOf id = []) ∧
    (row.status.isDone = true →
      s.winsOf id = [row.status] ∧ (s.billsOf id).length + (s.settlementsOf id).length ≤ 1 ∧
      ∀ x ∈ s.settlementsOf id, -x.delta ≤ charge)

structure Inv (id charge : Int) (s : State) : Prop where
  copies : ∀ (i : Nat) (task : Task), s.heap[i]? = some task → task.id = id → task.status.isDone = false →
    task.quota = charge
  addressed : ∀ b ∈ s.bills, ∃ task, s.heap[b.address]? = some task ∧ task.id = b.task.id ∧
    (b.task.id = id → b.task.quota = charge ∧ task.status.isDone = true)
  writeBacks : ∀ q ∈ s.writeBacks, q.1 = id → s.settlementsOf id ≠ []
  finalised : Finalised id charge s

inductive Effect (settings : TaskSettings) (s : State) : Event → State → Prop where
  | read (e : Event) (tasks : List Task) (passes : List Pass) (timedOut : List Nat)
      (hread : ∀ task ∈ tasks, task ∈ s.db.rows ∧ task.status.isDone = false) :
      Effect settings s e { s with heap := s.heap ++ tasks, passes, timedOut }
  | bulk (e : Event) (ids : List Int) (failReason : Option String) (fails : Bool) (passes : List Pass)
      (hids : ∀ id, Once id s e → fails = false → id ∉ ids) :
      Effect settings s e { s with db := s.db.taskBulkUpdateByID ids failReason fails, passes }
  | work (w : Work) (now : Int) (fails : Bool) (address : Nat) (task : Task)
      (htarget : s.target w = some (address, task)) :
      Effect settings s (.work w now fails) ((s.drop w).attempt address (w.attempt settings now task) fails)
  | bill (k : Nat) (usage : Usage) (fails : Bool) (b : Bill) (hb : s.bills[k]? = some b) :
      Effect settings s (.bill k usage fails) ({ s with bills := s.bills.eraseIdx k }.settle b (b.charge usage) fails)
  | writeBack (k : Nat) (fails : Bool) (q : Int × Int) (hq : s.writeBacks[k]? = some q) :
      Effect settings s (.writeBack k fails)
        { s with db := s.db.updateQuota q.1 q.2 fails, writeBacks := s.writeBacks.eraseIdx k }

section Steps

variable {settings : TaskSettings} {id charge : Int} {s t : State}

variable {e : Event} {row : Task} {k : Nat} {b : Bill}

theorem effect_of_step (hstep : step settings s e = some t) : Effect settings s e t := by
  have hnothing : ∀ passes, Effect settings s e { s with passes } := by
    intro passes
    have hread : Effect settings s e _ := .read e [] passes s.timedOut fun _ htask => nomatch htask
    rwa [List.append_nil] at hread
  cases e with
  | query =>
    cases hstep
    refine .read _ _ _ _ ?_
    intro task htask
    obtain ⟨hrow, hunfinished⟩ := mem_of_unfinishedTasks (List.mem_of_mem_filter htask)
    exact ⟨hrow, isDone_of_unfinished hunfinished⟩
  | observe =>
    simp only [step] at hstep
    split at hstep
    · cases hstep
    rename_i task hfind
    split at hstep
    · cases hstep
    rename_i hopen
    cases hstep
    refine .read _ _ _ _ ?_
    intro x hx
    rw [List.mem_singleton.mp hx]
    exact ⟨mem_of_lookup hfind, Bool.eq_false_iff.mpr hopen⟩
  | wait =>
    simp only [step] at hstep
    split at hstep
    · cases hstep
    · split at hstep <;> cases hstep
      exact hnothing _
  | timedOut =>
    simp only [step] at hstep
    split at hstep
    · cases hstep
      exact hnothing s.passes
    cases hstep
    refine .read _ _ _ _ ?_
    intro task htask
    obtain ⟨hrow, hunfinished, -⟩ := mem_of_timedOutTasks htask
    exact ⟨hrow, isDone_of_unfinished hunfinished⟩
  | nullTasks | missingChannel =>
    obtain ⟨p, hp, rfl⟩ := Option.map_eq_some_iff.mp hstep
    exact .bulk _ _ _ _ _ fun id honce hfails => honce hfails p hp
  | work w now fails =>
    obtain ⟨⟨address, task⟩, htarget, rfl⟩ := Option.map_eq_some_iff.mp hstep
    exact .work w now fails address task htarget
  | bill k usage fails =>
    obtain ⟨b, hb, rfl⟩ := Option.map_eq_some_iff.mp hstep
    exact .bill k usage fails b hb
  | writeBack k fails =>
    obtain ⟨q, hq, rfl⟩ := Option.map_eq_some_iff.mp hstep
    exact .writeBack k fails q hq

theorem find_bulk_other (db : TaskTable) {ids : List Int} (failReason : Option String) {fails : Bool}
    (hnot : fails = false → id ∉ ids) : (db.taskBulkUpdateByID ids failReason fails).find id = db.find id := by
  rw [find_taskBulkUpdateByID, if_neg fun hboth => hnot hboth.1 hboth.2]

/-! ## Reading -/

theorem inv_read (h : Inv id charge s) (tasks : List Task) (passes : List Pass) (timedOut : List Nat)
    (hread : ∀ task ∈ tasks, task ∈ s.db.rows ∧ task.status.isDone = false) :
    Inv id charge { s with heap := s.heap ++ tasks, passes, timedOut } := by
  refine ⟨?_, ?_, h.writeBacks, h.finalised⟩
  · intro i task hi hid hopen
    rcases List.mem_append.mp (List.mem_of_getElem? hi) with hold | hnew
    · obtain ⟨j, hj⟩ := List.getElem?_of_mem hold
      exact h.copies j task hj hid hopen
    obtain ⟨row, hrow, hcharge, -⟩ := h.finalised
    obtain rfl : task = row := by
      have hfind := find_of_mem (hread task hnew).1
      rw [hid, hrow] at hfind
      exact (Option.some.inj hfind).symm
    exact (hcharge hopen).1
  · intro b hb
    obtain ⟨task, htask, hrest⟩ := h.addressed b hb
    refine ⟨task, ?_, hrest⟩
    exact (List.getElem?_append_left (List.getElem?_eq_some_iff.mp htask).1).trans htask

/-! ## Updates without a guard -/

theorem inv_bulk (h : Inv id charge s) (passes : List Pass) (ids : List Int) (failReason : Option String)
    (fails : Bool) (hnot : fails = false → id ∉ ids) :
    Inv id charge { s with db := s.db.taskBulkUpdateByID ids failReason fails, passes } := by
  refine ⟨h.copies, h.addressed, h.writeBacks, ?_⟩
  obtain ⟨row, hrow, hrest⟩ := h.finalised
  exact ⟨row, (find_bulk_other s.db failReason hnot).trans hrow, hrest⟩

/-! ## Attempts -/

variable {address : Nat} {task : Task} {a : Attempt} {fails : Bool}

theorem getElem?_set_of_some {heap : List Task} (haddress : heap[address]? = some task) (x : Task) (i : Nat) :
    (heap.set address x)[i]? = if address = i then some x else heap[i]? := by
  rw [List.getElem?_set]
  split
  · rw [if_pos (List.getElem?_eq_some_iff.mp haddress).1]
  · rfl

theorem attempt_copies (h : Inv id charge s) (haddress : s.heap[address]? = some task)
    (hcharge : a.task.id = id → a.task.status.isDone = false → a.task.quota = charge) (i : Nat) (x : Task)
    (hi : (s.attempt address a fails).heap[i]? = some x) (hx : x.id = id) (hopen : x.status.isDone = false) :
    x.quota = charge := by
  unfold State.attempt at hi
  rw [getElem?_set_of_some haddress] at hi
  split at hi
  · cases hi
    exact hcharge hx hopen
  · exact h.copies i x hi hx hopen

theorem attempt_addressed (h : Inv id charge s) (haddress : s.heap[address]? = some task)
    (hkeep : a.task.id = task.id) (hopen : task.id = id → task.status.isDone = false)
    (hnew : a.after ≠ .nothing → a.task.id = id → a.task.quota = charge ∧ a.task.status.isDone = true) :
    ∀ b ∈ (s.attempt address a fails).bills, ∃ x, (s.attempt address a fails).heap[b.address]? = some x ∧
      x.id = b.task.id ∧ (b.task.id = id → b.task.quota = charge ∧ x.status.isDone = true) := by
  have hold : ∀ b ∈ s.bills, ∃ x, (s.heap.set address a.task)[b.address]? = some x ∧ x.id = b.task.id ∧
      (b.task.id = id → b.task.quota = charge ∧ x.status.isDone = true) := by
    intro b hb
    obtain ⟨x, hx, hxid, hdone⟩ := h.addressed b hb
    rw [getElem?_set_of_some haddress]
    split
    · -- The copy of a bill of the task is done, and this one is not.
      rename_i heq
      subst heq
      cases haddress.symm.trans hx
      refine ⟨a.task, rfl, hkeep.trans hxid, ?_⟩
      intro hid
      have hfalse := hopen (hxid.trans hid)
      rw [(hdone hid).2] at hfalse
      cases hfalse
    · exact ⟨x, hx, hxid, hdone⟩
  intro b hb
  unfold State.attempt at hb ⊢
  dsimp only at hb ⊢
  split at hb
  · exact hold b hb
  rename_i hbill
  rcases List.mem_append.mp hb with hb | hb
  · exact hold b hb
  · rw [List.mem_singleton.mp hb]
    refine ⟨a.task, ?_, rfl, hnew fun hnothing => hbill (.inl hnothing)⟩
    rw [getElem?_set_of_some haddress, if_pos rfl]

theorem attempt_bills_other (hother : a.task.id ≠ id) : (s.attempt address a fails).billsOf id = s.billsOf id := by
  simp only [State.billsOf, State.attempt]
  split
  · rfl
  · simp [hother]

theorem attempt_find_other (hother : a.task.id ≠ id) : (s.attempt address a fails).db.find id = s.db.find id := by
  simp only [State.attempt]
  rcases update_spec s a fails with hlost | ⟨_, -, -, hwon⟩
  · rw [hlost]
  · rw [hwon, find_save, if_neg hother]

theorem attempt_other (hother : a.task.id ≠ id) (h : Finalised id charge s) :
    Finalised id charge (s.attempt address a fails) := by
  have hwins : (s.attempt address a fails).winsOf id = s.winsOf id := by
    simp only [State.winsOf, State.attempt]
    split
    · simp [hother]
    · rfl
  unfold Finalised
  rw [hwins, attempt_bills_other hother, attempt_find_other hother]
  exact h

theorem attempt_lost (hguard : Guarded task a) (hlost : s.update a fails = (false, s.db)) :
    s.attempt address a fails = { s with heap := s.heap.set address a.task } := by
  have hbill : a.after = .nothing ∨ a.needsWin = true := by
    by_cases hnothing : a.after = .nothing
    · exact .inl hnothing
    · exact .inr (hguard.after hnothing).2
  simp [State.attempt, hlost, hbill]

theorem attempt_won (hguard : Guarded task a) (hid : a.task.id = id) (hopen : task.status.isDone = false)
    (hcharge : a.task.status.isDone = false → a.task.quota = charge) (hwrite : a.write = some row.status)
    (hrow : s.db.find a.task.id = some row) (hwon : s.update a fails = (true, s.db.save a.task))
    (h : Finalised id charge s) : Finalised id charge (s.attempt address a fails) := by
  have hstatus : row.status.isDone = false := by
    rcases hguard.write with hsome | ⟨hnone, -⟩
    · rw [hwrite] at hsome
      rw [Option.some.inj hsome]
      exact hopen
    · rw [hwrite] at hnone
      cases hnone
  subst hid
  obtain ⟨_, hrow', hbefore, -⟩ := h
  cases hrow.symm.trans hrow'
  obtain ⟨-, hwins, hbills, hsettlements⟩ := hbefore hstatus
  refine ⟨a.task, ?_, ?_, ?_⟩
  · simp only [State.attempt]
    rw [hwon, find_save, if_pos rfl, hrow]
    rfl
  · intro hdone
    have hnothing : a.after = .nothing := by
      by_contra hafter
      have := (hguard.after hafter).1
      rw [hdone] at this
      cases this
    refine ⟨hcharge hdone, ?_, ?_, hsettlements⟩
    · simp only [State.winsOf, State.attempt]
      rw [if_neg (by rw [hdone]; exact fun hboth => Bool.false_ne_true hboth.2)]
      exact hwins
    · simp only [State.billsOf, State.attempt]
      rw [if_pos (.inl hnothing)]
      exact hbills
  · intro hdone
    refine ⟨?_, ?_, ?_⟩
    · simp only [State.winsOf, State.attempt] at hwins ⊢
      rw [hwon, if_pos ⟨rfl, hdone⟩, List.filter_append, List.map_append, hwins]
      simp
    · have hcount : ((s.attempt address a fails).billsOf a.task.id).length ≤ 1 := by
        simp only [State.billsOf, State.attempt] at hbills ⊢
        split
        · rw [hbills]
          exact Nat.zero_le _
        · rw [List.filter_append, hbills]
          simp
      have hnone : ((s.attempt address a fails).settlementsOf a.task.id) = [] := hsettlements
      rw [hnone]
      simpa using hcount
    · intro x hx
      have hnone : ((s.attempt address a fails).settlementsOf a.task.id) = [] := hsettlements
      rw [hnone] at hx
      cases hx

theorem inv_attempt (h : Inv id charge s) (haddress : s.heap[address]? = some task) (hkeep : a.task.id = task.id)
    (hopen : task.id = id → task.status.isDone = false) (hguard : task.id = id → Guarded task a) :
    Inv id charge (s.attempt address a fails) := by
  have hquota : a.task.id = id → a.after ≠ .nothing ∨ a.task.status.isDone = false → a.task.quota = charge := by
    intro hid hcase
    have htask := hkeep.symm.trans hid
    rw [← h.copies address task haddress htask (hopen htask)]
    rcases (hguard htask).quota with hsame | ⟨hdone, hnothing⟩
    · exact hsame
    rcases hcase with hafter | hfalse
    · exact absurd hnothing hafter
    · rw [hdone] at hfalse
      cases hfalse
  refine ⟨?_, ?_, h.writeBacks, ?_⟩
  · exact attempt_copies h haddress fun hid hfalse => hquota hid (.inr hfalse)
  · refine attempt_addressed h haddress hkeep hopen ?_
    intro hafter hid
    exact ⟨hquota hid (.inl hafter), ((hguard (hkeep.symm.trans hid)).after hafter).1⟩
  by_cases hid : a.task.id = id
  · have htask := hkeep.symm.trans hid
    rcases update_spec s a fails with hlost | ⟨_, hwrite, hrow, hwon⟩
    · rw [attempt_lost (hguard htask) hlost]
      exact h.finalised
    · exact attempt_won (hguard htask) hid (hopen htask) (fun hfalse => hquota hid (.inr hfalse)) hwrite hrow hwon
        h.finalised
  · exact attempt_other hid h.finalised

/-! ## Billing -/

theorem apply_spec {quota delta : Int} {after : Option Int} {c : Charge}
    (h : c.apply quota fails = some (delta, after)) :
    c = .refund ∧ delta = -quota ∨ ∃ actual, c = .recalculate actual ∧ 0 ≤ actual ∧ delta = actual - quota := by
  unfold Charge.apply at h
  split at h
  · cases h
  · split at h
    · cases h
    · cases h
      exact .inl ⟨rfl, rfl⟩
  · rename_i actual
    split at h
    · cases h
    refine .inr ⟨actual, rfl, by omega, ?_⟩
    split at h
    · cases h
      omega
    split at h
    · cases h
    · cases h
      rfl

theorem billsOf_erase (id : Int) (hb : s.bills[k]? = some b) :
    ((s.bills.eraseIdx k).filter fun x => x.task.id = id).length + (if b.task.id = id then 1 else 0) =
      (s.billsOf id).length := by
  obtain ⟨hk, rfl⟩ := List.getElem?_eq_some_iff.mp hb
  have hperm := ((List.getElem_cons_eraseIdx_perm hk).filter fun x => decide (x.task.id = id)).length_eq
  rw [List.filter_cons] at hperm
  unfold State.billsOf
  rw [← hperm]
  by_cases hid : (s.bills[k]).task.id = id <;> simp [hid]

theorem billsOf_erase_other (hb : s.bills[k]? = some b) (hid : b.task.id ≠ id) :
    ((s.bills.eraseIdx k).filter fun x => x.task.id = id) = s.billsOf id := by
  obtain ⟨hk, rfl⟩ := List.getElem?_eq_some_iff.mp hb
  unfold State.billsOf
  have hsplit : s.bills = s.bills.take k ++ s.bills[k] :: s.bills.drop (k + 1) := by
    rw [List.cons_getElem_drop_succ, List.take_append_drop]
  conv_rhs => rw [hsplit]
  rw [List.eraseIdx_eq_take_drop_succ, List.filter_append, List.filter_append, List.filter_cons]
  simp [hid]

theorem bill_finalised {settlements : List Settlement} (h : Inv id charge s) (hb : s.bills[k]? = some b)
    (hsettled : settlements = s.settlements ∨
      ∃ x, settlements = s.settlements ++ [x] ∧ x.id = b.task.id ∧ -x.delta ≤ b.task.quota)
    (heap : List Task) (writeBacks : List (Int × Int)) :
    Finalised id charge { s with bills := s.bills.eraseIdx k, settlements, heap, writeBacks } := by
  have hcount := billsOf_erase id hb
  obtain ⟨row, hrow, hopen, hdone⟩ := h.finalised
  refine ⟨row, hrow, ?_, ?_⟩
  · intro hfalse
    obtain ⟨hquota, hwins, hbills, hnone⟩ := hopen hfalse
    -- There is no bill of a task that is not done, so this one is another's.
    rw [hbills, List.length_nil] at hcount
    have hid : b.task.id ≠ id := by
      intro hid
      rw [if_pos hid] at hcount
      omega
    refine ⟨hquota, hwins, ?_, ?_⟩
    · rw [if_neg hid] at hcount
      exact List.length_eq_zero_iff.mp hcount
    rcases hsettled with rfl | ⟨x, rfl, hx, -⟩
    · exact hnone
    · simp only [State.settlementsOf] at hnone ⊢
      rw [List.filter_append, hnone]
      simp [hx, hid]
  · intro htrue
    obtain ⟨hwins, hle, hdeltas⟩ := hdone htrue
    refine ⟨hwins, ?_⟩
    rcases hsettled with rfl | ⟨x, rfl, hx, hdelta⟩
    · refine ⟨?_, hdeltas⟩
      simp only [State.billsOf, State.settlementsOf] at hcount hle ⊢
      omega
    simp only [State.billsOf, State.settlementsOf] at hcount hle hdeltas ⊢
    rw [List.filter_append, List.length_append]
    by_cases hid : b.task.id = id
    · obtain ⟨_, -, -, hpaid⟩ := h.addressed b (List.mem_of_getElem? hb)
      rw [if_pos hid] at hcount
      refine ⟨?_, ?_⟩
      · have hone : ([x].filter fun y => decide (y.id = id)).length ≤ 1 := List.length_filter_le _ _
        omega
      intro y hy
      rcases List.mem_append.mp hy with hold | hnew
      · exact hdeltas y hold
      · rw [List.mem_singleton.mp (List.mem_of_mem_filter hnew)]
        rw [(hpaid hid).1] at hdelta
        exact hdelta
    · have hother : ([x].filter fun y => decide (y.id = id)) = [] := by simp [hx, hid]
      rw [if_neg hid] at hcount
      rw [hother]
      refine ⟨?_, ?_⟩
      · rw [List.length_nil]
        omega
      · intro y hy
        rw [List.append_nil] at hy
        exact hdeltas y hy

theorem inv_bill {usage : Usage} (h : Inv id charge s) (hb : s.bills[k]? = some b) :
    Inv id charge ({ s with bills := s.bills.eraseIdx k }.settle b (b.charge usage) fails) := by
  unfold State.settle
  split
  · refine ⟨h.copies, ?_, h.writeBacks, bill_finalised h hb (.inl rfl) s.heap s.writeBacks⟩
    intro x hx
    exact h.addressed x (List.mem_of_mem_eraseIdx hx)
  rename_i delta quota happly
  have hdelta : -delta ≤ b.task.quota := by
    rcases apply_spec happly with ⟨-, rfl⟩ | ⟨_, -, hactual, rfl⟩ <;> omega
  obtain ⟨copy, hcopy, hcopyid, hcopydone⟩ := h.addressed b (List.mem_of_getElem? hb)
  refine ⟨?_, ?_, ?_, bill_finalised h hb (.inr ⟨_, rfl, rfl, hdelta⟩) _ _⟩
  · intro i task hi hid hopen
    rw [getElem?_settled] at hi
    obtain ⟨old, hold, rfl⟩ := Option.map_eq_some_iff.mp hi
    split at hid
    · -- The copy that is billed is done.
      rename_i heq
      subst heq
      cases hcopy.symm.trans hold
      rw [if_pos rfl] at hopen
      have := (hcopydone (hcopyid.symm.trans hid)).2
      rw [this] at hopen
      cases hopen
    · rename_i hne
      rw [if_neg hne] at hopen ⊢
      exact h.copies i old hold hid hopen
  · intro x hx
    obtain ⟨_, htask, htaskid, hdone⟩ := h.addressed x (List.mem_of_mem_eraseIdx hx)
    rw [getElem?_settled, htask]
    refine ⟨_, rfl, ?_, ?_⟩
    · split <;> exact htaskid
    · intro hid
      refine ⟨(hdone hid).1, ?_⟩
      split <;> exact (hdone hid).2
  · intro q hq hid
    simp only [State.settlementsOf]
    rw [List.filter_append]
    intro hnil
    obtain ⟨hold, hnew⟩ := List.append_eq_nil_iff.mp hnil
    have hwrite : q ∈ s.writeBacks ∨ q.1 = b.task.id := by
      cases quota with
      | none => exact .inl hq
      | some =>
        rcases List.mem_append.mp hq with hq | hq
        · exact .inl hq
        · rw [List.mem_singleton.mp hq]
          exact .inr rfl
    rcases hwrite with hq | hq
    · exact h.writeBacks q hq hid hold
    · simp [hq.symm.trans hid] at hnew

theorem inv_writeBack {q : Int × Int} (h : Inv id charge s) (hq : s.writeBacks[k]? = some q) :
    Inv id charge { s with db := s.db.updateQuota q.1 q.2 fails, writeBacks := s.writeBacks.eraseIdx k } := by
  refine ⟨h.copies, h.addressed, fun x hx => h.writeBacks x (List.mem_of_mem_eraseIdx hx), ?_⟩
  obtain ⟨_, hrow, hopen, hdone⟩ := h.finalised
  obtain ⟨after, hafter, hstatus, -, hsame⟩ := find_updateQuota s.db q.1 q.2 fails hrow
  refine ⟨after, hafter, ?_, ?_⟩
  · rw [hstatus]
    intro hfalse
    obtain ⟨hquota, hwins, hbills, hnone⟩ := hopen hfalse
    have hne : q.1 ≠ id := fun hid => h.writeBacks q (List.mem_of_getElem? hq) hid hnone
    rw [hsame hne]
    exact ⟨hquota, hwins, hbills, hnone⟩
  · rw [hstatus]
    exact hdone

/-! ## Runs -/

theorem inv_step (hok : Once id s e) (h : Inv id charge s) (hstep : step settings s e = some t) : Inv id charge t := by
  cases effect_of_step hstep with
  | read _ tasks passes timedOut hread => exact inv_read h tasks passes timedOut hread
  | bulk _ ids failReason fails passes hids => exact inv_bulk h passes ids failReason fails (hids id hok)
  | work w now fails address task htarget =>
    have hdrop : Inv id charge (s.drop w) ∧ (s.drop w).heap = s.heap := by
      cases w <;> exact ⟨⟨h.copies, h.addressed, h.writeBacks, h.finalised⟩, rfl⟩
    refine inv_attempt hdrop.1 (hdrop.2 ▸ heap_of_target htarget) (attempt_id settings now task w)
      (hok (address, task) htarget) ?_
    intro hid
    exact attempt_guarded w (hok (address, task) htarget hid)
  | bill k usage fails b hb => exact inv_bill h hb
  | writeBack k fails q hq => exact inv_writeBack h hq

theorem inv_start {db : TaskTable} (hrow : db.find row.id = some row) (hopen : row.status.isDone = false) :
    Inv row.id row.quota (State.start db) := by
  refine ⟨?_, ?_, ?_, row, hrow, fun _ => ⟨rfl, rfl, rfl, rfl⟩, ?_⟩
  · intro i task hi
    cases hi
  · rintro b ⟨⟩
  · rintro q ⟨⟩
  · intro hdone
    rw [hopen] at hdone
    cases hdone

/-- Copies still looked at have another status as their guard. -/
theorem status_kept (hok : Once id s e) (hrow : s.db.find id = some row)
    (hdone : row.status.isDone = true) (hstep : step settings s e = some t) :
    ∃ after, t.db.find id = some after ∧ after.status = row.status := by
  cases effect_of_step hstep with
  | read => exact ⟨row, hrow, rfl⟩
  | bulk _ ids failReason fails passes hids =>
    exact ⟨row, (find_bulk_other s.db failReason (hids id hok)).trans hrow, rfl⟩
  | work w now fails address task htarget =>
    have hdrop : (s.drop w).db = s.db := by
      cases w <;> rfl
    refine ⟨row, ?_, rfl⟩
    simp only [State.attempt]
    rcases update_spec (s.drop w) (w.attempt settings now task) fails with hlost | ⟨_, hwrite, hother, hwon⟩
    · rw [hlost, hdrop]
      exact hrow
    rw [hdrop] at hother
    rw [hwon, find_save]
    split
    · -- The update would have been won against a status that is not done.
      rename_i hid
      have htask := (attempt_id settings now task w).symm.trans hid
      have hopen := hok (address, task) htarget htask
      rw [hid, hrow] at hother
      cases hother
      rcases (attempt_guarded w hopen).write with hsome | ⟨hnone, -⟩
      · rw [hwrite] at hsome
        rw [← Option.some.inj hsome, hdone] at hopen
        cases hopen
      · rw [hwrite] at hnone
        cases hnone
    · rw [hdrop]
      exact hrow
  | bill =>
    refine ⟨row, ?_, rfl⟩
    unfold State.settle
    split <;> exact hrow
  | writeBack k fails q =>
    obtain ⟨after, hafter, hstatus, -⟩ := find_updateQuota s.db q.1 q.2 fails hrow
    exact ⟨after, hafter, hstatus⟩

end Steps

def sampleSettings : TaskSettings := ⟨1000, 1440, 20, "https://api.example"⟩

def sampleTask (id : Int) (taskID : String) : Task :=
  ⟨id, taskID, "sora", 7, 100, .inProgress, "", 1780000000, 0, 0, "30%", ⟨"up-1", "", none, "", 0⟩, ""⟩

def oneTask : TaskTable := ⟨[sampleTask 1 "task_a"], by decide⟩

def twoTasks : TaskTable := ⟨[sampleTask 1 "task_a", sampleTask 2 "task_b"], by decide⟩

def failed : Answer := .response 200 "body" (.adaptor (failTaskInfo "content policy"))

def noUsage : Usage := ⟨none, 0, fun _ => none⟩

end NewApi.Tasks
